import OxideSfu.SessionOutcomes
import OxideSfu.StepRuns

/-!
# Revoked rights

The rights of a participant stand in its permission in the room store and in the permission stores
that are asked. A reconnect writes only the stores, and a join whose response cannot be sent writes
only the room store; as long as neither happens with other rights, the two agree.
-/

namespace OxideSfu.Signaling

open Rooms RoomStore SessionState PermissionStores StepRuns Option

structure BasicRights where
  (publishMedia publishData subscribe : Bool)
  deriving DecidableEq

def Rights.basic (rights : Rights) : BasicRights :=
  ⟨rights.publishMedia,rights.publishData,rights.subscribe⟩

def enforcedRights (permissions : PermissionStores) (key : ParticipantKey) : BasicRights where
  publishMedia := permissions.publish.canPublishMedia key
  publishData := permissions.publish.canPublishData key
  subscribe := permissions.subscribe.canSubscribe key

variable {ps permissions' : PermissionStores} {key : ParticipantKey}

theorem enforcedRights_grant (ps : PermissionStores) (key : ParticipantKey)
    (rights : Rights) : enforcedRights (ps.grant key rights) key=rights.basic := by
  rw [enforcedRights,canPublishMedia_grant,canPublishData_grant,canSubscribe_grant,
    if_pos rfl,if_pos rfl,if_pos rfl,Rights.basic]

theorem enforcedRights_of_sameRights (h : SameRights key ps permissions') :
    enforcedRights permissions' key=enforcedRights ps key := by
  rw [enforcedRights,h.media,h.data,h.subscribe,enforcedRights]

def Enforces (permissions : PermissionStores) (key : ParticipantKey)
    (participant : ParticipantInfo) : Prop :=
  ∃permission,participant.permission=some permission ∧
    enforcedRights permissions key=(permissionRights permission).basic

/-- For every participant, the stores enforce its permission in the room store. -/
def RightsAgree (s : SessionState) : Prop :=
  ∀key participant,participantOf s key=some participant →
    Enforces s.permissions key participant

/-- A fresh join is answered, and a reconnect brings a token with the rights that the participant
has at that time. -/
def BringsRights (s : SessionState) : SessionEvent→Prop
  | .join auth request delivered _ =>
    if request.reconnect then
      delivered → Resumes s auth request →
        ((participantOf s auth.key).bind (·.permission)).map
          (fun permission => (permissionRights permission).basic) =
            some auth.claims.video.rights.basic
    else delivered
  | _ => True

def SessionEvent.isLocal : SessionEvent→Bool
  | .relayJoin _ _ => false | .relayConnect _ => false | .relayTerminate _ _ _ => false | _ => true

variable {s : SessionState} {event : SessionEvent} {shown : ParticipantInfo→Prop}
  {left : Option ParticipantInfo} {p : ParticipantInfo}

theorem enforces_grantPermission (ps : PermissionStores) {pm : ParticipantPermission}
    (h : p.permission=some pm) :
    Enforces (grantPermission ps key p.permission) key p := by
  refine ⟨pm,h,?_⟩
  rw [h]
  exact enforcedRights_grant ps key (permissionRights pm)

theorem Enforces.of_same {n : ParticipantInfo} (h : Enforces ps key p) (hs : SameSession p n) :
    Enforces ps key n := by
  obtain ⟨pm,hp,he⟩ := h
  exact ⟨pm,hs.permission.trans hp,he⟩

/-- The token of a reconnect enforces what it finds in the room store. -/
theorem enforces_resumed {auth : AuthContext} {r : SignalJoinRequest} {now : ℤ}
    (hb : BringsRights s (.join auth r true now)) (hr : r.reconnect)
    (hre : Resumes s auth r) (hp : participantOf s auth.key=some p) :
    Enforces (s.permissions.grant auth.key auth.claims.video.rights) auth.key p := by
  rw [BringsRights,if_pos hr,hp] at hb
  obtain ⟨pm,hpe,hri⟩ := map_eq_some_iff.mp (hb rfl hre)
  exact ⟨pm,hpe,(enforcedRights_grant _ _ _).trans hri.symm⟩

/-- Whoever an event leaves has its permission enforced. -/
theorem RightsAgree.outcome (h : RightsAgree s) (hlo : event.isLocal)
    (hbr : BringsRights s event) (ho : Outcome s event key shown left ps) (hl : left=some p) :
    Enforces ps key p := by
  cases ho with
  | kept _ _ hs =>
    rw [hl] at hs
    obtain ⟨e,he,hse⟩ := exists_of_sameParticipant hs
    exact (h key e he).of_same hse
  | left => cases hl
  | resumed auth r now hr hre =>
    exact enforces_resumed hbr hr hre hl
  | joined auth r d now hr hf hp =>
    have hd : d := by
      simpa [BringsRights,hr] using hbr
    rw [hd,← some.inj hl]
    exact ⟨_,hp,enforcedRights_grant _ _ _⟩
  | @updated _ u b hb =>
    -- Whether or not the update brings a permission, the snapshot has one afterwards.
    obtain ⟨pm,hp,-⟩ := h key b hb
    have hu : ∃granted,(updatedParticipant b u).permission=some granted := by
      rw [permission_updatedParticipant,hp]
      cases u.permission with
      | none => exact ⟨pm,rfl⟩
      | some granted => exact ⟨granted,rfl⟩
    obtain ⟨granted,hg⟩ := hu
    rw [← some.inj hl]
    exact enforces_grantPermission _ hg
  | muted _ sid muted hb hs =>
    obtain ⟨pm,hp,-⟩ := h key _ hb
    rw [← some.inj hl]
    exact (enforces_grantPermission _ hp).of_same hs
  | relayed => cases hlo
  | terminated => cases hlo

theorem RightsAgree.step (h : RightsAgree s) (hk : Keyed s.rooms)
    (hl : event.isLocal) (hb : BringsRights s event) :
    RightsAgree (s.step event) := by
  obtain ⟨key,shown,left,ps,hou,he⟩ := step_hasOutcome hk event
  intro o p hp
  rw [he.permissions]
  by_cases ho : o=key
  · subst ho
    rw [he.self] at hp
    exact h.outcome hl hb hou hp
  · rw [he.other ho] at hp
    obtain ⟨pm,hpe,hen⟩ := h o p hp
    refine ⟨pm,hpe,?_⟩
    rw [enforcedRights_of_sameRights (hou.sameRights ho)]
    exact hen

/-- The steps of clients and of timers that make no new participant; a fresh join makes one, under
a sid of its own. -/
def SessionEvent.keepsSession : SessionEvent→Bool
  | .join _ request _ _ => request.reconnect | .updateParticipant _ _ => false
  | .muteTrack _ _ _ => false | .disconnect _ _ => false | .relayJoin _ _ => false
  | .relayConnect _ => false | .relayTerminate _ _ _ => false | _ => true

/-- Whoever is there before and after the event has the same sid and the same rights. -/
def KeepsRights (s : SessionState) (event : SessionEvent) : Prop :=
  ∀key before after,participantOf s key=some before →
    participantOf (s.step event) key=some after →
      after.sid=before.sid ∧
        enforcedRights (s.step event).permissions key=enforcedRights s.permissions key

theorem RightsAgree.keepsRights (h : RightsAgree s) (hk : Keyed s.rooms)
    (hc : event.keepsSession) (hbr : BringsRights s event) :
    KeepsRights s event := by
  obtain ⟨key,shown,left,ps,hou,he⟩ := step_hasOutcome hk event
  intro o b after hb ha
  rw [he.permissions]
  by_cases ho : o=key
  · subst ho
    rw [he.self] at ha
    cases hou with
    | kept _ _ hsame =>
      rw [ha] at hsame
      obtain ⟨e,hea,hs⟩ := exists_of_sameParticipant hsame
      obtain rfl : b=e := some.inj (hb.symm.trans hea)
      exact ⟨hs.sid,rfl⟩
    | left => cases ha
    | resumed auth r now hr hres =>
      -- The token enforces the stored permission, and so did the stores before.
      obtain rfl : b=after := some.inj (hb.symm.trans ha)
      obtain ⟨pm,hp,hen⟩ := h auth.key b hb
      obtain ⟨granted,hg,hre⟩ := enforces_resumed hbr hr hres hb
      obtain rfl : pm=granted := some.inj (hp.symm.trans hg)
      exact ⟨rfl,hre.trans hen.symm⟩
    | joined auth r d now hr _ _ =>
      rw [SessionEvent.keepsSession,hr] at hc
      cases hc
    | updated => cases hc
    | muted => cases hc
    | relayed => cases hc
    | terminated => cases hc
  · rw [he.other ho,hb] at ha
    rw [some.inj ha]
    exact ⟨rfl,enforcedRights_of_sameRights (hou.sameRights ho)⟩

theorem rightsAgree_run (defaults : RoomDefaults) (autoCreate : Bool) {es : List SessionEvent}
    (hl : ∀e∈es,e.isLocal)
    (hb : AtEveryStep (fun ea e =>
      BringsRights ((initial defaults autoCreate).run ea) e) es) :
    RightsAgree ((initial defaults autoCreate).run es) := by
  induction es using List.reverseRecOn with
  | nil => exact fun _ _ hp => by cases hp
  | append_singleton es e ih =>
    rw [atEveryStep_concat] at hb
    have ha := ih (fun e hmem => hl e (List.mem_append_left _ hmem)) hb.1
    rw [run_concat]
    exact ha.step (keyed_sessionRun (keyed_sessionInitial defaults autoCreate) es)
      (hl e (by simp)) hb.2

/-- If every fresh join is answered and every reconnect brings the rights that the participant
has, then the stores enforce the permissions of the room store in every state, and no step of a
client that keeps its session changes what is enforced. -/
theorem revocations_survive (defaults : RoomDefaults) (autoCreate : Bool)
    (events : List SessionEvent) (hlocal : ∀event ∈ events,event.isLocal)
    (hbrings : AtEveryStep (fun earlier event =>
      BringsRights ((initial defaults autoCreate).run earlier) event) events) :
    RightsAgree ((initial defaults autoCreate).run events) ∧
      AtEveryStep (fun earlier event => event.keepsSession →
        KeepsRights ((initial defaults autoCreate).run earlier) event) events := by
  refine ⟨rightsAgree_run defaults autoCreate hlocal hbrings,?_⟩
  rintro earlier event later rfl hc
  have ha := rightsAgree_run defaults autoCreate
    (fun event hmem => hlocal event (List.mem_append_left _ hmem)) hbrings.of_append
  exact ha.keepsRights (keyed_sessionRun (keyed_sessionInitial defaults autoCreate) earlier)
    hc (hbrings earlier event later rfl)

def aliceListens : AuthContext where
  apiKey := "key"
  claims := {sub := "alice",video := {roomJoin := true,room := "room",canPublish := false}}

def revokePublish : ParticipantUpdate :=
  ⟨"","",some aliceListens.claims.video.permission,.empty⟩

def resumeAlice : SignalJoinRequest where
  reconnect := true
  participantSid := "PA_0000000000000001"

def revokedRun (rejoin : AuthContext) : List SessionEvent :=
  [.join (aliceToken []) {} true 0,.openPeerConnection alice,
    .updateParticipant alice revokePublish,.close 0 false 1,.join rejoin resumeAlice true 2]

/-- With a token that was issued after the revocation, the reconnect restores nothing. -/
theorem revocation_survives_reconnect :
    RightsAgree ((initial {} true).run (revokedRun aliceListens)) ∧
      AtEveryStep (fun earlier event => event.keepsSession →
        KeepsRights ((initial {} true).run earlier) event) (revokedRun aliceListens) := by
  refine revocations_survive {} true (revokedRun aliceListens) (by decide +kernel) ?_
  change AtEveryStep _ (((((([]++[_])++[_])++[_])++[_]))++[_])
  simp only [atEveryStep_concat]
  refine ⟨⟨⟨⟨⟨atEveryStep_nil _,rfl⟩,trivial⟩,trivial⟩,trivial⟩,?_⟩
  intro _ _
  decide +kernel

/-- With the token of the join, the reconnect restores the right that was taken away. -/
theorem revocation_undone_by_reconnect :
    let revoked := (initial {} true).run ((revokedRun (aliceToken [])).take 4)
    let resumed := (initial {} true).run (revokedRun (aliceToken []))
    Resumes revoked (aliceToken []) resumeAlice ∧
      enforcedRights revoked.permissions alice=⟨false,true,true⟩ ∧
      (participantOf resumed alice).bind (·.permission) =
        some aliceListens.claims.video.permission ∧
      enforcedRights resumed.permissions alice=⟨true,true,true⟩ ∧
      ¬ RightsAgree resumed := by
  have hp : (participantOf ((initial {} true).run (revokedRun (aliceToken []))) alice).bind
      (·.permission)=some aliceListens.claims.video.permission := by decide +kernel
  have he : enforcedRights ((initial {} true).run (revokedRun (aliceToken []))).permissions
      alice=⟨true,true,true⟩ := by decide +kernel
  refine ⟨by decide +kernel,by decide +kernel,hp,he,fun ha => ?_⟩
  obtain ⟨participant,hpa,hs⟩ := bind_eq_some_iff.mp hp
  obtain ⟨permission,hg,hr⟩ := ha alice participant hpa
  rw [← some.inj (hs.symm.trans hg)] at hr
  revert hr
  decide +kernel

end OxideSfu.Signaling
