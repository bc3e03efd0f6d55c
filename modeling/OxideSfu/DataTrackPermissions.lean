import OxideSfu.DataTrackReconciliation
import OxideSfu.StepRuns

/-!
# Data tracks and the right to subscribe

The right to subscribe is checked when a subscription is opened: neither
`apply_service_participant_update` nor a reconnect looks at open subscriptions. If the right is only
taken from participants without any, every subscriber has it.
-/

namespace OxideSfu.Signaling

open FiniteMaps Rooms StepRuns PermissionStores DataSessionState Option

def withheldInRoom (s : SessionState) (key : ParticipantKey) : Bool :=
  ((participantOf s key).bind (·.permission)).any (fun permission => !permission.canSubscribe)

def disconnectsFirst (s : SessionState) (auth : AuthContext) (request : SignalJoinRequest) : Bool :=
  auth.ensureJoinPermission && !request.reconnect && (s.getParticipant auth.key).isSome

/-- Who is to be without the right to subscribe after the event, unless the event disconnects it
first. -/
def withdrawnSubscriber (s : SessionState) : SessionEvent→Option ParticipantKey
  | .join auth request _ _ =>
    if auth.claims.video.canSubscribe || disconnectsFirst s auth request then none
    else some auth.key
  | .updateParticipant key update =>
    match update.permission with
    | none => if withheldInRoom s key then some key else none
    | some permission => if permission.canSubscribe then none else some key
  | .muteTrack key _ _ => if withheldInRoom s key then some key else none
  | .relayJoin intent _ => if intent.canSubscribe then none else some intent.key
  | .relayTerminate key _ _ => if withheldInRoom s key then some key else none
  | _ => none

/-- A right to subscribe is withdrawn only from a participant without data track subscriptions. -/
def KeepsSubscribers (s : DataSessionState) : DataTrackEvent→Prop
  | .session event _ _ => ∀key∈withdrawnSubscriber s.sessions event,
      ∀entry∈s.subscriptions.subscriptions.keys,entry.owner≠key
  | _ => True

instance (s : DataSessionState) : (event : DataTrackEvent)→Decidable (KeepsSubscribers s event)
  | .session _ _ _ => inferInstanceAs (Decidable (∀key∈_,_))
  | .publish .. | .unpublish .. | .update .. | .reconcile .. => isTrue trivial

variable {event : SessionEvent} {s : SessionState} {key : ParticipantKey}

theorem canSubscribe_grantPermission (ps : PermissionStores) (pm : Option ParticipantPermission) :
    (grantPermission ps key pm).subscribe.canSubscribe key =
      (pm.map (·.canSubscribe)).getD (ps.subscribe.canSubscribe key) := by
  cases pm with
  | none => rfl
  | some pm =>
    rw [grantPermission,canSubscribe_grant,if_pos rfl]
    rfl

/-- A permission that is handed to the stores takes the right away only if it says so. -/
theorem withheldInRoom_of_lost {p : ParticipantInfo}
    (hb : s.permissions.subscribe.canSubscribe key) (hpa : participantOf s key=some p)
    (hl : (grantPermission s.permissions key p.permission).subscribe.canSubscribe key=false) :
    withheldInRoom s key := by
  rw [canSubscribe_grantPermission,hb] at hl
  rw [withheldInRoom,hpa]
  cases hp : p.permission with
  | none => simp [hp] at hl
  | some pm => simpa [hp] using hl

/-- The right to subscribe is lost in an event that withdraws it, or in a fresh join. -/
theorem withdrawn_of_lost (hk : Keyed s.rooms) (hb : s.permissions.subscribe.canSubscribe key)
    (ha : (s.step event).permissions.subscribe.canSubscribe key=false) :
    withdrawnSubscriber s event=some key ∨
      ∃auth r d now,event = .join auth r d now ∧ auth.key=key ∧ disconnectsFirst s auth r := by
  obtain ⟨changed,shown,p,ps,ho,he⟩ := step_hasOutcome hk event
  rw [he.permissions] at ha
  have hc : key=changed := by
    by_contra hot
    rw [(ho.sameRights hot).subscribe,hb] at ha
    cases ha
  subst hc
  have hfo : ∀{ps},MayForget key s.permissions ps → ps.subscribe.canSubscribe key := by
    rintro ps (rfl | rfl)
    · exact hb
    · simp [removeParticipant,SubscribePermissionStore.removeParticipant,
        SubscribePermissionStore.canSubscribe]
  cases ho with
  | kept => exact absurd (hb.symm.trans ha) (by simp)
  | left _ _ hf => exact absurd ((hfo hf).symm.trans ha) (by simp)
  | resumed auth r now hr hre =>
    rw [canSubscribe_grant,if_pos rfl] at ha
    left
    have ht : auth.claims.video.canSubscribe=false := ha
    simp [withdrawnSubscriber,disconnectsFirst,ht,hr]
  | joined auth r d now hr hf =>
    cases d with
    | false => exact absurd ((hfo hf).symm.trans ha) (by simp)
    | true =>
      rw [if_pos rfl,canSubscribe_grant,if_pos rfl] at ha
      have ht : auth.claims.video.canSubscribe=false := ha
      cases hfi : disconnectsFirst s auth r with
      | true => exact .inr ⟨auth,r,true,now,rfl,rfl,hfi⟩
      | false => exact .inl (by simp [withdrawnSubscriber,ht,hfi])
  | updated key u hp =>
    left
    rw [withdrawnSubscriber]
    rw [permission_updatedParticipant] at ha
    cases hpe : u.permission with
    | none =>
      rw [hpe] at ha
      simp [withheldInRoom_of_lost hb hp ha]
    | some pm =>
      rw [hpe,canSubscribe_grantPermission] at ha
      have hd : pm.canSubscribe=false := ha
      simp [hd]
  | muted key trackSid muted hp hs =>
    exact .inl (by simp [withdrawnSubscriber,withheldInRoom_of_lost hb hp ha])
  | relayed it now ho =>
    obtain ⟨-,rfl⟩ | ⟨-,-,rfl⟩ := ho
    · exact absurd (hb.symm.trans ha) (by simp)
    · rw [relayedPermissions,canSubscribe_grant,if_pos rfl] at ha
      have hd : it.canSubscribe=false := ha
      exact .inl (by simp [withdrawnSubscriber,hd])
  | terminated key sid now hp =>
    exact .inl (by simp [withdrawnSubscriber,withheldInRoom_of_lost hb hp ha])

variable {s : DataSessionState}

/-- Whoever is subscribed to a data track may subscribe. -/
def SubscribersPermitted (s : DataSessionState) : Prop :=
  ∀entry,s.subscriptions.Has entry → s.canSubscribe entry.owner

variable {st : JoinSettings} {orders : MapOrders}

/-- Of a participant that is replaced no subscription is left; its successor gets those that it
may have. -/
theorem permitted_of_replaced (hk : Keyed s.sessions.rooms) {auth : AuthContext}
    {r : SignalJoinRequest} {d : Bool} {now : ℤ} (hf : disconnectsFirst s.sessions auth r)
    {e : DataTrackSubscriptionKey} (ho : auth.key=e.owner)
    (hhas : (s.step (.session (.join auth r d now) st orders)).subscriptions.Has e) :
    (s.step (.session (.join auth r d now) st orders)).canSubscribe e.owner := by
  obtain ⟨⟨hpe,hfr⟩,ht⟩ : (auth.ensureJoinPermission ∧
      r.reconnect=false) ∧ (s.sessions.getParticipant auth.key).isSome := by
    simpa [disconnectsFirst] using hf
  rw [step_freshJoin s hpe hfr] at hhas ⊢
  have hv : ¬(s.vacate auth orders now).subscriptions.Has e := by
    have hc := effect_applyRoomConfig s.sessions auth now auth.key (fun _ => True)
    rw [getParticipant_eq,← hc.self,← getParticipant_eq] at ht
    obtain ⟨p,hp⟩ := isSome_iff_exists.mp ht
    rw [DataSessionState.vacate,DataSessionState.disconnectParticipantFromService,
      withSessions,hp,ho]
    exact not_has_cleanup _ orders now (keyed_applyRoomConfig hk auth now) e
  obtain hhas | ⟨-,-,-,-,ha⟩ := opens_answerJoin _ auth.key orders _ st e hhas
  · exact absurd hhas hv
  · rw [canSubscribe,sessions_answerJoin,← ho]
    exact ha

theorem eq_of_withdrawn {key u : ParticipantKey}
    (hkey : key∈othersReconciledBy s.sessions (.session event st orders))
    (hw : withdrawnSubscriber s.sessions event=some u) : u=key := by
  cases event with
  | join auth r d now =>
    simp only [othersReconciledBy,withdrawnSubscriber] at hkey hw
    split_ifs at hkey hw
    · cases hkey
    · exact (some.inj hw).symm.trans (some.inj hkey)
  | updateParticipant key up => cases hkey
  | muteTrack key trackSid muted => cases hkey
  | relayJoin it now => cases hkey
  | relayTerminate key sid now => cases hkey
  | _ => cases hw

theorem SubscribersPermitted.session (h : SubscribersPermitted s) (hk : Keyed s.sessions.rooms)
    (hke : KeepsSubscribers s (.session event st orders)) :
    SubscribersPermitted (s.step (.session event st orders)) := by
  intro e hhas
  have hs := s.sessions_sessionStep orders event st
  -- Somebody who might subscribe before loses the right only in a withdrawal.
  have hl : s.canSubscribe e.owner →
      withdrawnSubscriber s.sessions event≠some e.owner →
      (s.step (.session event st orders)).canSubscribe e.owner := by
    intro hb hw
    by_contra ha
    rw [Bool.not_eq_true,DataSessionState.canSubscribe,DataSessionState.step,hs] at ha
    obtain hnow | ⟨auth,r,d,now,rfl,how,hf⟩ := withdrawn_of_lost hk hb ha
    · exact hw hnow
    · have hp := permitted_of_replaced hk hf how hhas
      rw [DataSessionState.canSubscribe,DataSessionState.step,hs,ha] at hp
      cases hp
  obtain hhas | hso := opens_step hk (.session event st orders) e hhas
  · refine hl (h e hhas) fun hw => ?_
    obtain ⟨b,hlo⟩ := isSome_iff_exists.mp hhas
    exact hke e.owner hw e (FiniteMap.mem_keys_of_lookup hlo) rfl
  · cases hso with
    | asked hask => cases hask
    | beside key hkey hbe =>
      obtain ⟨-,ho,-,hau⟩ := hbe
      rw [autoSubscribes,Bool.and_eq_true] at hau
      exact hl hau.2 fun hw => ho (eq_of_withdrawn hkey hw)
    | own _ hal => exact hal

variable {e : DataTrackEvent}

theorem SubscribersPermitted.of_same (h : SubscribersPermitted s)
    (hk : Keyed s.sessions.rooms) (hsame : (s.step e).sessions.permissions=s.sessions.permissions) :
    SubscribersPermitted (s.step e) := by
  intro en hhas
  have hr : (s.step e).canSubscribe en.owner=s.canSubscribe en.owner := by
    rw [canSubscribe,hsame,canSubscribe]
  obtain hhas | hs := opens_step hk e en hhas
  · exact hr.trans (h en hhas)
  · cases hs with
    | asked _ ha => exact hr.trans ha
    | beside key _ hb =>
      have hau := hb.2.2.2
      rw [autoSubscribes,Bool.and_eq_true] at hau
      exact hr.trans hau.2
    | own _ ha => exact ha

theorem SubscribersPermitted.step (h : SubscribersPermitted s) (hk : Keyed s.sessions.rooms)
    (hke : KeepsSubscribers s e) :
    SubscribersPermitted (s.step e) := by
  cases e with
  | session e st orders => exact h.session hk hke
  | publish key r clock orders =>
    exact h.of_same hk (sessions_publishDataTrack s key r clock orders).1
  | unpublish key n =>
    exact h.of_same hk (sessions_unpublishDataTrack s key n).1
  | update key us orders => exact h.of_same hk rfl
  | reconcile key orders =>
    exact h.of_same hk (congrArg SessionState.permissions (s.sessions_reconcile key orders))

theorem subscribersPermitted_run (defaults : RoomDefaults) (autoCreate : Bool)
    {es : List DataTrackEvent}
    (hk : AtEveryStep (fun ea e =>
      KeepsSubscribers ((DataSessionState.initial defaults autoCreate).run ea) e) es) :
    SubscribersPermitted ((DataSessionState.initial defaults autoCreate).run es) := by
  refine hk.induction (by rintro _ ⟨⟩) (fun es e hp he => ?_)
  rw [DataSessionState.run_concat]
  exact hp.step (keyed_dataSessionRun (keyed_sessionInitial defaults autoCreate) es) he

theorem has_of_relayed {s : DataSessionState} {key : ParticipantKey} {bytes p : List UInt8}
    {isOpen : String→Bool} {u : String} (h : (u,p)∈s.relayDataTrackPacket key bytes isOpen) :
    ∃sid,s.subscriptions.Has ⟨key.room,u,sid⟩ := by
  rw [relayDataTrackPacket] at h
  split_ifs at h
  · cases h
  split at h
  · cases h
  · dsimp only at h
    split_ifs at h
    · cases h
    obtain ⟨⟨i,subHandle⟩,hs,hse⟩ := (Multiset.mem_filterMap _ _).mp h
    split_ifs at hse
    obtain ⟨rewritten,-,heq⟩ := map_eq_some_iff.mp hse
    obtain ⟨rfl,rfl⟩ := Prod.mk.inj heq
    obtain ⟨sid,b,hl,-⟩ := DataTrackSubscriptionStore.mem_subscribersForPacketWithPublisherSid.mp hs
    exact ⟨sid,isSome_iff_exists.mpr ⟨b,hl⟩⟩

/-- If the right to subscribe is withdrawn only from participants without data track
subscriptions, packets go only to participants with the right. -/
theorem relayed_to_permitted (defaults : RoomDefaults) (autoCreate : Bool)
    (events : List DataTrackEvent)
    (hkeeps : AtEveryStep (fun earlier event =>
      KeepsSubscribers ((DataSessionState.initial defaults autoCreate).run earlier) event) events)
    (key : ParticipantKey) (bytes : List UInt8) (isOpen : String→Bool) :
    ∀sent ∈ ((DataSessionState.initial defaults autoCreate).run events).relayDataTrackPacket key
        bytes isOpen,
      ((DataSessionState.initial defaults autoCreate).run events).canSubscribe
        ⟨key.room,sent.1⟩ = true := by
  rintro ⟨subscriber,packet⟩ hs
  obtain ⟨trackSid,hhas⟩ := has_of_relayed hs
  exact subscribersPermitted_run defaults autoCreate hkeeps _ hhas

def telemetryRun : List DataTrackEvent :=
  [.joinOf "alice" {},.joinOf "bob" {},.publish ⟨"room","alice"⟩ ⟨7,"telemetry"⟩ 5 .sorted]

def telemetryPacket (handle : UInt8) : List UInt8 := [0,0,0,handle,0,0,0,0,0,0,0,0]

def withdrawSubscribe : DataTrackEvent :=
  .session (.updateParticipant ⟨"room","bob"⟩ ⟨"","",some {
    canSubscribe := false,canPublish := true,canPublishData := true,hidden := false,
    canUpdateMetadata := false,canSubscribeMetrics := false,canManageAgentSession := false},
    .empty⟩) {} .sorted

theorem telemetry_relayed_to_bob :
    let s := (DataSessionState.initial {} true).run telemetryRun
    ("bob",telemetryPacket 1) ∈
        s.relayDataTrackPacket ⟨"room","alice"⟩ (telemetryPacket 7) (fun _ => true) ∧
      s.canSubscribe ⟨"room","bob"⟩=true := by
  have hs : ("bob",telemetryPacket 1) ∈
      ((DataSessionState.initial {} true).run telemetryRun).relayDataTrackPacket ⟨"room","alice"⟩
        (telemetryPacket 7) (fun _ => true) := by decide +kernel
  exact ⟨hs,relayed_to_permitted {} true telemetryRun (by decide +kernel) ⟨"room","alice"⟩
    (telemetryPacket 7) (fun _ => true) _ hs⟩

/-- After the right is taken from Bob, packets still go there. -/
theorem telemetry_relayed_after_withdrawal :
    let s := (DataSessionState.initial {} true).run (telemetryRun++[withdrawSubscribe])
    s.canSubscribe ⟨"room","bob"⟩=false ∧
      ("bob",telemetryPacket 1) ∈
        s.relayDataTrackPacket ⟨"room","alice"⟩ (telemetryPacket 7) (fun _ => true) := by
  decide +kernel

end OxideSfu.Signaling
