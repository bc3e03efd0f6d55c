import OxideSfu.SessionEffects

/-!
# The outcomes of session events

There are few things that an event can leave: the participant as it was, nobody, a new
participant, or the old one with other rights. This file sorts the events of a session by what
they do, so that an invariant of all runs is checked once for each outcome.
-/

namespace OxideSfu.Signaling

open Rooms RoomStore SessionState PermissionStores

section

/-- What an event does: to whom, which snapshots it shows, and the participant and the stores
that it leaves. -/
inductive Outcome (s : SessionState) :
    SessionEvent → ParticipantKey → (ParticipantInfo→Prop)→Option ParticipantInfo →
      PermissionStores→Prop
  | kept (event : SessionEvent) (key : ParticipantKey) {participant : Option ParticipantInfo}
      (hsame : Option.Rel SameSession (participantOf s key) participant) :
      Outcome s event key (Current s key) participant s.permissions
  | left (event : SessionEvent) (key : ParticipantKey) {permissions : PermissionStores}
      (hforgets : MayForget key s.permissions permissions) :
      Outcome s event key (Goodbye s key) none permissions
  | resumed (auth : AuthContext) (request : SignalJoinRequest) (now : ℤ)
      (hreconnect : request.reconnect) (hresumes : Resumes s auth request) :
      Outcome s (.join auth request true now) auth.key (fun _ => False)
        (participantOf s auth.key) (s.permissions.grant auth.key auth.claims.video.rights)
  | joined (auth : AuthContext) (request : SignalJoinRequest) (delivered : Bool) (now : ℤ)
      {participant : ParticipantInfo} {permissions : PermissionStores}
      (hreconnect : request.reconnect=false)
      (hforgets : MayForget auth.key s.permissions permissions)
      (hpermission : participant.permission=some auth.claims.video.permission) :
      Outcome s (.join auth request delivered now) auth.key
        (fun snapshot => Goodbye s auth.key snapshot ∨ SameSession participant snapshot)
        (some participant)
        (if delivered then permissions.grant auth.key auth.claims.video.rights else permissions)
  | updated (key : ParticipantKey) (update : ParticipantUpdate) {participant : ParticipantInfo}
      (hparticipant : participantOf s key=some participant) :
      Outcome s (.updateParticipant key update) key
        (SameSession (updatedParticipant participant update))
        (some (updatedParticipant participant update))
        (grantPermission s.permissions key (updatedParticipant participant update).permission)
  | muted (key : ParticipantKey) (trackSid : String) (muted : Bool)
      {participant edited : ParticipantInfo}
      (hparticipant : participantOf s key=some participant)
      (hsame : SameSession participant edited) :
      Outcome s (.muteTrack key trackSid muted) key (Current s key) (some edited)
        (grantPermission s.permissions key participant.permission)
  | relayed (intent : NonLocalRelayJoinIntent) (now : ℤ) {participant : ParticipantInfo}
      {permissions : PermissionStores}
      (houtcome : RelayOutcome s intent (s.executeJoin intent now).1 participant permissions) :
      Outcome s (.relayJoin intent now) intent.key (SameSession participant) (some participant)
        permissions
  | terminated (key : ParticipantKey) (sid : String) (now : ℤ) {participant : ParticipantInfo}
      (hparticipant : participantOf s key=some participant) :
      Outcome s (.relayTerminate key sid now) key (Goodbye s key) none
        (grantPermission s.permissions key participant.permission)

def HasOutcome (s : SessionState) (event : SessionEvent) : Prop :=
  ∃key shown participant permissions,Outcome s event key shown participant permissions ∧
    Effect key shown s (s.step event) participant permissions

variable {s : SessionState} {e : SessionEvent} {key : ParticipantKey}

theorem Kept.hasOutcome (h : Kept key s (s.step e)) : HasOutcome s e := by
  obtain ⟨p,hs,he⟩ := h
  exact ⟨key,_,_,_,.kept e key hs,he⟩

theorem Left.hasOutcome (h : Left key s (s.step e)) : HasOutcome s e := by
  obtain ⟨ps,hf,he⟩ := h
  exact ⟨key,_,_,_,.left e key hf,he⟩

theorem Unaffected.hasOutcome (h : Unaffected s (s.step e)) :
    HasOutcome s e := (h.kept ⟨"",""⟩).hasOutcome

theorem join_hasOutcome (s : SessionState) (auth : AuthContext) (r : SignalJoinRequest)
    (d : Bool) (now : ℤ) : HasOutcome s (.join auth r d now) := by
  have hi : s.runJoinSocket auth r d now=s → HasOutcome s (.join auth r d now) := by
    intro hsame
    have hk : Kept auth.key s (s.step (.join auth r d now)) := by
      rw [step,hsame]
      exact kept_refl s auth.key
    exact hk.hasOutcome
  by_cases ha : auth.ensureJoinPermission
  · cases hr : r.reconnect with
    | true =>
      have hs : s.runJoinSocket auth r d now=s.reconnect auth r d := by
        simp [runJoinSocket,ha,hr]
      obtain hsame | ⟨rfl,hre,he⟩ := effect_reconnect s auth r d
      · exact hi (hs.trans hsame)
      · rw [← hs] at he
        exact ⟨_,_,_,_,.resumed auth r now hr hre,he⟩
    | false =>
      have hs : s.runJoinSocket auth r d now=s.freshJoin auth r d now := by
        simp [runJoinSocket,ha,hr]
      obtain ⟨ps,hf,⟨-,he⟩ | ⟨p,hp,he⟩⟩ := effect_freshJoin s auth r d now
      · rw [← hs] at he
        exact ⟨_,_,_,_,.left _ _ hf,he⟩
      · rw [← hs] at he
        exact ⟨_,_,_,_,.joined auth r d now hr hf hp,he⟩
  · exact hi (by simp [runJoinSocket,ha])

theorem step_hasOutcome (hke : Keyed s.rooms) (e : SessionEvent) : HasOutcome s e := by
  cases e with
  | join auth r d now => exact join_hasOutcome s auth r d now
  | close c ex now =>
    obtain ⟨key,hk | hl⟩ := closeSocket_cases s c ex now
    · exact hk.hasOutcome
    · exact hl.hasOutcome
  | abandon | openPeerConnection | closePeerConnections =>
    exact Unaffected.hasOutcome ⟨rfl,rfl,rfl,rfl,rfl⟩
  | graceExpired key sid now =>
    obtain hk | hl := graceExpired_cases s key sid now
    · exact hk.hasOutcome
    · exact hl.hasOutcome
  | updateParticipant key u =>
    obtain hk | ⟨p,hp,he⟩ := effect_updateParticipantFromService hke key u
    · exact hk.hasOutcome
    · exact ⟨_,_,_,_,.updated key u hp,he⟩
  | muteTrack key trackSid muted =>
    obtain hk | ⟨p,ed,hp,hs,he⟩ := effect_muteTrackFromService hke key trackSid muted
    · exact hk.hasOutcome
    · exact ⟨_,_,_,_,.muted key trackSid muted hp hs,he⟩
  | updateMetadata key m name attributes =>
    exact (kept_updateMetadata hke key m name attributes).hasOutcome
  | changeTracks key ks dataTracks counts =>
    exact (kept_changeTracks s key ks dataTracks counts).hasOutcome
  | leave key now => exact (left_cleanup s key now).hasOutcome
  | disconnect key now =>
    obtain ⟨ps,hf,he⟩ := effect_disconnect s key now
    exact ⟨_,_,_,_,.left _ key hf,he⟩
  | relayJoin it now =>
    obtain ⟨hk,-⟩ | ⟨j,ps,he,ho⟩ := effect_executeJoin hke it now
    · exact hk.hasOutcome
    · exact ⟨_,_,_,_,.relayed it now ho,he⟩
  | relayConnect key => exact (kept_connectRelayed s key).hasOutcome
  | relayTerminate key sid now =>
    obtain hk | ⟨p,hp,he⟩ := effect_executeTermination hke key sid now
    · exact hk.hasOutcome
    · exact ⟨_,_,_,_,.terminated key sid now hp,he⟩

theorem Outcome.sameRights {shown : ParticipantInfo→Prop} {p : Option ParticipantInfo}
    {ps : PermissionStores} (h : Outcome s e key shown p ps) {o : ParticipantKey} (ho : o≠key) :
    SameRights o s.permissions ps := by
  have hfo : ∀{ps},MayForget key s.permissions ps → SameRights o s.permissions ps := by
    rintro ps (rfl | rfl)
    · exact .refl _ _
    · exact sameRights_removeParticipant _ ho
  cases h with
  | kept => exact .refl _ _
  | left _ _ hf => exact hfo hf
  | resumed => exact sameRights_grant _ _ ho
  | joined _ _ d _ _ hf _ =>
    cases d with
    | false => exact hfo hf
    | true => exact (hfo hf).trans (sameRights_grant _ _ ho)
  | updated | muted | terminated => exact sameRights_grantPermission _ _ ho
  | relayed it _ hou =>
    obtain ⟨-,rfl⟩ | ⟨-,-,rfl⟩ := hou
    · exact .refl _ _
    · exact (sameRights_grant _ _ ho).trans (sameRights_grant _ _ ho)

variable {auth : AuthContext} {r : SignalJoinRequest} {now : ℤ}

/-- A socket whose join is accepted and answered gets a channel. -/
def OpensSession (s : SessionState) (auth : AuthContext) (request : SignalJoinRequest)
    (now : ℤ) : Prop :=
  (s.runJoinSocket auth request true now).nextChannel≠s.nextChannel
  deriving Decidable

variable (h : OpensSession s auth r now)

include h

theorem OpensSession.allowed : auth.ensureJoinPermission := by
  by_contra hr
  exact h (by simp [runJoinSocket,hr])

/-- A fresh join that opens a session leaves the participant with the permission of the token,
and the stores with its rights. -/
theorem OpensSession.joined (hr : r.reconnect=false) :
    ∃(p : ParticipantInfo) (ps : PermissionStores),
      p.permission=some auth.claims.video.permission ∧
      Effect auth.key (fun n => Goodbye s auth.key n ∨ SameSession p n) s
        (s.runJoinSocket auth r true now)
        (some p) (ps.grant auth.key auth.claims.video.rights) := by
  have hs : s.runJoinSocket auth r true now=s.freshJoin auth r true now := by
    simp [runJoinSocket,h.allowed,hr]
  rw [OpensSession,hs] at h
  rw [hs]
  obtain ⟨ps,-,⟨hc,-⟩ | ⟨p,hp,he⟩⟩ := effect_freshJoin s auth r true now
  · exact absurd hc h
  · exact ⟨p,ps,hp,he⟩

/-- A reconnect that opens a session leaves the participant as it is. -/
theorem OpensSession.resumed (hr : r.reconnect) :
    Resumes s auth r ∧
      Effect auth.key (fun _ => False) s (s.runJoinSocket auth r true now)
        (participantOf s auth.key) (s.permissions.grant auth.key auth.claims.video.rights) := by
  have hs : s.runJoinSocket auth r true now=s.reconnect auth r true := by
    simp [runJoinSocket,h.allowed,hr]
  rw [OpensSession,hs] at h
  rw [hs]
  obtain hsame | ⟨-,hre⟩ := effect_reconnect s auth r true
  · exact absurd (by rw [hsame]) h
  · exact hre

end

theorem keyed_sessionInitial (defaults : RoomDefaults) (autoCreate : Bool) :
    Keyed (initial defaults autoCreate).rooms := by
  intro room r hr
  cases hr

theorem keyed_sessionStep {s : SessionState} (hk : Keyed s.rooms) (e : SessionEvent) :
    Keyed (s.step e).rooms := by
  obtain ⟨key,shown,p,ps,-,he⟩ := step_hasOutcome hk e
  exact he.keyed hk

theorem keyed_sessionRun {s : SessionState} (hk : Keyed s.rooms) (es : List SessionEvent) :
    Keyed (s.run es).rooms := by
  refine List.foldlRecOn (motive := fun s => Keyed s.rooms) es step hk ?_
  exact fun t ht e _ => keyed_sessionStep ht e

end OxideSfu.Signaling
