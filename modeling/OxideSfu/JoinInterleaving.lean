import OxideSfu.CriticalSections
import OxideSfu.SessionEffects

/-!
# Interleaved joins and leaves

A join enters the room store, sends its response, reads the participant back and registers with the
hub of updates (`run_join_socket` in `router.rs`); a leave leaves the room store and then broadcasts
its last snapshot. These sections interleave; what they do is said once, in `RosterStep`.
-/

namespace OxideSfu.Signaling

open Rooms RoomStore SessionState CriticalSections Threads

namespace SessionState

def storeJoin (s : SessionState) (auth : AuthContext) (request : SignalJoinRequest) (now : ℤ) :
    SessionState × Option Joined :=
  let s := vacate s auth now
  if !s.roomAutoCreateOnJoin ∧ auth.key.room∉s.rooms.rooms.keys then (s,none)
  else
    match s.rooms.joinParticipantWithPermission (joinCall auth request) now with
    | (.error _,store) => (s.withRooms store,none)
    | (.ok joined,store) => (s.withRooms store,some joined)

def answerLocalJoin (s : SessionState) (auth : AuthContext) (joined : Joined) : SessionState :=
  let (kinded,rooms) := s.rooms.setParticipantKind auth.key.room auth.key.identity
    auth.claims.kind auth.claims.kindDetails
  let response : JoinResponse := {
    key := auth.key,relayed := false,participant := kinded.toOption.getD joined.participant
    otherParticipants := joined.existing.filter (fun _ other => !participantIsHidden other)}
  {s with rooms,joinResponses := s.joinResponses++[response]}

def registerJoin (s : SessionState) (auth : AuthContext) (participant : ParticipantInfo) :
    SessionState :=
  s.openSession auth (s.updates.registerAndBroadcastJoin auth.key.room participant
    (s.nextReceiver auth.key))

def removeFromRoom (s : SessionState) (key : ParticipantKey) (now : ℤ) :
    SessionState × Option ParticipantInfo :=
  let s := {s with
    permissions := s.permissions.removeParticipant key,peerConnections :=
      s.peerConnections.erase key
    participantAuthContexts := s.participantAuthContexts.erase key}
  match s.rooms.removeParticipantWithReason key.room key.identity clientInitiated now with
  | (.ok participant,store) => (s.withRooms store,some participant)
  | (.error _,store) => (s.withRooms store,none)

end SessionState

/-- `delivered` tells whether the join response can be sent; `drop` is the end of a receiver. -/
inductive RosterCall
  | join (auth : AuthContext) (request : SignalJoinRequest) (delivered : Bool) (now : ℤ)
  | leave (key : ParticipantKey) (now : ℤ)
  | drop (channel : ℕ)

/-- A join stands before its response, before it reads the participant or before it registers; a
leave stands before its broadcast. -/
inductive RosterPoint
  | stored (auth : AuthContext) (joined : Joined) (delivered : Bool)
  | answered (auth : AuthContext)
  | registering (auth : AuthContext) (participant : ParticipantInfo)
  | leaving (room : String) (participant : ParticipantInfo)

def RosterPoint.joining : RosterPoint→Option ParticipantKey
  | .stored auth _ _ => some auth.key | .answered auth => some auth.key
  | .registering auth _ => some auth.key | .leaving _ _ => none

def RosterPoint.registers : RosterPoint→Option ParticipantKey
  | .registering auth _ => some auth.key | _ => none

def rosterMachine : Machine SessionState RosterCall RosterPoint where
  enter
    | .join auth request delivered now, s =>
      match s.storeJoin auth request now with
      | (s,some joined) => (s,some (.stored auth joined delivered)) | (s,none) => (s,none)
    | .leave key now, s =>
      match s.removeFromRoom key now with
      | (s,some participant) => (s,some (.leaving key.room participant)) | (s,none) => (s,none)
    | .drop channel, s => ({s with updates := s.updates.close channel},none)
  resume
    | .stored auth joined delivered, s =>
      (s.answerLocalJoin auth joined,if delivered then some (.answered auth) else none)
    | .answered auth, s => (s,(s.getParticipant auth.key).map (.registering auth))
    | .registering auth participant, s => (s.registerJoin auth participant,none)
    | .leaving room participant, s => (s.broadcastUpdate room participant,none)

variable (s : SessionState)

theorem completeJoin_eq (auth : AuthContext) (j : Joined) (d : Bool) :
    s.completeJoin auth j d =
      if d then
        match (s.answerLocalJoin auth j).getParticipant auth.key with
        | none => s.answerLocalJoin auth j
        | some p => (s.answerLocalJoin auth j).registerJoin auth p
      else s.answerLocalJoin auth j := by
  cases d <;> rfl

/-- One participant of the rooms is replaced; join responses and hub stay as they are. -/
structure Roster (s t : SessionState) (key : ParticipantKey)
    (participant : Option ParticipantInfo) :
    Prop where
  participants : Replaces s.rooms t.rooms key.room key.identity participant
  keyed : Keyed s.rooms → Keyed t.rooms
  responses : t.joinResponses=s.joinResponses
  updates : t.updates=s.updates

variable {s t : SessionState} {key : ParticipantKey} {p : Option ParticipantInfo}

theorem Roster.self (h : Roster s t key p) : participantOf t key=p := h.participants.self

theorem Roster.other (h : Roster s t key p) {o : ParticipantKey}
    (ho : o≠key) : participantOf t o=participantOf s o := by
  apply h.participants.other
  rintro ⟨hr,hi⟩
  obtain ⟨room,i⟩ := o
  exact ho (by simp_all)

/-- What one event does. A join is that of somebody who is not in the room. -/
inductive RosterStep (c : Threads SessionState RosterPoint) :
    Event RosterCall → Threads SessionState RosterPoint→Prop
  | nothing (event : Event RosterCall) : RosterStep c event c
  | refused (event : Event RosterCall) (t : SessionState) (key : ParticipantKey)
      (hroster : Roster c.shared t key none) : RosterStep c event ⟨t,c.running⟩
  | stored (thread : ℕ) (auth : AuthContext) (request : SignalJoinRequest) (delivered : Bool)
      (now : ℤ) (joined : Joined) (t : SessionState)
      (hroster : Roster c.shared t auth.key (some joined.participant))
      (hpermission : joined.participant.permission=some auth.claims.video.permission)
      (hexisting : ∀identity,joined.existing.lookup identity =
        participantOf c.shared ⟨auth.key.room,identity⟩)
      (hidle : c.running.lookup thread=none) :
      RosterStep c (.enter thread (.join auth request delivered now))
        ⟨t,c.running.insert thread (.stored auth joined delivered)⟩
  | left (thread : ℕ) (key : ParticipantKey) (now : ℤ) (participant : ParticipantInfo)
      (t : SessionState) (hroster : Roster c.shared t key none)
      (hidle : c.running.lookup thread=none) :
      RosterStep c (.enter thread (.leave key now))
        ⟨t,c.running.insert thread (.leaving key.room participant)⟩
  | dropped (event : Event RosterCall) (channel : ℕ) :
      RosterStep c event ⟨{c.shared with updates := c.shared.updates.close channel},c.running⟩
  | answered (thread : ℕ) (auth : AuthContext) (joined : Joined) (delivered : Bool)
      (hrunning : c.running.lookup thread=some (.stored auth joined delivered)) (t : SessionState)
      (present : Option ParticipantInfo) (response : JoinResponse)
      (hsame : Option.Rel SameSession (participantOf c.shared auth.key) present)
      (hroster : Roster c.shared t auth.key present) (hkey : response.key=auth.key)
      (hothers : response.otherParticipants =
        joined.existing.filter (fun _ other => !participantIsHidden other)) :
      RosterStep c (.resume thread) (c.moveTo thread
        ({t with joinResponses := t.joinResponses++[response]},
          if delivered then some (.answered auth) else none))
  | gone (thread : ℕ) (auth : AuthContext)
    (hrunning : c.running.lookup thread=some (.answered auth))
      (hnobody : participantOf c.shared auth.key=none) :
      RosterStep c (.resume thread) ⟨c.shared,c.running.erase thread⟩
  | read (thread : ℕ) (auth : AuthContext)
    (hrunning : c.running.lookup thread=some (.answered auth))
      (participant : ParticipantInfo) (hthere : participantOf c.shared auth.key=some participant) :
      RosterStep c (.resume thread)
        ⟨c.shared,c.running.insert thread (.registering auth participant)⟩
  | registered (thread : ℕ) (auth : AuthContext) (participant : ParticipantInfo)
      (hrunning : c.running.lookup thread=some (.registering auth participant)) :
      RosterStep c (.resume thread)
        ⟨c.shared.registerJoin auth participant,c.running.erase thread⟩
  | goodbye (thread : ℕ) (room : String) (participant : ParticipantInfo)
      (hrunning : c.running.lookup thread=some (.leaving room participant)) :
      RosterStep c (.resume thread)
        ⟨c.shared.broadcastUpdate room participant,c.running.erase thread⟩

variable {auth : AuthContext}

theorem roster_vacate (hn : participantOf s auth.key=none) (now : ℤ) :
    Roster s (vacate s auth now) auth.key none := by
  have hc := effect_applyRoomConfig s auth now auth.key (fun _ => True)
  rw [hn] at hc
  have hno : (s.applyRoomConfigOnFirstRoomCreation auth now).getParticipant auth.key=none := by
    rw [getParticipant_eq,hc.self]
  have hs : (s.applyRoomConfigOnFirstRoomCreation auth now).joinResponses=s.joinResponses ∧
      (s.applyRoomConfigOnFirstRoomCreation auth now).updates=s.updates := by
    rw [applyRoomConfigOnFirstRoomCreation]
    split <;> exact ⟨rfl,rfl⟩
  rw [vacate,disconnectParticipantFromService,hno]
  exact ⟨hc.participants,hc.keyed,hs.1,hs.2⟩

/-- A join that is refused changes nobody; another one finds all who are in the room. -/
theorem storeJoin_cases (hn : participantOf s auth.key=none) (request : SignalJoinRequest)
    (now : ℤ) :
    (∃t,s.storeJoin auth request now=(t,none) ∧ Roster s t auth.key none) ∨
      ∃j t,s.storeJoin auth request now=(t,some j) ∧
        j.participant.permission=some auth.claims.video.permission ∧
        (∀identity,j.existing.lookup identity=participantOf s ⟨auth.key.room,identity⟩) ∧
        Roster s t auth.key (some j.participant) := by
  have hv := roster_vacate hn now
  have hk := fun h : Keyed (vacate s auth now).rooms =>
    h.joinParticipantWithPermission (joinCall auth request) now
  rw [storeJoin]
  by_cases hr : !(vacate s auth now).roomAutoCreateOnJoin ∧
    auth.key.room∉(vacate s auth now).rooms.rooms.keys
  · rw [if_pos hr]
    exact .inl ⟨_,rfl,hv⟩
  rw [if_neg hr]
  obtain ⟨e,st,heq,hsame⟩ | ⟨j,st,heq,-,hp,he,hroom⟩ :=
    joinParticipantWithPermission_spec (vacate s auth now).rooms (joinCall auth request) now
  · rw [heq] at hk ⊢
    refine .inl ⟨_,rfl,⟨?_,fun h => hk (hv.keyed h),hv.responses,hv.updates⟩⟩
    intro r i
    exact (hsame r i).trans (hv.participants r i)
  · rw [heq] at hk ⊢
    refine .inr ⟨j,_,rfl,hp,?_,⟨hv.participants.trans hroom,
      fun h => hk (hv.keyed h),hv.responses,hv.updates⟩⟩
    intro identity
    rw [he identity]
    by_cases hs : (⟨auth.key.room,identity⟩ : ParticipantKey)=auth.key
    · rw [hs,hn]
      exact (congrArg (participantOf (vacate s auth now)) hs).trans hv.self
    · exact hv.other hs

theorem removeFromRoom_cases (s : SessionState) (key : ParticipantKey) (now : ℤ) :
    ∃t rm,s.removeFromRoom key now=(t,rm) ∧ Roster s t key none := by
  have hk := fun h : Keyed s.rooms =>
    h.removeParticipantWithReason key.room key.identity clientInitiated now
  rw [removeFromRoom]
  obtain ⟨e,hn,heq⟩ | ⟨p,st,-,heq,hr⟩ :=
    removeParticipantWithReason_spec s.rooms key.room key.identity clientInitiated now
  · rw [heq]
    refine ⟨_,_,rfl,⟨?_,fun h => h,rfl,rfl⟩⟩
    rw [← hn]
    exact replaces_refl s.rooms key.room key.identity
  · rw [heq] at hk ⊢
    exact ⟨_,_,rfl,⟨hr,hk,rfl,rfl⟩⟩

theorem answerLocalJoin_cases (s : SessionState) (auth : AuthContext) (j : Joined) :
    ∃t present r,
      s.answerLocalJoin auth j={t with joinResponses := t.joinResponses++[r]} ∧
        Option.Rel SameSession (participantOf s auth.key) present ∧ Roster s t auth.key present ∧
        r.key=auth.key ∧ r.otherParticipants =
          j.existing.filter (fun _ o => !participantIsHidden o) := by
  have hk := fun h : Keyed s.rooms => keyed_setParticipantKind h auth.key.room
    auth.key.identity auth.claims.kind auth.claims.kindDetails
  rw [answerLocalJoin]
  cases ht : participantOf s auth.key with
  | none =>
    have hu : ∃e,s.rooms.setParticipantKind auth.key.room auth.key.identity
        auth.claims.kind auth.claims.kindDetails=(.error e,s.rooms) := by
      obtain he | ⟨p,d,st,hc,-⟩ := editParticipant_spec s.rooms
        auth.key.room auth.key.identity (fun p => .ok (newVersion {p with
          kind := auth.claims.kind,kindDetails := auth.claims.kindDetails}))
      · exact he
      · exact absurd (ht.symm.trans hc) (by simp)
    obtain ⟨e,heq⟩ := hu
    rw [heq]
    have hs := replaces_refl s.rooms auth.key.room auth.key.identity
    rw [show currentParticipant s.rooms auth.key.room auth.key.identity=none from ht] at hs
    exact ⟨s,none,_,rfl,.none,⟨hs,fun h => h,rfl,rfl⟩,rfl,rfl⟩
  | some p =>
    obtain ⟨re,st,kinded,heq,hs,-,hr⟩ := setParticipantKind_spec s.rooms
      auth.key.room auth.key.identity auth.claims.kind auth.claims.kindDetails ht
    rw [heq] at hk ⊢
    exact ⟨s.withRooms st,some kinded,_,rfl,.some hs,⟨hr,hk,rfl,rfl⟩,rfl,rfl⟩

variable (c : Threads SessionState RosterPoint) {thread : ℕ}

theorem rosterStep_enter (hi : c.running.lookup thread=none) {call : RosterCall}
    (hf : ∀auth r d now,call = .join auth r d now → participantOf c.shared auth.key=none) :
    RosterStep c (.enter thread call) (c.moveTo thread (rosterMachine.enter call c.shared)) := by
  cases call with
  | join auth r d now =>
    obtain ⟨t,heq,hr⟩ | ⟨j,t,heq,hp,he,hr⟩ := storeJoin_cases (hf auth r d now rfl) r now
    · simp only [rosterMachine,heq]
      rw [moveTo_of_idle hi]
      exact .refused _ t auth.key hr
    · simp only [rosterMachine,heq]
      exact .stored thread auth r d now j t hr hp he hi
  | leave key now =>
    obtain ⟨t,rm,heq,hr⟩ := removeFromRoom_cases c.shared key now
    simp only [rosterMachine,heq]
    cases rm with
    | none =>
      rw [moveTo_of_idle hi]
      exact .refused _ t key hr
    | some p => exact .left thread key now p t hr hi
  | drop ch =>
    rw [rosterMachine,moveTo_of_idle hi]
    exact .dropped _ ch

theorem rosterStep_resume {x : RosterPoint} (hr : c.running.lookup thread=some x) :
    RosterStep c (.resume thread) (c.moveTo thread (rosterMachine.resume x c.shared)) := by
  cases x with
  | stored auth j d =>
    obtain ⟨t,present,r,heq,hs,hroom,hkey,ho⟩ := answerLocalJoin_cases c.shared auth j
    simp only [rosterMachine,heq]
    exact .answered thread auth j d hr t present r hs hroom hkey ho
  | answered auth =>
    simp only [rosterMachine,getParticipant_eq]
    cases ht : participantOf c.shared auth.key with
    | none => exact .gone thread auth hr ht
    | some p => exact .read thread auth hr p ht
  | registering auth p => exact .registered thread auth p hr
  | leaving room p => exact .goodbye thread room p hr

theorem rosterStep (e : Event RosterCall) (hf : ∀t auth r d now,
      e = .enter t (.join auth r d now) → participantOf c.shared auth.key=none) :
    RosterStep c e (rosterMachine.step c e) := by
  obtain hs | ⟨re,hran,hs⟩ := rosterMachine.step_cases c e
  · rw [hs]
    exact .nothing e
  rw [hs]
  cases e with
  | enter t call =>
    rw [Machine.ran] at hran
    split at hran
    · next hi =>
      rw [← Option.some.inj hran]
      exact rosterStep_enter c hi (fun auth r d now hc =>
        hf t auth r d now (by rw [hc]))
    · cases hran
  | resume t =>
    obtain ⟨x,hr,rfl⟩ := Option.map_eq_some_iff.mp hran
    exact rosterStep_resume c hr

end OxideSfu.Signaling
