import OxideSfu.SessionOutcomes
import OxideSfu.StepRuns

/-!
# The grace period for reconnects

When the socket of a session closes, the participant is kept and a timer is started
(`cleanup_if_active_session` in `router.rs`). It removes the participant if it is not connected then
and still has its sid; a reconnect does not stop it. Time does not pass a timer that is due.
-/

namespace OxideSfu.Signaling

open FiniteMaps Rooms RoomStore SessionState StepRuns List Option

structure GraceTimer where
  deadline : ℕ
  key : ParticipantKey
  sid : String

/-- `lastClose` has the time at which a socket of a participant closed last. -/
structure GraceState where
  sessions : SessionState
  now : ℕ
  timers : List GraceTimer
  lastClose : FiniteMap ParticipantKey ℕ

def sidOf (s : SessionState) (key : ParticipantKey) : Option String :=
  (s.getParticipant key).map (·.sid)

def departingParticipantSid (s : SessionState) (key : ParticipantKey) (channel : ℕ) :
    Option String :=
  if s.signalConnections.lookup key≠some channel then none
  else if key∉s.peerConnections then none
  else (sidOf s key).filter (· ≠ "")

def graceTimerFires (s : SessionState) (key : ParticipantKey) (sid : String) (now : ℤ) :
    SessionState :=
  if (s.signalConnections.lookup key).isSome then s
  else if sidOf s key=some sid then s.cleanupParticipantRuntimeState key now
  else s

inductive GraceEvent
  | join (auth : AuthContext) (request : SignalJoinRequest) (delivered : Bool)
  | close (channel : ℕ)
  | openPeerConnection (key : ParticipantKey)
  | closePeerConnections (key : ParticipantKey)
  | wait (duration : ℕ)
  | fire (timer : ℕ)

namespace GraceState

def initial (defaults : RoomDefaults) (roomAutoCreateOnJoin : Bool) : GraceState :=
  ⟨.initial defaults roomAutoCreateOnJoin,0,[],.empty⟩

def closeSocket (grace : ℕ) (s : GraceState) (channel : ℕ) : GraceState :=
  match s.sessions.sockets.lookup channel with
  | none => s
  | some key =>
    {s with
      sessions := s.sessions.closeSocket channel false s.now
      timers := s.timers++(departingParticipantSid s.sessions key channel).toList.map
        (fun sid => ⟨s.now+grace,key,sid⟩)
      lastClose := s.lastClose.insert key s.now}

/-- Time passes until a timer is due at the latest. -/
def wait (s : GraceState) (duration : ℕ) : GraceState :=
  {s with now := s.timers.foldl (fun stop timer => min stop timer.deadline) (s.now+duration)}

def fire (s : GraceState) (timer : ℕ) : GraceState :=
  match s.timers[timer]? with
  | none => s
  | some ⟨deadline,key,sid⟩ =>
    if deadline≠s.now then s
    else
      {s with
        sessions := graceTimerFires s.sessions key sid s.now,timers := s.timers.eraseIdx timer}

def step (grace : ℕ) (s : GraceState) : GraceEvent → GraceState
  | .join auth request delivered =>
    {s with sessions := s.sessions.runJoinSocket auth request delivered s.now}
  | .close channel => s.closeSocket grace channel
  | .openPeerConnection key =>
    {s with sessions := s.sessions.step (.openPeerConnection key)}
  | .closePeerConnections key =>
    {s with sessions := s.sessions.step (.closePeerConnections key)}
  | .wait duration => s.wait duration | .fire timer => s.fire timer

def run (grace : ℕ) (s : GraceState) (events : List GraceEvent) : GraceState :=
  events.foldl (step grace) s

@[simp] theorem run_concat (grace : ℕ) (s : GraceState) (es : List GraceEvent) (e : GraceEvent) :
    s.run grace (es++[e])=(s.run grace es).step grace e :=
  foldl_append

end GraceState

def nextParticipantSid (rooms : RoomStore) : String :=
  "PA_" ++ hex16 (saturatingSucc 64 rooms.nextParticipantId)

/-- A new participant gets a sid for which no timer runs, and when a socket of a participant closes,
no timer runs for the sid that the participant has. -/
def NoTimerRuns (s : GraceState) : GraceEvent→Prop
  | .join _ request _ => request.reconnect=false →
      ∀timer∈s.timers,timer.sid≠nextParticipantSid s.sessions.rooms
  | .close channel => ∀key∈s.sessions.sockets.lookup channel,∀timer∈s.timers,
      timer.key=key → sidOf s.sessions key≠some timer.sid
  | _ => True

instance (s : GraceState) : (event : GraceEvent)→Decidable (NoTimerRuns s event)
  | .join _ _ _ => inferInstanceAs (Decidable (_ → _))
  | .close _ => inferInstanceAs (Decidable (∀key∈_,_))
  | .openPeerConnection _ | .closePeerConnections _ | .wait _ | .fire _ =>
    isTrue trivial

/-- A timer that removes a participant finds it without a connection, and its last socket closed at
least the grace period ago. -/
def GraceHonoured (grace : ℕ) (s : GraceState) : GraceEvent→Prop
  | .fire timer => ∀key,(s.sessions.getParticipant key).isSome →
      ((s.step grace (.fire timer)).sessions.getParticipant key).isSome=false →
      s.sessions.signalConnections.lookup key=none ∧
        ∀close∈s.lastClose.lookup key,close+grace ≤ s.now
  | _ => True

variable {s t : SessionState}

/-- No participant gets another sid; some may leave. -/
def SidsStay (s t : SessionState) : Prop := ∀key sid,sidOf t key=some sid → sidOf s key=some sid

theorem sidOf_eq (s : SessionState) (key : ParticipantKey) :
    sidOf s key=(participantOf s key).map (·.sid) := by
  rw [sidOf,getParticipant_eq]

variable {key : ParticipantKey} {r : SignalJoinRequest}

theorem Kept.sidsStay (h : Kept key s t) : SidsStay s t := by
  obtain ⟨p,hsame,he⟩ := h
  intro o sid hsid
  rw [sidOf_eq] at hsid ⊢
  by_cases ho : o=key
  · subst ho
    rw [he.self] at hsid
    obtain ⟨present,hp,rfl⟩ := map_eq_some_iff.mp hsid
    rw [hp] at hsame
    obtain ⟨e,hea,hs⟩ := exists_of_sameParticipant hsame
    rw [hea,map_some,hs.sid]
  · rwa [he.other ho] at hsid

theorem Left.sidsStay (h : Left key s t) : SidsStay s t := by
  obtain ⟨ps,-,he⟩ := h
  intro o sid hsid
  rw [sidOf_eq] at hsid ⊢
  by_cases ho : o=key
  · subst ho
    rw [he.self] at hsid
    cases hsid
  · rwa [he.other ho] at hsid

theorem nextParticipantId_removeParticipant (s : RoomStore) (room i : String) (re : ℕ)
    (now : ℤ) : (s.removeParticipantWithReason room i re now).2.nextParticipantId =
      s.nextParticipantId := by
  rw [removeParticipantWithReason]
  split
  · rfl
  · split <;> rfl

theorem nextParticipantId_cleanup (s : SessionState) (key : ParticipantKey) (now : ℤ) :
    (s.cleanupParticipantRuntimeState key now).rooms.nextParticipantId =
      s.rooms.nextParticipantId := by
  have hn := nextParticipantId_removeParticipant s.rooms key.room key.identity clientInitiated now
  rw [cleanupParticipantRuntimeState]
  split
  · next hr => rwa [hr] at hn
  · next hr => rwa [hr] at hn

theorem nextParticipantId_vacate (s : SessionState) (auth : AuthContext) (now : ℤ) :
    (vacate s auth now).rooms.nextParticipantId=s.rooms.nextParticipantId := by
  have hc : (s.applyRoomConfigOnFirstRoomCreation auth now).rooms.nextParticipantId =
      s.rooms.nextParticipantId := by
    rw [applyRoomConfigOnFirstRoomCreation]
    split
    · rw [createRoom]
      split <;> rfl
    · rfl
  rw [← hc,vacate,disconnectParticipantFromService]
  split
  · rfl
  · exact nextParticipantId_cleanup _ auth.key now

variable {auth : AuthContext} {d : Bool} {sid : String} {now : ℤ}

theorem sidOf_enterRoom (hn : participantOf s auth.key=none)
    (h : sidOf (enterRoom s auth r d now) key=some sid) :
    sidOf s key=some sid ∨ sid=nextParticipantSid s.rooms := by
  rw [sidOf_eq] at h ⊢
  obtain ⟨-,he⟩ | ⟨p,-,hsid,he⟩ := @effect_enterRoom (fun _ => True) s auth r d now hn
  · by_cases ho : key=auth.key
    · rw [ho,he.self] at h
      cases h
    · rw [he.other ho] at h
      exact .inl h
  · by_cases ho : key=auth.key
    · rw [ho,he.self,map_some,some_inj] at h
      exact .inr (h.symm.trans hsid)
    · rw [he.other ho] at h
      exact .inl h

theorem sidOf_runJoinSocket (h : sidOf (s.runJoinSocket auth r d now) key=some sid) :
    sidOf s key=some sid ∨ (r.reconnect=false ∧ sid=nextParticipantSid s.rooms) := by
  rw [runJoinSocket] at h
  split_ifs at h with hre hr
  · exact .inl h
  · obtain hsame | ⟨-,-,he⟩ := effect_reconnect s auth r d
    · rw [hsame] at h
      exact .inl h
    · left
      rw [sidOf_eq] at h ⊢
      by_cases ho : key=auth.key
      · rwa [ho,he.self,← ho] at h
      · rwa [he.other ho] at h
  · obtain ⟨ps,hf,he⟩ := effect_vacate s auth now
    obtain hs | hnew := sidOf_enterRoom he.self h
    · exact .inl (Left.sidsStay ⟨ps,hf,he⟩ key sid hs)
    · rw [nextParticipantSid,nextParticipantId_vacate] at hnew
      exact .inr ⟨by simpa using hr,hnew⟩

variable {grace : ℕ} {s : GraceState}

/-- A timer that is after the participant's present sid is due at least the grace period after the
participant's last socket closed. -/
def TimersPatient (grace : ℕ) (s : GraceState) : Prop :=
  ∀timer∈s.timers,sidOf s.sessions timer.key=some timer.sid →
    ∀close∈s.lastClose.lookup timer.key,close+grace≤timer.deadline

theorem sidsStay_graceTimerFires (s : SessionState) (key : ParticipantKey) (sid : String)
    (now : ℤ) :
    SidsStay s (graceTimerFires s key sid now) := by
  rw [graceTimerFires]
  split_ifs
  · exact fun _ _ => id
  · exact (left_cleanup s key now).sidsStay
  · exact fun _ _ => id

section

variable (h : TimersPatient grace s)

include h

theorem TimersPatient.closeSocket {c : ℕ} (hq : NoTimerRuns s (.close c)) :
    TimersPatient grace (s.closeSocket grace c) := by
  rw [GraceState.closeSocket]
  cases hso : s.sessions.sockets.lookup c with
  | none => exact h
  | some key =>
    have hs : SidsStay s.sessions (s.sessions.closeSocket c false s.now) := by
      obtain ⟨_,hk | hl⟩ := closeSocket_cases s.sessions c false s.now
      · exact hk.sidsStay
      · exact hl.sidsStay
    intro timer hmem hsid close hc
    rw [FiniteMap.lookup_insert] at hc
    obtain hold | hnew := mem_append.mp hmem
    · split_ifs at hc with hkey
      · -- No timer runs for the sid of the participant whose socket closes.
        exact absurd (hkey ▸ hs timer.key timer.sid hsid) (hq key hso timer hold hkey)
      · exact h timer hold (hs timer.key timer.sid hsid) close hc
    · obtain ⟨sid,-,rfl⟩ := mem_map.mp hnew
      rw [if_pos rfl] at hc
      cases hc
      exact Nat.le_refl _

theorem TimersPatient.fire (timer : ℕ) : TimersPatient grace (s.fire timer) := by
  rw [GraceState.fire]
  split
  · exact h
  · next deadline key sid hf =>
    split_ifs
    · exact h
    · intro o hmem hsid close hc
      exact h o (mem_of_mem_eraseIdx hmem)
        (sidsStay_graceTimerFires s.sessions key sid s.now o.key o.sid hsid) close hc

theorem TimersPatient.step {e : GraceEvent} (hq : NoTimerRuns s e) :
    TimersPatient grace (s.step grace e) := by
  cases e with
  | join auth r d =>
    intro timer hmem hsid close hc
    obtain hs | ⟨hf,hnew⟩ := sidOf_runJoinSocket hsid
    · exact h timer hmem hs close hc
    · exact absurd hnew (hq hf timer hmem)
  | close c => exact h.closeSocket hq
  | openPeerConnection key => exact h
  | closePeerConnections key => exact h
  | wait duration => exact h
  | fire timer => exact h.fire timer

/-- A timer removes only the participant that it is after. -/
theorem TimersPatient.honoured (e : GraceEvent) : GraceHonoured grace s e := by
  cases e with
  | fire timer =>
    intro key ht hg
    rw [GraceState.step,GraceState.fire] at hg
    split at hg
    · rw [ht] at hg
      cases hg
    · next deadline timerKey sid hf =>
      split_ifs at hg with hdue
      · rw [ht] at hg
        cases hg
      rw [graceTimerFires] at hg
      split_ifs at hg with hc hsid
      · rw [ht] at hg
        cases hg
      · by_cases ho : key=timerKey
        · subst ho
          refine ⟨by simpa using hc,fun close hcl => ?_⟩
          rw [← not_not.mp hdue]
          exact h ⟨deadline,key,sid⟩ (mem_of_getElem? hf) hsid close hcl
        · obtain ⟨ps,-,he⟩ := left_cleanup s.sessions timerKey s.now
          rw [getParticipant_eq,he.other ho,← getParticipant_eq,ht] at hg
          cases hg
      · rw [ht] at hg
        cases hg
  | _ => trivial

end

/-- The grace period is honoured in every run in which no socket of a participant closes while a
timer of an earlier close runs for its sid. -/
theorem grace_honoured (defaults : RoomDefaults) (autoCreate : Bool) (grace : ℕ)
    (events : List GraceEvent)
    (hquiet : AtEveryStep (fun earlier event =>
      NoTimerRuns ((GraceState.initial defaults autoCreate).run grace earlier) event) events) :
    AtEveryStep (fun earlier event =>
      GraceHonoured grace ((GraceState.initial defaults autoCreate).run grace earlier) event)
      events := by
  have hp : ∀earlier,AtEveryStep (fun earlier event =>
      NoTimerRuns ((GraceState.initial defaults autoCreate).run grace earlier) event) earlier →
      TimersPatient grace ((GraceState.initial defaults autoCreate).run grace earlier) := by
    intro earlier he
    refine he.induction (by rintro _ ⟨⟩) (fun earlier event hp heve => ?_)
    rw [GraceState.run_concat]
    exact hp.step heve
  intro earlier event later hev
  refine (hp earlier ?_).honoured event
  rw [hev] at hquiet
  exact hquiet.of_append

/-- Alice is back in time, the first timer finds it connected, and then it stays away. -/
def aliceReturnsOnce : List GraceEvent :=
  [.join (aliceToken []) {} true,.openPeerConnection alice,.close 0,.wait 3,
    .join (aliceToken []) {reconnect := true,participantSid := "PA_0000000000000001"} true,
    .wait 7,.fire 0,.close 1,.wait 10,.fire 0]

theorem alice_removed_after_grace :
    (((GraceState.initial {} true).run 10 (aliceReturnsOnce.take 9)).sessions.getParticipant
        alice).isSome ∧
      (((GraceState.initial {} true).run 10 aliceReturnsOnce).sessions.getParticipant
        alice).isSome = false ∧
      AtEveryStep (fun earlier event =>
        GraceHonoured 10 ((GraceState.initial {} true).run 10 earlier) event) aliceReturnsOnce :=
  ⟨by decide +kernel,by decide +kernel,
    grace_honoured {} true 10 aliceReturnsOnce (by decide +kernel)⟩

/-- Alice loses its socket at 0, is back at 3 and loses the new socket at 5. -/
def aliceLosesTwoSockets : List GraceEvent :=
  [.join (aliceToken []) {} true,.openPeerConnection alice,.close 0,.wait 3,
    .join (aliceToken []) {reconnect := true,participantSid := "PA_0000000000000001"} true,
    .wait 2,.close 1,.wait 5]

/-- The timer of the first close removes Alice 5 after the second one. -/
theorem first_timer_removes_alice :
    let s := (GraceState.initial {} true).run 10 aliceLosesTwoSockets
    s.now=10 ∧ s.lastClose.lookup alice=some 5 ∧
      (s.sessions.getParticipant alice).isSome ∧
      ((s.step 10 (.fire 0)).sessions.getParticipant alice).isSome=false ∧
      ¬ GraceHonoured 10 s (.fire 0) := by
  have hc : ((GraceState.initial {} true).run 10 aliceLosesTwoSockets).now=10 ∧
      ((GraceState.initial {} true).run 10 aliceLosesTwoSockets).lastClose.lookup alice=some 5 := by
    decide +kernel
  have hr :
      let s := (GraceState.initial {} true).run 10 aliceLosesTwoSockets
      (s.sessions.getParticipant alice).isSome ∧
        ((s.step 10 (.fire 0)).sessions.getParticipant alice).isSome=false := by
    decide +kernel
  refine ⟨hc.1,hc.2,hr.1,hr.2,fun honoured => ?_⟩
  obtain ⟨-,hl⟩ := honoured alice hr.1 hr.2
  have hf := hl 5 hc.2
  omega

end OxideSfu.Signaling
