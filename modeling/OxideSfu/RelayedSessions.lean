import OxideSfu.RelayedSignals

/-!
# Signals of earlier sessions

Events are stored for a room, an identity and a node, and a participant that joins again has a new
session under the same three. An event of an earlier session stays away from the later sockets when
there is none left at the join and the earlier senders are silent from then on.
-/

namespace OxideSfu.Relay

open FiniteMaps KeyedSets StepRuns CriticalSections KeyedSet List

/-- A join finds no event stored for the participant, and events are emitted for the last session
only. -/
def startsClean (c : Threads SignalRelay DrainPoint) : Event SignalCall→Bool
  | .enter _ (.join key) =>
    decide (∀eventId∈c.shared.events.map.keys,(c.shared.events.map.lookup eventId).all
      (·.key≠key))
  | .enter _ (.push session key _ _) =>
    c.shared.hasSession key session → session=c.shared.lastSession key
  | _ => true

/-- No event has reached the socket of a later session. -/
def Isolated (s : SignalRelay) : Prop := ∀delivery∈s.delivered,delivery.1≤delivery.2.session

/-- What is stored for a participant is of its last session. -/
structure UpToDate (s : SignalRelay) : Prop where
  current : ∀event∈s.events,event.session=s.lastSession event.key
  isolated : Isolated s

/-- A drain deals with events that are not of an earlier session than its socket. -/
def PointUpToDate (point : DrainPoint) (_ : SignalRelay) : Prop :=
  ∀event∈point.todo++point.responses,point.socket≤event.session

variable {pid : Fin (2 ^ 32)} {s : SignalRelay}

theorem lastSession_openSession (key o : SessionKey) :
    (s.openSession key).lastSession o =
      if o=key then s.lastSession key+1 else s.lastSession o := by
  rw [SignalRelay.lastSession,SignalRelay.openSession,FiniteMap.lookup_insert]
  split_ifs
  · rfl
  · rfl

variable {key : SessionKey}

theorem UpToDate.openSession (h : UpToDate s) (hc : ∀e∈s.events,e.key≠key) :
    UpToDate (s.openSession key) := by
  refine ⟨?_,h.isolated⟩
  intro e he
  rw [lastSession_openSession,if_neg (hc e he)]
  exact h.current e he

theorem UpToDate.push (h : UpToDate s) {n : ℕ} (hl : n=s.lastSession key) (now : Fin (2^128))
    (sr : List UInt8) :
    UpToDate (s.storeOutboundSignalResponse (s.newEvent pid n key now sr) now) := by
  refine ⟨?_,h.isolated⟩
  intro e he
  obtain rfl | ⟨-,hb⟩ := mem_insert.mp he
  · exact hl
  · exact h.current e hb

variable {x : DrainPoint}

/-- The events that a drain finds are of the last session, which the socket has at most. -/
theorem UpToDate.beginDrain (h : UpToDate s) {drain : Drain}
    (hs : s.hasSession drain.query.key drain.socket)
    (hp : s.beginDrain drain=some x) : PointUpToDate x s := by
  obtain ⟨rfl,-⟩ := SignalRelay.beginDrain_eq_some hp
  intro e he
  rw [append_nil] at he
  obtain ⟨hst,hkey⟩ := mem_listing.mp (mem_of_mem_take he)
  rw [h.current e hst,of_decide_eq_true hkey]
  exact (of_decide_eq_true hs).2

theorem UpToDate.hdel (h : UpToDate s) (e : StoredRelayOutboundSignalResponse) :
    UpToDate (s.hdel e) :=
  ⟨fun o ho => h.current o (mem_of_mem_hdel ho),h.isolated⟩

theorem UpToDate.continueDrain (h : UpToDate s) (hp : PointUpToDate x s)
    {r : SignalRelay × Option DrainPoint} (hs : SignalRelay.DrainStep s x r) :
    UpToDate r.1 ∧ ∀next,r.2=some next → PointUpToDate next r.1 := by
  cases hs with
  | idle => exact ⟨h,by simp⟩
  | refused => exact ⟨h,by simp⟩
  | lostReply => exact ⟨h.hdel _,by simp⟩
  | @returned e ht =>
    refine ⟨⟨(h.hdel e).current,?_⟩,by simp⟩
    intro d hd
    obtain hb | hnow := mem_append.mp hd
    · exact h.isolated d hb
    · obtain ⟨rp,hr,rfl⟩ := mem_map.mp hnow
      refine hp rp ?_
      rw [ht]
      exact mem_append.mpr (mem_append.mp hr).symm
  | @went e todo ht hm =>
    refine ⟨h.hdel e,?_⟩
    rintro _ ⟨⟩ rp hr
    refine hp rp ?_
    rw [ht]
    simp only [mem_append,mem_cons,not_mem_nil,or_false] at hr ⊢
    tauto

theorem UpToDate.enter {c : Threads SignalRelay DrainPoint} (h : UpToDate c.shared) {t : ℕ}
    {call : SignalCall} (hc : startsClean c (.enter t call)) :
    UpToDate ((signalCallers pid).enter call c.shared).1 ∧
      ∀x,((signalCallers pid).enter call c.shared).2=some x →
        PointUpToDate x ((signalCallers pid).enter call c.shared).1 := by
  cases call with
  | join key =>
    refine ⟨h.openSession ?_,by simp [signalCallers]⟩
    intro e he
    have ho := of_decide_eq_true hc e.eventId (FiniteMap.mem_keys_of_lookup (mem_iff_lookup.mp he))
    rw [mem_iff_lookup.mp he] at ho
    exact of_decide_eq_true ho
  | push n key now sr =>
    simp only [signalCallers]
    split_ifs with hs
    · exact ⟨h.push (of_decide_eq_true hc hs) now sr,by simp⟩
    · exact ⟨h,by simp⟩
  | drain drain =>
    simp only [signalCallers]
    split_ifs with hs
    · exact ⟨h,fun x hp => h.beginDrain hs hp⟩
    · exact ⟨h,by simp⟩

/-- In every run in which joins find nothing stored and earlier sessions are silent after them, no
event is returned to the socket of a later session than its own. -/
theorem isolated_of_startsClean (pid : Fin (2 ^ 32)) (events : List (Event SignalCall))
    (hclean : AtEveryStep (fun earlier event =>
      startsClean (signalsAfter pid earlier) event) events) :
    Isolated (signalsAfter pid events).shared := by
  have hs : Annotated UpToDate PointUpToDate (.idle .empty) := by
    refine ⟨⟨?_,?_⟩,?_⟩
    · exact fun event he => absurd he (not_mem_empty event)
    · exact fun delivery hd => absurd hd not_mem_nil
    · intro thread point hp
      cases hp
  have hk : Annotated UpToDate PointUpToDate (signalsAfter pid events) := by
    refine @Annotated.run _ _ _ (signalCallers pid) _ _ _ events hs
      (fun c event => startsClean c event) hclean ?_
    intro c event result h he hran
    have hn : UpToDate result.1 ∧ ∀point,result.2=some point → PointUpToDate point result.1 := by
      obtain ⟨call,heq,rfl⟩ | ⟨point,-,hp,rfl⟩ := (signalCallers pid).ran_eq_some hran
      · rw [heq] at he
        exact h.1.enter he
      · exact h.1.continueDrain (h.2 _ point hp) (c.shared.drainStep_continueDrain point)
    exact ⟨hn.1,hn.2,fun other point _ hp => h.2 other point hp⟩
  exact hk.1.isolated

def rejoinedClean : List (Event SignalCall) :=
  [.enter 0 (.join aliceInHall),.enter 0 (.push 1 aliceInHall 5 [1]),
    .enter 1 (drainForAlice 1 []),.resume 1,
    .enter 0 (.join aliceInHall),.enter 0 (.push 2 aliceInHall 6 [2]),
    .enter 2 (drainForAlice 2 []),.resume 2]

theorem isolated_rejoinedClean :
    ((signalsAfter 7 rejoinedClean).shared.delivered.map
        (fun delivery => (delivery.1,delivery.2.session)) = [(1,1),(2,2)]) ∧
      Isolated (signalsAfter 7 rejoinedClean).shared :=
  ⟨by decide +kernel,isolated_of_startsClean 7 rejoinedClean (by decide +kernel)⟩

/-- Alice's socket closes before it drains. Then she joins again, and the sender of her first
session has something more to say. -/
def rejoinedEarly : List (Event SignalCall) :=
  [.enter 0 (.join aliceInHall),.enter 0 (.push 1 aliceInHall 5 [1]),
    .enter 0 (.join aliceInHall),.enter 2 (drainForAlice 2 []),.resume 2,
    .enter 0 (.push 1 aliceInHall 6 [2]),.enter 2 (drainForAlice 2 []),.resume 2]

theorem not_isolated_rejoinedEarly :
    ((signalsAfter 7 rejoinedEarly).shared.delivered.map
        (fun delivery => (delivery.1,delivery.2.session)) = [(2,1),(2,1)]) ∧
      ¬Isolated (signalsAfter 7 rejoinedEarly).shared := by
  have hd : (signalsAfter 7 rejoinedEarly).shared.delivered.map
      (fun delivery => (delivery.1,delivery.2.session))=[(2,1),(2,1)] := by
    decide +kernel
  refine ⟨hd,?_⟩
  intro h
  have he : ∀pair∈(signalsAfter 7 rejoinedEarly).shared.delivered.map
      (fun delivery => (delivery.1,delivery.2.session)),pair.1≤pair.2 := by
    intro pair hp
    obtain ⟨delivery,hde,rfl⟩ := mem_map.mp hp
    exact h delivery hde
  exact absurd (he (2,1) mem_cons_self) (by decide)

end OxideSfu.Relay
