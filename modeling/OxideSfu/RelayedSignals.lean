import OxideSfu.RelayMailbox

/-!
# Signals for relayed sessions

What the owner of a room says to a participant on another node is stored in a hash under ids that
grow with its clock and a counter (`relay/mailbox.rs`); the socket loop there sorts the values of
the participant by id and deletes the first of them one by one. What the commands will meet is part
of the call. Pushed and returned events are recorded with their sessions.
-/

namespace OxideSfu.Relay

open FiniteMaps KeyedSets StepRuns CriticalSections Threads KeyedSet List

/-- Ids of one process grow with the clock and, at one time, with the counter. -/
theorem nextUniqueId_lt (label : String) {c l : IdSource} (hpid : c.pid=l.pid)
    (h : c.nowNanos<l.nowNanos ∨ c.nowNanos=l.nowNanos ∧ c.seq<l.seq) :
    nextUniqueId label c<nextUniqueId label l := by
  have hd : c.digits<l.digits := by
    rw [IdSource.digits,IdSource.digits,append_assoc,append_assoc]
    obtain hn | ⟨hn,hseq⟩ := h
    · refine Numerals.append_lt_append ?_ ?_ _ _
      · exact Numerals.padded_lt_padded (by decide) hn l.nowNanos.isLt
      · rw [Numerals.length_padded (by decide) c.nowNanos.isLt,
          Numerals.length_padded (by decide) l.nowNanos.isLt]
    · rw [hn,hpid]
      refine append_left_lt (append_left_lt ?_)
      refine cons_lt_cons_iff.mpr (.inr ⟨rfl,?_⟩)
      exact Numerals.padded_lt_padded (by decide) hseq l.seq.isLt
  simp only [nextUniqueId,String.lt_iff_toList_lt,String.toList_append,String.toList_ofList]
  exact append_left_lt hd

structure SessionKey where
  (room identity selectedRoomNodeId : String)
  deriving DecidableEq

/-- An event in the hash. The session for which the owner has emitted it is not stored. -/
structure StoredRelayOutboundSignalResponse where
  eventId : String
  key : SessionKey
  signalResponse : List UInt8
  session : ℕ
  deriving DecidableEq

structure NonLocalRelayOutboundSignalQuery where
  key : SessionKey
  maxEvents : ℕ

/-- A deletion is done, or it fails, and then the event may be gone all the same. -/
inductive Deletion | done | refused | lostReply

structure Drain where
  socket : ℕ
  query : NonLocalRelayOutboundSignalQuery
  order : Iteration String
  readFails : Bool := false
  deletions : List Deletion := []

inductive SignalCall
  | join (key : SessionKey)
  | push (session : ℕ) (key : SessionKey) (now : Fin (2^128)) (signalResponse : List UInt8)
  | drain (drain : Drain)

structure DrainPoint where
  socket : ℕ
  key : SessionKey
  (todo responses : List StoredRelayOutboundSignalResponse)
  deletions : List Deletion

/-- The hash and the counter, with the time of the last push, the number of sessions of every
participant, and what was pushed and returned. -/
structure SignalRelay where
  events : KeyedSet StoredRelayOutboundSignalResponse.eventId
  nextSeq : Fin (2^64)
  clock : Fin (2^128)
  sessions : FiniteMap SessionKey ℕ
  pushed : List StoredRelayOutboundSignalResponse
  delivered : List (ℕ × StoredRelayOutboundSignalResponse)

namespace SignalRelay

def empty : SignalRelay := ⟨.empty,1,0,.empty,[],[]⟩

def lastSession (s : SignalRelay) (key : SessionKey) : ℕ := (s.sessions.lookup key).getD 0

def hasSession (s : SignalRelay) (key : SessionKey) (session : ℕ) : Bool :=
  0<session ∧ session ≤ s.lastSession key

def openSession (s : SignalRelay) (key : SessionKey) : SignalRelay :=
  {s with sessions := s.sessions.insert key (s.lastSession key+1)}

def newEvent (s : SignalRelay) (pid : Fin (2^32)) (session : ℕ) (key : SessionKey)
    (now : Fin (2^128)) (signalResponse : List UInt8) : StoredRelayOutboundSignalResponse where
  eventId := nextUniqueId "relay-outbound-signal" ⟨now,pid,s.nextSeq⟩
  key := key
  signalResponse := signalResponse
  session := session

def storeOutboundSignalResponse (s : SignalRelay) (event : StoredRelayOutboundSignalResponse)
    (now : Fin (2^128)) : SignalRelay :=
  {s with
    events := s.events.insert event,nextSeq := s.nextSeq+1,clock := now,pushed := s.pushed++[event]}

def candidates (s : SignalRelay) (key : SessionKey) (order : Iteration String) :
    List StoredRelayOutboundSignalResponse :=
  s.events.listing order (·.key=key)

def hdel (s : SignalRelay) (event : StoredRelayOutboundSignalResponse) : SignalRelay :=
  {s with events := s.events.erase event.eventId}

def deliver (s : SignalRelay) (socket : ℕ)
    (responses : List StoredRelayOutboundSignalResponse) : SignalRelay :=
  {s with delivered := s.delivered++responses.map (Prod.mk socket)}

def beginDrain (s : SignalRelay) (drain : Drain) : Option DrainPoint :=
  if drain.readFails then none
  else
    match (s.candidates drain.query.key drain.order).take drain.query.maxEvents with
    | [] => none | todo => some ⟨drain.socket,drain.query.key,todo,[],drain.deletions⟩

/-- The next deletion of a drain. One that fails ends the drain, and what it has deleted so far is
not returned. -/
def continueDrain (s : SignalRelay) (point : DrainPoint) : SignalRelay × Option DrainPoint :=
  match point.todo with
  | [] => (s,none)
  | event::todo =>
    match point.deletions.headD .done with
    | .refused => (s,none) | .lostReply => (s.hdel event,none)
    | .done =>
      let responses := point.responses++[event]
      match todo with
      | [] => ((s.hdel event).deliver point.socket responses,none)
      | _ => (s.hdel event,some {point with
          todo := todo,responses := responses,deletions := point.deletions.tail})

end SignalRelay

open SignalRelay

/-- Joins, pushes and drains, cut at the commands. A push and a drain belong to a session. -/
def signalCallers (pid : Fin (2^32)) : Machine SignalRelay SignalCall DrainPoint where
  enter
    | .join key, s => (s.openSession key,none)
    | .push session key now signalResponse, s =>
      if s.hasSession key session then
        (s.storeOutboundSignalResponse (s.newEvent pid session key now signalResponse) now,none)
      else (s,none)
    | .drain drain, s =>
      if s.hasSession drain.query.key drain.socket then (s,s.beginDrain drain) else (s,none)
  resume point s := s.continueDrain point

def signalsAfter (pid : Fin (2^32)) (events : List (Event SignalCall)) :
    Threads SignalRelay DrainPoint :=
  (signalCallers pid).run (.idle .empty) events

def SignalRelay.pushedFor (s : SignalRelay) (key : SessionKey) :
    List StoredRelayOutboundSignalResponse :=
  s.pushed.filter (·.key=key)

def SignalRelay.deliveredFor (s : SignalRelay) (key : SessionKey) :
    List StoredRelayOutboundSignalResponse :=
  (s.delivered.map Prod.snd).filter (·.key=key)

/-- The clock of the owner does not go back, and one loop drains for the participant. -/
def pushesAndDrains (key : SessionKey) (loop : ℕ) (c : Threads SignalRelay DrainPoint) :
    Event SignalCall→Bool
  | .enter _ (.push _ _ now _) => c.shared.clock≤now
  | .enter thread (.drain drain) => (drain.query.key=key → thread=loop) | _ => true

/-- A deletion for the participant that fails is the first of its drain and has no effect, and the
counter of ids does not start again at zero while the clock stands still. -/
def losesNothing (key : SessionKey) (c : Threads SignalRelay DrainPoint) : Event SignalCall→Bool
  | .enter _ (.push _ _ now _) => (c.shared.nextSeq=0 → c.shared.clock<now)
  | .enter _ _ => true
  | .resume thread => (c.running.lookup thread).all (fun point =>
      match point.deletions.headD .done with
      | .done => true | .refused => (point.key=key → point.responses=[])
      | .lostReply => point.key≠key)

variable {drain : Drain} {x : DrainPoint}

namespace SignalRelay

variable {s : SignalRelay}

theorem beginDrain_eq_some (h : s.beginDrain drain=some x) :
    x=⟨drain.socket,drain.query.key,
      (s.candidates drain.query.key drain.order).take drain.query.maxEvents,[],
      drain.deletions⟩ ∧ x.todo≠[] := by
  rw [beginDrain] at h
  split_ifs at h
  split at h
  · cases h
  · rename_i hb
    obtain rfl := Option.some.inj h
    exact ⟨rfl,hb⟩

/-- What the next command of a drain does: it ends the drain without a result, with the event gone
or not, or it deletes the event, and the drain goes on or returns. -/
inductive DrainStep (s : SignalRelay) (point : DrainPoint) :
    SignalRelay × Option DrainPoint→Prop
  | idle (htodo : point.todo=[]) : DrainStep s point (s,none)
  | refused {event : StoredRelayOutboundSignalResponse}
      {todo : List StoredRelayOutboundSignalResponse} (htodo : point.todo=event::todo)
      (hfate : point.deletions.headD .done = .refused) : DrainStep s point (s,none)
  | lostReply {event : StoredRelayOutboundSignalResponse}
      {todo : List StoredRelayOutboundSignalResponse} (htodo : point.todo=event::todo)
      (hfate : point.deletions.headD .done = .lostReply) : DrainStep s point (s.hdel event,none)
  | returned {event : StoredRelayOutboundSignalResponse} (htodo : point.todo=[event]) :
      DrainStep s point
        ((s.hdel event).deliver point.socket (point.responses++[event]),none)
  | went {event : StoredRelayOutboundSignalResponse}
      {todo : List StoredRelayOutboundSignalResponse} (htodo : point.todo=event::todo)
      (hmore : todo≠[]) : DrainStep s point (s.hdel event,some {point with
        todo := todo,responses := point.responses++[event],deletions := point.deletions.tail})

theorem drainStep_continueDrain (s : SignalRelay) (x : DrainPoint) :
    DrainStep s x (s.continueDrain x) := by
  rw [continueDrain]
  split
  · exact .idle ‹_›
  · rename_i e todo ht
    split
    · exact .refused ht ‹_›
    · exact .lostReply ht ‹_›
    · split
      · exact .returned ht
      · rename_i hm
        exact .went ht hm

theorem deliveredFor_deliver (key : SessionKey) (socket : ℕ)
    (responses : List StoredRelayOutboundSignalResponse) :
    (s.deliver socket responses).deliveredFor key = s.deliveredFor key++responses.filter
      (·.key=key) := by
  have hsnd : (responses.map (Prod.mk socket)).map Prod.snd=responses := by
    rw [map_map]
    exact map_id responses
  rw [deliveredFor,deliver,map_append,filter_append,hsnd,deliveredFor]

theorem pushedFor_storeOutboundSignalResponse (key : SessionKey)
    (e : StoredRelayOutboundSignalResponse) (now : Fin (2^128)) :
    (s.storeOutboundSignalResponse e now).pushedFor key = s.pushedFor key++[e].filter (·.key=key) :=
  filter_append ..

end SignalRelay

variable {now : Fin (2 ^ 128)} {t : SignalRelay}

theorem nextSeq_grows (seq : Fin (2^64)) : seq+1=0 ∨ seq<seq+1 := by
  have hn : (seq+1).val=(seq.val+1) % 2^64 := Fin.val_add seq 1
  have hb := seq.isLt
  by_cases hl : seq.val+1=2^64
  · refine .inl (Fin.ext ?_)
    rw [hn,hl]
    rfl
  · refine .inr ?_
    rw [Fin.lt_def,hn,Nat.mod_eq_of_lt (by omega)]
    exact Nat.lt_succ_self _

/-- The ids that can have been made before the next one. -/
def MadeBefore (pid : Fin (2^32)) (s : SignalRelay) (eventId : String) : Prop :=
  ∃source : IdSource,eventId=nextUniqueId "relay-outbound-signal" source ∧
    source.pid=pid ∧ (source.nowNanos<s.clock ∨
      source.nowNanos=s.clock ∧ (s.nextSeq=0 ∨ source.seq<s.nextSeq))

/-- Events are pushed in the order of their ids. -/
structure PushedInOrder (pid : Fin (2^32)) (s : SignalRelay) : Prop where
  stored : ∀event∈s.events,event∈s.pushed
  increasing : s.pushed.Pairwise (fun event later => event.eventId<later.eventId)
  madeBefore : ∀event∈s.pushed,MadeBefore pid s event.eventId

variable {pid : Fin (2 ^ 32)} {s : SignalRelay} {event o : StoredRelayOutboundSignalResponse}

theorem PushedInOrder.eq_of_eventId_eq (h : PushedInOrder pid s) (he : event∈s.pushed)
    (ho : o∈s.pushed) (hid : event.eventId=o.eventId) : event=o := by
  by_contra hne
  have hids : s.pushed.Pairwise (fun event later => event.eventId≠later.eventId) :=
    h.increasing.imp ne_of_lt
  have : Std.Symm (fun event later : StoredRelayOutboundSignalResponse =>
      event.eventId≠later.eventId) := ⟨fun _ _ hne => hne.symm⟩
  exact hids.forall he ho hne hid

/-- The next id is larger than all ids before, if the clock or the counter has moved on. -/
theorem MadeBefore.lt {eventId : String} (h : MadeBefore pid s eventId) (hc : s.clock≤now)
    (hseq : s.nextSeq=0 → s.clock<now) (n : ℕ) (key : SessionKey) (sr : List UInt8) :
    eventId<(s.newEvent pid n key now sr).eventId := by
  obtain ⟨c,rfl,hpid,hb⟩ := h
  refine nextUniqueId_lt _ hpid ?_
  obtain hn | ⟨hn,hse⟩ := hb
  · exact .inl (lt_of_lt_of_le hn hc)
  · obtain hl | hs := lt_or_eq_of_le hc
    · exact .inl (hn ▸ hl)
    · obtain hz | hle := hse
      · exact .inl (hn ▸ hseq hz)
      · exact .inr ⟨hn.trans hs,hle⟩

theorem PushedInOrder.push (h : PushedInOrder pid s) (hc : s.clock≤now)
    (hseq : s.nextSeq=0 → s.clock<now) (n : ℕ) (key : SessionKey) (sr : List UInt8) :
    PushedInOrder pid (s.storeOutboundSignalResponse (s.newEvent pid n key now sr) now) := by
  generalize hnew : s.newEvent pid n key now sr=new
  have hla : ∀e∈s.pushed,e.eventId<new.eventId := by
    intro e he
    rw [← hnew]
    exact (h.madeBefore e he).lt hc hseq n key sr
  refine ⟨?_,?_,?_⟩
  · intro e he
    obtain rfl | ⟨-,hb⟩ := mem_insert.mp he
    · exact mem_append_right _ (mem_singleton_self _)
    · exact mem_append_left _ (h.stored e hb)
  · refine pairwise_append.mpr ⟨h.increasing,pairwise_singleton _ _,?_⟩
    intro e he l hl
    obtain rfl := mem_singleton.mp hl
    exact hla e he
  · intro e he
    obtain hb | hl := mem_append.mp he
    · obtain ⟨c,hid,hpid,hma⟩ := h.madeBefore e hb
      refine ⟨c,hid,hpid,?_⟩
      obtain hn | ⟨hn,hse⟩ := hma
      · exact .inl (lt_of_lt_of_le hn hc)
      · obtain hm | hs := lt_or_eq_of_le hc
        · exact .inl (hn ▸ hm)
        · refine .inr ⟨hn.trans hs,(nextSeq_grows s.nextSeq).imp_right ?_⟩
          intro hg
          obtain hz | hle := hse
          · exact absurd (hseq hz) hs.not_lt
          · exact hle.trans hg
    · obtain rfl := mem_singleton.mp hl
      rw [← hnew]
      exact ⟨⟨now,pid,s.nextSeq⟩,rfl,rfl,.inr ⟨rfl,nextSeq_grows s.nextSeq⟩⟩

theorem PushedInOrder.of_subset (h : PushedInOrder pid s) (hp : t.pushed=s.pushed)
    (hev : ∀e∈t.events,e∈s.events)
    (hc : t.clock=s.clock) (hseq : t.nextSeq=s.nextSeq) : PushedInOrder pid t := by
  refine ⟨?_,?_,?_⟩
  · intro e he
    rw [hp]
    exact h.stored e (hev e he)
  · rw [hp]
    exact h.increasing
  · rw [hp]
    intro e he
    rw [MadeBefore,hc,hseq]
    exact h.madeBefore e he

theorem mem_of_mem_hdel (h : o∈(s.hdel event).events) : o∈s.events := (mem_erase.mp h).2

theorem PushedInOrder.hdel (h : PushedInOrder pid s) (e : StoredRelayOutboundSignalResponse) :
    PushedInOrder pid (s.hdel e) :=
  h.of_subset rfl (fun _ => mem_of_mem_hdel) rfl rfl

theorem PushedInOrder.mem_hdel_of_key_ne (h : PushedInOrder pid s) (he : event∈s.pushed)
    (hkey : event.key≠o.key) : o∈(s.hdel event).events ↔ o∈s.events := by
  refine mem_erase.trans (and_iff_right_of_imp ?_)
  intro ho hid
  exact hkey (congrArg _ (h.eq_of_eventId_eq he (h.stored o ho) hid.symm))

def heldFor (key : SessionKey) : Option DrainPoint → List StoredRelayOutboundSignalResponse
  | none => []
  | some point => if point.key=key then point.responses else []

def plannedFor (key : SessionKey) : Option DrainPoint → List StoredRelayOutboundSignalResponse
  | none => []
  | some point => if point.key=key then point.todo else []

variable {r : SignalRelay × Option DrainPoint} {point : Option DrainPoint} {thread : ℕ}
  {rest : List StoredRelayOutboundSignalResponse}

theorem heldFor_of_key_ne {key : SessionKey} (h : ∀p,point=some p → p.key≠key) :
    heldFor key point=[] := by
  cases point with
  | none => rfl
  | some p => exact if_neg (h p rfl)

theorem plannedFor_of_key_ne {key : SessionKey} (h : ∀p,point=some p → p.key≠key) :
    plannedFor key point=[] := by
  cases point with
  | none => rfl
  | some p => exact if_neg (h p rfl)

/-- What was pushed is what was returned, what the loop has in hand, and what is in the hash, in
this order. -/
def Conserved (key : SessionKey) (s : SignalRelay) (point : Option DrainPoint) : Prop :=
  ∃rest,s.pushedFor key=s.deliveredFor key++(heldFor key point++rest) ∧
    (∀event,event∈rest ↔ event∈s.events ∧ event.key=key) ∧ plannedFor key point <+: rest

/-- A drain deals with events of its participant, and one loop drains for this one. -/
structure PointInFlow (key : SessionKey) (loop : ℕ) (s : SignalRelay) (thread : ℕ)
    (point : DrainPoint) : Prop where
  busy : point.todo≠[]
  pushed : ∀event∈point.todo++point.responses,event∈s.pushed
  keys : ∀event∈point.todo++point.responses,event.key=point.key
  inLoop : point.key=key → thread=loop

structure Flow (pid : Fin (2^32)) (key : SessionKey) (loop : ℕ)
    (c : Threads SignalRelay DrainPoint) : Prop where
  order : PushedInOrder pid c.shared
  points : ∀thread point,c.running.lookup thread=some point →
    PointInFlow key loop c.shared thread point
  conserved : Conserved key c.shared (c.running.lookup loop)

variable {key : SessionKey} {loop : ℕ} {c : Threads SignalRelay DrainPoint}

theorem Flow.moveTo (h : Flow pid key loop c) (ho : PushedInOrder pid r.1)
    (hp : ∀e∈c.shared.pushed,e∈r.1.pushed) (hpo : ∀x,r.2=some x → PointInFlow key loop r.1 thread x)
    (hc : Conserved key r.1 (if loop=thread then r.2 else c.running.lookup loop)) :
    Flow pid key loop (c.moveTo thread r) := by
  refine ⟨?_,?_,?_⟩
  · rw [moveTo_shared]
    exact ho
  · intro o x hl
    rw [moveTo_shared]
    obtain ⟨rfl,hr⟩ | ⟨-,hb⟩ := running_moveTo hl
    · exact hpo x hr
    · have hold := h.points o x hb
      exact ⟨hold.busy,fun e he => hp e (hold.pushed e he),hold.keys,hold.inLoop⟩
  · rw [moveTo_shared,lookup_moveTo]
    exact hc

theorem Conserved.frame {next : Option DrainPoint} (h : Conserved key s point)
    (hpu : t.pushedFor key=s.pushedFor key) (hd : t.deliveredFor key=s.deliveredFor key)
    (hev : ∀event,event.key=key → (event∈t.events ↔ event∈s.events))
    (hh : heldFor key next=heldFor key point) (hp : plannedFor key next <+: plannedFor key point) :
    Conserved key t next := by
  obtain ⟨rest,he,hr,hf⟩ := h
  refine ⟨rest,by rw [hpu,hd,hh,he],?_,hp.trans hf⟩
  intro event
  rw [hr event]
  exact and_congr_left (fun hkey => (hev event hkey).symm)

theorem flow_start (pid : Fin (2^32)) (key : SessionKey) (loop : ℕ) :
    Flow pid key loop (.idle .empty) := by
  refine ⟨⟨?_,List.Pairwise.nil,?_⟩,?_,⟨[],rfl,?_,prefix_refl _⟩⟩
  · exact fun e he => absurd he (not_mem_empty e)
  · exact fun e he => absurd he not_mem_nil
  · intro t x hp
    cases hp
  · intro e
    exact iff_of_false not_mem_nil (fun he => not_mem_empty e he.1)

theorem flow_join (h : Flow pid key loop c) (hi : c.running.lookup thread=none)
    (joined : SessionKey) :
    Flow pid key loop (c.moveTo thread (c.shared.openSession joined,none)) := by
  rw [moveTo_of_idle hi]
  exact ⟨h.order.of_subset rfl (fun _ he => he) rfl rfl,
    fun thread point hp =>
      ⟨(h.points thread point hp).busy,(h.points thread point hp).pushed,
        (h.points thread point hp).keys,(h.points thread point hp).inLoop⟩,
    h.conserved⟩

/-- A pushed event is the last one of its participant. -/
theorem flow_push (h : Flow pid key loop c) (hi : c.running.lookup thread=none)
    (hc : c.shared.clock≤now)
    (hseq : c.shared.nextSeq=0 → c.shared.clock<now) (n : ℕ) (k : SessionKey) (sr : List UInt8) :
    Flow pid key loop (c.moveTo thread (c.shared.storeOutboundSignalResponse
      (c.shared.newEvent pid n k now sr) now,none)) := by
  have ho := h.order.push hc hseq n k sr
  have hl : ∀e∈c.shared.pushed,e.eventId < (c.shared.newEvent pid n k now sr).eventId := fun e he =>
    (h.order.madeBefore e he).lt hc hseq n k sr
  generalize c.shared.newEvent pid n k now sr=new at *
  have hs : (if loop=thread then none else c.running.lookup loop)=c.running.lookup loop := by
    split_ifs with hlo
    · rw [hlo,hi]
    · rfl
  refine h.moveTo ho (fun e he => mem_append_left _ he) (by simp) ?_
  rw [hs]
  have hmem : ∀e,e∈c.shared.events.insert new ↔ e=new ∨ e∈c.shared.events := by
    intro e
    rw [mem_insert]
    refine or_congr_right (and_iff_right_of_imp ?_)
    intro he
    exact (hl e (h.order.stored e he)).ne
  obtain ⟨rest,heq,hr,hf⟩ := h.conserved
  by_cases hfor : new.key=key
  · refine ⟨rest++[new],?_,?_,hf.trans (prefix_append rest [new])⟩
    · rw [pushedFor_storeOutboundSignalResponse,heq]
      simp [hfor,storeOutboundSignalResponse,deliveredFor]
    · intro e
      rw [mem_append,mem_singleton,hr]
      change _ ↔ e∈c.shared.events.insert new ∧ e.key=key
      rw [hmem]
      constructor
      · rintro (⟨he,hkey⟩ | rfl)
        · exact ⟨.inr he,hkey⟩
        · exact ⟨.inl rfl,hfor⟩
      · rintro ⟨rfl | he,hkey⟩
        · exact .inr rfl
        · exact .inl ⟨he,hkey⟩
  · refine h.conserved.frame ?_ rfl ?_ rfl (prefix_refl _)
    · rw [pushedFor_storeOutboundSignalResponse]
      simp [hfor]
    · intro e he
      refine (hmem e).trans (or_iff_right ?_)
      rintro rfl
      exact hfor he

/-- What is left for the participant is what a drain finds, in the order of the pushes. -/
theorem candidates_eq_of_conserved (ho : PushedInOrder pid s)
    (he : s.pushedFor key=s.deliveredFor key++(heldFor key point++rest))
    (hr : ∀e,e∈rest ↔ e∈s.events ∧ e.key=key) (order : Iteration String) :
    s.candidates key order=rest := by
  refine listing_eq_of_pairwise ?_ ?_
  · have hsub : rest.Sublist s.pushed := by
      have hs : rest.Sublist (s.pushedFor key) := by
        rw [he,← append_assoc]
        exact sublist_append_right _ rest
      exact hs.trans filter_sublist
    exact ho.increasing.sublist hsub
  · intro e
    rw [hr e,decide_eq_true_eq]

theorem flow_drain (h : Flow pid key loop c) (hi : c.running.lookup thread=none)
    (hl : drain.query.key=key → thread=loop) :
    Flow pid key loop (c.moveTo thread (c.shared,c.shared.beginDrain drain)) := by
  cases hbe : c.shared.beginDrain drain with
  | none =>
    rw [moveTo_of_idle hi]
    exact h
  | some x =>
    obtain ⟨rfl,hbu⟩ := beginDrain_eq_some hbe
    have ht : ∀e∈(c.shared.candidates drain.query.key drain.order).take
        drain.query.maxEvents,e∈c.shared.events ∧ e.key=drain.query.key := by
      intro e he
      obtain ⟨hs,hkey⟩ := mem_listing.mp (mem_of_mem_take he)
      exact ⟨hs,of_decide_eq_true hkey⟩
    refine h.moveTo h.order (fun _ he => he) ?_ ?_
    · rintro _ ⟨⟩
      refine ⟨hbu,?_,?_,hl⟩
      · intro e he
        rw [append_nil] at he
        exact h.order.stored e (ht e he).1
      · intro e he
        rw [append_nil] at he
        exact (ht e he).2
    · split_ifs with hth
      · have hb := h.conserved
        rw [hth,hi] at hb
        by_cases hkey : drain.query.key=key
        · obtain ⟨rest,heq,hr,-⟩ := hb
          refine ⟨rest,?_,hr,?_⟩
          · rw [heldFor,if_pos hkey]
            exact heq
          · rw [plannedFor,if_pos hkey,hkey,candidates_eq_of_conserved h.order heq hr drain.order]
            exact take_prefix _ rest
        · refine hb.frame rfl rfl (fun _ _ => Iff.rfl) (if_neg hkey) ?_
          rw [plannedFor_of_key_ne (by rintro _ ⟨⟩; exact hkey)]
          exact nil_prefix
      · exact h.conserved

theorem SignalRelay.DrainStep.key_eq {x next : DrainPoint} (h : DrainStep s x r)
    (hn : r.2=some next) : next.key=x.key := by
  cases h with
  | idle | refused | lostReply | returned => cases hn
  | went =>
    cases hn
    rfl

/-- A deletion for another participant changes nothing for this one. -/
theorem conserved_of_other (h : Flow pid key loop c) (hpo : c.running.lookup thread=some x)
    (hkey : x.key≠key) (hs : SignalRelay.DrainStep c.shared x r) :
    Conserved key r.1 (if loop=thread then r.2 else c.running.lookup loop) := by
  have hfl := h.points thread x hpo
  have ho : ∀e∈x.todo++x.responses,e.key≠key := fun e he =>
    hfl.keys e he ▸ hkey
  have hd : ∀e∈x.todo,∀own : StoredRelayOutboundSignalResponse,
      own.key=key → (own∈(c.shared.hdel e).events ↔ own∈c.shared.events) := by
    intro e he own hown
    have hmem := mem_append_left x.responses he
    refine h.order.mem_hdel_of_key_ne (hfl.pushed e hmem) ?_
    rw [hown]
    exact ho e hmem
  have hf : r.1.pushedFor key=c.shared.pushedFor key ∧
      r.1.deliveredFor key=c.shared.deliveredFor key ∧
      ∀own : StoredRelayOutboundSignalResponse,own.key=key →
        (own∈r.1.events ↔ own∈c.shared.events) := by
    cases hs with
    | idle => exact ⟨rfl,rfl,fun _ _ => Iff.rfl⟩
    | refused => exact ⟨rfl,rfl,fun _ _ => Iff.rfl⟩
    | lostReply ht => exact ⟨rfl,rfl,hd _ (by simp [ht])⟩
    | went ht hm => exact ⟨rfl,rfl,hd _ (by simp [ht])⟩
    | @returned e ht =>
      refine ⟨rfl,?_,hd e (by simp [ht])⟩
      have hno : (x.responses++[e]).filter (·.key=key)=[] := by
        refine filter_eq_nil_iff.mpr ?_
        intro own hown
        rw [decide_eq_true_eq]
        refine ho own ?_
        rw [ht]
        exact mem_append.mpr (mem_append.mp hown).symm
      rw [deliveredFor_deliver,hno,append_nil]
      rfl
  refine h.conserved.frame hf.1 hf.2.1 hf.2.2 ?_ ?_
  · split_ifs with hth
    · have hn : ∀p,r.2=some p → p.key≠key := fun p hp => hs.key_eq hp ▸ hkey
      rw [heldFor_of_key_ne hn,hth,hpo]
      exact (if_neg hkey).symm
    · rfl
  · split_ifs
    · have hn : ∀p,r.2=some p → p.key≠key := fun p hp => hs.key_eq hp ▸ hkey
      rw [plannedFor_of_key_ne hn]
      exact nil_prefix
    · exact prefix_refl _

theorem mem_tail_iff (ho : PushedInOrder pid s) {e : StoredRelayOutboundSignalResponse}
    (hsub : (e::rest).Sublist s.pushed) (hr : ∀own,own∈e::rest ↔ own∈s.events ∧ own.key=key)
    (own : StoredRelayOutboundSignalResponse) :
    own∈rest ↔ own∈(s.hdel e).events ∧ own.key=key := by
  constructor
  · intro hown
    obtain ⟨hs,hkey⟩ := (hr own).mp (mem_cons_of_mem e hown)
    have hl := rel_of_pairwise_cons (ho.increasing.sublist hsub) hown
    exact ⟨mem_erase.mpr ⟨hl.ne',hs⟩,hkey⟩
  · rintro ⟨hs,hkey⟩
    obtain ⟨hid,hb⟩ := mem_erase.mp hs
    obtain rfl | hown := mem_cons.mp ((hr own).mpr ⟨hb,hkey⟩)
    · exact absurd rfl hid
    · exact hown

/-- A deletion for the participant takes the first event that is left. -/
theorem conserved_of_own (h : Flow pid key loop c) (hpo : c.running.lookup loop=some x)
    (hkey : x.key=key) (hl : losesNothing key c (.resume loop))
    (hst : SignalRelay.DrainStep c.shared x r) : Conserved key r.1 r.2 := by
  have hfl := h.points loop x hpo
  obtain ⟨rest,he,hr,hp⟩ := h.conserved
  rw [hpo,heldFor,if_pos hkey] at he
  rw [hpo,plannedFor,if_pos hkey] at hp
  rw [losesNothing,hpo,Option.all_some] at hl
  have hsub : rest.Sublist c.shared.pushed := by
    have hs : rest.Sublist (c.shared.pushedFor key) := by
      rw [he,← append_assoc]
      exact sublist_append_right _ rest
    exact hs.trans filter_sublist
  cases hst with
  | idle ht => exact absurd ht hfl.busy
  | refused ht hf =>
    -- the drain has nothing in hand yet
    rw [hf] at hl
    have hem : x.responses=[] := of_decide_eq_true hl hkey
    rw [hem] at he
    exact ⟨rest,he,hr, nil_prefix⟩
  | lostReply ht hf =>
    rw [hf] at hl
    exact absurd hkey (of_decide_eq_true hl)
  | @returned e ht =>
    rw [ht] at hp
    obtain ⟨rest,rfl⟩ := hp
    have hall : (x.responses++[e]).filter (·.key=key)=x.responses++[e] := by
      refine filter_eq_self.mpr ?_
      intro own hown
      refine decide_eq_true ((hfl.keys own ?_).trans hkey)
      rw [ht]
      exact mem_append.mpr (mem_append.mp hown).symm
    refine ⟨rest,?_,mem_tail_iff h.order hsub hr, nil_prefix⟩
    rw [deliveredFor_deliver,hall]
    change c.shared.pushedFor key=c.shared.deliveredFor key++_++([]++rest)
    rw [he]
    simp
  | @went e todo ht hm =>
    rw [ht] at hp
    obtain ⟨rest,rfl⟩ := hp
    refine ⟨todo++rest,?_,mem_tail_iff h.order hsub hr,?_⟩
    · rw [heldFor,if_pos hkey]
      change c.shared.pushedFor key=c.shared.deliveredFor key++_
      rw [he]
      simp
    · rw [plannedFor,if_pos hkey]
      exact prefix_append todo rest

theorem flow_continue (h : Flow pid key loop c)
    (hp : c.running.lookup thread=some x) (hl : losesNothing key c (.resume thread)) :
    Flow pid key loop (c.moveTo thread (c.shared.continueDrain x)) := by
  have hf := h.points thread x hp
  have hs := c.shared.drainStep_continueDrain x
  generalize c.shared.continueDrain x=r at hs
  have hc : Conserved key r.1 (if loop=thread then r.2 else c.running.lookup loop) := by
    by_cases hkey : x.key=key
    · obtain rfl := hf.inLoop hkey
      rw [if_pos rfl]
      exact conserved_of_own h hp hkey hl hs
    · exact conserved_of_other h hp hkey hs
  refine h.moveTo ?_ ?_ ?_ hc
  · cases hs with
    | idle => exact h.order
    | refused => exact h.order
    | lostReply => exact h.order.hdel _
    | returned => exact h.order.of_subset rfl (fun _ => mem_of_mem_hdel) rfl rfl
    | went => exact h.order.hdel _
  · cases hs <;> exact fun _ he => he
  · intro next hn
    cases hs with
    | idle => cases hn
    | refused => cases hn
    | lostReply => cases hn
    | returned => cases hn
    | @went e todo ht hm =>
      obtain rfl := Option.some.inj hn
      have hmem : ∀own∈todo++(x.responses++[e]),own∈x.todo++x.responses := by
        intro own hown
        rw [ht]
        simp only [mem_append,mem_cons,not_mem_nil,or_false] at hown ⊢
        tauto
      exact ⟨hm,fun own hown => hf.pushed own (hmem own hown),
        fun own hown => hf.keys own (hmem own hown),hf.inLoop⟩

/-- In every run in which no deletion fails in the middle of a drain, what the drains of a loop
have returned is a first part of what was pushed, with nothing twice. -/
theorem delivered_prefix_of_losesNothing (pid : Fin (2 ^ 32)) (key : SessionKey) (loop : ℕ)
    (events : List (Event SignalCall))
    (hdrains : AtEveryStep (fun earlier event =>
      pushesAndDrains key loop (signalsAfter pid earlier) event) events)
    (hloses : AtEveryStep (fun earlier event =>
      losesNothing key (signalsAfter pid earlier) event) events) :
    (signalsAfter pid events).shared.deliveredFor key <+:
        (signalsAfter pid events).shared.pushedFor key ∧
      ((signalsAfter pid events).shared.deliveredFor key).Nodup := by
  have hfl : Flow pid key loop (signalsAfter pid events) := by
    refine (signalCallers pid).run_invariant (Flow pid key loop)
      (fun c event => pushesAndDrains key loop c event ∧ losesNothing key c event)
      ?_ (flow_start pid key loop) (fun earlier event later he =>
        ⟨hdrains earlier event later he,hloses earlier event later he⟩)
    rintro c event result h ⟨hd,hl⟩ hran
    obtain ⟨call,heq,rfl⟩ | ⟨point,heq,hp,rfl⟩ := (signalCallers pid).ran_eq_some hran
    · rw [heq] at hd hl hran
      have hi := (signalCallers pid).idle_of_ran_enter hran
      have hn : Flow pid key loop (c.moveTo event.thread (c.shared,none)) := by
        rw [moveTo_of_idle hi]
        exact h
      cases call with
      | join joined => exact flow_join h hi joined
      | push session target now signalResponse =>
        simp only [signalCallers]
        split_ifs
        · exact flow_push h hi (of_decide_eq_true hd)
            (of_decide_eq_true hl) session target signalResponse
        · exact hn
      | drain drain =>
        simp only [signalCallers]
        split_ifs
        · exact flow_drain h hi (of_decide_eq_true hd)
        · exact hn
    · rw [heq] at hl
      exact flow_continue h hp hl
  obtain ⟨rest,hequ,-,-⟩ := hfl.conserved
  have hf : (signalsAfter pid events).shared.deliveredFor key <+:
      (signalsAfter pid events).shared.pushedFor key := by
    rw [hequ]
    exact prefix_append _ _
  refine ⟨hf,?_⟩
  have hsub := hf.sublist.trans filter_sublist
  refine (hfl.order.increasing.sublist hsub).imp ?_
  rintro event _ hle rfl
  exact lt_irrefl _ hle

def aliceInHall : SessionKey := ⟨"hall","alice","owner"⟩

def drainForAlice (socket : ℕ) (deletions : List Deletion) : SignalCall :=
  .drain {
    socket := socket,query := ⟨aliceInHall,32⟩,order := .sorted String,deletions := deletions}

def drainedAgain : List (Event SignalCall) :=
  [.enter 0 (.join aliceInHall),.enter 0 (.push 1 aliceInHall 5 [1]),
    .enter 1 (drainForAlice 1 [.refused]),.resume 1,
    .enter 1 (drainForAlice 1 []),.resume 1,.enter 0 (.push 1 aliceInHall 5 [2])]

theorem delivered_prefix_drainedAgain :
    (((signalsAfter 7 drainedAgain).shared.deliveredFor aliceInHall).map
        (·.signalResponse) = [[1]] ∧
      ((signalsAfter 7 drainedAgain).shared.pushedFor aliceInHall).map
        (·.signalResponse) = [[1],[2]]) ∧
      (signalsAfter 7 drainedAgain).shared.deliveredFor aliceInHall <+:
        (signalsAfter 7 drainedAgain).shared.pushedFor aliceInHall ∧
      ((signalsAfter 7 drainedAgain).shared.deliveredFor aliceInHall).Nodup :=
  ⟨by decide +kernel,delivered_prefix_of_losesNothing 7 aliceInHall 1 drainedAgain
    (by decide +kernel) (by decide +kernel)⟩

def drainedInPart : List (Event SignalCall) :=
  [.enter 0 (.join aliceInHall),.enter 0 (.push 1 aliceInHall 5 [1]),
    .enter 0 (.push 1 aliceInHall 5 [2]),
    .enter 1 (drainForAlice 1 [.done,.refused]),.resume 1,.resume 1,
    .enter 1 (drainForAlice 1 []),.resume 1]

/-- The first event is never returned, and the second one is. -/
theorem delivered_not_prefix_drainedInPart :
    (((signalsAfter 7 drainedInPart).shared.deliveredFor aliceInHall).map
        (·.signalResponse) = [[2]] ∧
      ((signalsAfter 7 drainedInPart).shared.pushedFor aliceInHall).map
        (·.signalResponse) = [[1],[2]]) ∧
      ¬(signalsAfter 7 drainedInPart).shared.deliveredFor aliceInHall <+:
        (signalsAfter 7 drainedInPart).shared.pushedFor aliceInHall := by
  have hl : ((signalsAfter 7 drainedInPart).shared.deliveredFor aliceInHall).map
    (·.signalResponse)=[[2]] ∧
      ((signalsAfter 7 drainedInPart).shared.pushedFor aliceInHall).map
        (·.signalResponse)=[[1],[2]] := by
    decide +kernel
  refine ⟨hl,?_⟩
  intro hf
  have hm := hf.map (·.signalResponse)
  rw [hl.1,hl.2] at hm
  exact absurd hm (by decide)

end OxideSfu.Relay
