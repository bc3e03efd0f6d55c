import OxideSfu.RelayMailbox

/-!
# Relayed joins that are given up

The node of a socket dispatches a join to the owner of the room and polls for the response
(`dispatch_non_local_join` in `relay/dispatcher.rs`); when it gives up, the participant joins
locally. The intent stays, and the worker of the owner (`relay_worker.rs`) may execute it later.
What the commands will meet is part of the call; what was executed is recorded.
-/

namespace OxideSfu.Relay

open FiniteMaps KeyedSets StepRuns CriticalSections Signaling KeyedSet Option List Nat

inductive NonLocalRelayJoinResponse
  | accepted (participantSid serverVersion : String) (pingInterval pingTimeout : ℤ)
  | acceptedWithJoin (joinResponse : List UInt8)
  | acceptedWithJoinAndSignals (joinResponse : List UInt8)
      (initialSignalResponses : List (List UInt8))
  | rejected (code msg : String)

inductive RelayDispatchOutcome | noResponse
  | responded (response : NonLocalRelayJoinResponse)
  | failed (error : String)

/-- The outcomes after which `run_join_socket` goes on with a local join. -/
def RelayDispatchOutcome.givesUp : RelayDispatchOutcome→Bool
  | .noResponse => true | .responded _ => false | .failed _ => true

structure Poll where
  fetchError : Option String := none
  deleteError : Option String := none

/-- A call of `dispatch_non_local_join`: the attempts to write the intent, each with its error if
it fails, and the polls that are made before the time is over. -/
structure JoinDispatch where
  node : String
  intent : NonLocalRelayJoinIntent
  maxPendingIntents : Option ℕ := none
  pendingError : Option String := none
  attempts : List (IdSource × Option String)
  firstPoll : Poll := {}
  laterPolls : List Poll := []

/-- One turn of the loop of the worker over join intents: which of its commands fail, and the
response of the executor. -/
structure JoinTurn where
  node : String
  order : Iteration String
  readFails : Bool := false
  deleteFails : Bool := false
  storeFails : Bool := false
  response : NonLocalRelayJoinResponse

inductive JoinCall
  | dispatch (dispatch : JoinDispatch)
  | turn (turn : JoinTurn)

abbrev StoredJoinIntent := StoredRelayIntent NonLocalRelayJoinIntent

inductive JoinPoint
  | writing (dispatch : JoinDispatch) (attempts : List (IdSource × Option String))
      (lastError : Option String)
  | polling (intentId : String) (number : ℕ) (poll : Poll) (later : List Poll)
  | taking (intentId : String) (number : ℕ) (response : NonLocalRelayJoinResponse)
      (deleteError : Option String)
  | claiming (entry : StoredJoinIntent) (turn : JoinTurn)
  | executing (entry : StoredJoinIntent) (turn : JoinTurn)
  | responding (entry : StoredJoinIntent) (turn : JoinTurn)

/-- The outcome of a dispatch is recorded with the number of its intent, if one was written. -/
structure JoinRelay where
  intents : IntentHash NonLocalRelayJoinIntent
  responses : FiniteMap String NonLocalRelayJoinResponse
  dispatches : ℕ
  outcomes : List (Option ℕ × RelayDispatchOutcome)
  executed : List ℕ

namespace JoinRelay

def empty : JoinRelay := ⟨.empty,.empty,0,[],[]⟩

def finish (s : JoinRelay) (number : Option ℕ) (outcome : RelayDispatchOutcome) : JoinRelay :=
  {s with outcomes := (number,outcome)::s.outcomes}

def abandoned (s : JoinRelay) : List ℕ :=
  s.outcomes.filterMap (fun finished => if finished.2.givesUp then finished.1 else none)

def beginDispatch (s : JoinRelay) (dispatch : JoinDispatch) : JoinRelay × Option JoinPoint :=
  match dispatch.maxPendingIntents with
  | none => (s,some (.writing dispatch dispatch.attempts none))
  | some maxPending =>
    match dispatch.pendingError with
    | some error => (s.finish none (.failed error),none)
    | none =>
      let pending := s.intents.map.keys.card
      if pending ≥ maxPending then
        (s.finish none (.failed
          s!"relay mailbox backpressure: pending intents {pending} reached max {maxPending}"),none)
      else (s,some (.writing dispatch dispatch.attempts none))

/-- An attempt to write the intent, which has a new id in every attempt. -/
def attemptDispatch (s : JoinRelay) (dispatch : JoinDispatch) (lastError : Option String) :
    List (IdSource × Option String) → JoinRelay × Option JoinPoint
  | [] =>
    (s.finish none (.failed (lastError.getD "relay dispatch failed without error details")),none)
  | (_,some error)::attempts => (s,some (.writing dispatch attempts (some error)))
  | (source,none)::_ =>
    let intentId := nextUniqueId IntentKind.join.idLabel source
    ({s with
        intents := s.intents.insert ⟨intentId,dispatch.node,dispatch.intent,s.dispatches⟩
        dispatches := s.dispatches+1},
      some (.polling intentId s.dispatches dispatch.firstPoll dispatch.laterPolls))

/-- A poll that finds nothing is the last one when the time is over. -/
def pollResponse (s : JoinRelay) (intentId : String) (number : ℕ) (poll : Poll)
    (later : List Poll) : JoinRelay × Option JoinPoint :=
  match poll.fetchError with
  | some error => (s.finish (some number) (.failed error),none)
  | none =>
    match s.responses.lookup intentId with
    | some response => (s,some (.taking intentId number response poll.deleteError))
    | none =>
      match later with
      | [] => (s.finish (some number) .noResponse,none)
      | next::later => (s,some (.polling intentId number next later))

def takeResponse (s : JoinRelay) (intentId : String) (number : ℕ)
    (response : NonLocalRelayJoinResponse) : Option String → JoinRelay × Option JoinPoint
  | some error => (s.finish (some number) (.failed error),none)
  | none =>
    (({s with responses := s.responses.erase intentId}).finish (some number)
      (.responded response),none)

def nextForNode (s : JoinRelay) (turn : JoinTurn) : Option StoredJoinIntent :=
  if turn.readFails then none else (candidates s.intents turn.node turn.order).head?

end JoinRelay

/-- Dispatches and turns of workers, cut at the commands and at the execution. -/
def joinRelayCallers : Machine JoinRelay JoinCall JoinPoint where
  enter
    | .dispatch dispatch, s => s.beginDispatch dispatch
    | .turn turn, s => (s,(s.nextForNode turn).map (.claiming · turn))
  resume
    | .writing dispatch attempts lastError, s => s.attemptDispatch dispatch lastError attempts
    | .polling intentId number poll later, s => s.pollResponse intentId number poll later
    | .taking intentId number response deleteError, s =>
      s.takeResponse intentId number response deleteError
    | .claiming entry turn, s =>
      if turn.deleteFails then (s,none)
      else ({s with intents := s.intents.erase entry.intentId},some (.executing entry turn))
    | .executing entry turn, s =>
      ({s with executed := entry.dispatch::s.executed},some (.responding entry turn))
    | .responding entry turn, s =>
      if turn.storeFails then (s,none)
      else ({s with responses := s.responses.insert entry.intentId turn.response},none)

def joinRelayAfter (events : List (Event JoinCall)) : Threads JoinRelay JoinPoint :=
  joinRelayCallers.run (.idle .empty) events

/-- The intent and number of the dispatch that gives up in its next section. -/
def JoinPoint.givesUpNext (s : JoinRelay) : JoinPoint→Option (String × ℕ)
  | .polling intentId number poll later =>
    if poll.fetchError.isSome ∨ ((s.responses.lookup intentId).isNone ∧ later.isEmpty) then
      some (intentId,number)
    else none
  | .taking intentId number _ deleteError =>
    if deleteError.isSome then some (intentId,number) else none
  | _ => none

def JoinPoint.claimedNumber : JoinPoint→Option ℕ
  | .claiming entry _ => some entry.dispatch | _ => none

def JoinPoint.heldNumber : JoinPoint→Option ℕ
  | .claiming entry _ => some entry.dispatch | .executing entry _ => some entry.dispatch | _ => none

/-- The intent of a dispatch is in the mailbox, and no worker is about to take it. -/
def unclaimed (c : Threads JoinRelay JoinPoint) (intentId : String) (number : ℕ) : Bool :=
  (c.shared.intents.map.lookup intentId).any (·.dispatch=number) &&
    decide (∀thread∈c.running.keys,(c.running.lookup thread).all (fun point =>
      point.claimedNumber≠some number))

/-- A dispatch gives up only while its intent is unclaimed, and a worker takes no intent whose
dispatch has given up. -/
def fallsBackInTime (c : Threads JoinRelay JoinPoint) : Event JoinCall→Bool
  | .enter _ (.dispatch _) => true
  | .enter _ (.turn turn) =>
    (c.shared.nextForNode turn).all (·.dispatch∉c.shared.abandoned)
  | .resume thread =>
    ((c.running.lookup thread).bind (JoinPoint.givesUpNext c.shared)).all (fun given =>
      unclaimed c given.1 given.2)

namespace JoinRelay

variable {s t : JoinRelay} {c : Threads JoinRelay JoinPoint}

theorem abandoned_finish (number : Option ℕ) (outcome : RelayDispatchOutcome) {n : ℕ} :
    n∈(s.finish number outcome).abandoned ↔ outcome.givesUp ∧ number=some n ∨ n∈s.abandoned := by
  rw [abandoned,finish,filterMap_cons]
  cases outcome.givesUp with
  | false => simp [abandoned]
  | true =>
    cases number with
    | none => simp [abandoned]
    | some number =>
      rw [if_pos rfl,mem_cons,eq_comm]
      simp [abandoned]

/-- Numbers tell the intents apart; an intent in the mailbox has not been executed, and one that
was given up has not either. -/
structure Orderly (s : JoinRelay) : Prop where
  numbered : ∀entry∈s.intents,entry.dispatch<s.dispatches
  unique : ∀entry∈s.intents,∀other∈s.intents,entry.dispatch=other.dispatch →
    entry=other
  pending : ∀entry∈s.intents,entry.dispatch∉s.executed
  executedBefore : ∀number∈s.executed,number<s.dispatches
  abandonedBefore : ∀number∈s.abandoned,number<s.dispatches
  safe : ∀number∈s.abandoned,number∉s.executed

/-- A worker holds an intent that was not given up; once it has deleted it, the mailbox does not
have it any more. -/
def AtPoint : JoinPoint → JoinRelay→Prop
  | .writing _ _ _, _ => True | .polling _ number _ _,s => number<s.dispatches
  | .taking _ number _ _, s => number<s.dispatches
  | .claiming entry _, s => entry.dispatch<s.dispatches ∧ entry.dispatch∉s.abandoned ∧
      ∀other∈s.intents,other.dispatch=entry.dispatch → other=entry
  | .executing entry _, s => entry.dispatch<s.dispatches ∧ entry.dispatch∉s.abandoned ∧
      ∀other∈s.intents,other.dispatch≠entry.dispatch
  | .responding _ _, _ => True

/-- What a section may do to the mailbox: new intents have new numbers, and one dispatch at most
gives up. -/
structure Grows (s t : JoinRelay) (given : Option ℕ) : Prop where
  dispatches : s.dispatches≤t.dispatches
  intents : ∀entry∈t.intents,entry∈s.intents ∨ s.dispatches≤entry.dispatch
  abandoned : ∀number∈t.abandoned,number∈s.abandoned ∨ given=some number

theorem AtPoint.of_grows {x : JoinPoint} {given : Option ℕ} (h : AtPoint x s)
    (hg : Grows s t given) (hgi : ∀n,given=some n → x.heldNumber≠some n) :
    AtPoint x t := by
  have hk : ∀e : StoredJoinIntent,x.heldNumber=some e.dispatch →
      e.dispatch∉s.abandoned → e.dispatch∉t.abandoned := by
    intro e hh hnot hmem
    obtain hb | hnow := hg.abandoned _ hmem
    · exact hnot hb
    · exact hgi _ hnow hh
  cases x with
  | writing dispatch as lastError => trivial
  | polling | taking => exact lt_of_lt_of_le h hg.dispatches
  | claiming e turn =>
    obtain ⟨hn,hnot,hs⟩ := h
    refine ⟨lt_of_lt_of_le hn hg.dispatches,hk e rfl hnot,?_⟩
    intro o ho heq
    obtain hb | hnew := hg.intents o ho
    · exact hs o hb heq
    · omega
  | executing e turn =>
    obtain ⟨hn,hnot,hgo⟩ := h
    refine ⟨lt_of_lt_of_le hn hg.dispatches,hk e rfl hnot,?_⟩
    intro o ho heq
    obtain hb | hnew := hg.intents o ho
    · exact hgo o hb heq
    · omega
  | responding e turn => trivial

theorem Grows.of_subset (hd : t.dispatches=s.dispatches)
    (hi : ∀e∈t.intents,e∈s.intents) (ho : t.outcomes=s.outcomes) :
    Grows s t none where
  dispatches := hd.ge
  intents e he := .inl (hi e he)
  abandoned number hn := by
    rw [JoinRelay.abandoned,ho] at hn
    exact .inl hn

theorem Grows.finish (number : Option ℕ) (outcome : RelayDispatchOutcome) :
    Grows s (s.finish number outcome) (if outcome.givesUp then number else none) where
  dispatches := le_rfl
  intents _ he := .inl he
  abandoned n hn := by
    obtain ⟨hg,hnu⟩ | hb := (abandoned_finish number outcome).mp hn
    · exact .inr (by rw [if_pos hg,hnu])
    · exact .inl hb

/-- An outcome that gives up an intent is recorded while the intent is in the mailbox. -/
theorem Orderly.finish (h : s.Orderly) (number : Option ℕ) (outcome : RelayDispatchOutcome)
    (hgi : outcome.givesUp → ∀n,number=some n → ∃e∈s.intents,e.dispatch=n) :
      (s.finish number outcome).Orderly where
  numbered := h.numbered
  unique := h.unique
  pending := h.pending
  executedBefore := h.executedBefore
  abandonedBefore n hn := by
    obtain ⟨hg,hnu⟩ | hb := (abandoned_finish number outcome).mp hn
    · obtain ⟨e,he,rfl⟩ := hgi hg n hnu
      exact h.numbered e he
    · exact h.abandonedBefore n hb
  safe n hn := by
    obtain ⟨hg,hnu⟩ | hb := (abandoned_finish number outcome).mp hn
    · obtain ⟨e,he,rfl⟩ := hgi hg n hnu
      exact h.pending e he
    · exact h.safe n hb

/-- The mailbox loses intents or keeps them, and nothing else that matters changes. -/
theorem Orderly.of_subset (h : s.Orderly) (hi : ∀e∈t.intents,e∈s.intents)
    (hd : t.dispatches=s.dispatches)
    (ho : t.outcomes=s.outcomes) (hex : t.executed=s.executed) : t.Orderly := by
  have ha : t.abandoned=s.abandoned := by rw [abandoned,ho,abandoned]
  refine ⟨?_,?_,?_,?_,?_,?_⟩
  · intro e he
    rw [hd]
    exact h.numbered e (hi e he)
  · intro e he o hot
    exact h.unique e (hi e he) o (hi o hot)
  · intro e he
    rw [hex]
    exact h.pending e (hi e he)
  · rw [hex,hd]
    exact h.executedBefore
  · rw [ha,hd]
    exact h.abandonedBefore
  · rw [ha,hex]
    exact h.safe

variable {thread number : ℕ} {intentId : String} {turn : JoinTurn} {e : StoredJoinIntent}
  (h : Annotated Orderly AtPoint c)

include h

theorem keeps_of_grows {r : JoinRelay × Option JoinPoint} (given : Option ℕ) (ho : r.1.Orderly)
    (hgr : Grows c.shared r.1 given) (hr : ∀x,r.2=some x → AtPoint x r.1)
    (hg : ∀n,given=some n → ∀o x,c.running.lookup o=some x → x.heldNumber≠some n) :
    Keeps Orderly AtPoint c thread r where
  shared := ho
  reached := hr
  others o x _ hp :=
    (h.2 o x hp).of_grows hgr (fun n hn =>
      hg n hn o x hp)

theorem of_unclaimed (hu : unclaimed c intentId number) :
    (∃entry∈c.shared.intents,entry.dispatch=number) ∧ ∀other point,
      c.running.lookup other=some point → point.heldNumber≠some number := by
  rw [unclaimed,Bool.and_eq_true,decide_eq_true_eq] at hu
  obtain ⟨hp,hcl⟩ := hu
  cases hl : c.shared.intents.map.lookup intentId with
  | none =>
    rw [hl] at hp
    cases hp
  | some entry =>
    rw [hl,any_some,decide_eq_true_eq] at hp
    have he := mem_of_lookup hl
    refine ⟨⟨entry,he,hp⟩,?_⟩
    intro other point hpo hh
    cases point with
    | claiming held turn =>
      have hc := hcl other (FiniteMap.mem_keys_of_lookup hpo)
      rw [hpo,all_some,decide_eq_true_eq] at hc
      exact hc hh
    | executing held turn =>
      -- what a worker executes is not in the mailbox
      exact (h.2 other _ hpo).2.2 entry he (hp.trans (some.inj hh).symm)
    | writing dispatch attempts lastError => cases hh
    | polling intentId number poll later => cases hh
    | taking intentId number response deleteError => cases hh
    | responding held turn => cases hh

/-- A dispatch that records its outcome. If it gives up, its intent is unclaimed. -/
theorem keeps_finish (t : ℕ) (intentId : String) {outcome : RelayDispatchOutcome}
    (hgi : outcome.givesUp → unclaimed c intentId number) :
    Keeps Orderly AtPoint c t (c.shared.finish (some number) outcome,none) := by
  refine keeps_of_grows h _ ?_ (.finish (some number) outcome) (by simp) ?_
  · refine h.1.finish _ _ ?_
    intro hg n hn
    obtain rfl := some.inj hn
    exact (of_unclaimed h (hgi hg)).1
  · intro n hn
    split_ifs at hn with hg
    obtain rfl := some.inj hn
    exact (of_unclaimed h (hgi hg)).2

/-- A dispatch that ends before it has written an intent gives up nothing. -/
theorem keeps_finish_unwritten (t : ℕ) (outcome : RelayDispatchOutcome) :
    Keeps Orderly AtPoint c t (c.shared.finish none outcome,none) := by
  refine keeps_of_grows h _ ?_ (.finish none outcome) (by simp) (by simp)
  exact h.1.finish _ _ (by simp)

theorem keeps_point (t : ℕ) {x : Option JoinPoint}
    (hp : ∀next,x=some next → AtPoint next c.shared) :
    Keeps Orderly AtPoint c t (c.shared,x) :=
  keeps_of_grows h none h.1 (.of_subset rfl (fun _ he => he) rfl) hp (by simp)

theorem keeps_beginDispatch (t : ℕ) (dispatch : JoinDispatch) :
    Keeps Orderly AtPoint c t (c.shared.beginDispatch dispatch) := by
  have hw : Keeps Orderly AtPoint c t
    (c.shared,some (.writing dispatch dispatch.attempts none)) := by
    refine keeps_point h t ?_
    rintro _ ⟨⟩
    trivial
  rw [beginDispatch]
  split
  · exact hw
  · split
    · exact keeps_finish_unwritten h t _
    · dsimp only
      split_ifs
      · exact keeps_finish_unwritten h t _
      · exact hw

theorem keeps_attemptDispatch (t : ℕ) (dispatch : JoinDispatch) (lastError : Option String)
    (as : List (IdSource × Option String)) :
    Keeps Orderly AtPoint c t (c.shared.attemptDispatch dispatch lastError as) := by
  rcases as with _ | ⟨⟨so,_ | er⟩,as⟩
  · exact keeps_finish_unwritten h t _
  · rw [attemptDispatch]
    generalize hnew : (⟨nextUniqueId IntentKind.join.idLabel so,dispatch.node,
      dispatch.intent,c.shared.dispatches⟩ : StoredJoinIntent)=new
    have hn : new.dispatch=c.shared.dispatches := by rw [← hnew]
    have hen : ∀e∈c.shared.intents.insert new,e=new ∨ e∈c.shared.intents := by
      intro e he
      obtain heq | ⟨-,hb⟩ := mem_insert.mp he
      · exact .inl heq
      · exact .inr hb
    refine keeps_of_grows h none ?_ ?_ ?_ (by simp)
    · refine ⟨?_,?_,?_,?_,?_,h.1.safe⟩
      · intro e he
        refine lt_succ_of_le ?_
        obtain rfl | hb := hen e he
        · exact hn.le
        · exact (h.1.numbered e hb).le
      · intro e he o ho hs
        obtain rfl | hb := hen e he
        · obtain rfl | hb' := hen o ho
          · rfl
          · exact absurd (h.1.numbered o hb') (by omega)
        · obtain rfl | hb' := hen o ho
          · exact absurd (h.1.numbered e hb) (by omega)
          · exact h.1.unique e hb o hb' hs
      · intro e he hex
        obtain rfl | hb := hen e he
        · exact absurd (h.1.executedBefore _ hex) (by omega)
        · exact h.1.pending e hb hex
      · intro n hex
        exact lt_succ_of_lt (h.1.executedBefore n hex)
      · intro n ha
        exact lt_succ_of_lt (h.1.abandonedBefore n ha)
    · refine ⟨le_succ _,?_,fun n hmem => .inl hmem⟩
      intro e he
      obtain rfl | hb := hen e he
      · exact .inr hn.ge
      · exact .inl hb
    · rintro _ ⟨⟩
      exact lt_succ_self _
  · refine keeps_point h t ?_
    rintro _ ⟨⟩
    trivial

theorem keeps_pollResponse {poll : Poll} {l : List Poll}
    (hp : c.running.lookup thread=some (.polling intentId number poll l))
    (hg : fallsBackInTime c (.resume thread)) :
    Keeps Orderly AtPoint c thread (c.shared.pollResponse intentId number poll l) := by
  have hn : number<c.shared.dispatches := h.2 thread _ hp
  rw [fallsBackInTime,hp,bind_some,JoinPoint.givesUpNext] at hg
  cases hf : poll.fetchError with
  | some e =>
    simp only [pollResponse,hf]
    refine keeps_finish h thread intentId (fun _ => ?_)
    simpa [hf] using hg
  | none =>
    cases hr : c.shared.responses.lookup intentId with
    | some r =>
      simp only [pollResponse,hf,hr]
      refine keeps_point h thread ?_
      rintro _ ⟨⟩
      exact hn
    | none =>
      cases l with
      | nil =>
        simp only [pollResponse,hf,hr]
        refine keeps_finish h thread intentId (fun _ => ?_)
        simpa [hf,hr] using hg
      | cons next l =>
        simp only [pollResponse,hf,hr]
        refine keeps_point h thread ?_
        rintro _ ⟨⟩
        exact hn

theorem keeps_takeResponse {r : NonLocalRelayJoinResponse} {deleteError : Option String}
    (hp : c.running.lookup thread=some (.taking intentId number r deleteError))
    (hg : fallsBackInTime c (.resume thread)) :
    Keeps Orderly AtPoint c thread (c.shared.takeResponse intentId number r deleteError) := by
  rw [fallsBackInTime,hp,bind_some,JoinPoint.givesUpNext] at hg
  cases deleteError with
  | some er =>
    refine keeps_finish h thread intentId (fun _ => ?_)
    simpa using hg
  | none =>
    let taken := {c.shared with responses := c.shared.responses.erase intentId}
    have ht : taken.Orderly := h.1.of_subset (fun _ he => he) rfl rfl rfl
    have hgr : Grows c.shared (taken.finish (some number) (.responded r)) none := by
      refine ⟨le_rfl,fun e he => .inl he,?_⟩
      intro n hn
      obtain ⟨hgi,-⟩ | hb := (abandoned_finish _ _).mp hn
      · cases hgi
      · exact .inl hb
    exact keeps_of_grows h none (ht.finish _ _ (by simp [RelayDispatchOutcome.givesUp])) hgr
      (by simp [takeResponse]) (by simp)

/-- A worker reads an intent that was not given up. -/
theorem keeps_turn (hg : fallsBackInTime c (.enter thread (.turn turn))) :
    Keeps Orderly AtPoint c thread
      (c.shared,(c.shared.nextForNode turn).map (.claiming · turn)) := by
  refine keeps_point h thread ?_
  intro next hn
  obtain ⟨e,he,rfl⟩ := map_eq_some_iff.mp hn
  rw [fallsBackInTime,he,all_some,decide_eq_true_eq] at hg
  rw [nextForNode] at he
  split_ifs at he
  have hmem := (mem_of_head_candidates he).1
  refine ⟨h.1.numbered e hmem,hg,?_⟩
  intro o ho hs
  exact h.1.unique o ho e hmem hs

theorem keeps_claiming (hp : c.running.lookup thread=some (.claiming e turn)) :
    Keeps Orderly AtPoint c thread (joinRelayCallers.resume (.claiming e turn) c.shared) := by
  obtain ⟨hn,hnot,hs⟩ := h.2 thread _ hp
  simp only [joinRelayCallers]
  split_ifs
  · exact keeps_point h thread (by simp)
  · have hl : ∀o∈c.shared.intents.erase e.intentId,o∈c.shared.intents :=
      fun o ho => (mem_erase.mp ho).2
    refine keeps_of_grows h none (h.1.of_subset hl rfl rfl rfl) (.of_subset rfl hl rfl) ?_ (by simp)
    rintro _ ⟨⟩
    refine ⟨hn,hnot,?_⟩
    intro o ho heq
    obtain ⟨hid,hb⟩ := mem_erase.mp ho
    exact hid (congrArg StoredRelayIntent.intentId (hs o hb heq))

/-- A worker executes an intent that is not in the mailbox and was not given up. -/
theorem keeps_executing (hp : c.running.lookup thread=some (.executing e turn)) :
    Keeps Orderly AtPoint c thread (joinRelayCallers.resume (.executing e turn) c.shared) := by
  obtain ⟨hn,hnot,hg⟩ := h.2 thread _ hp
  refine keeps_of_grows h none ?_ (.of_subset rfl (fun _ hen => hen) rfl) ?_ (by simp)
  · refine ⟨h.1.numbered,h.1.unique,?_,?_,h.1.abandonedBefore,?_⟩
    · intro o ho he
      obtain heq | he := mem_cons.mp he
      · exact hg o ho heq
      · exact h.1.pending o ho he
    · intro n he
      obtain rfl | he := mem_cons.mp he
      · exact hn
      · exact h.1.executedBefore n he
    · intro n ha he
      obtain rfl | he := mem_cons.mp he
      · exact hnot ha
      · exact h.1.safe n ha he
  · rintro _ ⟨⟩
    trivial

theorem keeps_responding (t : ℕ) (e : StoredJoinIntent) (turn : JoinTurn) :
    Keeps Orderly AtPoint c t (joinRelayCallers.resume (.responding e turn) c.shared) := by
  simp only [joinRelayCallers]
  split_ifs
  · exact keeps_point h t (by simp)
  · have hs : ∀e∈c.shared.intents,e∈c.shared.intents := fun _ he => he
    exact keeps_of_grows h none (h.1.of_subset hs rfl rfl rfl) (.of_subset rfl hs rfl) (by simp)
      (by simp)

end JoinRelay

open JoinRelay

/-- In every run in which dispatches give up only unclaimed intents, and workers take none that
was given up, no intent is both given up by its dispatch and executed by the owner of the room. -/
theorem abandoned_not_executed_of_fallsBackInTime (events : List (Event JoinCall))
    (hgives : AtEveryStep (fun earlier event =>
      fallsBackInTime (joinRelayAfter earlier) event) events) :
    ∀number ∈ (joinRelayAfter events).shared.abandoned,
      number ∉ (joinRelayAfter events).shared.executed := by
  have hs : Annotated Orderly AtPoint (.idle .empty) := by
    refine ⟨⟨?_,?_,?_,?_,?_,?_⟩,?_⟩
    · exact fun entry he => absurd he (not_mem_empty entry)
    · exact fun entry he => absurd he (not_mem_empty entry)
    · exact fun entry he => absurd he (not_mem_empty entry)
    · exact fun number hn => absurd hn not_mem_nil
    · exact fun number hn => absurd hn not_mem_nil
    · exact fun number hn => absurd hn not_mem_nil
    · intro thread point hp
      cases hp
  have hk : Annotated Orderly AtPoint (joinRelayAfter events) := by
    refine @Annotated.run _ _ _ joinRelayCallers _ _ _ events hs
      (fun c event => fallsBackInTime c event) hgives ?_
    intro c event result h hev hran
    obtain ⟨call,heq,rfl⟩ | ⟨point,heq,hp,rfl⟩ := joinRelayCallers.ran_eq_some hran
    · rw [heq] at hev
      cases call with
      | dispatch dispatch => exact keeps_beginDispatch h _ dispatch
      | turn turn => exact keeps_turn h hev
    · rw [heq] at hev
      cases point with
      | writing dispatch attempts lastError =>
        exact keeps_attemptDispatch h _ dispatch lastError attempts
      | polling intentId number poll later => exact keeps_pollResponse h hp hev
      | taking intentId number response deleteError => exact keeps_takeResponse h hp hev
      | claiming entry turn => exact keeps_claiming h hp
      | executing entry turn => exact keeps_executing h hp
      | responding entry turn => exact keeps_responding h _ entry turn
  exact hk.1.safe

def joinDispatch (laterPolls : List Poll) : JoinDispatch where
  node := "owner"
  intent := .ofJoin ⟨"key",{sub := "alice",video := {room := "hall",roomJoin := true}}⟩ {}
  attempts := [(firstId,none)]
  laterPolls := laterPolls

def joinTurn : JoinTurn where
  node := "owner"
  order := .sorted String
  response := .rejected "unavailable" "no room"

/-- The first dispatch is answered, and the second gives up before the worker comes to it. -/
def answeredAndGivenUp : List (Event JoinCall) :=
  [.enter 0 (.dispatch (joinDispatch [{}])),.resume 0,.resume 0,
    .enter 1 (.turn joinTurn),.resume 1,.resume 1,.resume 1,.resume 0,.resume 0,
    .enter 2 (.dispatch (joinDispatch [])),.resume 2,.resume 2]

theorem abandoned_not_executed_answeredAndGivenUp :
    ((joinRelayAfter answeredAndGivenUp).shared.abandoned,
        (joinRelayAfter answeredAndGivenUp).shared.executed) = ([1],[0]) ∧
      ∀number ∈ (joinRelayAfter answeredAndGivenUp).shared.abandoned,
        number ∉ (joinRelayAfter answeredAndGivenUp).shared.executed :=
  ⟨by decide +kernel,abandoned_not_executed_of_fallsBackInTime answeredAndGivenUp
    (by decide +kernel)⟩

/-- The worker executes the join after the dispatch has given up, and so does the origin. -/
def givenUpAndExecuted : List (Event JoinCall) :=
  [.enter 0 (.dispatch (joinDispatch [])),.resume 0,.resume 0,
    .enter 1 (.turn joinTurn),.resume 1,.resume 1]

theorem executed_after_givenUp :
    ((joinRelayAfter givenUpAndExecuted).shared.abandoned,
        (joinRelayAfter givenUpAndExecuted).shared.executed) = ([0],[0]) ∧
      ¬∀number ∈ (joinRelayAfter givenUpAndExecuted).shared.abandoned,
        number ∉ (joinRelayAfter givenUpAndExecuted).shared.executed := by
  decide +kernel

end OxideSfu.Relay
