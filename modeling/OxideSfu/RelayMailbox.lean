import OxideSfu.CriticalSections
import OxideSfu.KeyedSets
import OxideSfu.Numerals
import OxideSfu.ParticipantSessions

/-!
# The relay mailbox

Nodes leave intents for each other in hashes of a Redis server (`relay/mailbox.rs`): a dispatch
writes an intent under a new id, and a claim takes the one with the least id and deletes it. Every
command is a step. The number of its dispatch goes with every intent; the code has none.
-/

namespace OxideSfu.Relay

open FiniteMaps KeyedSets StepRuns CriticalSections Signaling FiniteMap Threads KeyedSet Function
  List

/-- What an id is made of: the clock, the process and the counter of the mailbox. -/
structure IdSource where
  nowNanos : Fin (2^128)
  pid : Fin (2^32)
  seq : Fin (2^64)

instance clockNeZero : @NeZero ℕ Zero.ofOfNat0 (2^128) := ⟨by decide⟩

instance seqNeZero : @NeZero ℕ Zero.ofOfNat0 (2^64) := ⟨by decide⟩

instance pidNeZero : @NeZero ℕ Zero.ofOfNat0 (2^32) := ⟨by decide⟩

def IdSource.digits (source : IdSource) : List Char :=
  Numerals.padded 32 source.nowNanos ++ '-'::Numerals.padded 8 source.pid ++
    '-'::Numerals.padded 16 source.seq

def nextUniqueId (label : String) (source : IdSource) : String :=
  label ++ "-" ++ String.ofList source.digits

/-- A relayed session has ended on the node of its socket. -/
structure NonLocalRelaySessionTerminationIntent where
  (room identity participantSid : String)

structure NonLocalRelaySignalRequestIntent where
  (room identity : String)
  signalRequest : List UInt8

structure NonLocalRelayRoomServiceIntent where
  (room method : String)
  request : List UInt8

inductive IntentKind | join | termination | signalRequest | roomService deriving DecidableEq

namespace IntentKind

def Intent : IntentKind → Type
  | join => NonLocalRelayJoinIntent | termination => NonLocalRelaySessionTerminationIntent
  | signalRequest => NonLocalRelaySignalRequestIntent
  | roomService => NonLocalRelayRoomServiceIntent

def idLabel : IntentKind → String
  | join => "relay-intent" | termination => "relay-term-intent"
  | signalRequest => "relay-signal-intent" | roomService => "relay-room-service-intent"

end IntentKind

/-- A value of a hash of intents. The selected node is a field of the intent in the source. -/
structure StoredRelayIntent (ι : Type) where
  (intentId selectedRoomNodeId : String)
  intent : ι
  dispatch : ℕ

abbrev IntentHash (ι : Type) := KeyedSet (StoredRelayIntent.intentId (ι := ι))

def candidates {ι : Type} (hash : IntentHash ι) (node : String) (order : Iteration String) :
    List (StoredRelayIntent ι) :=
  hash.listing order (·.selectedRoomNodeId=node)

variable {node : String}

theorem mem_of_head_candidates {ι : Type} {hash : IntentHash ι} {order : Iteration String}
    {e : StoredRelayIntent ι} (h : (candidates hash node order).head?=some e) :
    e∈hash ∧ e.selectedRoomNodeId=node := by
  obtain ⟨hmem,hn⟩ := mem_listing.mp (mem_of_mem_head? h)
  exact ⟨hmem,of_decide_eq_true hn⟩

/-- The hashes of intents, the number of dispatches so far and the numbers of the intents that
claims have returned. -/
structure RelayMailbox where
  intents : (kind : IntentKind) → IntentHash kind.Intent
  dispatches : ℕ
  returned : List ℕ

/-- An intent with the hash it belongs to. A claim that has read it is about to delete it. -/
structure Claiming where
  kind : IntentKind
  entry : StoredRelayIntent kind.Intent

namespace RelayMailbox

def empty : RelayMailbox := ⟨fun _ => .empty,0,[]⟩

def hset (s : RelayMailbox) (kind : IntentKind) (entry : StoredRelayIntent kind.Intent) :
    RelayMailbox :=
  {s with intents := update s.intents kind ((s.intents kind).insert entry)}

def hdel (s : RelayMailbox) (kind : IntentKind) (field : String) : RelayMailbox :=
  {s with intents := update s.intents kind ((s.intents kind).erase field)}

end RelayMailbox

inductive MailboxCall
  | dispatch (kind : IntentKind) (source : IdSource) (node : String) (intent : kind.Intent)
  | claim (kind : IntentKind) (node : String) (order : Iteration String)

def mailboxCallers : Machine RelayMailbox MailboxCall Claiming where
  enter
    | .dispatch kind source node intent, s =>
      let entry := ⟨nextUniqueId kind.idLabel source,node,intent,s.dispatches⟩
      ({s.hset kind entry with dispatches := s.dispatches+1},none)
    | .claim kind node order, s =>
      (s,(candidates (s.intents kind) node order).head?.map (Claiming.mk kind))
  resume claiming s :=
    -- The answer of the deletion is not looked at.
    let s := s.hdel claiming.kind claiming.entry.intentId
    ({s with returned := claiming.entry.dispatch::s.returned},none)

namespace MailboxCall

def dispatchIntent (source : IdSource) (node : String) (intent : NonLocalRelayJoinIntent) :
    MailboxCall :=
  .dispatch .join source node intent

def dispatchTerminationIntent (source : IdSource) (node : String)
    (intent : NonLocalRelaySessionTerminationIntent) : MailboxCall :=
  .dispatch .termination source node intent

def dispatchSignalRequestIntent (source : IdSource) (node : String)
    (intent : NonLocalRelaySignalRequestIntent) : MailboxCall :=
  .dispatch .signalRequest source node intent

def dispatchRoomServiceIntent (source : IdSource) (node : String)
    (intent : NonLocalRelayRoomServiceIntent) : MailboxCall :=
  .dispatch .roomService source node intent

def claimNextIntentForNode : String → Iteration String → MailboxCall := .claim .join

def claimNextTerminationIntentForNode : String → Iteration String → MailboxCall :=
  .claim .termination

def claimNextSignalRequestIntentForNode : String → Iteration String → MailboxCall :=
  .claim .signalRequest

def claimNextRoomServiceIntentForNode : String → Iteration String → MailboxCall :=
  .claim .roomService

end MailboxCall

def mailboxAfter (events : List (Event MailboxCall)) : Threads RelayMailbox Claiming :=
  mailboxCallers.run (.idle .empty) events

variable {c : Threads RelayMailbox Claiming}

def RelayMailbox.Has (s : RelayMailbox) (item : Claiming) : Prop := item.entry∈s.intents item.kind

def Known (c : Threads RelayMailbox Claiming) (item : Claiming) : Prop :=
  c.shared.Has item ∨ ∃thread,c.running.lookup thread=some item

variable {t : ℕ} {kind : IntentKind} {item : Claiming} {order : Iteration String}
  {s : RelayMailbox}

theorem RelayMailbox.has_hset {e : StoredRelayIntent kind.Intent} (h : (s.hset kind e).Has item) :
    item=⟨kind,e⟩ ∨ s.Has item := by
  obtain ⟨kind',entry'⟩ := item
  simp only [RelayMailbox.Has,RelayMailbox.hset] at h
  by_cases hk : kind'=kind
  · subst hk
    rw [update_self,mem_insert] at h
    obtain rfl | ⟨-,h⟩ := h
    · exact .inl rfl
    · exact .inr h
  · rw [update_of_ne hk] at h
    exact .inr h

theorem RelayMailbox.has_hdel {deleted : Claiming}
    (h : (s.hdel deleted.kind deleted.entry.intentId).Has item) : s.Has item ∧ item≠deleted := by
  obtain ⟨kind,e⟩ := item
  obtain ⟨kind',entry'⟩ := deleted
  simp only [RelayMailbox.Has,RelayMailbox.hdel] at h
  by_cases hk : kind=kind'
  · subst hk
    rw [update_self,mem_erase] at h
    refine ⟨h.2,?_⟩
    rintro heq
    cases heq
    exact h.1 rfl
  · rw [update_of_ne hk] at h
    refine ⟨h,?_⟩
    rintro heq
    cases heq
    exact hk rfl

/-- The numbers of dispatches tell the intents apart, no two claims are about to return the same
one, and what has been returned is gone for good. -/
structure Unreturned (c : Threads RelayMailbox Claiming) : Prop where
  numbered : ∀item,Known c item → item.entry.dispatch<c.shared.dispatches
  unique : ∀item other,Known c item → Known c other →
    item.entry.dispatch=other.entry.dispatch → item=other
  alone : ∀thread other item,c.running.lookup thread=some item →
    c.running.lookup other=some item → thread=other
  returnedBefore : ∀number∈c.shared.returned,number<c.shared.dispatches
  open_ : ∀item,Known c item → item.entry.dispatch∉c.shared.returned
  once : c.shared.returned.Nodup

theorem unreturned_start : Unreturned (.idle .empty) := by
  have hn : ∀item,¬Known (.idle .empty) item := by
    rintro item (hhas | ⟨t,hr⟩)
    · exact not_mem_empty _ hhas
    · cases hr
  refine ⟨?_,?_,?_,?_,?_,nodup_nil⟩
  · exact fun item h => absurd h (hn item)
  · exact fun item _ h => absurd h (hn item)
  · intro t o item h
    cases h
  · intro n h
    cases h
  · exact fun item h => absurd h (hn item)

/-- After a step every intent was known before, or it is the one that was written. -/
theorem unreturned_dispatch (h : Unreturned c) (hid : c.running.lookup t=none)
    (kind : IntentKind) (so : IdSource) (node : String) (it : kind.Intent) :
    Unreturned (c.moveTo t (mailboxCallers.enter (.dispatch kind so node it) c.shared)) := by
  have hm : c.moveTo t (mailboxCallers.enter (.dispatch kind so node it) c.shared) =
      ⟨(mailboxCallers.enter (.dispatch kind so node it) c.shared).1,c.running⟩ :=
    moveTo_of_idle hid _
  rw [hm]
  generalize hnew : (⟨kind,
    ⟨nextUniqueId kind.idLabel so,node,it,c.shared.dispatches⟩⟩ : Claiming)=new
  have hn : new.entry.dispatch=c.shared.dispatches := by
    rw [← hnew]
  have hk : ∀item,Known ⟨(mailboxCallers.enter (.dispatch kind so node it)
      c.shared).1,c.running⟩ item → item=new ∨ Known c item := by
    rintro item (hhas | hru)
    · obtain hw | hhas := RelayMailbox.has_hset hhas
      · exact .inl (hw.trans hnew)
      · exact .inr (.inl hhas)
    · exact .inr (.inr hru)
  -- the number of the new intent is larger than all the others
  have hf : ∀item,Known c item → item.entry.dispatch≠new.entry.dispatch := by
    intro item hi
    rw [hn]
    exact (h.numbered item hi).ne
  refine ⟨?_,?_,h.alone,?_,?_,h.once⟩
  · intro item hi
    refine Nat.lt_succ_of_le ?_
    obtain rfl | hi := hk item hi
    · exact hn.le
    · exact (h.numbered item hi).le
  · intro item o hi ho hs
    obtain rfl | hi := hk item hi
    · obtain rfl | ho := hk o ho
      · rfl
      · exact absurd hs.symm (hf o ho)
    · obtain rfl | ho := hk o ho
      · exact absurd hs (hf item hi)
      · exact h.unique item o hi ho hs
  · intro n hr
    exact Nat.lt_succ_of_lt (h.returnedBefore n hr)
  · intro item hi hr
    obtain rfl | hi := hk item hi
    · exact absurd (h.returnedBefore _ hr) hn.not_lt
    · exact h.open_ item hi hr

/-- No other claim of the kind for the node stands between its reading and its deletion. -/
def readsAlone (c : Threads RelayMailbox Claiming) : Event MailboxCall→Bool
  | .enter _ (.claim kind node _) =>
    decide (∀thread∈c.running.keys,(c.running.lookup thread).all (fun claiming =>
      (claiming.kind≠kind ∨ claiming.entry.selectedRoomNodeId≠node)))
  | _ => true

theorem readsAlone_claim (h : readsAlone c (.enter t (.claim kind node order)))
    {o : ℕ} (hr : c.running.lookup o=some item) (hk : item.kind=kind) :
    item.entry.selectedRoomNodeId≠node := by
  have ho := of_decide_eq_true h o (mem_keys_of_lookup hr)
  rw [hr] at ho
  exact (of_decide_eq_true ho).resolve_left (fun hne => hne hk)

/-- A claim that reads alone is the only one about to return its intent. -/
theorem unreturned_read (h : Unreturned c) (hid : c.running.lookup t=none)
    (ha : readsAlone c (.enter t (.claim kind node order))) :
    Unreturned (c.moveTo t (mailboxCallers.enter (.claim kind node order) c.shared)) := by
  change Unreturned (c.moveTo t
    (c.shared,(candidates (c.shared.intents kind) node order).head?.map (Claiming.mk kind)))
  cases hh : (candidates (c.shared.intents kind) node order).head? with
  | none =>
    rw [Option.map_none,moveTo_of_idle hid]
    exact h
  | some e =>
    obtain ⟨he,hn⟩ := mem_of_head_candidates hh
    have hhas : c.shared.Has ⟨kind,e⟩ := he
    have hk : ∀item,Known (c.moveTo t (c.shared,some ⟨kind,e⟩)) item → Known c item := by
      rintro item (hi | ⟨o,ho⟩)
      · exact .inl hi
      · obtain ⟨-,hr⟩ | ⟨-,hb⟩ := running_moveTo ho
        · cases hr
          exact .inl hhas
        · exact .inr ⟨o,hb⟩
    have hf : ∀o,c.running.lookup o≠some ⟨kind,e⟩ :=
      fun o ho => readsAlone_claim ha ho rfl hn
    refine ⟨?_,?_,?_,h.returnedBefore,?_,h.once⟩
    · exact fun item hi => h.numbered item (hk item hi)
    · intro item o hi ho
      exact h.unique item o (hk item hi) (hk o ho)
    · intro one o item hone ho
      obtain ⟨rfl,hr⟩ | ⟨hne,hb⟩ := running_moveTo hone
      · obtain ⟨rfl,-⟩ | ⟨-,hb⟩ := running_moveTo ho
        · rfl
        · cases hr
          exact absurd hb (hf o)
      · obtain ⟨rfl,hr⟩ | ⟨-,hb'⟩ := running_moveTo ho
        · cases hr
          exact absurd hb (hf one)
        · exact h.alone one o item hb hb'
    · exact fun item hi => h.open_ item (hk item hi)

theorem unreturned_delete (h : Unreturned c) {claiming : Claiming}
    (hru : c.running.lookup t=some claiming) :
    Unreturned (c.moveTo t (mailboxCallers.resume claiming c.shared)) := by
  have hc : Known c claiming := .inr ⟨t,hru⟩
  have hk : ∀item,Known (c.moveTo t (mailboxCallers.resume claiming c.shared)) item →
      Known c item ∧ item≠claiming := by
    rintro item (hi | ⟨o,ho⟩)
    · obtain ⟨hhas,hne⟩ := RelayMailbox.has_hdel hi
      exact ⟨.inl hhas,hne⟩
    · obtain ⟨-,hn⟩ | ⟨hne,hb⟩ := running_moveTo ho
      · cases hn
      · refine ⟨.inr ⟨o,hb⟩,?_⟩
        rintro rfl
        exact hne (h.alone o t _ hb hru)
  refine ⟨?_,?_,?_,?_,?_,?_⟩
  · exact fun item hi => h.numbered item (hk item hi).1
  · intro item o hi ho
    exact h.unique item o (hk item hi).1 (hk o ho).1
  · intro one o item hone ho
    exact h.alone one o item (lookup_of_erase hone).2 (lookup_of_erase ho).2
  · intro n hr
    obtain rfl | hr := mem_cons.mp hr
    · exact h.numbered claiming hc
    · exact h.returnedBefore n hr
  · intro item hi hr
    obtain ⟨hb,hne⟩ := hk item hi
    obtain hs | hr := mem_cons.mp hr
    · exact hne (h.unique item claiming hb hc hs)
    · exact h.open_ item hb hr
  · exact nodup_cons.mpr ⟨h.open_ claiming hc,h.once⟩

/-- In every schedule in which claims for the same node do not overlap, no intent is returned by
two claims. -/
theorem returned_once_of_readsAlone (events : List (Event MailboxCall))
    (halone : AtEveryStep (fun earlier event =>
      readsAlone (mailboxAfter earlier) event) events) :
    (mailboxAfter events).shared.returned.Nodup := by
  have hk : Unreturned (mailboxAfter events) := by
    refine mailboxCallers.run_invariant Unreturned
      (fun c event => readsAlone c event) ?_ unreturned_start halone
    intro c event result h he hran
    obtain ⟨call,heq,rfl⟩ | ⟨claiming,-,hr,rfl⟩ := mailboxCallers.ran_eq_some hran
    · rw [heq] at he hran
      have hi := mailboxCallers.idle_of_ran_enter hran
      cases call with
      | dispatch kind source node intent =>
        exact unreturned_dispatch h hi kind source node intent
      | claim kind node order => exact unreturned_read h hi he
    · exact unreturned_delete h hr
  exact hk.once

def firstId : IdSource := ⟨1700000000000000000,7,1⟩

def claimedInTurn : List (Event MailboxCall) :=
  [.enter 0 (.dispatchTerminationIntent firstId "owner" ⟨"hall","alice","PA_1"⟩),
    .enter 1 (.claimNextTerminationIntentForNode "owner" (.sorted String)),.resume 1,
    .enter 0 (.dispatchTerminationIntent {firstId with seq := 2} "owner" ⟨"hall","bob","PA_2"⟩),
    .enter 2 (.claimNextTerminationIntentForNode "owner" (.sorted String)),.resume 2]

theorem returned_once_claimedInTurn :
    (mailboxAfter claimedInTurn).shared.returned = [1,0] ∧
      (mailboxAfter claimedInTurn).shared.returned.Nodup :=
  ⟨by decide +kernel,returned_once_of_readsAlone claimedInTurn (by decide +kernel)⟩

/-- One intent of each kind, and two claims for each that read before one of them deletes. -/
def claimedTogether : List (Event MailboxCall) :=
  [.enter 0 (.dispatchTerminationIntent firstId "owner" ⟨"hall","alice","PA_1"⟩),
    .enter 0 (.dispatchSignalRequestIntent firstId "owner" ⟨"hall","alice",[]⟩),
    .enter 0 (.dispatchRoomServiceIntent firstId "owner" ⟨"hall","DeleteRoom",[]⟩),
    .enter 0 (.dispatchIntent firstId "owner" (.ofJoin ⟨"key",{video := {}}⟩ {})),
    .enter 1 (.claimNextTerminationIntentForNode "owner" (.sorted String)),
    .enter 2 (.claimNextTerminationIntentForNode "owner" (.sorted String)),.resume 1,.resume 2,
    .enter 1 (.claimNextSignalRequestIntentForNode "owner" (.sorted String)),
    .enter 2 (.claimNextSignalRequestIntentForNode "owner" (.sorted String)),.resume 1,.resume 2,
    .enter 1 (.claimNextRoomServiceIntentForNode "owner" (.sorted String)),
    .enter 2 (.claimNextRoomServiceIntentForNode "owner" (.sorted String)),.resume 1,.resume 2,
    .enter 1 (.claimNextIntentForNode "owner" (.sorted String)),
    .enter 2 (.claimNextIntentForNode "owner" (.sorted String)),.resume 1,.resume 2]

theorem returned_twice_claimedTogether :
    (mailboxAfter claimedTogether).shared.returned = [3,3,2,2,1,1,0,0] ∧
      ¬(mailboxAfter claimedTogether).shared.returned.Nodup := by
  have hr : (mailboxAfter claimedTogether).shared.returned=[3,3,2,2,1,1,0,0] := by
    decide +kernel
  refine ⟨hr,?_⟩
  rw [hr]
  decide

end OxideSfu.Relay
