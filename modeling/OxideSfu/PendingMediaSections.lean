import OxideSfu.CriticalSections
import OxideSfu.MediaNegotiation

/-!
# Media sections that a single-PC subscriber has to offer

A subscriber that receives on the connection it publishes on is told how many media sections are
missing. A renegotiation that is asked for during another one is recorded, and the task after the
next answer sends the requirement (`PendingMediaSectionRequestStore` in `stores/media.rs`,
`router/session.rs`). Every critical section is a step, and the sections of all calls interleave.
-/

namespace OxideSfu.Signaling

open FiniteMaps Rooms StepRuns CriticalSections RoomStore Finset List

structure PendingMediaSectionRequestStore where
  keys : FiniteMap MediaTrackKey MediaKind
  requestedKeys : Finset MediaTrackKey
  (negotiatingSubscribers coalescedRenegotiations : Finset ParticipantKey)

structure PendingMediaSectionCounts where
  (audios videos : ℕ)
  deriving DecidableEq

def PendingMediaSectionCounts.isEmpty (counts : PendingMediaSectionCounts) : Bool :=
  counts.audios=0 ∧ counts.videos=0

def countKinds (pending : FiniteMap MediaTrackKey MediaKind) (keys : Finset MediaTrackKey) :
    PendingMediaSectionCounts where
  audios := (keys.filter (fun key => pending.lookup key=some .audio)).card
  videos := (keys.filter (fun key => pending.lookup key=some .video)).card

namespace PendingMediaSectionRequestStore

def empty : PendingMediaSectionRequestStore := ⟨.empty,∅,∅,∅⟩

def pendingKeysForSubscriber (s : PendingMediaSectionRequestStore) (subscriber : ParticipantKey) :
    FiniteMap MediaTrackKey MediaKind :=
  s.keys.filter (fun key _ =>
    (key.room=subscriber.room ∧ key.subscriber=subscriber.identity))

def pendingCountsForSubscriber (s : PendingMediaSectionRequestStore)
    (subscriber : ParticipantKey) : PendingMediaSectionCounts :=
  countKinds (s.pendingKeysForSubscriber subscriber) (s.pendingKeysForSubscriber subscriber).keys

def hasForSubscriber (s : PendingMediaSectionRequestStore) (subscriber : ParticipantKey) : Bool :=
  !(s.pendingCountsForSubscriber subscriber).isEmpty

def insertOnce (s : PendingMediaSectionRequestStore) (key : MediaTrackKey) (kind : MediaKind) :
    PendingMediaSectionRequestStore :=
  {s with keys := s.keys.insert key kind}

def removeKey (s : PendingMediaSectionRequestStore) (key : MediaTrackKey) :
    PendingMediaSectionRequestStore :=
  {s with keys := s.keys.erase key}

/-- The second half of `remove`: the key's own marker goes, or else, sections being capacity of
a kind, the marker of one other key of that kind. -/
def releaseMarker (s : PendingMediaSectionRequestStore) (key : MediaTrackKey)
    (removedKind : Option MediaKind) (iteration : Iteration MediaTrackKey) :
    PendingMediaSectionRequestStore :=
  if key∈s.requestedKeys then {s with requestedKeys := s.requestedKeys.erase key}
  else
    match removedKind with
    | none => s
    | some kind =>
      let released := (iteration.order s.requestedKeys).find? (fun requested =>
        decide (requested.room=key.room ∧ requested.subscriber=key.subscriber ∧
          s.keys.lookup requested=some kind))
      match released with
      | none => s
      | some released => {s with requestedKeys := s.requestedKeys.erase released}

/-- The second half of `take_unrequested_counts`: the pending keys that were listed are marked,
and those that were not marked before are counted. -/
def markRequested (s : PendingMediaSectionRequestStore)
    (pending : FiniteMap MediaTrackKey MediaKind) :
    PendingMediaSectionCounts × PendingMediaSectionRequestStore :=
  (countKinds pending (pending.keys \ s.requestedKeys),
    {s with requestedKeys := s.requestedKeys ∪ pending.keys})

def markNegotiating (s : PendingMediaSectionRequestStore) (subscriber : ParticipantKey) :
    PendingMediaSectionRequestStore :=
  {s with negotiatingSubscribers := insert subscriber s.negotiatingSubscribers}

def unmarkNegotiating (s : PendingMediaSectionRequestStore) (subscriber : ParticipantKey) :
    PendingMediaSectionRequestStore :=
  {s with negotiatingSubscribers := s.negotiatingSubscribers.erase subscriber}

def recordCoalesced (s : PendingMediaSectionRequestStore) (subscriber : ParticipantKey) :
    PendingMediaSectionRequestStore :=
  {s with coalescedRenegotiations := insert subscriber s.coalescedRenegotiations}

def dropCoalesced (s : PendingMediaSectionRequestStore) (subscriber : ParticipantKey) :
    PendingMediaSectionRequestStore :=
  {s with coalescedRenegotiations := s.coalescedRenegotiations.erase subscriber}

def dropRequested (s : PendingMediaSectionRequestStore) (subscriber : ParticipantKey) :
    PendingMediaSectionRequestStore :=
  {s with requestedKeys := s.requestedKeys.filter (fun key =>
      key.room≠subscriber.room ∨ key.subscriber≠subscriber.identity)}

def keepOthersKeys (s : PendingMediaSectionRequestStore) (participant : ParticipantKey) :
    PendingMediaSectionRequestStore :=
  {s with keys := s.keys.filter (fun key _ =>
      notOfParticipant participant.room participant.identity key)}

def keepOthersRequested (s : PendingMediaSectionRequestStore) (participant : ParticipantKey) :
    PendingMediaSectionRequestStore :=
  {s with requestedKeys := s.requestedKeys.filter (fun key =>
      notOfParticipant participant.room participant.identity key)}

end PendingMediaSectionRequestStore

/-- How a task after an answer ended: whether it took the record of its subscriber, whether it
found the signal connection, and the requirement it sent. -/
structure AnswerTaskReport where
  subscriber : ParticipantKey
  (tookRecord connected : Bool)
  sent : Option PendingMediaSectionCounts
  deriving DecidableEq

structure RenegotiationState where
  store : PendingMediaSectionRequestStore
  signalConnections : Finset ParticipantKey
  reports : List AnswerTaskReport

namespace RenegotiationState

def initial : RenegotiationState := ⟨.empty,∅,[]⟩

def withStore (s : RenegotiationState) (store : PendingMediaSectionRequestStore) :
    RenegotiationState :=
  {s with store}

def report (s : RenegotiationState) (report : AnswerTaskReport) : RenegotiationState :=
  {s with reports := s.reports++[report]}

end RenegotiationState

/-- The calls on the store, the task after an answer, and connections that come and go. -/
inductive RenegotiationCall
  | insertOnce (key : MediaTrackKey) (kind : MediaKind)
  | remove (key : MediaTrackKey) (iteration : Iteration MediaTrackKey)
  | takeUnrequestedCounts (subscriber : ParticipantKey)
  | beginNegotiationIfIdle (subscriber : ParticipantKey)
  | requestRenegotiationIfIdle (subscriber : ParticipantKey)
  | clearNegotiationIfNoPending (subscriber : ParticipantKey)
  | removeParticipant (participant : ParticipantKey)
  | connect (subscriber : ParticipantKey)
  | disconnect (subscriber : ParticipantKey)
  | afterAnswer (subscriber : ParticipantKey)

/-- The points between sections, with the local variables of the call. -/
inductive RenegotiationPoint
  -- `remove`
  | releasing (key : MediaTrackKey) (removedKind : Option MediaKind)
      (iteration : Iteration MediaTrackKey)
  -- `take_unrequested_counts`
  | marking (pending : FiniteMap MediaTrackKey MediaKind)
  -- `request_renegotiation_if_idle`
  | recording (subscriber : ParticipantKey)
  -- `clear_negotiation_if_no_pending` and `clear_negotiation`
  | clearCheckRecord (subscriber : ParticipantKey)
  | clearMark (subscriber : ParticipantKey)
  | clearRecord (subscriber : ParticipantKey)
  | clearRequested (subscriber : ParticipantKey)
  -- `remove_participant`
  | forgetRequested (participant : ParticipantKey)
  | forgetMark (participant : ParticipantKey)
  | forgetRecord (participant : ParticipantKey)
  -- the task after an answer
  | taskTakeRecord (subscriber : ParticipantKey) (hasPending : Bool)
  | taskConnection (subscriber : ParticipantKey) (hasPending tookRecord : Bool)
  | taskPending (subscriber : ParticipantKey) (tookRecord : Bool)
  | taskMarking (subscriber : ParticipantKey) (tookRecord : Bool)
      (pending : FiniteMap MediaTrackKey MediaKind)

open PendingMediaSectionRequestStore

def senderRemovalRequirement : PendingMediaSectionCounts := ⟨0,0⟩

/-- The lookup of the signal connection. Without pending sections the requirement follows at
once; with pending sections the task sleeps and counts them then. -/
def taskConnectionSection (s : RenegotiationState) (subscriber : ParticipantKey)
    (hasPending tookRecord : Bool) : RenegotiationState × Option RenegotiationPoint :=
  if subscriber∉s.signalConnections then
    (s.report ⟨subscriber,tookRecord,false,none⟩,none)
  else if hasPending then (s,some (.taskPending subscriber tookRecord))
  else (s.report ⟨subscriber,tookRecord,true,some senderRemovalRequirement⟩,none)

def taskMarkingSection (s : RenegotiationState) (subscriber : ParticipantKey) (tookRecord : Bool)
    (pending : FiniteMap MediaTrackKey MediaKind) : RenegotiationState :=
  let (counts,store) := s.store.markRequested pending
  (s.withStore store).report
    ⟨subscriber,tookRecord,true,if counts.isEmpty then none else some counts⟩

def renegotiationMachine : Machine RenegotiationState RenegotiationCall RenegotiationPoint where
  enter
    | .insertOnce key kind, s => (s.withStore (s.store.insertOnce key kind),none)
    | .remove key iteration, s =>
      (s.withStore (s.store.removeKey key),
        some (.releasing key (s.store.keys.lookup key) iteration))
    | .takeUnrequestedCounts subscriber, s =>
      (s,some (.marking (s.store.pendingKeysForSubscriber subscriber)))
    | .beginNegotiationIfIdle subscriber, s =>
      (s.withStore (s.store.markNegotiating subscriber),none)
    | .requestRenegotiationIfIdle subscriber, s =>
      if subscriber∈s.store.negotiatingSubscribers then (s,some (.recording subscriber))
      else (s.withStore (s.store.markNegotiating subscriber),none)
    | .clearNegotiationIfNoPending subscriber, s =>
      if s.store.hasForSubscriber subscriber then (s,none)
      else (s,some (.clearCheckRecord subscriber))
    | .removeParticipant participant, s =>
      (s.withStore (s.store.keepOthersKeys participant),some (.forgetRequested participant))
    | .connect subscriber, s =>
      ({s with signalConnections := insert subscriber s.signalConnections},none)
    | .disconnect subscriber, s =>
      ({s with signalConnections := s.signalConnections.erase subscriber},none)
    | .afterAnswer subscriber, s =>
      (s,some (.taskTakeRecord subscriber (s.store.hasForSubscriber subscriber)))
  resume
    | .releasing key removedKind iteration, s =>
      (s.withStore (s.store.releaseMarker key removedKind iteration),none)
    | .marking pending, s => (s.withStore (s.store.markRequested pending).2,none)
    | .recording subscriber, s => (s.withStore (s.store.recordCoalesced subscriber),none)
    | .clearCheckRecord subscriber, s =>
      if subscriber∈s.store.coalescedRenegotiations then (s,none)
      else (s,some (.clearMark subscriber))
    | .clearMark subscriber, s =>
      (s.withStore (s.store.unmarkNegotiating subscriber),some (.clearRecord subscriber))
    | .clearRecord subscriber, s =>
      (s.withStore (s.store.dropCoalesced subscriber),some (.clearRequested subscriber))
    | .clearRequested subscriber, s => (s.withStore (s.store.dropRequested subscriber),none)
    | .forgetRequested participant, s =>
      (s.withStore (s.store.keepOthersRequested participant),some (.forgetMark participant))
    | .forgetMark participant, s =>
      (s.withStore (s.store.unmarkNegotiating participant),some (.forgetRecord participant))
    | .forgetRecord participant, s => (s.withStore (s.store.dropCoalesced participant),none)
    | .taskTakeRecord subscriber hasPending, s =>
      let tookRecord := decide (subscriber∈s.store.coalescedRenegotiations)
      let s := s.withStore (s.store.dropCoalesced subscriber)
      if !hasPending && !tookRecord then (s,none)
      else (s,some (.taskConnection subscriber hasPending tookRecord))
    | .taskConnection subscriber hasPending tookRecord, s =>
      taskConnectionSection s subscriber hasPending tookRecord
    | .taskPending subscriber tookRecord, s =>
      (s,some (.taskMarking subscriber tookRecord (s.store.pendingKeysForSubscriber subscriber)))
    | .taskMarking subscriber tookRecord pending, s =>
      (taskMarkingSection s subscriber tookRecord pending,none)

def renegotiationsAfter (events : List (Event RenegotiationCall)) :
    Threads RenegotiationState RenegotiationPoint :=
  renegotiationMachine.run (.idle .initial) events

def RenegotiationPoint.records (subscriber : ParticipantKey) : RenegotiationPoint→Bool
  | .recording other => other=subscriber | _ => false

def nothingRecorded (c : Threads RenegotiationState RenegotiationPoint)
    (subscriber : ParticipantKey) : Bool :=
  decide (subscriber∉c.shared.store.coalescedRenegotiations ∧
    ∀thread∈c.running.keys,(c.running.lookup thread).any (·.records subscriber)=false)

/-- What must hold before a section: the mark of a subscriber is taken away only when no
renegotiation of it is recorded or about to be, and a task that took a record and counts
sections finds one that was not requested yet. -/
def undisturbed (c : Threads RenegotiationState RenegotiationPoint) :
    Event RenegotiationCall→Bool
  | .enter _ _ => true
  | .resume thread =>
    match c.running.lookup thread with
    | some (.clearMark subscriber) => nothingRecorded c subscriber
    | some (.forgetMark subscriber) => nothingRecorded c subscriber
    | some (.taskMarking _ true pending) =>
      decide (pending.keys \ c.shared.store.requestedKeys).Nonempty
    | _ => true

/-- Recorded renegotiations are of negotiating subscribers, and a task that took a record and
found the connection has sent a requirement. -/
structure RenegotiationsKept (s : RenegotiationState) : Prop where
  marked : ∀subscriber∈s.store.coalescedRenegotiations,
    subscriber∈s.store.negotiatingSubscribers
  sent : ∀report∈s.reports,report.tookRecord → report.connected →
    report.sent.isSome

/-- A call that is about to record a renegotiation has found its subscriber negotiating. -/
def AtPoint : RenegotiationPoint → RenegotiationState→Prop
  | .recording subscriber, s => subscriber∈s.store.negotiatingSubscribers | _,_ => True

variable {pending : FiniteMap MediaTrackKey MediaKind} {point : RenegotiationPoint}

theorem atPoint_of_not_recording {s : RenegotiationState} (h : ∀u,point ≠ .recording u) :
    AtPoint point s := by
  cases point with
  | recording u => exact absurd rfl (h u)
  | _ => trivial

variable {c : Threads RenegotiationState RenegotiationPoint} {t : ℕ}
  {r : RenegotiationState × Option RenegotiationPoint}

/-- No mark is lost, no record is added, and no task has ended. -/
structure Harmless (s s' : RenegotiationState) : Prop where
  marks : s.store.negotiatingSubscribers⊆s'.store.negotiatingSubscribers
  records : s'.store.coalescedRenegotiations⊆s.store.coalescedRenegotiations
  reports : s'.reports=s.reports

open Harmless

theorem others_of_marks (h : Annotated RenegotiationsKept AtPoint c) (s' : RenegotiationState)
    (hm : c.shared.store.negotiatingSubscribers⊆s'.store.negotiatingSubscribers)
    (o : ℕ) (x : RenegotiationPoint) (hp : c.running.lookup o=some x) :
    AtPoint x s' := by
  have hb := h.2 o x hp
  cases x with
  | recording u => exact hm hb
  | _ => trivial

theorem Harmless.keeps (hh : Harmless c.shared r.1) (h : Annotated RenegotiationsKept AtPoint c)
    (hr : ∀u,r.2≠some (.recording u)) :
    Keeps RenegotiationsKept AtPoint c t r where
  shared := by
    refine ⟨?_,?_⟩
    · intro u hre
      exact hh.marks (h.1.marked u (hh.records hre))
    · rw [hh.reports]
      exact h.1.sent
  reached point hp := by
    apply atPoint_of_not_recording
    rintro u rfl
    exact hr u hp
  others other point _ hp := others_of_marks h _ hh.marks other point hp

theorem Harmless.of_same {s s' : RenegotiationState}
    (hm : s'.store.negotiatingSubscribers=s.store.negotiatingSubscribers)
    (hr : s'.store.coalescedRenegotiations=s.store.coalescedRenegotiations)
    (hre : s'.reports=s.reports) : Harmless s s' :=
  ⟨hm.ge,hr.le,hre⟩

/-- At most markers are released, among them the one of the key. -/
theorem exists_releaseMarker (s : PendingMediaSectionRequestStore) (key : MediaTrackKey)
    (removedKind : Option MediaKind) (it : Iteration MediaTrackKey) :
    ∃q⊆s.requestedKeys.erase key,s.releaseMarker key removedKind it={s with requestedKeys :=
      q} := by
  unfold PendingMediaSectionRequestStore.releaseMarker
  split_ifs with hm
  · exact ⟨_,Finset.Subset.refl _,rfl⟩
  · rw [erase_eq_of_notMem hm]
    cases removedKind with
    | none => exact ⟨_,Finset.Subset.refl _,rfl⟩
    | some kind =>
      dsimp only
      split
      · exact ⟨_,Finset.Subset.refl _,rfl⟩
      · exact ⟨_,erase_subset _ _,rfl⟩

section

variable (h : Annotated RenegotiationsKept AtPoint c)

include h

theorem keeps_enter (call : RenegotiationCall) :
    Keeps RenegotiationsKept AtPoint c t (renegotiationMachine.enter call c.shared) := by
  have hm : ∀u,Harmless c.shared (c.shared.withStore (c.shared.store.markNegotiating u)) :=
    fun u => ⟨subset_insert _ _,Finset.Subset.refl _,rfl⟩
  cases call with
  | insertOnce | remove | connect | disconnect | afterAnswer =>
    exact keeps (.of_same rfl rfl rfl) h (by simp [renegotiationMachine])
  | takeUnrequestedCounts | removeParticipant =>
    exact keeps (.of_same rfl rfl rfl) h (by simp [renegotiationMachine])
  | beginNegotiationIfIdle u =>
    exact keeps (hm u) h (by simp [renegotiationMachine])
  | requestRenegotiationIfIdle u =>
    simp only [renegotiationMachine]
    split_ifs with hn
    · refine ⟨h.1,?_,fun o x _ hp => h.2 o x hp⟩
      intro x hp
      cases hp
      exact hn
    · exact keeps (hm u) h (by simp)
  | clearNegotiationIfNoPending u =>
    simp only [renegotiationMachine]
    split_ifs
    · exact keeps (.of_same rfl rfl rfl) h (by simp)
    · exact keeps (.of_same rfl rfl rfl) h (by simp)

/-- The mark of a subscriber goes when no renegotiation of it is recorded or about to be. -/
theorem keeps_unmark {u : ParticipantKey}
    (hf : nothingRecorded c u) {next : RenegotiationPoint} (hn : ∀o,next ≠ .recording o) :
    Keeps RenegotiationsKept AtPoint c t
      (c.shared.withStore (c.shared.store.unmarkNegotiating u),some next) := by
  obtain ⟨hu,hi⟩ := of_decide_eq_true hf
  refine ⟨⟨?_,h.1.sent⟩,?_,?_⟩
  · intro o hr
    refine mem_erase.mpr ⟨?_,h.1.marked o hr⟩
    rintro rfl
    exact hu hr
  · intro x hp
    cases hp
    exact atPoint_of_not_recording hn
  · intro o x _ hp
    have hb := h.2 o x hp
    cases x with
    | recording w =>
      refine mem_erase.mpr ⟨?_,hb⟩
      rintro rfl
      have ht := hi o (FiniteMap.mem_keys_of_lookup hp)
      simp [hp,RenegotiationPoint.records] at ht
    | _ => trivial

theorem keeps_report (st : PendingMediaSectionRequestStore) {report : AnswerTaskReport}
    (hm : st.negotiatingSubscribers=c.shared.store.negotiatingSubscribers)
    (hre : st.coalescedRenegotiations=c.shared.store.coalescedRenegotiations)
    (hrep : report.tookRecord → report.connected → report.sent.isSome) :
    Keeps RenegotiationsKept AtPoint c t ((c.shared.withStore st).report report,none) where
  shared := by
    refine ⟨?_,?_⟩
    · intro u hr
      change u∈st.coalescedRenegotiations at hr
      change u∈st.negotiatingSubscribers
      rw [hre] at hr
      rw [hm]
      exact h.1.marked u hr
    · intro o ho
      obtain ho | ho := List.mem_append.mp ho
      · exact h.1.sent o ho
      · rw [List.mem_singleton.mp ho]
        exact hrep
  reached point hp := by cases hp
  others o point _ hp := others_of_marks h _ hm.ge o point hp

end

theorem isEmpty_countKinds {keys : Finset MediaTrackKey} (hke : keys⊆pending.keys)
    (hs : keys.Nonempty) :
    (countKinds pending keys).isEmpty=false := by
  obtain ⟨key,hkey⟩ := hs
  obtain ⟨kind,hk⟩ := Option.isSome_iff_exists.mp ((pending.mem_keys key).mp (hke hkey))
  simp only [PendingMediaSectionCounts.isEmpty,countKinds,decide_eq_false_iff_not,card_eq_zero,
    not_and_or]
  cases kind with
  | audio => exact .inl (ne_empty_of_mem (mem_filter.mpr ⟨hkey,hk⟩))
  | video => exact .inr (ne_empty_of_mem (mem_filter.mpr ⟨hkey,hk⟩))

section

variable (h : Annotated RenegotiationsKept AtPoint c)

include h

theorem keeps_taskConnection (u : ParticipantKey) (hasPending tookRecord : Bool) :
    Keeps RenegotiationsKept AtPoint c t
      (taskConnectionSection c.shared u hasPending tookRecord) := by
  rw [taskConnectionSection]
  by_cases hc : u∈c.shared.signalConnections
  · rw [if_neg (not_not_intro hc)]
    cases hasPending with
    | true => exact keeps (.of_same rfl rfl rfl) h (by simp)
    | false => exact keeps_report h c.shared.store rfl rfl (fun _ _ => rfl)
  · rw [if_pos hc]
    refine keeps_report h c.shared.store rfl rfl ?_
    intro _ hf
    cases hf

theorem keeps_taskMarking (u : ParticipantKey) {tookRecord : Bool}
    (hu : tookRecord → (pending.keys \ c.shared.store.requestedKeys).Nonempty) :
    Keeps RenegotiationsKept AtPoint c t
      (taskMarkingSection c.shared u tookRecord pending,none) := by
  refine keeps_report h (c.shared.store.markRequested pending).2 rfl rfl ?_
  intro ht _
  rw [isEmpty_countKinds sdiff_subset (hu ht)]
  rfl

theorem keeps_resume (hp : c.running.lookup t=some point) (hu : undisturbed c (.resume t)) :
    Keeps RenegotiationsKept AtPoint c t (renegotiationMachine.resume point c.shared) := by
  rw [undisturbed,hp] at hu
  have hd : ∀subscriber,Harmless c.shared
    (c.shared.withStore (c.shared.store.dropCoalesced subscriber)) :=
    fun subscriber => ⟨Finset.Subset.refl _,erase_subset _ _,rfl⟩
  cases point with
  | releasing key removedKind iteration =>
    obtain ⟨q,-,hq⟩ := exists_releaseMarker c.shared.store key removedKind iteration
    exact keeps (.of_same (congrArg (·.negotiatingSubscribers) hq)
      (congrArg (·.coalescedRenegotiations) hq) rfl) h (by simp [renegotiationMachine])
  | marking | clearRequested | forgetRequested | taskPending =>
    exact keeps (.of_same rfl rfl rfl) h (by simp [renegotiationMachine])
  | recording subscriber =>
    refine ⟨⟨?_,h.1.sent⟩,?_,?_⟩
    · intro other hr
      obtain rfl | hr := mem_insert.mp hr
      · exact h.2 t _ hp
      · exact h.1.marked other hr
    · intro point hre
      cases hre
    · intro other point _ ho
      exact others_of_marks h (c.shared.withStore (c.shared.store.recordCoalesced subscriber))
        (Finset.Subset.refl _) other point ho
  | clearCheckRecord subscriber =>
    simp only [renegotiationMachine]
    split_ifs
    · exact keeps (.of_same rfl rfl rfl) h (by simp)
    · exact keeps (.of_same rfl rfl rfl) h (by simp)
  | clearMark | forgetMark => exact keeps_unmark h hu (by simp)
  | clearRecord subscriber =>
    exact keeps (hd subscriber) h (by simp [renegotiationMachine])
  | forgetRecord participant =>
    exact keeps (hd participant) h (by simp [renegotiationMachine])
  | taskTakeRecord subscriber hasPending =>
    simp only [renegotiationMachine]
    split_ifs
    · exact keeps (hd subscriber) h (by simp)
    · exact keeps (hd subscriber) h (by simp)
  | taskConnection subscriber hasPending tookRecord =>
    exact keeps_taskConnection h subscriber hasPending tookRecord
  | taskMarking subscriber tookRecord pending =>
    refine keeps_taskMarking h subscriber ?_
    rintro rfl
    exact of_decide_eq_true hu

theorem keeps_of_ran {e : Event RenegotiationCall} (hu : undisturbed c e)
    (hran : renegotiationMachine.ran c e=some r) :
    Keeps RenegotiationsKept AtPoint c e.thread r := by
  obtain ⟨call,-,rfl⟩ | ⟨x,he,hp,rfl⟩ := renegotiationMachine.ran_eq_some hran
  · exact keeps_enter h call
  · rw [he] at hu
    exact keeps_resume h hp hu

end

/-- In every interleaving whose sections run undisturbed, a recorded renegotiation is of a
negotiating subscriber, and no task takes the record without sending a requirement. -/
theorem renegotiationsKept_of_undisturbed (events : List (Event RenegotiationCall))
    (h : AtEveryStep (fun earlier event =>
      undisturbed (renegotiationsAfter earlier) event) events) :
    RenegotiationsKept (renegotiationsAfter events).shared := by
  have hs : Annotated RenegotiationsKept AtPoint
      (.idle .initial : Threads RenegotiationState RenegotiationPoint) := by
    refine ⟨⟨?_,?_⟩,?_⟩
    · exact fun subscriber hr => absurd hr (notMem_empty subscriber)
    · exact fun report hre => absurd hre not_mem_nil
    · intro thread point hp
      cases hp
  exact (hs.run (m := renegotiationMachine) h (fun c event result hb ha hran =>
    keeps_of_ran hb ha hran)).1

/-- A track waits for a section, a removal asks for a renegotiation meanwhile, and the task
after the answer requests the section that was added last. -/
def recordedThenAnswered : List (Event RenegotiationCall) :=
  [.enter 0 (.connect ⟨"room","bob"⟩),
    .enter 0 (.beginNegotiationIfIdle ⟨"room","bob"⟩),
    .enter 0 (.requestRenegotiationIfIdle ⟨"room","bob"⟩),.resume 0,
    .enter 0 (.insertOnce ⟨"room","alice","TR_1","bob"⟩ .video),
    .enter 1 (.afterAnswer ⟨"room","bob"⟩),
    .enter 2 (.clearNegotiationIfNoPending ⟨"room","bob"⟩),
    .resume 1,.resume 1,.resume 1,.resume 1]

theorem renegotiationsKept_after_answer :
    (renegotiationsAfter recordedThenAnswered).shared.reports =
      [⟨⟨"room", "bob"⟩,true,true,some ⟨0,1⟩⟩] ∧
    RenegotiationsKept (renegotiationsAfter recordedThenAnswered).shared :=
  ⟨by decide +kernel,renegotiationsKept_of_undisturbed _ (by decide +kernel)⟩

def clearedBeforeRecord : List (Event RenegotiationCall) :=
  [.enter 0 (.requestRenegotiationIfIdle ⟨"room","bob"⟩),
    .enter 1 (.requestRenegotiationIfIdle ⟨"room","bob"⟩),
    .enter 2 (.clearNegotiationIfNoPending ⟨"room","bob"⟩),
    .resume 2,.resume 2,.resume 2,.resume 2,.resume 1]

/-- The only pending section has been requested when the renegotiation is recorded. -/
def requestedBeforeRecord : List (Event RenegotiationCall) :=
  [.enter 0 (.connect ⟨"room","bob"⟩),
    .enter 0 (.insertOnce ⟨"room","alice","TR_1","bob"⟩ .video),
    .enter 0 (.beginNegotiationIfIdle ⟨"room","bob"⟩),
    .enter 0 (.takeUnrequestedCounts ⟨"room","bob"⟩),.resume 0,
    .enter 0 (.requestRenegotiationIfIdle ⟨"room","bob"⟩),.resume 0,
    .enter 1 (.afterAnswer ⟨"room","bob"⟩),.resume 1,.resume 1,.resume 1,.resume 1]

/-- A record without a mark, and a task that takes a record and sends nothing. -/
theorem renegotiation_dropped :
    ¬ RenegotiationsKept (renegotiationsAfter clearedBeforeRecord).shared ∧
    ¬ RenegotiationsKept (renegotiationsAfter requestedBeforeRecord).shared := by
  constructor
  · intro h
    exact absurd (h.marked ⟨"room","bob"⟩ (by decide +kernel)) (by decide +kernel)
  · intro h
    have hr : (renegotiationsAfter requestedBeforeRecord).shared.reports =
      [⟨⟨"room","bob"⟩,true,true,none⟩] := by
      decide +kernel
    have hs := h.sent ⟨⟨"room","bob"⟩,true,true,none⟩
    exact absurd (hs mem_cons_self rfl rfl) (by decide)

open Threads PendingMediaSectionRequestStore

/-- `clear_negotiation` is also called on its own. -/
inductive SectionCall
  | clearNegotiation (subscriber : ParticipantKey)
  | other (call : RenegotiationCall)

def sectionMachine : Machine RenegotiationState SectionCall RenegotiationPoint where
  enter
    | .clearNegotiation subscriber, s =>
      (s.withStore (s.store.unmarkNegotiating subscriber),some (.clearRecord subscriber))
    | .other call, s => renegotiationMachine.enter call s
  resume := renegotiationMachine.resume

def sectionsAfter (events : List (Event SectionCall)) :
    Threads RenegotiationState RenegotiationPoint :=
  sectionMachine.run (.idle .initial) events

def RenegotiationPoint.listed : RenegotiationPoint → Finset MediaTrackKey
  | .marking pending | .taskMarking _ _ pending => pending.keys | _ => ∅

def RenegotiationPoint.releases (key : MediaTrackKey) : RenegotiationPoint→Bool
  | .releasing removed _ _ => removed=key
  | .forgetRequested participant =>
    !notOfParticipant participant.room participant.identity key
  | _ => false

def marked (c : Threads RenegotiationState RenegotiationPoint) :
    Event SectionCall → Finset MediaTrackKey
  | .enter _ _ => ∅ | .resume thread => (c.running.lookup thread).elim ∅ RenegotiationPoint.listed

def pendingKeys (events : List (Event SectionCall)) : Finset MediaTrackKey :=
  (sectionsAfter events).shared.store.keys.keys

def markers (events : List (Event SectionCall)) : Finset MediaTrackKey :=
  (sectionsAfter events).shared.store.requestedKeys

def counted (events : List (Event SectionCall)) (event : Event SectionCall) :
    Finset MediaTrackKey :=
  marked (sectionsAfter events) event \ markers events

/-- A pending key that needs a section like the one that the removed key got. -/
def PendingMediaSectionRequestStore.SharesSection (s : PendingMediaSectionRequestStore)
    (removed : MediaTrackKey) (kind : MediaKind) (key : MediaTrackKey) : Prop :=
  key.room=removed.room ∧ key.subscriber=removed.subscriber ∧ s.keys.lookup key=some kind

/-- A marker belongs to a pending key, or a call is about to release it. -/
def Requestable (c : Threads RenegotiationState RenegotiationPoint) : Prop :=
  ∀key∈c.shared.store.requestedKeys,key∈c.shared.store.keys.keys ∨
    ∃thread point,c.running.lookup thread=some point ∧ point.releases key

variable {x : RenegotiationPoint} {s : RenegotiationState} {k : MediaTrackKey}
  {e : Event SectionCall}
  {st : PendingMediaSectionRequestStore} {it : Iteration MediaTrackKey} {kind : MediaKind}

/-- What a section that continues a call marks and what it releases. -/
theorem mem_requested_resume (h : k∈(sectionMachine.resume x s).1.store.requestedKeys) :
    (k∈s.store.requestedKeys ∨ k∈x.listed) ∧ x.releases k=false := by
  cases x with
  | releasing removed kind it =>
    obtain ⟨q,hs,hq⟩ := exists_releaseMarker s.store removed kind it
    change k∈(s.store.releaseMarker removed kind it).requestedKeys at h
    rw [hq] at h
    obtain ⟨hne,hk⟩ := mem_erase.mp (hs h)
    exact ⟨.inl hk,decide_eq_false hne.symm⟩
  | marking | taskMarking => exact ⟨mem_union.mp h,rfl⟩
  | clearRequested => exact ⟨.inl (mem_of_mem_filter k h),rfl⟩
  | forgetRequested p =>
    obtain ⟨hk,hp⟩ := mem_filter.mp h
    exact ⟨.inl hk,by simp [RenegotiationPoint.releases,hp]⟩
  | recording | clearMark | clearRecord | forgetMark | forgetRecord | taskPending =>
    exact ⟨.inl h,rfl⟩
  | clearCheckRecord | taskTakeRecord | taskConnection =>
    refine ⟨.inl ?_,rfl⟩
    simp only [sectionMachine,renegotiationMachine,taskConnectionSection] at h
    split_ifs at h <;> exact h

theorem keys_resume : (sectionMachine.resume x s).1.store.keys=s.store.keys := by
  cases x with
  | releasing removed kind it =>
    obtain ⟨q,-,hq⟩ := exists_releaseMarker s.store removed kind it
    change (s.store.releaseMarker removed kind it).keys=_
    rw [hq]
  | clearCheckRecord | taskTakeRecord | taskConnection =>
    simp only [sectionMachine,renegotiationMachine,taskConnectionSection]
    split_ifs <;> rfl
  | _ => rfl

/-- The first section of a call marks nothing, and of a key that it removes the marker is
released next. -/
theorem kept_enter (call : SectionCall) :
    (sectionMachine.enter call s).1.store.requestedKeys=s.store.requestedKeys ∧
      ∀k∈s.store.keys.keys,k∈(sectionMachine.enter call s).1.store.keys.keys ∨
        ∃x,(sectionMachine.enter call s).2=some x ∧ x.releases k := by
  obtain _ | call := call
  · exact ⟨rfl,fun k hk => .inl hk⟩
  cases call with
  | insertOnce => exact ⟨rfl,fun k hk => .inl (mem_insert_of_mem hk)⟩
  | remove removed it =>
    refine ⟨rfl,fun k hk => ?_⟩
    by_cases hr : removed=k
    · exact .inr ⟨_,rfl,decide_eq_true hr⟩
    · exact .inl (mem_erase.mpr ⟨Ne.symm hr,hk⟩)
  | removeParticipant p =>
    refine ⟨rfl,fun k hk => ?_⟩
    cases hp : notOfParticipant p.room p.identity k with
    | false => exact .inr ⟨_,rfl,by simp [RenegotiationPoint.releases,hp]⟩
    | true =>
      refine .inl (mem_filter.mpr ⟨hk,?_⟩)
      obtain ⟨b,hb⟩ := Option.isSome_iff_exists.mp ((s.store.keys.mem_keys k).mp hk)
      simp [hb,hp]
  | requestRenegotiationIfIdle | clearNegotiationIfNoPending =>
    dsimp only [sectionMachine,renegotiationMachine]
    split_ifs <;> exact ⟨rfl,fun k hk => .inl hk⟩
  | _ => exact ⟨rfl,fun k hk => .inl hk⟩

theorem Requestable.of_ran (h : Requestable c) (hm : marked c e⊆c.shared.store.keys.keys)
    (hran : sectionMachine.ran c e=some r) : Requestable (c.moveTo e.thread r) := by
  intro k hk
  rw [moveTo_shared] at hk ⊢
  obtain ⟨call,he,rfl⟩ | ⟨x,he,hp,rfl⟩ := sectionMachine.ran_eq_some hran
  · obtain ⟨hr,hs⟩ := @kept_enter c.shared call
    rw [hr] at hk
    rw [he] at hran
    obtain hk | ⟨o,y,ho,hy⟩ := h k hk
    · refine (hs k hk).imp_right (fun ⟨x,hx,hre⟩ => ⟨e.thread,x,?_,hre⟩)
      rw [lookup_moveTo,if_pos rfl,hx]
    · refine .inr ⟨o,y,?_,hy⟩
      rw [lookup_moveTo,if_neg ?_,ho]
      rintro rfl
      cases ho.symm.trans (sectionMachine.idle_of_ran_enter hran)
  · rw [keys_resume]
    obtain ⟨hk | hk,hn⟩ := mem_requested_resume hk
    · refine (h k hk).imp_right (fun ⟨o,y,ho,hy⟩ => ⟨o,y,?_,hy⟩)
      rw [lookup_moveTo,if_neg ?_,ho]
      rintro rfl
      obtain rfl := Option.some.inj (ho.symm.trans hp)
      cases hy.symm.trans hn
    · refine .inl (hm ?_)
      rw [he,marked,hp]
      exact hk

variable {es : List (Event SectionCall)}

theorem markers_concat :
    markers (es++[e])=(sectionMachine.step (sectionsAfter es) e).shared.store.requestedKeys := by
  rw [markers,sectionsAfter,sectionMachine.run_concat,sectionsAfter]

theorem mem_markers_of_counted (h : k∈counted es e) : k∈markers (es++[e]) := by
  have hk := (mem_sdiff.mp h).1
  rw [markers_concat]
  cases e with
  | enter => cases hk
  | resume t =>
    cases hp : (sectionsAfter es).running.lookup t with
    | none =>
      rw [marked,hp] at hk
      cases hk
    | some x =>
      rw [marked,hp] at hk
      rw [sectionMachine.step_resume hp]
      cases x with
      | marking | taskMarking => exact mem_union_right _ hk
      | _ => cases hk

theorem requestedKeys_releaseMarker (hk : k∉st.requestedKeys)
    (h : ∃o∈st.requestedKeys,st.SharesSection k kind o) :
    ∃o∈st.requestedKeys,st.SharesSection k kind o ∧
      (st.releaseMarker k (some kind) it).requestedKeys=st.requestedKeys.erase o := by
  rw [releaseMarker,if_neg hk]
  dsimp only
  split
  next hf =>
    obtain ⟨o,ho,hs⟩ := h
    have hn := find?_eq_none.mp hf o (it.mem_order.mpr ho)
    exact absurd hs (by simpa [SharesSection] using hn)
  next o hf =>
    have hs : st.SharesSection k kind o := by simpa [SharesSection] using find?_some hf
    exact ⟨o,it.mem_order.mp (mem_of_find?_eq_some hf),hs,rfl⟩

/-- In every interleaving in which listed keys are still pending when they are marked, the
markers belong to pending keys once all calls have returned. A key is counted again only after
its marker was released, and a section that went to a key without a marker releases one marker
of its kind. -/
theorem markers_of_pending (events : List (Event SectionCall))
    (h : AtEveryStep (fun earlier event =>
      marked (sectionsAfter earlier) event ⊆ pendingKeys earlier) events) :
    ((sectionsAfter events).running.keys = ∅ → markers events ⊆ pendingKeys events) ∧
    (∀earlier event between again key,key ∈ counted earlier event →
      key ∈ counted (earlier ++ [event] ++ between) again →
      ∃pre release post,between = pre ++ release :: post ∧
        key ∈ markers (earlier ++ [event] ++ pre) ∧
        key ∉ markers (earlier ++ [event] ++ (pre ++ [release]))) ∧
    ∀earlier thread key kind iteration,(sectionsAfter earlier).running.lookup thread =
        some (.releasing key (some kind) iteration) → key ∉ markers earlier →
      let shares := (sectionsAfter earlier).shared.store.SharesSection key kind
      (∃other ∈ markers earlier,shares other) → ∃other ∈ markers earlier,shares other ∧
        markers (earlier ++ [.resume thread])=(markers earlier).erase other := by
  refine ⟨?_,?_,?_⟩
  · intro hi k hk
    have hr : Requestable (sectionsAfter events) :=
      sectionMachine.run_invariant Requestable _ (fun c e r => Requestable.of_ran)
        (fun k hk => absurd hk (notMem_empty k)) h
    refine (hr k hk).resolve_right (fun ⟨o,x,ho,_⟩ => ?_)
    have hmem := FiniteMap.mem_keys_of_lookup ho
    rw [hi] at hmem
    cases hmem
  · intro earlier event between again k hk ha
    refine exists_last_step (fun l => k∈markers (earlier++[event]++l)) ?_ (mem_sdiff.mp ha).2
    rw [append_nil]
    exact mem_markers_of_counted hk
  · intro earlier t k kind it hp hk shares ho
    rw [markers_concat,sectionMachine.step_resume hp]
    exact requestedKeys_releaseMarker hk ho

def aliceVideo : MediaTrackKey := ⟨"room","alice","TR_1","bob"⟩

def requestSection : List (Event SectionCall) :=
  [.enter 0 (.other (.insertOnce aliceVideo .video)),
    .enter 0 (.other (.takeUnrequestedCounts ⟨"room","bob"⟩))]

def bobLeaves : List (Event SectionCall) :=
  [.enter 1 (.other (.removeParticipant ⟨"room","bob"⟩)),.resume 1,.resume 1,.resume 1]

/-- Bob leaves after the section was requested, and it is counted again when Bob is back. -/
theorem markers_of_returned_bob :
    let events := requestSection++[.resume 0]++bobLeaves++requestSection
    counted events (.resume 0)={aliceVideo} ∧
      markers (events++[.resume 0])⊆pendingKeys (events++[.resume 0]) :=
  ⟨by decide +kernel,(markers_of_pending _ (by decide +kernel)).1 (by decide +kernel)⟩

/-- Bob leaves while the section is listed. Its marker stays, and when Bob is back the section
is not counted. -/
theorem marker_outlives_bob :
    let events := requestSection++bobLeaves++[.resume 0]
    (sectionsAfter events).running.keys=∅ ∧ pendingKeys events=∅ ∧
      markers events={aliceVideo} ∧ counted (events++requestSection) (.resume 0)=∅ := by
  decide +kernel

end OxideSfu.Signaling
