import OxideSfu.CriticalSections
import OxideSfu.ForwardTrackInterleaving
import Mathlib.Algebra.Group.Nat.Defs

/-!
# Reader leases

The reader of a published track holds a lease, a 64-bit generation number that the store has noted.
Taking a number and noting it are two steps of `acquire_track_reader`. The lifecycle lock does not
appear: without it there are more interleavings, not fewer.
-/

namespace OxideSfu.ForwardTracks

open FiniteMaps ForwardTrackStore CriticalSections FiniteMap Threads ForwardTrackReaderLease List
  Option Nat

variable {T : Type}

/-- The store, and the leases that were handed out, oldest first. -/
structure LeasedStore (T : Type) where
  store : ForwardTrackStore T
  issued : List ForwardTrackReaderLease

/-- The calls on the readers, and the other calls on the store. -/
inductive ReaderCall (T : Type)
  | acquireTrackReader (key : ForwardTrackReaderKey)
  | ownsTrackReader (lease : ForwardTrackReaderLease)
  | revokeTrackReader (key : ForwardTrackReaderKey)
  | releaseTrackReader (lease : ForwardTrackReaderLease)
  | clearTrackReadersForPublisher (room publisher : String)
  | removeTrack (track : ForwardTrackReaderKey)
  | other (call : StoreCall T)

/-- Where a call can stand. A call that removes a track has dropped the targets and has still
to drop the reader. -/
inductive ReaderPoint (T : Type)
  | starting (key : ForwardTrackReaderKey) (generation : UInt64)
  | droppingReader (track : ForwardTrackReaderKey)
  | inSection (current : Section T)

/-- The second section of `acquire_track_reader`. -/
def startReader (s : LeasedStore T) (key : ForwardTrackReaderKey) (generation : UInt64) :
    LeasedStore T :=
  match s.store.started.lookup key with
  | none =>
    { store := {s.store with started := s.store.started.insert key generation}
      issued := s.issued++[⟨key,generation⟩]}
  | some _ => s

def dropTrackTargets (s : ForwardTrackStore T) (track : ForwardTrackReaderKey) :
    ForwardTrackStore T :=
  (s.dropTargets (s.keysOfTrack track)).bumpRevisionIf (decide (s.keysOfTrack track).Nonempty)

def runSection (s : LeasedStore T) (current : Section T) :
    LeasedStore T × Option (ReaderPoint T) :=
  let (store,next) := current.run s.store
  ({s with store},next.map .inSection)

def readerMachine : Machine (LeasedStore T) (ReaderCall T) (ReaderPoint T) where
  enter
    | .acquireTrackReader key, s =>
      ({s with store := {s.store with readerLeases := s.store.readerLeases+1}},
        some (.starting key s.store.nextReaderLease))
    | .ownsTrackReader _, s => (s,none)
    | .revokeTrackReader key, s => ({s with store := (s.store.revokeTrackReader key).2},none)
    | .releaseTrackReader lease, s =>
      ({s with store := (s.store.releaseTrackReader lease).2},none)
    | .clearTrackReadersForPublisher room publisher, s =>
      ({s with store := s.store.clearTrackReadersForPublisher room publisher},none)
    | .removeTrack track, s =>
      ({s with store := dropTrackTargets s.store track},some (.droppingReader track))
    | .other call, s =>
      match call.entry with
      | none => (s,none) | some entry => runSection s entry
  resume
    | .starting key generation, s => (startReader s key generation,none)
    | .droppingReader track, s =>
      ({s with store := {s.store with started := s.store.started.erase track}},none)
    | .inSection current, s => runSection s current

def leasesAfter (events : List (Event (ReaderCall T))) :
    Threads (LeasedStore T) (ReaderPoint T) :=
  readerMachine.run (.idle ⟨.empty,[]⟩) events

theorem acquire_alone (s : LeasedStore T) (key : ForwardTrackReaderKey) (t : ℕ) :
    readerMachine.run (.idle s) [.enter t (.acquireTrackReader key),.resume t] =
      .idle ⟨(s.store.acquireTrackReader key).2,
        s.issued++(s.store.acquireTrackReader key).1.toList⟩ := by
  refine readerMachine.run_alone rfl (Prod.ext ?_ rfl) t
  change startReader _ key s.store.nextReaderLease=_
  rw [startReader,acquireTrackReader]
  cases s.store.started.lookup key with
  | none => simp
  | some g => simp

/-- No reader is noted that was not noted before, and no number is taken. -/
structure LosesReaders (s s' : ForwardTrackStore T) : Prop where
  noted : ∀key generation,s'.started.lookup key=some generation →
    s.started.lookup key=some generation
  taken : s'.readerLeases=s.readerLeases

theorem LosesReaders.of_started {s s' : ForwardTrackStore T} (hs : s'.started=s.started)
    (ht : s'.readerLeases=s.readerLeases) : LosesReaders s s' :=
  ⟨fun _ _ h => hs ▸ h,ht⟩

variable (c : Threads (LeasedStore T) (ReaderPoint T)) (s : ForwardTrackStore T)

theorem losesReaders_erase (key : ForwardTrackReaderKey) :
    LosesReaders s {s with started := s.started.erase key} := by
  refine ⟨?_,rfl⟩
  intro o g h
  rw [lookup_erase] at h
  split_ifs at h
  exact h

theorem losesReaders_filter (keeps : ForwardTrackReaderKey → UInt64→Bool) :
    LosesReaders s {s with started := s.started.filter keeps} := by
  refine ⟨?_,rfl⟩
  intro o g h
  rw [lookup_filter,filter_eq_some_iff] at h
  exact h.1

theorem losesReaders_release (lease : ForwardTrackReaderLease) :
    LosesReaders s (s.releaseTrackReader lease).2 := by
  rw [releaseTrackReader]
  split_ifs
  · exact losesReaders_erase s lease.key
  · exact .of_started rfl rfl

/-- The sections of the other calls leave the readers alone or drop some. -/
theorem Section.losesReaders (c : Section T) (s : ForwardTrackStore T) :
    LosesReaders s (c.run s).1 := by
  cases c with
  | started after =>
    cases after with
    | publisher | participant => exact losesReaders_filter s _
  | rebuildIndex i after => cases after <;> exact .of_started rfl rfl
  | activateRevision | removeRevision | publisherRevision =>
    exact .of_started (bumpRevisionIf_started _ _) (bumpRevisionIf_readerLeases _ _)
  | _ => exact .of_started rfl rfl

/-- What a section can do to the leases. -/
inductive LeaseEffect (c : Threads (LeasedStore T) (ReaderPoint T)) (thread : ℕ) :
    LeasedStore T × Option (ReaderPoint T)→Prop
  | takes (key : ForwardTrackReaderKey) :
    LeaseEffect c thread
      ({c.shared with store :=
          {c.shared.store with readerLeases := c.shared.store.readerLeases+1}},
        some (.starting key c.shared.store.nextReaderLease))
  | starts (key : ForwardTrackReaderKey) (generation : UInt64)
      (stood : c.running.lookup thread=some (.starting key generation))
      (free : c.shared.store.started.lookup key=none) :
    LeaseEffect c thread
      ({ store := {c.shared.store with started := c.shared.store.started.insert key generation}
         issued := c.shared.issued++[⟨key,generation⟩]},none)
  | loses (s : LeasedStore T) (next : Option (ReaderPoint T))
      (readers : LosesReaders c.shared.store s.store) (issued : s.issued=c.shared.issued)
      (outside : ∀key generation,next≠some (.starting key generation)) :
    LeaseEffect c thread (s,next)

theorem leaseEffect_runSection (t : ℕ) (cu : Section T) :
    LeaseEffect c t (runSection c.shared cu) := by
  refine .loses _ _ (cu.losesReaders c.shared.store) rfl ?_
  intro key g h
  obtain ⟨next,-,hn⟩ := map_eq_some_iff.mp h
  cases hn

theorem leaseEffect_enter (t : ℕ) (call : ReaderCall T) :
    LeaseEffect c t (readerMachine.enter call c.shared) := by
  cases call with
  | acquireTrackReader key => exact .takes key
  | ownsTrackReader lease => exact .loses _ _ (.of_started rfl rfl) rfl (by simp)
  | revokeTrackReader key => exact .loses _ _ (losesReaders_erase _ key) rfl (by simp)
  | releaseTrackReader lease => exact .loses _ _ (losesReaders_release _ lease) rfl (by simp)
  | clearTrackReadersForPublisher room q =>
    exact .loses _ _ (losesReaders_filter _ _) rfl (by simp)
  | removeTrack k =>
    exact .loses _ _ (.of_started (bumpRevisionIf_started _ _)
      (bumpRevisionIf_readerLeases _ _)) rfl
      (by simp)
  | other call =>
    change LeaseEffect c t (match call.entry with
      | none => (c.shared,none)
      | some e => runSection c.shared e)
    cases call.entry with
    | none => exact .loses _ _ (.of_started rfl rfl) rfl (by simp)
    | some e => exact leaseEffect_runSection c t e

theorem leaseEffect_resume (t : ℕ) (x : ReaderPoint T) (hp : c.running.lookup t=some x) :
    LeaseEffect c t (readerMachine.resume x c.shared) := by
  cases x with
  | starting key g =>
    change LeaseEffect c t (startReader c.shared key g,none)
    rw [startReader]
    cases hf : c.shared.store.started.lookup key with
    | none => exact .starts key g hp hf
    | some ho => exact .loses _ _ (.of_started rfl rfl) rfl (by simp)
  | droppingReader k => exact .loses _ _ (losesReaders_erase _ k) rfl (by simp)
  | inSection cu => exact leaseEffect_runSection c t cu

theorem leaseEffect_of_ran {c : Threads (LeasedStore T) (ReaderPoint T)} {e : Event (ReaderCall T)}
    {r : LeasedStore T × Option (ReaderPoint T)} (h : readerMachine.ran c e=some r) :
      LeaseEffect c e.thread r := by
  obtain ⟨call,-,rfl⟩ | ⟨x,-,hp,rfl⟩ := readerMachine.ran_eq_some h
  · exact leaseEffect_enter c e.thread call
  · exact leaseEffect_resume c e.thread x hp

variable {key : ForwardTrackReaderKey}

/-- The numbers taken so far: each belongs to one lease that was handed out, to one call that
has still to note it, or to nobody. -/
structure DistinctGenerations (c : Threads (LeasedStore T) (ReaderPoint T)) : Prop where
  issued_taken : ∀lease∈c.shared.issued,
    lease.generation.toNat<c.shared.store.readerLeases
  starting_taken : ∀thread key generation,
    c.running.lookup thread=some (.starting key generation) →
      generation.toNat<c.shared.store.readerLeases
  issued_once : (c.shared.issued.map generation).Nodup
  starting_unissued : ∀thread key generation,
    c.running.lookup thread=some (.starting key generation) →
      generation∉c.shared.issued.map ForwardTrackReaderLease.generation
  starting_once : ∀thread thread' key key' generation,
    c.running.lookup thread=some (.starting key generation) →
      c.running.lookup thread'=some (.starting key' generation) → thread=thread'

variable {c : Threads (LeasedStore T) (ReaderPoint T)} {t : ℕ}
  {r : LeasedStore T × Option (ReaderPoint T)}

theorem LeaseEffect.readerLeases_le (h : LeaseEffect c t r) :
    c.shared.store.readerLeases≤r.1.store.readerLeases := by
  cases h with
  | takes key => exact le_succ _
  | starts key g stood free => exact le_refl _
  | loses s next readers issued outside => exact readers.taken.ge

/-- The number taken next has not been taken as long as the counter has not come round. -/
theorem toNat_nextReaderLease {s : ForwardTrackStore T} (h : s.readerLeases+1≤2^64) :
    s.nextReaderLease.toNat=s.readerLeases :=
  UInt64.toNat_ofNat_of_lt' h

namespace DistinctGenerations

variable (h : DistinctGenerations c)

include h

theorem takes (key : ForwardTrackReaderKey) (hc : c.shared.store.readerLeases+1≤2^64) :
    DistinctGenerations (c.moveTo t
      ({c.shared with store := {c.shared.store with readerLeases := c.shared.store.readerLeases+1}},
        some (.starting key c.shared.store.nextReaderLease))) := by
  have hn := toNat_nextReaderLease hc
  -- Every number in use is below the counter, so the new one is none of them.
  have hf : ∀g : UInt64,g.toNat<c.shared.store.readerLeases → g≠c.shared.store.nextReaderLease := by
    rintro g hlt rfl
    exact absurd hlt (by omega)
  refine ⟨?_,?_,?_,?_,?_⟩
  · intro lease hl
    exact lt_succ_of_lt (h.issued_taken lease hl)
  · intro o key' g ho
    obtain ⟨-,hr⟩ | ⟨-,hb⟩ := running_moveTo ho
    · cases hr
      exact lt_succ_of_le hn.le
    · exact lt_succ_of_lt (h.starting_taken o key' g hb)
  · exact h.issued_once
  · intro o key' g ho
    obtain ⟨-,hr⟩ | ⟨-,hb⟩ := running_moveTo ho
    · cases hr
      intro hi
      obtain ⟨lease,hl,hg⟩ := mem_map.mp hi
      exact hf _ (h.issued_taken lease hl) hg
    · exact h.starting_unissued o key' g hb
  · intro first b key' key'' g hfi hs
    obtain ⟨heq,hr⟩ | ⟨-,hb⟩ := running_moveTo hfi
    · cases hr
      obtain ⟨heq',-⟩ | ⟨-,hb'⟩ := running_moveTo hs
      · rw [heq,heq']
      · exact absurd rfl (hf _ (h.starting_taken b key'' _ hb'))
    · obtain ⟨-,hr⟩ | ⟨-,hb'⟩ := running_moveTo hs
      · cases hr
        exact absurd rfl (hf _ (h.starting_taken first key' _ hb))
      · exact h.starting_once first b key' key'' g hb hb'

theorem starts {g : UInt64} (stood : c.running.lookup t=some (.starting key g)) :
    DistinctGenerations (c.moveTo t
      ({ store := {c.shared.store with started := c.shared.store.started.insert key g}
         issued := c.shared.issued++[⟨key,g⟩]},none)) := by
  have hu := h.starting_unissued t key g stood
  -- A call that is still starting is another thread's and has another number.
  have hot : ∀o key' generation',(c.moveTo t
      ({ store := {c.shared.store with started := c.shared.store.started.insert key g}
         issued := c.shared.issued++[⟨key,g⟩]},none)).running.lookup o =
        some (.starting key' generation') →
      c.running.lookup o=some (.starting key' generation') ∧ generation'≠g := by
    intro o key' generation' ho
    obtain ⟨-,hr⟩ | ⟨hne,hb⟩ := running_moveTo ho
    · cases hr
    · refine ⟨hb,?_⟩
      rintro rfl
      exact hne (h.starting_once o t key' key generation' hb stood)
  refine ⟨?_,?_,?_,?_,?_⟩
  · intro lease hl
    obtain hl | hl := mem_append.mp hl
    · exact h.issued_taken lease hl
    · rw [mem_singleton.mp hl]
      exact h.starting_taken t key g stood
  · intro o key' generation' ho
    exact h.starting_taken o key' generation' (hot o key' generation' ho).1
  · simp only [moveTo_shared,map_append,map_cons,map_nil]
    rw [← concat_eq_append]
    exact h.issued_once.concat hu
  · intro o key' generation' ho
    obtain ⟨hb,hne⟩ := hot o key' generation' ho
    simp only [moveTo_shared,map_append,map_cons,map_nil,mem_append,mem_singleton,not_or]
    exact ⟨h.starting_unissued o key' generation' hb,hne⟩
  · intro first b key' key'' generation' hf hs
    exact h.starting_once first b key' key'' generation'
      (hot first key' generation' hf).1 (hot b key'' generation' hs).1

theorem loses {s : LeasedStore T} {next : Option (ReaderPoint T)}
    (readers : LosesReaders c.shared.store s.store)
    (issued : s.issued=c.shared.issued) (outside : ∀key g,next≠some (.starting key g)) :
    DistinctGenerations (c.moveTo t (s,next)) := by
  have hb : ∀o key g,
      (c.moveTo t (s,next)).running.lookup o=some (.starting key g) →
      c.running.lookup o=some (.starting key g) := by
    intro o key g ho
    obtain ⟨-,hr⟩ | ⟨-,hb⟩ := running_moveTo ho
    · exact absurd hr (outside key g)
    · exact hb
  refine ⟨?_,?_,?_,?_,?_⟩
  · intro lease hl
    rw [moveTo_shared,issued] at hl
    rw [moveTo_shared,readers.taken]
    exact h.issued_taken lease hl
  · intro o key g ho
    rw [moveTo_shared,readers.taken]
    exact h.starting_taken o key g (hb o key g ho)
  · rw [moveTo_shared,issued]
    exact h.issued_once
  · intro o key g ho
    rw [moveTo_shared,issued]
    exact h.starting_unissued o key g (hb o key g ho)
  · intro first b key key' g hf hs
    exact h.starting_once first b key key' g (hb first key g hf) (hb b key' g hs)

theorem step (e : Event (ReaderCall T))
    (hc : (readerMachine.step c e).shared.store.readerLeases≤2^64) :
    DistinctGenerations (readerMachine.step c e) := by
  obtain hs | ⟨r,hran,hs⟩ := readerMachine.step_cases c e
  · rw [hs]
    exact h
  · rw [hs] at hc ⊢
    cases leaseEffect_of_ran hran with
    | takes key => exact h.takes key hc
    | starts key g stood free => exact h.starts stood
    | loses s next readers issued outside => exact h.loses readers issued outside

end DistinctGenerations

theorem readerLeases_le_step (c : Threads (LeasedStore T) (ReaderPoint T))
    (e : Event (ReaderCall T)) :
    c.shared.store.readerLeases≤(readerMachine.step c e).shared.store.readerLeases := by
  obtain hs | ⟨r,hran,hs⟩ := readerMachine.step_cases c e
  · rw [hs]
  · rw [hs,moveTo_shared]
    exact (leaseEffect_of_ran hran).readerLeases_le

variable (events : List (Event (ReaderCall T)))

theorem leasesAfter_concat (e : Event (ReaderCall T)) :
    leasesAfter (events++[e])=readerMachine.step (leasesAfter events) e :=
  readerMachine.run_concat _ events e

theorem distinctGenerations_leasesAfter (hc : (leasesAfter events).shared.store.readerLeases≤2^64) :
    DistinctGenerations (leasesAfter events) := by
  induction events using reverseRecOn with
  | nil =>
    exact ⟨nofun,nofun,nodup_nil,nofun,nofun⟩
  | append_singleton events event ih =>
    rw [leasesAfter_concat] at hc ⊢
    exact (ih ((readerLeases_le_step _ event).trans hc)).step event hc

/-- A lease that was handed out and does not own its reader, as the store stands. -/
def Lost (lease : ForwardTrackReaderLease) (s : LeasedStore T) : Prop :=
  lease∈s.issued ∧ s.store.ownsTrackReader lease=false

variable {lease : ForwardTrackReaderLease}

/-- A lost lease is not noted again: its number is nobody's who is still starting. -/
theorem Lost.step (h : Lost lease c.shared) (hd : DistinctGenerations c)
    (e : Event (ReaderCall T)) :
    Lost lease (readerMachine.step c e).shared := by
  obtain ⟨hi,ho⟩ := h
  obtain hs | ⟨r,hran,hs⟩ := readerMachine.step_cases c e
  · rw [hs]
    exact ⟨hi,ho⟩
  · rw [hs,moveTo_shared]
    simp only [Lost,ownsTrackReader,decide_eq_false_iff_not] at ho ⊢
    cases leaseEffect_of_ran hran with
    | takes key => exact ⟨hi,ho⟩
    | starts key g stood free =>
      refine ⟨mem_append_left _ hi,?_⟩
      rw [lookup_insert]
      split_ifs
      · intro hg
        apply hd.starting_unissued e.thread key g stood
        exact mem_map.mpr ⟨lease,hi,(some.inj hg).symm⟩
      · exact ho
    | loses s next readers issued outside =>
      refine ⟨issued ▸ hi,?_⟩
      intro hn
      exact ho (readers.noted _ _ hn)

theorem Lost.later {events later : List (Event (ReaderCall T))}
    (h : Lost lease (leasesAfter events).shared)
    (hc : (leasesAfter (events++later)).shared.store.readerLeases≤2^64) :
    Lost lease (leasesAfter (events++later)).shared := by
  induction later using reverseRecOn with
  | nil => rwa [append_nil]
  | append_singleton later event ih =>
    rw [← append_assoc,leasesAfter_concat] at hc ⊢
    have hb := (readerLeases_le_step _ event).trans hc
    exact (ih hb).step (distinctGenerations_leasesAfter _ hb) event

theorem DistinctGenerations.index_eq (h : DistinctGenerations c) {i j : ℕ}
    {first b : ForwardTrackReaderLease} (hf : c.shared.issued[i]?=some first)
    (hs : c.shared.issued[j]?=some b) (heq : first.generation=b.generation) :
    i=j := by
  have hi : (c.shared.issued.map generation)[i]?=some first.generation := by
    rw [List.getElem?_map,hf]
    rfl
  have hj : (c.shared.issued.map generation)[j]?=some first.generation := by
    rw [List.getElem?_map,hs,heq]
    rfl
  obtain ⟨hlt,-⟩ := List.getElem?_eq_some_iff.mp hi
  exact (List.getElem?_inj hlt h.issued_once).mp (hi.trans hj.symm)

/-- What the leases of a run promise: of the leases handed out for a track at most one owns
its reader, a lease that does not own its reader never does again, and releasing it then
changes nothing. -/
structure LeasesExclusive (events : List (Event (ReaderCall T))) : Prop where
  one_owner : ∀(i j : ℕ) first second,(leasesAfter events).shared.issued[i]?=some first →
    (leasesAfter events).shared.issued[j]?=some second → first.key=second.key →
      (leasesAfter events).shared.store.ownsTrackReader first →
        (leasesAfter events).shared.store.ownsTrackReader second → i=j
  never_regained : ∀earlier later lease,events=earlier++later →
    Lost lease (leasesAfter earlier).shared → Lost lease (leasesAfter events).shared
  release_harmless : ∀earlier later lease,events=earlier++later →
    Lost lease (leasesAfter earlier).shared →
      (leasesAfter events).shared.store.releaseTrackReader lease =
        (false,(leasesAfter events).shared.store)

/-- As long as the numbers have not come round, leases are exclusive in every
interleaving. -/
theorem leasesExclusive_of_count_le (events : List (Event (ReaderCall T)))
    (hcount : (leasesAfter events).shared.store.readerLeases≤2 ^ 64) :
    LeasesExclusive events where
  one_owner := by
    intro i j first second hf hs hkey hown ho'
    have hn := of_decide_eq_true hown
    have hn' := of_decide_eq_true ho'
    rw [hkey,hn'] at hn
    exact (distinctGenerations_leasesAfter events hcount).index_eq hf hs (some.inj hn).symm
  never_regained := by
    rintro earlier later lease rfl hl
    exact hl.later hcount
  release_harmless := by
    rintro earlier later lease rfl hl
    rw [releaseTrackReader,(hl.later hcount).2]
    rfl

/-- Two readers of one track: the lease of the first is revoked and the second gets one. -/
theorem leasesExclusive_of_replacement :
    (leasesAfter (T := Unit) [
      .enter 0 (.acquireTrackReader ⟨"room", "alice", "TR_1"⟩),
      .enter 1 (.acquireTrackReader ⟨"room", "alice", "TR_1"⟩),.resume 1,
      .enter 2 (.revokeTrackReader ⟨"room", "alice", "TR_1"⟩),.resume 0]).shared.issued =
        [⟨⟨"room", "alice", "TR_1"⟩,1⟩,⟨⟨"room", "alice", "TR_1"⟩,0⟩] ∧
    LeasesExclusive (T := Unit) [
      .enter 0 (.acquireTrackReader ⟨"room", "alice", "TR_1"⟩),
      .enter 1 (.acquireTrackReader ⟨"room", "alice", "TR_1"⟩),.resume 1,
      .enter 2 (.revokeTrackReader ⟨"room", "alice", "TR_1"⟩),.resume 0] :=
  ⟨by decide +kernel,leasesExclusive_of_count_le _ (by decide +kernel)⟩

def knocking (thread : ℕ) (key : ForwardTrackReaderKey) (count : ℕ) :
    List (Event (ReaderCall T)) :=
  (replicate count [.enter thread (.acquireTrackReader key),.resume thread]).flatten

/-- A reader that is taken costs every further call a number and nothing else. -/
theorem run_knocking {s : LeasedStore T} {ho : UInt64} (ht : s.store.started.lookup key=some ho)
    (t n : ℕ) :
    readerMachine.run (.idle s) (knocking t key n) = .idle {s with store :=
      {s.store with readerLeases := s.store.readerLeases+n}} := by
  induction n generalizing s with
  | zero => rfl
  | succ n ih =>
    rw [knocking,replicate_succ,flatten_cons,readerMachine.run_append,acquire_alone]
    have ha : s.store.acquireTrackReader key =
      (none,{s.store with readerLeases := s.store.readerLeases+1}) := by
      rw [acquireTrackReader]
      simp [ht]
    rw [ha,toList_none,append_nil]
    have hl := ih (s := {s with store := {s.store with readerLeases := s.store.readerLeases+1}}) ht
    rw [add_assoc,add_comm 1 n] at hl
    exact hl

def firstRevoked : List (Event (ReaderCall Unit)) :=
  [.enter 0 (.acquireTrackReader ⟨"room","alice","TR_1"⟩),.resume 0] ++
  [.enter 0 (.acquireTrackReader ⟨"room","alice","TR_2"⟩),.resume 0] ++
  [.enter 0 (.revokeTrackReader ⟨"room","alice","TR_1"⟩)]

/-- The second track is taken, so asking for it only uses up numbers; then the first track
gets a reader again. -/
def comesRound (count : ℕ) : List (Event (ReaderCall Unit)) :=
  knocking 1 ⟨"room","alice","TR_2"⟩ count ++
    [.enter 0 (.acquireTrackReader ⟨"room","alice","TR_1"⟩),.resume 0]

def secondReader : LeasedStore Unit where
  store := {(ForwardTrackStore.empty : ForwardTrackStore Unit) with
    started := ((empty.insert ⟨"room","alice","TR_1"⟩ 0).insert
      ⟨"room","alice","TR_2"⟩ 1).erase ⟨"room","alice","TR_1"⟩
    readerLeases := 2}
  issued := [⟨⟨"room","alice","TR_1"⟩,0⟩,⟨⟨"room","alice","TR_2"⟩,1⟩]

theorem leasesAfter_firstRevoked : leasesAfter firstRevoked = .idle secondReader := by
  rw [leasesAfter,firstRevoked,readerMachine.run_append,readerMachine.run_append, acquire_alone,
    acquire_alone]
  exact readerMachine.run_alone_once rfl 0

theorem leasesAfter_comesRound (n : ℕ) :
    leasesAfter (firstRevoked++comesRound n) = .idle
      ⟨{secondReader.store with
          started := secondReader.store.started.insert ⟨"room","alice","TR_1"⟩ (UInt64.ofNat (2+n))
          readerLeases := 2+n+1},
        secondReader.issued++[⟨⟨"room","alice","TR_1"⟩,UInt64.ofNat (2+n)⟩]⟩ := by
  have hf : readerMachine.run (.idle ⟨.empty,[]⟩) firstRevoked = .idle secondReader :=
    leasesAfter_firstRevoked
  have ht : secondReader.store.started.lookup ⟨"room","alice","TR_2"⟩=some 1 := rfl
  rw [leasesAfter,readerMachine.run_append,hf,comesRound,readerMachine.run_append, run_knocking ht,
    acquire_alone]
  rfl

/-- After `2 ^ 64` calls a revoked lease owns its reader again. -/
theorem leasesExclusive_fails_when_generation_comes_round :
    ¬ LeasesExclusive (firstRevoked ++ comesRound (2 ^ 64 - 2)) := by
  intro h
  have hl : Lost ⟨⟨"room","alice","TR_1"⟩,0⟩ (leasesAfter firstRevoked).shared := by
    exact ⟨mem_cons_self,rfl⟩
  have hs := (h.never_regained firstRevoked _ _ rfl hl).2
  rw [leasesAfter_comesRound] at hs
  simp [ownsTrackReader,idle] at hs

end OxideSfu.ForwardTracks
