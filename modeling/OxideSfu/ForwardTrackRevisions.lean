import Mathlib.Algebra.Group.Nat.Defs
import OxideSfu.ForwardTrackIndex

/-!
# Revisions and incarnations of the forward-track store

A reader lists its targets again when the revision has changed, and keeps the state of a target when
its incarnation has not. Every change of a target counts the revision up and every insertion takes
the next incarnation, so both are right until a 64-bit counter comes round.
-/

namespace OxideSfu.ForwardTracks

open FiniteMaps ForwardTrackStore FiniteMap Finset Option Nat

variable {T : Type} {s : ForwardTrackStore T}

section

structure SameTargets (s t : ForwardTrackStore T) : Prop where
  tracks : t.tracks=s.tracks
  incarnations : t.targetIncarnations=s.targetIncarnations
  active : t.active=s.active

structure CountsChanges (s t : ForwardTrackStore T) : Prop where
  le : s.revisionBumps≤t.revisionBumps
  same : t.revisionBumps=s.revisionBumps → SameTargets s t

variable {t : ForwardTrackStore T}

theorem CountsChanges.of_same (h : SameTargets s t) (hle : s.revisionBumps≤t.revisionBumps) :
    CountsChanges s t :=
  ⟨hle,fun _ => h⟩

theorem CountsChanges.refl (s : ForwardTrackStore T) :
    CountsChanges s s := .of_same ⟨rfl,rfl,rfl⟩ (le_refl _)

theorem CountsChanges.trans {u : ForwardTrackStore T} (hst : CountsChanges s t)
    (htu : CountsChanges t u) : CountsChanges s u := by
  refine ⟨hst.le.trans htu.le,?_⟩
  intro heq
  have hle := hst.le
  have hle' := htu.le
  obtain ⟨ht,hi,ha⟩ := hst.same (by omega)
  obtain ⟨ht',hi',ha'⟩ := htu.same (by omega)
  exact ⟨ht'.trans ht,hi'.trans hi,ha'.trans ha⟩

/-- An operation that counts the revision up whenever it changes a target. -/
theorem countsChanges_bumpRevisionIf {changed : Bool} (hb : t.revisionBumps=s.revisionBumps)
    (hs : changed=false → SameTargets s t) :
    CountsChanges s (t.bumpRevisionIf changed) := by
  refine ⟨by rw [bumpRevisionIf_revisionBumps]; omega,?_⟩
  intro heq
  cases changed with
  | false => exact hs rfl
  | true =>
    rw [bumpRevisionIf_revisionBumps,Bool.toNat_true] at heq
    omega

variable (s)

variable (keys : Finset ForwardTrackKey)

theorem countsChanges_activate :
    CountsChanges s (s.activate keys) := by
  apply countsChanges_bumpRevisionIf
  · rfl
  · intro he
    rw [decide_eq_false_iff_not,not_nonempty_iff_eq_empty] at he
    refine ⟨rfl,rfl,?_⟩
    change s.active ∪ keys=s.active
    rw [he,union_empty]

theorem countsChanges_dropTargets :
    CountsChanges s ((s.dropTargets keys).bumpRevisionIf (decide keys.Nonempty)) := by
  apply countsChanges_bumpRevisionIf
  · rfl
  · intro he
    rw [decide_eq_false_iff_not,not_nonempty_iff_eq_empty] at he
    subst he
    refine ⟨?_,rfl,sdiff_empty⟩
    ext1 key
    change (s.tracks.eraseAll ∅).lookup key=_
    simp

variable {s}

/-- Without a transport and an incarnation there is nothing to remove. -/
theorem Indexed.countsChanges_remove (h : Indexed s) (key : ForwardTrackKey) :
    CountsChanges s (s.remove key) := by
  apply countsChanges_bumpRevisionIf
  · rfl
  · intro hn
    rw [Bool.or_eq_false_iff,isSome_eq_false_iff,isSome_eq_false_iff, isNone_iff_eq_none,
      isNone_iff_eq_none] at hn
    obtain ⟨ht,hi⟩ := hn
    refine ⟨?_,?_,erase_eq_of_notMem ?_⟩
    · ext1 other
      rw [lookup_erase]
      split_ifs with ho
      · rw [ho,ht]
      · rfl
    · ext1 other
      rw [lookup_erase]
      split_ifs with ho
      · rw [ho,hi]
      · rfl
    · intro ha
      exact lookup_eq_none_iff.mp ht (h.stored ha)

theorem Indexed.countsChanges_removeAllForPublisher (h : Indexed s) (room q : String) :
    CountsChanges s (s.removeAllForPublisher room q) := by
  refine ⟨?_,?_⟩
  · simp only [ForwardTrackStore.removeAllForPublisher,rebuildActiveIndexFromActiveSet,
      bumpRevisionIf_revisionBumps,setActiveIndexForKeys]
    omega
  · intro heq
    simp only [ForwardTrackStore.removeAllForPublisher,rebuildActiveIndexFromActiveSet,
      bumpRevisionIf_revisionBumps,setActiveIndexForKeys] at heq
    have he : s.tracks.keys.filter (fun key => key.room=room ∧ key.publisher=q)=∅ := by
      rw [← not_nonempty_iff_eq_empty]
      intro hne
      rw [decide_eq_true hne,Bool.toNat_true] at heq
      omega
    refine ⟨?_,?_,?_⟩
    · ext1 key
      simp [ForwardTrackStore.removeAllForPublisher,rebuildActiveIndexFromActiveSet,
        setActiveIndexForKeys,he]
    · simp [ForwardTrackStore.removeAllForPublisher,rebuildActiveIndexFromActiveSet,
        setActiveIndexForKeys]
    · simp only [ForwardTrackStore.removeAllForPublisher,rebuildActiveIndexFromActiveSet,
        bumpRevisionIf_active,setActiveIndexForKeys]
      -- an active target of the publisher would be stored
      apply filter_true_of_mem
      intro key hkey ho
      refine notMem_empty key ?_
      rw [← he,mem_filter]
      exact ⟨h.stored hkey,ho⟩

theorem Indexed.countsChanges_apply [ForwardingTransport T] (h : Indexed s)
    (op : StoreOperation T) : CountsChanges s (s.apply op) := by
  cases op with
  | insert | removeParticipant =>
    refine ⟨le_succ _,?_⟩
    intro heq
    exact absurd heq (succ_ne_self _)
  | activateSubscriber room u => exact countsChanges_activate s _
  | activateSubscriberTrackSids room u sids =>
    change CountsChanges s (s.activateSubscriberTrackSids room u sids)
    rw [activateSubscriberTrackSids]
    split_ifs
    · exact .refl s
    · exact countsChanges_activate s _
  | remove key => exact h.countsChanges_remove key
  | removeAllForTrack k =>
    have hf := foldl_remove_invariant (fun t => Indexed t ∧ CountsChanges s t)
      (fun t key ht => ⟨ht.1.remove key,ht.2.trans (ht.1.countsChanges_remove key)⟩)
      ⟨h,.refl s⟩ (s.keysOfTrack k).val
    exact hf.2
  | removeTrack k =>
    obtain ⟨hle,hs⟩ := countsChanges_dropTargets s (s.keysOfTrack k)
    refine ⟨hle,?_⟩
    intro heq
    obtain ⟨htr,hi,ha⟩ := hs heq
    exact ⟨htr,hi,ha⟩
  | removeSubscriberMid room u mid => exact countsChanges_dropTargets s _
  | removeAllForPublisher room q =>
    exact h.countsChanges_removeAllForPublisher room q
  | acquireTrackReader key =>
    change CountsChanges s (s.acquireTrackReader key).2
    rw [acquireTrackReader]
    cases s.started.lookup key with
    | none | some => exact .of_same ⟨rfl,rfl,rfl⟩ (le_refl _)
  | revokeTrackReader key => exact .of_same ⟨rfl,rfl,rfl⟩ (le_refl _)
  | releaseTrackReader lease =>
    change CountsChanges s (s.releaseTrackReader lease).2
    rw [releaseTrackReader]
    split_ifs
    · exact .of_same ⟨rfl,rfl,rfl⟩ (le_refl _)
    · exact .refl s
  | clearTrackReadersForPublisher room q =>
    exact .of_same ⟨rfl,rfl,rfl⟩ (le_refl _)

theorem countsChanges_storeAfter [ForwardingTransport T] (ops l : List (StoreOperation T)) :
    CountsChanges (storeAfter ops) (storeAfter (ops++l)) := by
  induction l using List.reverseRecOn with
  | nil =>
    rw [List.append_nil]
    exact .refl _
  | append_singleton l op ih =>
    rw [← List.append_assoc,storeAfter_concat]
    exact ih.trans ((indexed_storeAfter _).countsChanges_apply op)

theorem Indexed.listing_eq (hs : Indexed s) (ht : Indexed t) (h : SameTargets s t)
    (k : ForwardTrackReaderKey) :
    t.listForTrackWithIncarnation k=s.listForTrackWithIncarnation k := by
  ext1 key
  rw [ht.lookup_listForTrackWithIncarnation,hs.lookup_listForTrackWithIncarnation,h.tracks,
    h.incarnations,h.active]

end

variable {incarnation : UInt64}

section

def Inserts (operation : StoreOperation T) (key : ForwardTrackKey) : Prop :=
  ∃track active,operation = .insert key track active

/-- The operation removes the target with `remove`, which `remove_all_for_track` calls for
every target of the track. -/
def Removes (operation : StoreOperation T) (key : ForwardTrackKey) : Prop :=
  operation = .remove key ∨ operation = .removeAllForTrack key.readerKey

/-- The incarnation of a target was given out by an insertion from a certain count on. -/
def IncarnatedFrom (count : ℕ) (key : ForwardTrackKey) (s : ForwardTrackStore T) : Prop :=
  count ≤ s.insertions ∧ ∀incarnation,s.targetIncarnations.lookup key=some incarnation →
    ∃n,count≤n ∧ n<s.insertions ∧ incarnation=UInt64.ofNat n

structure OnlyRemoves (s t : ForwardTrackStore T) : Prop where
  insertions : t.insertions=s.insertions
  incarnations : ∀key,t.targetIncarnations.lookup key=none ∨
    t.targetIncarnations.lookup key=s.targetIncarnations.lookup key
  targets : ∀key,t.tracks.lookup key=none ∨ t.tracks.lookup key=s.tracks.lookup key ∧
    t.targetIncarnations.lookup key=s.targetIncarnations.lookup key

theorem OnlyRemoves.of_incarnations {t : ForwardTrackStore T} (hin : t.insertions=s.insertions)
    (hi : t.targetIncarnations=s.targetIncarnations)
    (ht : ∀key,t.tracks.lookup key=none ∨ t.tracks.lookup key=s.tracks.lookup key) :
    OnlyRemoves s t := by
  refine ⟨hin,?_,?_⟩
  · intro key
    rw [hi]
    exact .inr rfl
  · intro key
    rw [hi]
    exact (ht key).imp_right fun h => ⟨h,rfl⟩

variable (s)

theorem OnlyRemoves.refl : OnlyRemoves s s := .of_incarnations rfl rfl fun _ => .inr rfl

theorem remove_lookups (o key : ForwardTrackKey) :
    (s.remove o).tracks.lookup key=(if key=o then none else s.tracks.lookup key) ∧
      (s.remove o).targetIncarnations.lookup key =
        (if key=o then none else s.targetIncarnations.lookup key) := by
  simp [remove,setActiveIndexForKey]

variable {s}

theorem OnlyRemoves.remove {t : ForwardTrackStore T} (h : OnlyRemoves s t)
    (o : ForwardTrackKey) : OnlyRemoves s (t.remove o) := by
  refine ⟨?_,?_,?_⟩
  · rw [← h.insertions]
    simp [ForwardTrackStore.remove,setActiveIndexForKey]
  · intro key
    rw [(remove_lookups t o key).2]
    split_ifs
    · exact .inl rfl
    · exact h.incarnations key
  · intro key
    rw [(remove_lookups t o key).1,(remove_lookups t o key).2]
    split_ifs
    · exact .inl rfl
    · exact h.targets key

theorem lookup_eraseAll_cases (m : FiniteMap ForwardTrackKey T) (keys : Finset ForwardTrackKey)
    (key : ForwardTrackKey) :
    (m.eraseAll keys).lookup key=none ∨ (m.eraseAll keys).lookup key=m.lookup key := by
  rw [lookup_eraseAll]
  split_ifs
  · exact .inl rfl
  · exact .inr rfl

section

variable (s : ForwardTrackStore T) (keys : Finset ForwardTrackKey)

theorem onlyRemoves_activate : OnlyRemoves s (s.activate keys) := by
  apply OnlyRemoves.of_incarnations
  · rw [activate,bumpRevisionIf_insertions]
    rfl
  · rw [activate,bumpRevisionIf_targetIncarnations]
    rfl
  · intro key
    rw [activate,bumpRevisionIf_tracks]
    exact .inr rfl

theorem onlyRemoves_dropTargets
    (changed : Bool) : OnlyRemoves s ((s.dropTargets keys).bumpRevisionIf changed) := by
  apply OnlyRemoves.of_incarnations
  · rw [bumpRevisionIf_insertions]
    rfl
  · rw [bumpRevisionIf_targetIncarnations]
    rfl
  · intro key
    rw [bumpRevisionIf_tracks]
    exact lookup_eraseAll_cases s.tracks keys key

theorem onlyRemoves_removeAllForPublisher (room q : String) :
    OnlyRemoves s (s.removeAllForPublisher room q) := by
  apply OnlyRemoves.of_incarnations
  · simp [removeAllForPublisher,rebuildActiveIndexFromActiveSet,setActiveIndexForKeys]
  · simp [removeAllForPublisher,rebuildActiveIndexFromActiveSet,setActiveIndexForKeys]
  · intro key
    simp only [removeAllForPublisher,rebuildActiveIndexFromActiveSet,bumpRevisionIf_tracks,
      setActiveIndexForKeys]
    exact lookup_eraseAll_cases s.tracks _ key

theorem onlyRemoves_removeParticipant (room i : String) :
    OnlyRemoves s (s.removeParticipant room i) := by
  apply OnlyRemoves.of_incarnations
  · rfl
  · rfl
  · intro key
    change (s.tracks.lookup key).filter _=none ∨ (s.tracks.lookup key).filter _=_
    cases s.tracks.lookup key with
    | none => exact .inl rfl
    | some k =>
      rw [filter_some]
      split_ifs
      · exact .inr rfl
      · exact .inl rfl

/-- An operation inserts one target or only removes some. -/
theorem apply_cases [ForwardingTransport T] (op : StoreOperation T) :
    (∃key k active,op = .insert key k active) ∨ OnlyRemoves s (s.apply op) := by
  cases op with
  | insert key k active => exact .inl ⟨key,k,active,rfl⟩
  | activateSubscriber room u => exact .inr (onlyRemoves_activate s _)
  | activateSubscriberTrackSids room u sids =>
    refine .inr ?_
    change OnlyRemoves s (s.activateSubscriberTrackSids room u sids)
    rw [activateSubscriberTrackSids]
    split_ifs
    · exact .refl s
    · exact onlyRemoves_activate s _
  | remove key => exact .inr ((OnlyRemoves.refl s).remove key)
  | removeAllForTrack k =>
    exact .inr (foldl_remove_invariant (OnlyRemoves s) (fun _ key ht => ht.remove key) (.refl s) _)
  | removeTrack k =>
    obtain ⟨hin,hi,hta⟩ :=
      onlyRemoves_dropTargets s (s.keysOfTrack k) (decide (s.keysOfTrack k).Nonempty)
    exact .inr ⟨hin,hi,hta⟩
  | removeSubscriberMid room u mid => exact .inr (onlyRemoves_dropTargets s _ _)
  | removeAllForPublisher room q =>
    exact .inr (onlyRemoves_removeAllForPublisher s room q)
  | removeParticipant room i =>
    exact .inr (onlyRemoves_removeParticipant s room i)
  | acquireTrackReader key =>
    refine .inr ?_
    change OnlyRemoves s (s.acquireTrackReader key).2
    rw [acquireTrackReader]
    cases s.started.lookup key with
    | none | some => exact .of_incarnations rfl rfl fun _ => .inr rfl
  | revokeTrackReader key => exact .inr (.of_incarnations rfl rfl fun _ => .inr rfl)
  | releaseTrackReader lease =>
    refine .inr ?_
    change OnlyRemoves s (s.releaseTrackReader lease).2
    rw [releaseTrackReader]
    split_ifs
    · exact .of_incarnations rfl rfl fun _ => .inr rfl
    · exact .refl s
  | clearTrackReadersForPublisher room q =>
    exact .inr (.of_incarnations rfl rfl fun _ => .inr rfl)

end

variable [ForwardingTransport T] {key : ForwardTrackKey} {count : ℕ}

theorem insertWithActive_lookups (s : ForwardTrackStore T) (o : ForwardTrackKey) (k : T)
    (active : Bool) :
    (s.apply (.insert o k active)).insertions=s.insertions+1 ∧
      (s.apply (.insert o k active)).targetIncarnations.lookup key =
        (if key=o then some (UInt64.ofNat s.insertions)
          else s.targetIncarnations.lookup key) ∧
      (s.apply (.insert o k active)).tracks.lookup key =
        (if key=o then some k else s.tracks.lookup key) :=
  ⟨rfl,rfl,rfl⟩

/-- Later insertions give out later incarnations. -/
theorem IncarnatedFrom.apply (h : IncarnatedFrom count key s) (op : StoreOperation T) :
    IncarnatedFrom count key (s.apply op) := by
  obtain ⟨hle,hg⟩ := h
  rcases apply_cases s op with ⟨o,k,active,rfl⟩ | ho
  · obtain ⟨hin,hi,-⟩ := insertWithActive_lookups s o k active
    refine ⟨by omega,?_⟩
    intro incarnation hs
    rw [hi] at hs
    split_ifs at hs
    · exact ⟨s.insertions,hle,by omega,(some.inj hs).symm⟩
    · obtain ⟨n,hn,hlt,he⟩ := hg incarnation hs
      exact ⟨n,hn,by omega,he⟩
  · have hin := ho.insertions
    refine ⟨by omega,?_⟩
    intro incarnation hs
    rcases ho.incarnations key with hno | hsame
    · rw [hno] at hs
      cases hs
    · obtain ⟨n,hn,hlt,he⟩ := hg incarnation (hsame ▸ hs)
      exact ⟨n,hn,by omega,he⟩

theorem IncarnatedFrom.foldl (h : IncarnatedFrom count key s) (l : List (StoreOperation T)) :
    IncarnatedFrom count key (l.foldl ForwardTrackStore.apply s) := by
  induction l generalizing s with
  | nil => exact h
  | cons op l ih => exact ih (h.apply op)

theorem insertions_le_foldl (s : ForwardTrackStore T) (l : List (StoreOperation T)) :
    s.insertions≤(l.foldl apply s).insertions := by
  induction l generalizing s with
  | nil => exact le_refl _
  | cons op l ih =>
    refine le_trans ?_ (ih (s.apply op))
    rcases apply_cases s op with ⟨o,k,active,rfl⟩ | ho
    · exact le_succ _
    · exact le_of_eq ho.insertions.symm

variable (ops : List (StoreOperation T)) {operation : StoreOperation T}

theorem incarnatedFrom_storeAfter (key : ForwardTrackKey) :
    IncarnatedFrom 0 key (storeAfter ops) := by
  apply IncarnatedFrom.foldl
  exact ⟨le_refl 0,by intro n hs; cases hs⟩

variable {k : T}

theorem stored_before (h : ¬ Inserts operation key)
    (hs : (s.apply operation).tracks.lookup key=some k) :
    s.tracks.lookup key=some k ∧
      (s.apply operation).targetIncarnations.lookup key=s.targetIncarnations.lookup key := by
  rcases apply_cases s operation with ⟨other,track',active,rfl⟩ | hon
  · obtain ⟨-,hi,ht⟩ := insertWithActive_lookups s other track' active
    have ho : key≠other := by
      rintro rfl
      exact h ⟨track',active,rfl⟩
    rw [ht,if_neg ho] at hs
    exact ⟨hs,by rw [hi,if_neg ho]⟩
  · rcases hon.targets key with hn | ⟨hsame,hi⟩
    · rw [hn] at hs
      cases hs
    · exact ⟨hsame ▸ hs,hi⟩

omit [ForwardingTransport T] in
theorem foldl_remove_lookup (s : ForwardTrackStore T) (keys : Multiset ForwardTrackKey)
    (hkey : key ∈ keys) : (keys.foldl remove s).tracks.lookup key = none := by
  induction keys using Multiset.induction_on generalizing s with
  | empty => cases Multiset.notMem_zero key hkey
  | cons o keys ih =>
    rw [Multiset.foldl_cons]
    rcases Multiset.mem_cons.mp hkey with rfl | hmem
    · have hg : (s.remove key).tracks.lookup key = none := by
        rw [(remove_lookups s key key).1,if_pos rfl]
      have hf := foldl_remove_invariant (OnlyRemoves (s.remove key)) (fun _ o ht => ht.remove o)
        (.refl _) keys
      rcases hf.targets key with hn | ⟨hs,-⟩
      · exact hn
      · rw [hs,hg]
    · exact ih (s.remove o) hmem

theorem lookup_of_removes (h : Removes operation key) :
    (s.apply operation).tracks.lookup key=none := by
  rcases h with rfl | rfl
  · change (s.remove key).tracks.lookup key=none
    rw [(remove_lookups s key key).1,if_pos rfl]
  · by_cases hs : key∈s.tracks.keys
    · apply foldl_remove_lookup
      exact mem_filter.mpr ⟨hs,rfl⟩
    · have hf := foldl_remove_invariant (OnlyRemoves s) (fun _ o ht => ht.remove o)
        (.refl s) (s.keysOfTrack key.readerKey).val
      rcases hf.targets key with hn | ⟨hsame,-⟩
      · exact hn
      · exact hsame.trans (lookup_eq_none_iff.mpr hs)

/-- Between two moments a target was neither inserted nor removed, and at every moment
between them it was stored with the same transport and incarnation. -/
structure NotReplaced (s : ForwardTrackStore T) (later : List (StoreOperation T))
    (key : ForwardTrackKey) : Prop where
  untouched : ∀operation∈later,¬ Inserts operation key ∧ ¬ Removes operation key
  stored : ∀earlier rest,later=earlier++rest →
    (earlier.foldl apply s).tracks.lookup key=s.tracks.lookup key ∧
    (earlier.foldl apply s).targetIncarnations.lookup key =
      s.targetIncarnations.lookup key

theorem notReplaced_of_not_inserts {later : List (StoreOperation T)}
    (h : ∀operation∈later,¬ Inserts operation key)
    (hend : (later.foldl apply s).tracks.lookup key=some k) :
    s.tracks.lookup key=some k ∧ NotReplaced s later key := by
  induction later generalizing s with
  | nil =>
    refine ⟨hend,by simp,?_⟩
    intro earlier rest hs
    obtain ⟨rfl,-⟩ := List.append_eq_nil_iff.mp hs.symm
    exact ⟨rfl,rfl⟩
  | cons operation later ih =>
    have hop := h operation (List.mem_cons_self)
    obtain ⟨hn,hk⟩ := ih (fun other ho => h other (List.mem_cons_of_mem _ ho)) hend
    obtain ⟨hb,hi⟩ := stored_before hop hn
    refine ⟨hb,?_,?_⟩
    · intro other ho
      rcases List.mem_cons.mp ho with rfl | ho
      · refine ⟨hop,?_⟩
        intro hr
        rw [lookup_of_removes hr] at hn
        cases hn
      · exact hk.untouched other ho
    · intro earlier rest hs
      cases earlier with
      | nil => exact ⟨rfl,rfl⟩
      | cons first earlier =>
        obtain ⟨rfl,hre⟩ := List.cons.inj hs
        obtain ⟨ht,hinc⟩ := hk.stored earlier rest hre
        exact ⟨ht.trans (hn.trans hb.symm),hinc.trans hi⟩

/-- A target with the same incarnation at two moments was not replaced between them, as
long as the incarnations have not come round. -/
theorem notReplaced_of_incarnation_eq (l : List (StoreOperation T))
    (hb : (storeAfter (ops++l)).insertions≤2^64)
    (hf : (storeAfter ops).targetIncarnations.lookup key=some incarnation)
    (hl : (storeAfter (ops++l)).targetIncarnations.lookup key=some incarnation)
    (ht : (storeAfter (ops++l)).tracks.lookup key=some k) :
    NotReplaced (storeAfter ops) l key := by
  have hsp : storeAfter (ops++l) = l.foldl apply (storeAfter ops) := List.foldl_append
  rw [hsp] at hb hl ht
  refine (notReplaced_of_not_inserts ?_ ht).2
  -- an insertion in between would have given out an incarnation of a later count
  intro op hmem hins
  obtain ⟨pre,post,rfl⟩ := List.append_of_mem hmem
  obtain ⟨track',active,rfl⟩ := hins
  obtain ⟨hle,hg⟩ := incarnatedFrom_storeAfter ops key
  obtain ⟨n,-,hn,rfl⟩ := hg incarnation hf
  have hpre := insertions_le_foldl (storeAfter ops) pre
  rw [List.foldl_append,List.foldl_cons] at hb hl
  generalize pre.foldl apply (storeAfter ops)=t at hpre hb hl
  have hin : IncarnatedFrom t.insertions key (t.apply (.insert key track' active)) := by
    obtain ⟨hc,hi,-⟩ := insertWithActive_lookups t key track' active
    refine ⟨by omega,?_⟩
    intro incarnation hs
    rw [hi,if_pos rfl] at hs
    exact ⟨t.insertions,le_refl _,by omega,(some.inj hs).symm⟩
  obtain ⟨-,ha⟩ := hin.foldl post
  obtain ⟨m,hm,hlt,hsame⟩ := ha _ hl
  have hmod := congrArg UInt64.toNat hsame
  rw [UInt64.toNat_ofNat',UInt64.toNat_ofNat'] at hmod
  omega

end

section

variable {σ : Type}

structure ReaderTarget (T σ : Type) where
  incarnation : UInt64
  transport : T
  state : σ

/-- The targets of a reader after it has listed its track again. The state of a target
survives when its incarnation is the listed one; `replaceTransport` then forgets what
depended on the transport. -/
def refreshForwardTargets (fresh : σ) (replaceTransport : σ → σ)
    (previous : FiniteMap ForwardTrackKey (ReaderTarget T σ))
    (listing : FiniteMap ForwardTrackKey (T × UInt64)) :
    FiniteMap ForwardTrackKey (ReaderTarget T σ) :=
  .ofKeys listing.keys (fun key => (listing.lookup key).map (fun listed =>
    match previous.lookup key with
    | some target =>
      if target.incarnation=listed.2 then
        ⟨target.incarnation,listed.1,replaceTransport target.state⟩
      else ⟨listed.2,listed.1,fresh⟩
    | none => ⟨listed.2,listed.1,fresh⟩))

/-- A refreshed target is listed, and its state is fresh unless the incarnation was known. -/
theorem refreshForwardTargets_spec {fresh : σ} {replaceTransport : σ → σ}
    {previous : FiniteMap ForwardTrackKey (ReaderTarget T σ)}
    {listing : FiniteMap ForwardTrackKey (T × UInt64)} {key : ForwardTrackKey}
    {k : ReaderTarget T σ}
    (h : (refreshForwardTargets fresh replaceTransport previous listing).lookup key=some k) :
    listing.lookup key=some (k.transport,k.incarnation) ∧
      (k.state=fresh ∨ ∃kept,previous.lookup key=some kept ∧
        kept.incarnation=k.incarnation ∧ k.state=replaceTransport kept.state) := by
  rw [refreshForwardTargets,lookup_ofKeys] at h
  split_ifs at h
  obtain ⟨listed,hl,rfl⟩ := map_eq_some_iff.mp h
  rw [hl]
  cases previous.lookup key with
  | none => exact ⟨rfl,.inl rfl⟩
  | some kept =>
    by_cases hs : kept.incarnation=listed.2
    · simp only [if_pos hs]
      exact ⟨by rw [hs],.inr ⟨kept,rfl,rfl,rfl⟩⟩
    · simp [hs]

end

section

theorem lookups_of_listed {k : ForwardTrackReaderKey} {key : ForwardTrackKey} {tr : T}
    (h : (s.listForTrackWithIncarnation k).lookup key=some (tr,incarnation)) :
    s.tracks.lookup key=some tr ∧ s.targetIncarnations.lookup key=some incarnation := by
  rw [listForTrackWithIncarnation,lookup_ofKeys] at h
  split_ifs at h
  obtain ⟨st,hs,hmap⟩ := bind_eq_some_iff.mp h
  obtain ⟨given,hg,hp⟩ := map_eq_some_iff.mp hmap
  obtain ⟨rfl,rfl⟩ := Prod.mk.inj hp
  exact ⟨hs,hg⟩

variable [ForwardingTransport T]

structure RefreshSound (operations later : List (StoreOperation T)) : Prop where
  /-- With an unchanged revision every listing is unchanged. -/
  listings : (storeAfter operations).revision=(storeAfter (operations++later)).revision →
    ∀track,(storeAfter (operations++later)).listForTrackWithIncarnation track =
      (storeAfter operations).listForTrackWithIncarnation track
  /-- A target listed with the same incarnation was neither removed nor inserted. -/
  incarnations : ∀track key transport transport' incarnation,
    ((storeAfter operations).listForTrackWithIncarnation track).lookup key =
      some (transport,incarnation) →
    ((storeAfter (operations++later)).listForTrackWithIncarnation track).lookup key =
      some (transport',incarnation) →
    NotReplaced (storeAfter operations) later key
  /-- A refresh keeps the state of a target only for the same inserted target. -/
  states : ∀(σ : Type) (fresh : σ) (replaceTransport : σ → σ)
    (previous : FiniteMap ForwardTrackKey (ReaderTarget T σ)) track key target,
    (refreshForwardTargets fresh replaceTransport
        (refreshForwardTargets fresh replaceTransport previous
          ((storeAfter operations).listForTrackWithIncarnation track))
        ((storeAfter (operations++later)).listForTrackWithIncarnation track)).lookup key =
      some target →
    target.state=fresh ∨ NotReplaced (storeAfter operations) later key

/-- In every run a reader's refresh is sound between any two moments, as long as fewer
than `2 ^ 64` changes lie between them and at most `2 ^ 64` targets were ever inserted. -/
theorem refreshSound_of_counts (operations later : List (StoreOperation T))
    (hbumps : (storeAfter (operations ++ later)).revisionBumps <
      (storeAfter operations).revisionBumps + 2 ^ 64)
    (hinsertions : (storeAfter (operations ++ later)).insertions≤2 ^ 64) :
    RefreshSound operations later := by
  have hi : ∀track key transport transport' incarnation,
      ((storeAfter operations).listForTrackWithIncarnation track).lookup key =
        some (transport,incarnation) →
      ((storeAfter (operations++later)).listForTrackWithIncarnation track).lookup key =
        some (transport',incarnation) →
      NotReplaced (storeAfter operations) later key := by
    intro track key transport transport' incarnation hf hla
    obtain ⟨-,hf⟩ := lookups_of_listed hf
    obtain ⟨hs,hla⟩ := lookups_of_listed hla
    exact notReplaced_of_incarnation_eq operations later hinsertions hf hla hs
  refine ⟨?_,hi,?_⟩
  · intro hr track
    have hc := countsChanges_storeAfter operations later
    have hle := hc.le
    have hmod := congrArg UInt64.toNat hr
    rw [revision,revision,UInt64.toNat_ofNat',UInt64.toNat_ofNat'] at hmod
    exact (indexed_storeAfter operations).listing_eq (indexed_storeAfter _)
      (hc.same (by omega)) track
  · intro σ fresh replaceTransport previous track key target ht
    obtain ⟨hli,hst | ⟨kept,hk,hsame,-⟩⟩ := refreshForwardTargets_spec ht
    · exact .inl hst
    · obtain ⟨hl,-⟩ := refreshForwardTargets_spec hk
      rw [hsame] at hl
      exact .inr (hi track key _ _ _ hl hli)

end

instance : ForwardingTransport (Option String) := ⟨id⟩

def soleTarget : ForwardTrackKey := ⟨"room","publisher","track","subscriber"⟩

/-- A sole target is inserted, and another participant comes and goes. -/
theorem refreshSound_after_insert :
    RefreshSound [.insert soleTarget (none : Option String) true]
      [.activateSubscriber "room" "stranger",.removeParticipant "room" "stranger"] :=
  refreshSound_of_counts _ _ (by decide +kernel) (by decide +kernel)

def departures (count : ℕ) : List (StoreOperation (Option String)) :=
  List.replicate count (.removeParticipant "room" "stranger")

theorem foldl_departures (s : ForwardTrackStore (Option String)) (n : ℕ) :
    ((departures n).foldl apply s).revisionBumps=s.revisionBumps+n ∧
      ((departures n).foldl apply s).active⊆s.active := by
  induction n generalizing s with
  | zero => exact ⟨rfl,Finset.Subset.refl _⟩
  | succ n ih =>
    obtain ⟨hb,ha⟩ := ih (s.apply (.removeParticipant "room" "stranger"))
    refine ⟨?_,?_⟩
    · change ((departures n).foldl apply _).revisionBumps=_
      rw [hb]
      change s.revisionBumps+1+n=_
      omega
    · exact ha.trans (filter_subset _ _)

def removeAndDepart (count : ℕ) : List (StoreOperation (Option String)) :=
  .remove soleTarget::departures count

theorem storeAfter_removeAndDepart (n : ℕ) :
    (storeAfter ([.insert soleTarget none true]++removeAndDepart n)).revisionBumps=n+2 ∧
      ((storeAfter ([.insert soleTarget none true]++removeAndDepart
        n)).listForTrackWithIncarnation soleTarget.readerKey).lookup soleTarget=none := by
  obtain ⟨hb,hac⟩ :=
    foldl_departures (storeAfter [.insert soleTarget none true,.remove soleTarget]) n
  have ha : storeAfter ([.insert soleTarget none true]++removeAndDepart n) =
      (departures n).foldl apply
        (storeAfter [.insert soleTarget none true,.remove soleTarget]) := rfl
  have htwo : (storeAfter [.insert soleTarget (none : Option String) true,
      .remove soleTarget]).revisionBumps=2 := by decide +kernel
  have hg : (storeAfter [.insert soleTarget (none : Option String) true,
      .remove soleTarget]).active=∅ := by decide +kernel
  refine ⟨by rw [ha,hb,htwo,add_comm],?_⟩
  rw [(indexed_storeAfter _).lookup_listForTrackWithIncarnation,if_neg]
  rintro ⟨hmem,-⟩
  have he := hac hmem
  exact notMem_empty _ he

/-- After `2 ^ 64` changes the revision is the same again, although the target is gone. -/
theorem refreshSound_fails_when_revision_comes_round :
    ¬ RefreshSound [.insert soleTarget none true] (removeAndDepart (2 ^ 64 - 1)) := by
  obtain ⟨hb,hg⟩ := storeAfter_removeAndDepart (2^64-1)
  generalize removeAndDepart (2^64-1)=later at hb hg ⊢
  intro h
  have hr : (storeAfter [.insert soleTarget (none : Option String) true]).revision =
      (storeAfter ([.insert soleTarget none true]++later)).revision := by
    rw [revision,revision,hb]
    decide +kernel
  have hl : ((storeAfter [.insert soleTarget (none : Option String)
      true]).listForTrackWithIncarnation soleTarget.readerKey).lookup soleTarget =
        some (none,0) := by decide +kernel
  rw [h.listings hr] at hg
  cases hg

end OxideSfu.ForwardTracks
