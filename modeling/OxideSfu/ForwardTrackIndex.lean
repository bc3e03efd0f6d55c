import OxideSfu.ForwardTrackStore

/-!
# The index of the forward-track store

Each operation updates five maps in its own order and keeps what holds between them: active targets
are stored, the index is the grouping of the active set, and stored targets have an incarnation.
Listing a track returns its active targets.
-/

namespace OxideSfu.ForwardTracks

open FiniteMaps ForwardTrackStore FiniteMap Finset

variable {T : Type} {s : ForwardTrackStore T}

structure Indexed (s : ForwardTrackStore T) : Prop where
  stored : s.active⊆s.tracks.keys
  grouped : s.activeByTrack=groupBy ForwardTrackKey.readerKey s.active
  incarnated : s.tracks.keys⊆s.targetIncarnations.keys

namespace Indexed

variable (h : Indexed s)

include h

theorem bumpRevisionIf (changed : Bool) : Indexed (s.bumpRevisionIf changed) := by
  cases changed with
  | false => exact h
  | true => exact ⟨h.stored,h.grouped,h.incarnated⟩

theorem insertWithActive (key : ForwardTrackKey) (k : T) (active : Bool) :
    Indexed (s.insertWithActive key k active) := by
  cases active with
  | true =>
    refine ⟨insert_subset_insert key h.stored,?_,insert_subset_insert key h.incarnated⟩
    change addToGroup _ s.activeByTrack key=_
    rw [h.grouped,addToGroup_groupBy]
    rfl
  | false =>
    refine ⟨?_,?_,insert_subset_insert key h.incarnated⟩
    · exact (erase_subset key _).trans (h.stored.trans (subset_insert key _))
    · change removeFromGroup _ s.activeByTrack key=_
      rw [h.grouped,removeFromGroup_groupBy]
      rfl

theorem activate {keys : Finset ForwardTrackKey} (hk : keys⊆s.tracks.keys) :
    Indexed (s.activate keys) := by
  apply bumpRevisionIf
  refine ⟨union_subset h.stored hk,?_,h.incarnated⟩
  change addAllToGroups _ s.activeByTrack keys=_
  rw [h.grouped,addAllToGroups_groupBy]
  rfl

theorem remove (key : ForwardTrackKey) : Indexed (s.remove key) := by
  apply bumpRevisionIf
  refine ⟨erase_subset_erase key h.stored,?_,erase_subset_erase key h.incarnated⟩
  change removeFromGroup _ s.activeByTrack key=_
  rw [h.grouped,removeFromGroup_groupBy]
  rfl

end Indexed

theorem foldl_remove_invariant (P : ForwardTrackStore T→Prop)
    (hst : ∀s key,P s → P (s.remove key)) (hs : P s) (keys : Multiset ForwardTrackKey) :
    P (keys.foldl ForwardTrackStore.remove s) := by
  induction keys using Multiset.induction_on generalizing s with
  | empty => exact hs
  | cons key keys ih =>
    rw [Multiset.foldl_cons]
    exact ih (hst s key hs)

theorem Indexed.dropTargets (h : Indexed s) (keys : Finset ForwardTrackKey) :
    Indexed (s.dropTargets keys) := by
  refine ⟨?_,?_,?_⟩
  · change s.active \ keys⊆(s.tracks.eraseAll keys).keys
    rw [keys_eraseAll]
    exact sdiff_subset_sdiff h.stored (Finset.Subset.refl keys)
  · change removeAllFromGroups _ s.activeByTrack keys=_
    rw [h.grouped,removeAllFromGroups_groupBy]
    rfl
  · change (s.tracks.eraseAll keys).keys⊆_
    rw [keys_eraseAll]
    exact sdiff_subset.trans h.incarnated

theorem indexOfActive_eq (active : Finset ForwardTrackKey) :
    indexOfActive active=groupBy ForwardTrackKey.readerKey active :=
  addAllToGroups_empty active

theorem Indexed.removeAllForPublisher (h : Indexed s) (room q : String) :
    Indexed (s.removeAllForPublisher room q) := by
  refine ⟨?_,?_,?_⟩
  · intro key hkey
    simp only [ForwardTrackStore.removeAllForPublisher,rebuildActiveIndexFromActiveSet,
      bumpRevisionIf_active,bumpRevisionIf_tracks,setActiveIndexForKeys,mem_filter,
      keys_eraseAll,mem_sdiff,not_and] at hkey ⊢
    obtain ⟨ha,ho⟩ := hkey
    exact ⟨h.stored ha,fun _ => ho⟩
  · exact indexOfActive_eq _
  · intro key hkey
    simp only [ForwardTrackStore.removeAllForPublisher,rebuildActiveIndexFromActiveSet,
      bumpRevisionIf_targetIncarnations,bumpRevisionIf_tracks,setActiveIndexForKeys,
      keys_eraseAll,mem_sdiff] at hkey ⊢
    exact h.incarnated hkey.1

theorem Indexed.removeParticipant (h : Indexed s) (room i : String) :
    Indexed (s.removeParticipant room i) := by
  have hk : ∀key,key∈(s.removeParticipant room i).tracks.keys ↔
      key∈s.tracks.keys ∧ (key.room≠room ∨ (key.publisher≠i ∧ key.subscriber≠i)) := by
    intro key
    rw [mem_keys,mem_keys]
    change ((s.tracks.lookup key).filter _).isSome ↔ _
    cases s.tracks.lookup key <;> simp
  refine ⟨?_,?_,?_⟩
  · intro key hkey
    obtain ⟨ha,hke⟩ := mem_filter.mp hkey
    exact (hk key).mpr ⟨h.stored ha,hke⟩
  · exact indexOfActive_eq _
  · intro key hkey
    exact h.incarnated ((hk key).mp hkey).1

theorem Indexed.apply [ForwardingTransport T] (h : Indexed s) (op : StoreOperation T) :
    Indexed (s.apply op) := by
  cases op with
  | insert key k active => exact h.insertWithActive key k active
  | activateSubscriber room u => exact h.activate (filter_subset _ _)
  | activateSubscriberTrackSids room u sids =>
    change Indexed (s.activateSubscriberTrackSids room u sids)
    rw [activateSubscriberTrackSids]
    split_ifs
    · exact h
    · exact h.activate (filter_subset _ _)
  | remove key => exact h.remove key
  | removeAllForTrack k =>
    exact foldl_remove_invariant Indexed (fun _ key hs => hs.remove key) h _
  | removeTrack k =>
    obtain ⟨hst,hg,hi⟩ :=
      (h.dropTargets (s.keysOfTrack k)).bumpRevisionIf (decide (s.keysOfTrack k).Nonempty)
    exact ⟨hst,hg,hi⟩
  | removeSubscriberMid room u mid => exact (h.dropTargets _).bumpRevisionIf _
  | removeAllForPublisher room q => exact h.removeAllForPublisher room q
  | removeParticipant room i => exact h.removeParticipant room i
  | acquireTrackReader key =>
    change Indexed (s.acquireTrackReader key).2
    rw [acquireTrackReader]
    cases s.started.lookup key with
    | none | some => exact ⟨h.stored,h.grouped,h.incarnated⟩
  | revokeTrackReader | clearTrackReadersForPublisher => exact ⟨h.stored,h.grouped,h.incarnated⟩
  | releaseTrackReader lease =>
    change Indexed (s.releaseTrackReader lease).2
    rw [releaseTrackReader]
    split_ifs
    · exact ⟨h.stored,h.grouped,h.incarnated⟩
    · exact h

variable (ops : List (StoreOperation T))

theorem storeAfter_concat [ForwardingTransport T] (op : StoreOperation T) :
    storeAfter (ops++[op])=(storeAfter ops).apply op := by
  rw [storeAfter,List.foldl_append]
  rfl

theorem indexed_storeAfter [ForwardingTransport T] : Indexed (storeAfter ops) := by
  induction ops using List.reverseRecOn with
  | nil => exact ⟨Finset.Subset.refl _,groupBy_empty.symm,Finset.Subset.refl _⟩
  | append_singleton ops op ih =>
    rw [storeAfter_concat]
    exact ih.apply op

variable {key : ForwardTrackKey}

theorem Indexed.mem_activeKeys (h : Indexed s) {k : ForwardTrackReaderKey} :
    key∈s.activeKeys k ↔ key∈s.active ∧ key.readerKey=k := by
  rw [activeKeys,h.grouped,mem_getD_lookup_groupBy]

theorem Indexed.lookup_listForTrackWithIncarnation (h : Indexed s) (k : ForwardTrackReaderKey)
    (key : ForwardTrackKey) :
    (s.listForTrackWithIncarnation k).lookup key =
      if key∈s.active ∧ key.readerKey=k then
        (s.tracks.lookup key).bind (fun k =>
          (s.targetIncarnations.lookup key).map (fun n => (k,n)))
      else none := by
  exact if_congr h.mem_activeKeys rfl rfl

/-- The store's maps are consistent, and a listing shows exactly the active targets. -/
structure IndexInvariant (s : ForwardTrackStore T) : Prop where
  /-- Active targets are stored. -/
  stored : ∀key∈s.active,∃track,s.tracks.lookup key=some track
  /-- A key is in the group of a track if and only if it is an active target of it. -/
  grouped : ∀track key,(∃group,s.activeByTrack.lookup track=some group ∧ key∈group) ↔
    key∈s.active ∧ key.readerKey=track
  nonempty : ∀track group,s.activeByTrack.lookup track=some group → group.Nonempty
  /-- Stored targets have an incarnation. -/
  incarnated : ∀key track,s.tracks.lookup key=some track →
    ∃incarnation,s.targetIncarnations.lookup key=some incarnation
  listedKeys : ∀track,(s.listForTrack track).keys=s.active.filter (·.readerKey=track) ∧
    (s.listForTrackWithIncarnation track).keys=s.active.filter (·.readerKey=track)
  /-- A listed target comes with its transport and its incarnation. -/
  listedEntries : ∀track key,key∈s.active → key.readerKey=track →
    (s.listForTrack track).lookup key=s.tracks.lookup key ∧
    ∃transport incarnation,s.tracks.lookup key=some transport ∧
      s.targetIncarnations.lookup key=some incarnation ∧
      (s.listForTrackWithIncarnation track).lookup key=some (transport,incarnation)

theorem Indexed.exists_entries (h : Indexed s) (hkey : key∈s.active) :
    ∃tr n,s.tracks.lookup key=some tr ∧ s.targetIncarnations.lookup key=some n := by
  have ht := h.stored hkey
  have hi := h.incarnated ht
  rw [mem_keys,Option.isSome_iff_exists] at ht hi
  obtain ⟨tr,htr⟩ := ht
  obtain ⟨n,hi⟩ := hi
  exact ⟨tr,n,htr,hi⟩

theorem Indexed.indexInvariant (h : Indexed s) : IndexInvariant s where
  stored key hkey := by
    obtain ⟨tr,-,ht,-⟩ := h.exists_entries hkey
    exact ⟨tr,ht⟩
  grouped track key := by
    rw [← h.mem_activeKeys,activeKeys]
    cases s.activeByTrack.lookup track <;> simp
  nonempty track group hg := by
    rw [h.grouped] at hg
    exact nonempty_of_lookup_groupBy hg
  incarnated key track htr := by
    have hi := h.incarnated (mem_keys_of_lookup htr)
    rwa [mem_keys,Option.isSome_iff_exists] at hi
  listedKeys track := by
    constructor
    · ext key
      rw [mem_filter,← h.mem_activeKeys,mem_keys,listForTrack]
      by_cases hkey : key∈s.activeKeys track
      · obtain ⟨tr,-,ht,-⟩ := h.exists_entries (h.mem_activeKeys.mp hkey).1
        simp [hkey,ht]
      · simp [hkey]
    · ext key
      rw [mem_keys,h.lookup_listForTrackWithIncarnation]
      by_cases hkey : key∈s.active ∧ key.readerKey=track
      · obtain ⟨tr,n,ht,hi⟩ := h.exists_entries hkey.1
        simp [hkey,ht,hi]
      · simp [hkey]
  listedEntries track key ha htr := by
    obtain ⟨tr,n,ht,hi⟩ := h.exists_entries ha
    refine ⟨?_,tr,n,ht,hi,?_⟩
    · rw [listForTrack,lookup_ofKeys,if_pos (h.mem_activeKeys.mpr ⟨ha,htr⟩)]
    · rw [h.lookup_listForTrackWithIncarnation,if_pos ⟨ha,htr⟩,ht,hi]
      rfl

/-- After every sequence of operations the maps are consistent and listing a track returns
exactly its active targets. -/
theorem storeAfter_indexInvariant [ForwardingTransport T] (operations : List (StoreOperation T)) :
    IndexInvariant (storeAfter operations) :=
  (indexed_storeAfter operations).indexInvariant

end OxideSfu.ForwardTracks
