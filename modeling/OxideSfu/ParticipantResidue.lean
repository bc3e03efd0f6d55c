import OxideSfu.ForwardTrackRevisions

/-!
# What a departed participant leaves behind

`remove_participant` clears the transports, the active set, its index and the readers of a
participant, but not the incarnations. So the store forgets a participant exactly when no target of
it has an incarnation, and only `remove` takes these out.
-/

namespace OxideSfu.ForwardTracks

open FiniteMaps ForwardTrackStore FiniteMap Finset

variable {T : Type} {s : ForwardTrackStore T}

def ForwardTrackKey.Involves (key : ForwardTrackKey) (room identity : String) : Prop :=
  key.room=room ∧ (key.publisher=identity ∨ key.subscriber=identity)
  deriving Decidable

def ForwardTrackReaderKey.PublishedBy (track : ForwardTrackReaderKey) (room identity : String) :
    Prop :=
  track.room=room ∧ track.publisher=identity
  deriving Decidable

theorem keeps_iff_not_involves (key : ForwardTrackKey) (room i : String) :
    (key.room≠room ∨ (key.publisher≠i ∧ key.subscriber≠i)) ↔ ¬ key.Involves room i := by
  rw [ForwardTrackKey.Involves,not_and_or,not_or]

section

variable (s : ForwardTrackStore T) (room i : String)

theorem lookup_tracks_removeParticipant (key : ForwardTrackKey) :
    (s.removeParticipant room i).tracks.lookup key =
      if key.Involves room i then none else s.tracks.lookup key := by
  change (s.tracks.filter _).lookup key=_
  rw [lookup_filter]
  simp only [keeps_iff_not_involves]
  cases s.tracks.lookup key <;> by_cases h : key.Involves room i <;> simp [h]

theorem mem_active_removeParticipant (key : ForwardTrackKey) :
    key∈(s.removeParticipant room i).active ↔ key∈s.active ∧ ¬ key.Involves room i := by
  change key∈s.active.filter _ ↔ _
  rw [mem_filter,keeps_iff_not_involves]

theorem lookup_started_removeParticipant (k : ForwardTrackReaderKey) :
    (s.removeParticipant room i).started.lookup k =
      if k.PublishedBy room i then none else s.started.lookup k := by
  change (s.started.filter _).lookup k=_
  rw [lookup_filter]
  by_cases h : k.PublishedBy room i
  · simp [h,h.1,h.2]
  · have hk : k.room≠room ∨ k.publisher≠i := not_and_or.mp h
    cases s.started.lookup k <;> simp [h,hk]

end

theorem Indexed.lookup_index_other_room (h : Indexed s) {room i : String}
    {k : ForwardTrackReaderKey} (ht : k.room≠room) :
    (s.removeParticipant room i).activeByTrack.lookup k=s.activeByTrack.lookup k := by
  have hg : (s.removeParticipant room i).active.filter (·.readerKey=k) =
    s.active.filter (·.readerKey=k) := by
    ext key
    rw [mem_filter,mem_filter,mem_active_removeParticipant]
    constructor
    · rintro ⟨⟨ha,-⟩,hkey⟩
      exact ⟨ha,hkey⟩
    · rintro ⟨ha,rfl⟩
      exact ⟨⟨ha,fun hi => ht hi.1⟩,rfl⟩
  rw [(h.removeParticipant room i).grouped,h.grouped,lookup_groupBy,lookup_groupBy,hg]

structure Forgets (s : ForwardTrackStore T) (room identity : String) : Prop where
  tracks : ∀key : ForwardTrackKey,key.Involves room identity → s.tracks.lookup key=none
  incarnations : ∀key : ForwardTrackKey,key.Involves room identity →
    s.targetIncarnations.lookup key=none
  active : ∀key∈s.active,¬ key.Involves room identity
  index : ∀track group,s.activeByTrack.lookup track=some group →
    ¬ track.PublishedBy room identity ∧ ∀key∈group,¬ key.Involves room identity
  readers : ∀track : ForwardTrackReaderKey,track.PublishedBy room identity →
    s.started.lookup track=none

/-- What does not involve the participant is the same in both stores. -/
structure SameForOthers (s s' : ForwardTrackStore T) (room identity : String) : Prop where
  tracks : ∀key : ForwardTrackKey,¬ key.Involves room identity →
    s'.tracks.lookup key=s.tracks.lookup key
  incarnations : ∀key : ForwardTrackKey,¬ key.Involves room identity →
    s'.targetIncarnations.lookup key=s.targetIncarnations.lookup key
  active : ∀key : ForwardTrackKey,¬ key.Involves room identity →
    (key∈s'.active ↔ key∈s.active)
  index : ∀track,∀key : ForwardTrackKey,¬ key.Involves room identity →
    (key∈s'.activeKeys track ↔ key∈s.activeKeys track)
  index_other_room : ∀track : ForwardTrackReaderKey,track.room≠room →
    s'.activeByTrack.lookup track=s.activeByTrack.lookup track
  readers : ∀track : ForwardTrackReaderKey,¬ track.PublishedBy room identity →
    s'.started.lookup track=s.started.lookup track

theorem Indexed.sameForOthers_removeParticipant (h : Indexed s) (room i : String) :
    SameForOthers s (s.removeParticipant room i) room i where
  tracks key hkey := by rw [lookup_tracks_removeParticipant,if_neg hkey]
  incarnations key _ := rfl
  active key hkey := by
    rw [mem_active_removeParticipant]
    exact and_iff_left hkey
  index track key hkey := by
    rw [(h.removeParticipant room i).mem_activeKeys,h.mem_activeKeys,
      mem_active_removeParticipant,and_iff_left hkey]
  index_other_room track ht := h.lookup_index_other_room ht
  readers track ht := by rw [lookup_started_removeParticipant,if_neg ht]

/-- Only the incarnations can be left behind. -/
theorem Indexed.forgets_removeParticipant (h : Indexed s) {room i : String}
    (hi : ∀key : ForwardTrackKey,key.Involves room i → s.targetIncarnations.lookup key=none) :
    Forgets (s.removeParticipant room i) room i where
  tracks key hkey := by rw [lookup_tracks_removeParticipant,if_pos hkey]
  incarnations := hi
  active key hkey := ((mem_active_removeParticipant s room i key).mp hkey).2
  index track group hg := by
    have haf := h.removeParticipant room i
    have hmem : ∀key∈group,key.readerKey=track ∧ ¬ key.Involves room i := by
      intro key hkey
      have ha : key∈(s.removeParticipant room i).activeKeys track := by
        rw [activeKeys,hg]
        exact hkey
      obtain ⟨ha,ht⟩ := haf.mem_activeKeys.mp ha
      exact ⟨ht,((mem_active_removeParticipant s room i key).mp ha).2⟩
    refine ⟨?_,fun key hkey => (hmem key hkey).2⟩
    -- A group has a member, and the track's publisher is the member's.
    rintro ⟨hr,hp⟩
    rw [haf.grouped] at hg
    obtain ⟨key,hkey⟩ := nonempty_of_lookup_groupBy hg
    obtain ⟨rfl,ho⟩ := hmem key hkey
    exact ho ⟨hr,.inl hp⟩
  readers track ht := by rw [lookup_started_removeParticipant,if_pos ht]

structure Vacant (s : ForwardTrackStore T) : Prop where
  tracks : s.tracks = .empty
  incarnations : s.targetIncarnations = .empty
  active : s.active=∅
  index : s.activeByTrack = .empty
  readers : s.started = .empty

def removeParticipants (s : ForwardTrackStore T) (participants : List (String × String)) :
    ForwardTrackStore T :=
  participants.foldl (fun s participant => s.removeParticipant participant.1 participant.2) s

/-- Every stored target and every reader is a listed participant's. -/
structure CoveredBy (s : ForwardTrackStore T) (participants : List (String × String)) : Prop where
  targets : ∀key track,s.tracks.lookup key=some track →
    ∃participant∈participants,key.Involves participant.1 participant.2
  readers : ∀track generation,s.started.lookup track=some generation →
    ∃participant∈participants,track.PublishedBy participant.1 participant.2

theorem removeParticipants_clears (s : ForwardTrackStore T) (ps : List (String × String)) :
    (∀key,(∃p∈ps,key.Involves p.1 p.2) ∨ s.tracks.lookup key=none →
      (removeParticipants s ps).tracks.lookup key=none) ∧
    (∀k,(∃p∈ps,k.PublishedBy p.1 p.2) ∨ s.started.lookup k=none →
      (removeParticipants s ps).started.lookup k=none) := by
  induction ps generalizing s with
  | nil => simp [removeParticipants]
  | cons p ps ih =>
    obtain ⟨ht,hr⟩ := ih (s.removeParticipant p.1 p.2)
    refine ⟨?_,?_⟩
    · intro key hkey
      apply ht key
      rw [lookup_tracks_removeParticipant]
      by_cases hi : key.Involves p.1 p.2
      · exact .inr (if_pos hi)
      · simpa [hi] using hkey
    · intro k htr
      apply hr k
      rw [lookup_started_removeParticipant]
      by_cases hp : k.PublishedBy p.1 p.2
      · exact .inr (if_pos hp)
      · simpa [hp] using htr

theorem Indexed.removeParticipants (h : Indexed s) (ps : List (String × String)) :
    Indexed (removeParticipants s ps) := by
  induction ps generalizing s with
  | nil => exact h
  | cons p ps ih =>
    exact ih (h.removeParticipant p.1 p.2)

theorem targetIncarnations_removeParticipants (s : ForwardTrackStore T)
    (ps : List (String × String)) :
    (removeParticipants s ps).targetIncarnations=s.targetIncarnations := by
  induction ps generalizing s with
  | nil => rfl
  | cons p ps ih => exact ih (s.removeParticipant p.1 p.2)

theorem Indexed.vacant_iff (h : Indexed s) {ps : List (String × String)} (hco : CoveredBy s ps) :
    Vacant (ForwardTracks.removeParticipants s ps) ↔ s.targetIncarnations = .empty := by
  constructor
  · intro hv
    rw [← targetIncarnations_removeParticipants s ps]
    exact hv.incarnations
  · intro hi
    obtain ⟨hcl,hc⟩ := removeParticipants_clears s ps
    have haf := h.removeParticipants ps
    have ht : (ForwardTracks.removeParticipants s ps).tracks = .empty := by
      ext1 key
      apply hcl key
      cases hl : s.tracks.lookup key with
      | none => exact .inr rfl
      | some k => exact .inl (hco.targets key k hl)
    have ha : (ForwardTracks.removeParticipants s ps).active=∅ := by
      have hs := haf.stored
      rw [ht] at hs
      exact subset_empty.mp hs
    refine ⟨ht,?_,ha,?_,?_⟩
    · rw [targetIncarnations_removeParticipants,hi]
    · rw [haf.grouped,ha,groupBy_empty]
    · ext1 k
      apply hc k
      cases hl : s.started.lookup k with
      | none => exact .inr rfl
      | some g => exact .inl (hco.readers k g hl)

variable [ForwardingTransport T]

/-- In every reachable store: removing a participant leaves nothing of it, and everything of
the others, exactly when no target of it has an incarnation before; and removing everybody
leaves an empty store exactly when no target has one. -/
theorem removeParticipant_leaves_nothing_iff (operations : List (StoreOperation T)) :
    (∀room identity,
      (Forgets ((storeAfter operations).removeParticipant room identity) room identity ∧
        SameForOthers (storeAfter operations)
          ((storeAfter operations).removeParticipant room identity) room identity) ↔
      ∀key : ForwardTrackKey,key.Involves room identity →
        (storeAfter operations).targetIncarnations.lookup key = none) ∧
    (∀participants,CoveredBy (storeAfter operations) participants →
      (Vacant (removeParticipants (storeAfter operations) participants) ↔
        (storeAfter operations).targetIncarnations = .empty)) := by
  have hi := indexed_storeAfter operations
  refine ⟨?_,fun participants hc => hi.vacant_iff hc⟩
  intro room identity
  constructor
  · rintro ⟨hf,-⟩ key hkey
    exact hf.incarnations key hkey
  · intro hin
    exact ⟨hi.forgets_removeParticipant hin,hi.sameForOthers_removeParticipant room identity⟩

def otherTarget : ForwardTrackKey := {soleTarget with subscriber := "other"}

/-- One of two targets is taken out again, and the track has a reader. -/
def removedBesideOther : List (StoreOperation (Option String)) :=
  [.insert soleTarget none true,.insert otherTarget none true,
    .acquireTrackReader soleTarget.readerKey,.remove soleTarget]

theorem removeParticipant_leaves_nothing_after_remove :
    let beside := storeAfter removedBesideOther
    let emptied := storeAfter (removedBesideOther ++ [.remove otherTarget])
    let everybody := [("room", "publisher"),("room", "subscriber"),("room", "other")]
    beside.active = {otherTarget} ∧ beside.started.keys = {soleTarget.readerKey} ∧
    (Forgets (beside.removeParticipant "room" "subscriber") "room" "subscriber" ∧
      SameForOthers beside (beside.removeParticipant "room" "subscriber") "room" "subscriber") ∧
    CoveredBy emptied everybody ∧ Vacant (removeParticipants emptied everybody) := by
  intro beside emptied everybody
  have hincarnations : emptied.targetIncarnations = .empty := by
    ext1 key
    have hk : emptied.targetIncarnations.keys=∅ := by decide +kernel
    rw [lookup_empty,lookup_eq_none_iff,hk]
    exact notMem_empty key
  have hcovered : CoveredBy emptied everybody := by
    refine ⟨fun key track hl => ?_,fun track generation hl => ?_⟩
    · have hk : emptied.tracks.keys=∅ := by decide +kernel
      exact absurd (hk ▸ mem_keys_of_lookup hl) (notMem_empty key)
    · have hk : emptied.started.keys={soleTarget.readerKey} := by decide +kernel
      have hkey := mem_keys_of_lookup hl
      rw [hk,mem_singleton] at hkey
      exact ⟨("room","publisher"),List.mem_cons_self,hkey ▸ ⟨rfl,rfl⟩⟩
  refine ⟨by decide +kernel,by decide +kernel,
    ((removeParticipant_leaves_nothing_iff removedBesideOther).1 "room" "subscriber").mpr ?_,
    hcovered,((removeParticipant_leaves_nothing_iff _).2 _ hcovered).mpr hincarnations⟩
  intro key hinvolves
  have hk : beside.targetIncarnations.keys={otherTarget} := by decide +kernel
  refine lookup_eq_none_iff.mpr fun hmem => ?_
  rw [hk,mem_singleton] at hmem
  subst hmem
  revert hinvolves
  decide

/-- A participant that leaves while it receives a track leaves the target's incarnation
behind, and it stays there after the publisher has left, too. -/
theorem removeParticipant_leaves_incarnation :
    ¬ Forgets ((storeAfter [.insert soleTarget (none : Option String) true]).removeParticipant
      "room" "subscriber") "room" "subscriber" ∧
    CoveredBy (storeAfter [.insert soleTarget (none : Option String) true])
      [("room", "publisher"),("room", "subscriber")] ∧
    ¬ Vacant (removeParticipants (storeAfter [.insert soleTarget (none : Option String) true])
      [("room", "publisher"),("room", "subscriber")]) := by
  have hle : (storeAfter [.insert soleTarget (none : Option String) true]).targetIncarnations.lookup
      soleTarget=some 0 := by
    decide +kernel
  refine ⟨?_,⟨?_,?_⟩,?_⟩
  · intro hf
    have hn := hf.incarnations soleTarget ⟨rfl,.inr rfl⟩
    cases hn
  · intro key track hl
    have hk : (storeAfter [.insert soleTarget (none : Option String) true]).tracks.keys =
      {soleTarget} := by
      decide +kernel
    have hkey := mem_keys_of_lookup hl
    rw [hk,mem_singleton] at hkey
    exact ⟨("room","publisher"),List.mem_cons_self,hkey ▸ ⟨rfl,.inl rfl⟩⟩
  · intro track generation hl
    cases hl
  · intro hv
    have hn := hv.incarnations
    rw [targetIncarnations_removeParticipants] at hn
    rw [hn] at hle
    cases hle

end OxideSfu.ForwardTracks
