import OxideSfu.FiniteMaps

/-!
# Sets of values that carry their keys

A hash whose values repeat the field they stand under is a set with at most one value for a key. Its
insertions and removals, and the list of the values that pass a test in the order of their keys,
whatever the order in which the hash is read.
-/

namespace OxideSfu.KeyedSets

open FiniteMaps FiniteMap List

universe u v

variable {κ : Type u} {β : Type v}

structure KeyedSet (key : β → κ) where
  map : FiniteMap κ β
  key_of_lookup : ∀k b,map.lookup k=some b → key b=k

namespace KeyedSet

variable {key : β → κ}

instance : Membership β (KeyedSet key) := ⟨fun m b => m.map.lookup (key b)=some b⟩

variable {m : KeyedSet key} {b : β}

theorem mem_iff_lookup : b∈m ↔ m.map.lookup (key b)=some b := Iff.rfl

instance [DecidableEq β] (m : KeyedSet key) (b : β) : Decidable (b∈m) :=
  decidable_of_iff _ mem_iff_lookup.symm

theorem mem_of_lookup {k : κ} (h : m.map.lookup k=some b) : b∈m := by
  rw [mem_iff_lookup,m.key_of_lookup k b h]
  exact h

variable {c : β}

def empty : KeyedSet key where
  map := .empty
  key_of_lookup := by simp

theorem not_mem_empty (b : β) : b∉(empty : KeyedSet key) := by simp [mem_iff_lookup,empty]

section

variable [DecidableEq κ]

def insert (m : KeyedSet key) (b : β) : KeyedSet key where
  map := m.map.insert (key b) b
  key_of_lookup k c h := by
    obtain ⟨rfl,rfl⟩ | ⟨-,h⟩ := lookup_of_insert h
    · rfl
    · exact m.key_of_lookup k c h

def erase (m : KeyedSet key) (k : κ) : KeyedSet key where
  map := m.map.erase k
  key_of_lookup k' c h := m.key_of_lookup k' c (lookup_of_erase h).2

theorem mem_insert : c∈m.insert b ↔ c=b ∨ key c≠key b ∧ c∈m := by
  rw [mem_iff_lookup,insert,lookup_insert]
  split_ifs with hkey
  · constructor
    · intro h
      exact .inl (Option.some.inj h).symm
    · rintro (rfl | ⟨hne,-⟩)
      · rfl
      · exact absurd hkey hne
  · constructor
    · intro h
      exact .inr ⟨hkey,h⟩
    · rintro (rfl | ⟨-,h⟩)
      · exact absurd rfl hkey
      · exact h

theorem mem_erase {k : κ} : c∈m.erase k ↔ key c≠k ∧ c∈m := by
  rw [mem_iff_lookup,mem_iff_lookup,erase,lookup_erase]
  split_ifs with hkey <;> simp [hkey]

end

section

def values (m : KeyedSet key) (order : Iteration κ) : List β := (m.map.entries order).map Prod.snd

variable {order : Iteration κ}

theorem mem_values : b∈m.values order ↔ b∈m := by
  rw [values,mem_map]
  constructor
  · rintro ⟨⟨k,_⟩,he,rfl⟩
    exact mem_of_lookup (mem_entries.mp he)
  · intro h
    exact ⟨(key b,b),mem_entries.mpr h,rfl⟩

theorem nodup_keys_values (m : KeyedSet key) (order : Iteration κ) :
    ((m.values order).map key).Nodup := by
  have hs : ((m.values order).map key)=((m.map.entries order).map Prod.fst) := by
    rw [values,map_map]
    refine map_congr_left ?_
    rintro ⟨k,b⟩ he
    exact m.key_of_lookup k b (mem_entries.mp he)
  have hsub : ((m.map.entries order).map Prod.fst).Sublist (order.order m.map.keys) := by
    rw [entries]
    induction order.order m.map.keys with
    | nil => exact List.Sublist.refl _
    | cons k ks ih =>
      rw [filterMap_cons]
      cases m.map.lookup k with
      | none => exact ih.cons k
      | some b => exact ih.cons_cons k
  rw [hs]
  refine hsub.nodup ?_
  rw [← Multiset.coe_nodup,order.coe_order]
  exact m.map.keys.nodup

variable [LinearOrder κ]

def listing (m : KeyedSet key) (order : Iteration κ) (p : β→Bool) : List β :=
  ((m.values order).filter p).insertionSort (fun b c => key b≤key c)

variable {p : β→Bool}

theorem mem_listing : b∈m.listing order p ↔ b∈m ∧ p b := by
  rw [listing,mem_insertionSort,mem_filter,mem_values]

theorem pairwise_listing (m : KeyedSet key) (order : Iteration κ) (p : β→Bool) :
    (m.listing order p).Pairwise (fun b c => key b<key c) := by
  have hle := pairwise_insertionSort (fun b c => key b≤key c) ((m.values order).filter p)
  have hne : (m.listing order p).Pairwise (fun b c => key b≠key c) := by
    have hv : (m.values order).Pairwise (fun b c => key b≠key c) :=
      pairwise_map.mp (m.nodup_keys_values order)
    refine (perm_insertionSort _ _).symm.pairwise ?_ (fun h => Ne.symm h)
    exact hv.filter p
  exact (hle.and hne).imp (fun h => lt_of_le_of_ne h.1 h.2)

/-- The listing is the only list of the values that is in order. -/
theorem listing_eq_of_pairwise {l : List β}
    (hp : l.Pairwise (fun b c => key b<key c)) (hmem : ∀b,b∈l ↔ b∈m ∧ p b) :
    m.listing order p=l := by
  exact (m.pairwise_listing order p).eq_of_mem_iff hp (fun {b} => mem_listing.trans (hmem b).symm)

end

end KeyedSet

end OxideSfu.KeyedSets
