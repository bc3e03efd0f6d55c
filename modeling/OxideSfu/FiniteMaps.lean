import Mathlib.Data.Finset.Card
import Mathlib.Data.List.Sort
import Mathlib.Data.Multiset.Fold

/-!
# Finite maps and grouped indexes

A finite map is a lookup function with its finite set of keys, so that maps with the same lookups
are equal. A grouped index maps every value of a function to the nonempty set of the keys that have
it; adding and removing keys keeps it the grouping of a set.
-/

namespace OxideSfu.FiniteMaps

universe u v w

structure FiniteMap (κ : Type u) (β : Type v) where
  lookup : κ→Option β
  keys : Finset κ
  mem_keys : ∀k,k∈keys ↔ (lookup k).isSome

namespace FiniteMap

variable {κ : Type u} {β : Type v}

@[ext] theorem ext {m m' : FiniteMap κ β} (h : ∀k,m.lookup k=m'.lookup k) : m=m' := by
  obtain ⟨lookup,keys,hk⟩ := m
  obtain ⟨lookup',keys',hk'⟩ := m'
  obtain rfl : lookup=lookup' := funext h
  obtain rfl : keys=keys' := by
    ext k
    rw [hk,hk']
  rfl

def empty : FiniteMap κ β where
  lookup _ := none
  keys := ∅
  mem_keys := by simp

@[simp] theorem lookup_empty (k : κ) : (empty : FiniteMap κ β).lookup k=none := rfl

variable {m : FiniteMap κ β}

theorem lookup_eq_none_iff {k : κ} : m.lookup k=none ↔ k∉m.keys := by
  rw [m.mem_keys]
  cases m.lookup k <;> simp

theorem mem_keys_of_lookup {k : κ} {b : β} (h : m.lookup k=some b) : k∈m.keys := by
  rw [m.mem_keys,h]
  rfl

def filter (p : κ → β→Bool) (m : FiniteMap κ β) : FiniteMap κ β where
  lookup k := (m.lookup k).filter (p k)
  keys := m.keys.filter (fun k => ((m.lookup k).filter (p k)).isSome)
  mem_keys k := by
    rw [Finset.mem_filter,m.mem_keys]
    cases m.lookup k <;> simp

@[simp] theorem lookup_filter (p : κ → β→Bool) (m : FiniteMap κ β) (k : κ) :
    (m.filter p).lookup k=(m.lookup k).filter (p k) := rfl

variable {p : κ → β→Bool}

theorem filter_eq_self (h : ∀k b,m.lookup k=some b → p k b) : m.filter p=m := by
  ext1 k
  rw [lookup_filter]
  cases hk : m.lookup k with
  | none => rfl
  | some b => rw [Option.filter_some,if_pos (h k b hk)]

theorem filter_eq_self_of_card (h : (m.filter p).keys.card=m.keys.card) : m.filter p=m := by
  have hall := Finset.card_filter_eq_iff.mp h
  apply filter_eq_self
  intro k b hk
  have hke := hall k (mem_keys_of_lookup hk)
  rw [hk,Option.filter_some] at hke
  split_ifs at hke with hp
  · exact hp
  · simp at hke

def values (m : FiniteMap κ β) : Multiset β := m.keys.val.filterMap m.lookup

variable [DecidableEq κ]

def ofKeys (ks : Finset κ) (g : κ→Option β) : FiniteMap κ β where
  lookup k := if k∈ks then g k else none
  keys := ks.filter (fun k => (g k).isSome)
  mem_keys k := by
    by_cases h : k∈ks <;> simp [h]

@[simp] theorem lookup_ofKeys (ks : Finset κ) (g : κ→Option β) (k : κ) :
    (ofKeys ks g).lookup k=if k∈ks then g k else none := rfl

def insert (m : FiniteMap κ β) (k : κ) (b : β) : FiniteMap κ β where
  lookup k' := if k'=k then some b else m.lookup k'
  keys := Insert.insert k m.keys
  mem_keys k' := by
    rw [Finset.mem_insert,m.mem_keys]
    by_cases h : k'=k <;> simp [h]

@[simp] theorem lookup_insert (m : FiniteMap κ β) (k : κ) (b : β) (k' : κ) :
    (m.insert k b).lookup k'=if k'=k then some b else m.lookup k' := rfl

@[simp] theorem keys_insert (m : FiniteMap κ β) (k : κ) (b : β) :
    (m.insert k b).keys=Insert.insert k m.keys := rfl

theorem lookup_of_insert {k k' : κ} {a b : β}
    (h : (m.insert k a).lookup k'=some b) : k'=k ∧ b=a ∨ k'≠k ∧ m.lookup k'=some b := by
  rw [lookup_insert] at h
  split_ifs at h with hk
  · exact .inl ⟨hk,(Option.some.inj h).symm⟩
  · exact .inr ⟨hk,h⟩

theorem values_insert {k : κ} {a : β} (hk : m.lookup k=some a) (b : β) :
    ∃vs,m.values=a ::ₘ vs ∧ (m.insert k b).values=b ::ₘ vs := by
  have hm := mem_keys_of_lookup hk
  obtain ⟨ks,hks⟩ := Multiset.exists_cons_of_mem (Finset.mem_val.mpr hm)
  have hn : k∉ks := (Multiset.nodup_cons.mp (hks ▸ m.keys.nodup)).1
  refine ⟨ks.filterMap m.lookup,?_,?_⟩
  · rw [values,hks,Multiset.filterMap_cons_some _ _ _ hk]
  · rw [values,keys_insert,Finset.insert_eq_of_mem hm,hks,
      Multiset.filterMap_cons_some (m.insert k b).lookup k ks (if_pos rfl)]
    refine congrArg (b ::ₘ ·) (Quot.inductionOn ks (fun l hn => ?_) hn)
    have hc : ∀k'∈l,(m.insert k b).lookup k'=m.lookup k' :=
      fun k' hk' => if_neg (fun he : k'=k => hn (he ▸ hk'))
    exact congrArg _ (List.filterMap_congr hc)

/-- Replacing a value changes the values only as far as the values differ. -/
theorem map_values_insert {γ : Type w} {k : κ} {a b : β} {f : β → γ}
    (hk : m.lookup k=some a) (hf : f b=f a) : (m.insert k b).values.map f=m.values.map f := by
  obtain ⟨vs,hv,hi⟩ := values_insert hk b
  rw [hv,hi,Multiset.map_cons,Multiset.map_cons,hf]

def erase (m : FiniteMap κ β) (k : κ) : FiniteMap κ β where
  lookup k' := if k'=k then none else m.lookup k'
  keys := m.keys.erase k
  mem_keys k' := by
    rw [Finset.mem_erase,m.mem_keys]
    by_cases h : k'=k <;> simp [h]

@[simp] theorem lookup_erase (m : FiniteMap κ β) (k k' : κ) :
    (m.erase k).lookup k'=if k'=k then none else m.lookup k' := rfl

@[simp] theorem keys_erase (m : FiniteMap κ β) (k : κ) : (m.erase k).keys=m.keys.erase k := rfl

theorem lookup_of_erase {k k' : κ} {b : β}
    (h : (m.erase k).lookup k'=some b) : k'≠k ∧ m.lookup k'=some b := by
  rw [lookup_erase] at h
  split_ifs at h with hk
  exact ⟨hk,h⟩

theorem erase_of_lookup_eq_none {k : κ} (h : m.lookup k=none) : m.erase k=m := by
  ext1 k'
  rw [lookup_erase]
  split_ifs with hk
  · rw [hk,h]
  · rfl

theorem erase_comm (m : FiniteMap κ β) (a b : κ) : (m.erase a).erase b=(m.erase b).erase a := by
  ext1 k
  simp only [lookup_erase]
  split_ifs <;> rfl

instance : RightCommutative (erase : FiniteMap κ β → κ → FiniteMap κ β) := ⟨erase_comm⟩

/-- Removes the entries of a set of keys, one by one. -/
def eraseAll (m : FiniteMap κ β) (ks : Finset κ) : FiniteMap κ β :=
  ks.val.foldl erase m

@[simp] theorem lookup_eraseAll (m : FiniteMap κ β) (ks : Finset κ) (k : κ) :
    (m.eraseAll ks).lookup k=if k∈ks then none else m.lookup k := by
  induction ks using Finset.induction_on generalizing m with
  | empty => rfl
  | insert a ks ha ih =>
    rw [eraseAll,Finset.insert_val_of_notMem ha,Multiset.foldl_cons]
    change ((m.erase a).eraseAll ks).lookup k=_
    rw [ih]
    by_cases hk : k=a <;> simp [hk]

@[simp] theorem keys_eraseAll (m : FiniteMap κ β) (ks : Finset κ) :
    (m.eraseAll ks).keys=m.keys \ ks := by
  ext k
  rw [Finset.mem_sdiff,mem_keys,mem_keys]
  by_cases hk : k∈ks <;> simp [hk]

/-- Writes the entries of one map over another; an entry that fails the test removes the
old one instead. -/
def overlay (m changes : FiniteMap κ β) (keeps : β→Bool) : FiniteMap κ β :=
  ofKeys (m.keys ∪ changes.keys) (fun k =>
    match changes.lookup k with
    | some b => if keeps b then some b else none
    | none => m.lookup k)

theorem lookup_overlay (m cs : FiniteMap κ β) (keeps : β→Bool) (k : κ) :
    (m.overlay cs keeps).lookup k =
      match cs.lookup k with
      | some b => if keeps b then some b else none
      | none => m.lookup k := by
  rw [overlay,lookup_ofKeys]
  split_ifs with hk
  · rfl
  · rw [Finset.mem_union,not_or,← lookup_eq_none_iff,← lookup_eq_none_iff] at hk
    rw [hk.1,hk.2]

end FiniteMap

variable {κ : Type u}

/-- The elements of a multiset in order, listed by insertion. -/
def sortedElements (r : κ → κ→Prop) [DecidableRel r] [IsTrans κ r] [Std.Antisymm r] [Std.Total r]
    (s : Multiset κ) : List κ :=
  Quot.liftOn s (List.insertionSort r) (fun xs ys h =>
    List.Perm.eq_of_pairwise (fun _ _ _ _ => Std.Antisymm.antisymm _ _)
      (List.pairwise_insertionSort r xs) (List.pairwise_insertionSort r ys)
      ((List.perm_insertionSort r xs).trans (h.trans (List.perm_insertionSort r ys).symm)))

theorem coe_sortedElements (r : κ → κ→Prop) [DecidableRel r] [IsTrans κ r] [Std.Antisymm r]
    [Std.Total r] (s : Multiset κ) : (sortedElements r s : Multiset κ)=s :=
  Quot.inductionOn s (fun _ => Quot.sound (List.perm_insertionSort r _))

theorem mem_take_of_pairwise_le [LinearOrder κ] {xs : List κ} (h : xs.Pairwise (·≤·)) {x : κ}
    {n : ℕ} : x∈xs.take n ↔ x∈xs ∧ xs.countP (· < x)<n := by
  induction xs generalizing n with
  | nil => simp
  | cons a xs ih =>
    obtain ⟨ha,h⟩ := List.pairwise_cons.mp h
    cases n with
    | zero => simp
    | succ n =>
      rw [List.take_succ_cons,List.mem_cons,ih h]
      rcases lt_trichotomy a x with hl | rfl | hl
      · simp [hl,hl.ne']
      · have hz : xs.countP (· < a)=0 :=
          List.countP_eq_zero.mpr fun y hy hl => absurd (ha y hy) (not_le_of_gt (by simpa using hl))
        simp [hz]
      · have hn : x∉xs := fun hx => absurd (ha x hx) (not_le_of_gt hl)
        simp [hn,hl.ne]

/-- An element is among the first `n` if fewer than `n` elements are smaller. -/
theorem mem_take_sortedElements [LinearOrder κ] {s : Multiset κ} {x : κ} {n : ℕ} :
    x∈(sortedElements (·≤·) s).take n ↔ x∈s ∧ s.countP (· < x)<n := by
  refine Quot.inductionOn s fun l => ?_
  have hp := List.perm_insertionSort (·≤·) l
  refine (mem_take_of_pairwise_le (List.pairwise_insertionSort (·≤·) l)).trans ?_
  rw [hp.mem_iff,hp.countP_eq]
  rfl

/-- The orders in which loops visit the elements of finite sets. -/
structure Iteration (κ : Type u) where
  order : Finset κ → List κ
  coe_order : ∀s,(order s : Multiset κ)=s.val

variable {s : Finset κ}

theorem Iteration.mem_order (it : Iteration κ) {k : κ} : k∈it.order s ↔ k∈s := by
  rw [← Multiset.mem_coe,it.coe_order,Finset.mem_val]

theorem Iteration.order_empty (it : Iteration κ) :
    it.order ∅ = [] := (Multiset.coe_eq_zero _).mp (it.coe_order ∅)

def FiniteMap.entries {β : Type v} (m : FiniteMap κ β) (iteration : Iteration κ) : List (κ × β) :=
  (iteration.order m.keys).filterMap (fun k => (m.lookup k).map (Prod.mk k))

namespace FiniteMap

theorem mem_entries {β : Type v} {m : FiniteMap κ β} {it : Iteration κ} {k : κ}
    {b : β} : (k,b)∈m.entries it ↔ m.lookup k=some b := by
  rw [entries,List.mem_filterMap]
  constructor
  · rintro ⟨k',-,hk⟩
    obtain ⟨b',hb,heq⟩ := Option.map_eq_some_iff.mp hk
    obtain ⟨rfl,rfl⟩ := Prod.mk.inj heq
    exact hb
  · intro hb
    refine ⟨k,it.mem_order.mpr (mem_keys_of_lookup hb),?_⟩
    rw [hb,Option.map_some]

/-- Collecting entries whose keys determine their values. -/
theorem lookup_foldl_insert {α : Type w} {β : Type v} [DecidableEq κ] {f : α → κ}
    {g : α → β} {l : List α} (hdet : ∀a∈l,∀a'∈l,f a=f a' → g a=g a') {k : κ} {b : β} :
    (l.foldl (fun m a => m.insert (f a) (g a)) (empty : FiniteMap κ β)).lookup k = some b ↔
      ∃a∈l,f a=k ∧ g a=b := by
  induction l using List.reverseRecOn with
  | nil => simp
  | append_singleton l a ih =>
    have hb := ih (fun x hx y hy =>
      hdet x (List.mem_append_left _ hx) y (List.mem_append_left _ hy))
    rw [List.foldl_append,List.foldl_cons,List.foldl_nil,lookup_insert]
    split_ifs with hk
    · constructor
      · intro heq
        exact ⟨a,by simp,hk.symm,Option.some.inj heq⟩
      · rintro ⟨x,hx,hfx,hgx⟩
        rw [← hgx,hdet a (by simp) x hx (hk.symm.trans hfx.symm)]
    · rw [hb]
      constructor
      · rintro ⟨x,hx,hfx⟩
        exact ⟨x,List.mem_append_left _ hx,hfx⟩
      · rintro ⟨x,hx,hfx,hgx⟩
        obtain hx | hx := List.mem_append.mp hx
        · exact ⟨x,hx,hfx,hgx⟩
        · rw [List.mem_singleton.mp hx] at hfx
          exact absurd hfx.symm hk

end FiniteMap

def Iteration.sorted (κ : Type u) [LinearOrder κ] : Iteration κ where
  order s := sortedElements (·≤·) s.val
  coe_order s := coe_sortedElements _ s.val

open FiniteMap Finset Option

variable {γ : Type w} [DecidableEq γ] (f : κ → γ)

def groupBy (s : Finset κ) : FiniteMap γ (Finset κ) where
  lookup g := if (s.filter (f · = g)).Nonempty then some (s.filter (f · = g)) else none
  keys := s.image f
  mem_keys g := by
    have hmem : g∈s.image f ↔ (s.filter (f · = g)).Nonempty := by
      simp [filter_nonempty_iff]
    rw [hmem]
    by_cases h : (s.filter (f · = g)).Nonempty <;> simp [h]

variable {f}

theorem lookup_groupBy (s : Finset κ) (g : γ) :
    (groupBy f s).lookup g =
      if (s.filter (f · = g)).Nonempty then some (s.filter (f · = g)) else none := rfl

theorem getD_lookup_groupBy (s : Finset κ) (g : γ) :
    ((groupBy f s).lookup g).getD ∅ = s.filter (f · = g) := by
  rw [lookup_groupBy]
  split_ifs with h
  · rfl
  · exact (not_nonempty_iff_eq_empty.mp h).symm

theorem nonempty_of_lookup_groupBy {g : γ} {group : Finset κ}
    (h : (groupBy f s).lookup g=some group) : group.Nonempty := by
  rw [lookup_groupBy] at h
  split_ifs at h with hne
  obtain rfl := some.inj h
  exact hne

theorem mem_getD_lookup_groupBy {g : γ} {k : κ} :
    k∈((groupBy f s).lookup g).getD ∅ ↔ k∈s ∧ f k=g := by
  rw [getD_lookup_groupBy,mem_filter]

theorem groupBy_empty : groupBy f ∅ = empty := by
  ext1 g
  simp [lookup_groupBy]

variable [DecidableEq κ]

def addToGroup (f : κ → γ) (m : FiniteMap γ (Finset κ)) (k : κ) : FiniteMap γ (Finset κ) :=
  m.insert (f k) (Insert.insert k ((m.lookup (f k)).getD ∅))

def removeFromGroup (f : κ → γ) (m : FiniteMap γ (Finset κ)) (k : κ) : FiniteMap γ (Finset κ) :=
  match m.lookup (f k) with
  | none => m
  | some group => if group.erase k=∅ then m.erase (f k) else m.insert (f k) (group.erase k)

theorem lookup_removeFromGroup (m : FiniteMap γ (Finset κ)) (k : κ) (g : γ) :
    (removeFromGroup f m k).lookup g =
      if g=f k then (m.lookup g).bind (fun group =>
        if group.erase k=∅ then none else some (group.erase k))
      else m.lookup g := by
  rw [removeFromGroup]
  by_cases hg : g=f k
  · subst hg
    cases hm : m.lookup (f k) with
    | none => simp [hm]
    | some group =>
      by_cases he : group.erase k=∅ <;> simp [he]
  · cases m.lookup (f k) with
    | none => simp [hg]
    | some group =>
      by_cases he : group.erase k=∅ <;> simp [he,hg]

theorem addToGroup_groupBy (s : Finset κ) (k : κ) :
    addToGroup f (groupBy f s) k=groupBy f (Insert.insert k s) := by
  ext1 g
  rw [addToGroup,lookup_insert,getD_lookup_groupBy,lookup_groupBy,lookup_groupBy,filter_insert]
  by_cases hg : g=f k
  · subst hg
    simp
  · simp [hg,Ne.symm hg]

theorem removeFromGroup_groupBy (s : Finset κ) (k : κ) :
    removeFromGroup f (groupBy f s) k=groupBy f (s.erase k) := by
  ext1 g
  rw [lookup_removeFromGroup,lookup_groupBy,lookup_groupBy,filter_erase]
  by_cases hg : g=f k
  · by_cases hne : (s.filter (f · = g)).Nonempty
    · by_cases he : (s.filter (f · = g)).erase k=∅
      · simp [hg ▸ he,hg]
      · simp only [if_pos hg,if_pos hne,bind_some,if_neg he,if_pos (nonempty_iff_ne_empty.mpr he)]
    · have he := not_nonempty_iff_eq_empty.mp hne
      simp [hg ▸ he,hg]
  · have hnot : k∉s.filter (f · = g) := by simp [Ne.symm hg]
    rw [if_neg hg,erase_eq_of_notMem hnot]

instance : RightCommutative (addToGroup f : FiniteMap γ (Finset κ) → κ → _) where
  right_comm m a b := by
    ext1 g
    simp only [addToGroup,lookup_insert]
    by_cases hab : f a=f b
    · simp only [hab,if_true,getD_some,insert_comm a b]
      split_ifs <;> rfl
    · by_cases ha : g=f a
      · simp [ha,hab]
      · simp [ha,Ne.symm hab]

instance : RightCommutative (removeFromGroup f : FiniteMap γ (Finset κ) → κ → _) where
  right_comm m a b := by
    ext1 g
    simp only [lookup_removeFromGroup]
    by_cases ha : g=f a
    · by_cases hb : g=f b
      · rw [if_pos hb,if_pos ha,if_pos ha,if_pos hb]
        cases m.lookup g with
        | none => rfl
        | some group =>
          have hcomm : (group.erase a).erase b=(group.erase b).erase a :=
            erase_right_comm
          by_cases hea : group.erase a=∅
          · by_cases heb : group.erase b=∅
            · simp [hea,heb]
            · simp [hea,heb,← hcomm]
          · by_cases heb : group.erase b=∅
            · simp [hea,heb,hcomm]
            · simp [hea,heb,hcomm]
      · rw [if_neg hb,if_pos ha,if_pos ha,if_neg hb]
    · rw [if_neg ha,if_neg ha]

def addAllToGroups (f : κ → γ) (m : FiniteMap γ (Finset κ)) (ks : Finset κ) :
    FiniteMap γ (Finset κ) :=
  ks.val.foldl (addToGroup f) m

def removeAllFromGroups (f : κ → γ) (m : FiniteMap γ (Finset κ)) (ks : Finset κ) :
    FiniteMap γ (Finset κ) :=
  ks.val.foldl (removeFromGroup f) m

theorem addAllToGroups_groupBy (s ks : Finset κ) :
    addAllToGroups f (groupBy f s) ks=groupBy f (s ∪ ks) := by
  induction ks using Finset.induction_on generalizing s with
  | empty => rw [union_empty]; rfl
  | insert a ks ha ih =>
    rw [addAllToGroups,insert_val_of_notMem ha,Multiset.foldl_cons,addToGroup_groupBy]
    change addAllToGroups f (groupBy f (Insert.insert a s)) ks=_
    rw [ih,insert_union,union_insert]

theorem removeAllFromGroups_groupBy (s ks : Finset κ) :
    removeAllFromGroups f (groupBy f s) ks=groupBy f (s \ ks) := by
  induction ks using Finset.induction_on generalizing s with
  | empty => rw [sdiff_empty]; rfl
  | insert a ks ha ih =>
    rw [removeAllFromGroups,insert_val_of_notMem ha,Multiset.foldl_cons,removeFromGroup_groupBy]
    change removeAllFromGroups f (groupBy f (s.erase a)) ks=_
    rw [ih,sdiff_insert,erase_sdiff_comm]

theorem addAllToGroups_empty (s : Finset κ) : addAllToGroups f empty s=groupBy f s := by
  rw [← groupBy_empty,addAllToGroups_groupBy,empty_union]

end OxideSfu.FiniteMaps
