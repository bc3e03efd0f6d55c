import Mathlib.Data.Finset.Card
import Mathlib.Data.Int.ModEq
import OxideSfu.StepRuns

/-!
# Bounded windows over a growing log

The last `n` entries of a log are `List.rtake`: how the window moves under one append, and how long
an entry stays in it. The last two sections are about logs that take a key only when the window does
not hold it, and about windows kept in a ring of slots.
-/

namespace OxideSfu.RecencyWindow

universe u v

variable {α : Type u} {β : Type v} {n : ℕ} {xs : List α} {x : α}

theorem mem_of_mem_rtake (h : x∈xs.rtake n) : x∈xs := List.mem_of_mem_drop h

theorem rtake_of_length_le (h : xs.length≤n) : xs.rtake n=xs := by
  simp [List.rtake,Nat.sub_eq_zero_of_le h]

theorem length_rtake (n : ℕ) (xs : List α) : (xs.rtake n).length=min n xs.length := by
  simp only [List.rtake,List.length_drop]
  omega

theorem map_rtake (f : α → β) (n : ℕ) (xs : List α) : (xs.rtake n).map f=(xs.map f).rtake n := by
  simp [List.rtake,List.map_drop]

theorem rtake_rtake_concat (n : ℕ) (xs : List α) (x : α) :
    (xs.rtake n++[x]).rtake n=(xs++[x]).rtake n := by
  cases n with
  | zero => simp
  | succ n =>
    simp only [List.rtake_concat_succ]
    congr 1
    simp only [List.rtake,List.length_drop,List.drop_drop]
    congr 1
    omega

/-- A window longer than one forgets at most its oldest entry. -/
theorem rtake_cons_of_le (x : α) (h : n≤xs.length) : (x::xs).rtake n=xs.rtake n := by
  have hlen : (x::xs).length-n=xs.length-n+1 := by
    rw [List.length_cons]
    omega
  rw [List.rtake,hlen,List.drop_succ_cons,List.rtake]

theorem nodup_rtake (h : xs.Nodup) : (xs.rtake n).Nodup := h.sublist (List.drop_sublist _ _)

theorem rtake_sublist_rtake {m : ℕ} (h : m≤n) (xs : List α) :
    (xs.rtake m).Sublist (xs.rtake n) := by
  exact List.drop_sublist_drop_left _ (by omega)

theorem mem_rtake_iff_getElem? : x∈xs.rtake n ↔ ∃i,xs.length ≤ i+n ∧ xs[i]?=some x := by
  constructor
  · intro h
    obtain ⟨j,hj⟩ := List.mem_iff_getElem?.mp h
    rw [List.rtake,List.getElem?_drop] at hj
    exact ⟨xs.length-n+j,by omega,hj⟩
  · intro hp
    obtain ⟨i,hi,hx⟩ := hp
    apply List.mem_iff_getElem?.mpr
    refine ⟨i-(xs.length-n),?_⟩
    rw [List.rtake,List.getElem?_drop]
    have hadd : xs.length-n+(i-(xs.length-n))=i := by omega
    rw [hadd,hx]

variable {log : List α}

open StepRuns List

variable {κ : Type v} [DecidableEq κ] (key : α → κ) (n : ℕ)

def recordFresh (log : List α) (x : α) : List α :=
  if key x∈(log.map key).rtake n then log else log++[x]

def FreshKeys (keys : List κ) : Prop :=
  AtEveryStep (fun pre k => k∉pre.rtake n) keys

variable {key n}

theorem FreshKeys.recordFresh (h : FreshKeys n (log.map key)) (x : α) :
    FreshKeys n ((recordFresh key n log x).map key) := by
  rw [RecencyWindow.recordFresh]
  by_cases hx : key x∈(log.map key).rtake n
  · rw [if_pos hx]
    exact h
  · rw [if_neg hx,map_append]
    exact (atEveryStep_concat _ _ _).mpr ⟨h,hx⟩

theorem FreshKeys.foldl_recordFresh (h : FreshKeys n (log.map key)) :
    log.foldl (RecencyWindow.recordFresh key n) []=log := by
  induction log using reverseRecOn with
  | nil => rfl
  | append_singleton log x ih =>
    rw [map_append] at h
    obtain ⟨hlog,hx⟩ := (atEveryStep_concat _ _ _).mp h
    rw [foldl_append,foldl_cons,foldl_nil,ih hlog,RecencyWindow.recordFresh,if_neg hx]

omit [DecidableEq κ] in
theorem FreshKeys.nodup_rtake {keys : List κ} (h : FreshKeys n keys) :
    (keys.rtake (n + 1)).Nodup := by
  induction keys using reverseRecOn with
  | nil => simp
  | append_singleton keys k ih =>
    obtain ⟨hke,hk⟩ := (atEveryStep_concat _ _ _).mp h
    have hsub := rtake_sublist_rtake (Nat.le_succ n) keys
    rw [rtake_concat_succ,← concat_eq_append]
    exact List.Nodup.concat hk ((ih hke).sublist hsub)

/-- A key leaves the window only after `n` other keys have been taken. -/
theorem FreshKeys.length_lt_of_card_lt {pre post : List κ} {k : κ}
    (h : FreshKeys n (pre++k::post)) (hc : (post.toFinset.erase k).card<n) :
    post.length<n := by
  by_contra hlen
  have ht : (post.take n).length=n := length_take_of_le (Nat.le_of_not_lt hlen)
  have hs : pre++k::post=(pre++k::post.take n)++post.drop n := by simp
  have hp : FreshKeys n (pre++k::post.take n) := by
    rw [hs] at h
    exact h.of_append
  have hw : (pre++k::post.take n).rtake (n+1)=k::post.take n := by
    have hd : (pre++k::post.take n).length-(n+1)=pre.length := by
      rw [length_append,length_cons]
      omega
    rw [rtake,hd,drop_left]
  have hn : (k::post.take n).Nodup := hw ▸ hp.nodup_rtake
  obtain ⟨hk,hta⟩ := nodup_cons.mp hn
  have hsub : (post.take n).toFinset⊆post.toFinset.erase k := by
    intro j hj
    rw [mem_toFinset] at hj
    refine Finset.mem_erase.mpr ⟨fun he => hk (he ▸ hj),?_⟩
    exact mem_toFinset.mpr (mem_of_mem_take hj)
  have hle := Finset.card_le_card hsub
  rw [toFinset_card_of_nodup hta] at hle
  omega

variable {N : ℕ}

/-- A ring of slots holds the newest entries of a log whose `k`-th entry was written at
slot `base + k` modulo the size. -/
def RingHolds (base : ℕ) (log : List α) (slots : Fin N→Option α) : Prop :=
  ∀i x,slots i=some x ↔
    ∃k,log[k]?=some x ∧ log.length≤k+N ∧ (base+k) % N=i

theorem add_mod_ne {base j k : ℕ} (hjk : j<k) (hk : k<j+N) : (base+j) % N≠(base+k) % N := by
  intro h
  have hdvd : N ∣ (base+k)-(base+j) := (Nat.modEq_iff_dvd' (by omega)).mp h
  have hle := Nat.le_of_dvd (by omega) hdvd
  omega

/-- Writing the next entry at the next slot forgets exactly the entry it displaces. -/
theorem RingHolds.concat {base : ℕ} {slots : Fin N→Option α}
    (h : RingHolds base log slots) (x : α) {i : Fin N} (hi : (base+log.length) % N=i) :
    RingHolds base (log++[x]) (Function.update slots i (some x)) := by
  intro j y
  by_cases hj : j=i
  · subst hj
    rw [Function.update_self]
    constructor
    · intro hy
      obtain rfl := Option.some.inj hy
      exact ⟨log.length,by simp,by rw [List.length_append,List.length_singleton]; omega,hi⟩
    · intro hh
      obtain ⟨k,hk,hlen,hs⟩ := hh
      rw [List.length_append,List.length_singleton] at hlen
      have hkle : k<(log++[x]).length := (List.getElem?_eq_some_iff.mp hk).1
      rw [List.length_append,List.length_singleton] at hkle
      -- An older entry in reach would sit in another slot.
      have hl : k=log.length := by
        by_contra hne
        have ha : (base+k) % N≠(base+log.length) % N := add_mod_ne (by omega) (by omega)
        exact ha (hs.trans hi.symm)
      subst hl
      simpa using hk
  · rw [Function.update_of_ne hj,h]
    have hne : (j : ℕ)≠i := fun he => hj (Fin.ext he)
    constructor
    · intro hh
      obtain ⟨k,hk,hlen,hs⟩ := hh
      have hklt : k<log.length := (List.getElem?_eq_some_iff.mp hk).1
      refine ⟨k,by rw [List.getElem?_append_left hklt]; exact hk,?_,hs⟩
      -- The only entry that leaves the window is a whole revolution old.
      have hf : log.length≠k+N := by
        intro hf
        apply hne
        rw [← hs,← hi,hf,← Nat.add_assoc,Nat.add_mod_right]
      rw [List.length_append,List.length_singleton]
      omega
    · intro hh
      obtain ⟨k,hk,hlen,hs⟩ := hh
      rw [List.length_append] at hlen
      by_cases hklt : k<log.length
      · rw [List.getElem?_append_left hklt] at hk
        exact ⟨k,hk,by omega,hs⟩
      · have hkle : k<(log++[x]).length := (List.getElem?_eq_some_iff.mp hk).1
        rw [List.length_append,List.length_singleton] at hkle
        obtain rfl : k=log.length := by omega
        exact absurd (hs.symm.trans hi) hne

end OxideSfu.RecencyWindow
