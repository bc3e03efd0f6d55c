import Mathlib.Data.Nat.Digits.Lemmas

/-!
# Digits from one base to another

A number that is given by its digits, the highest one first, is written in another base by dividing
the digits in place until nothing is left. Zeros in front are no part of the number: they are kept
one for one, so that the way back returns the same digits.
-/

namespace OxideSfu.RadixConversion

open List Nat

/-- What is accumulated at each digit when a number in base `b` is divided by `k`. -/
def accumulate (b k : ℕ) : ℕ → List ℕ → List ℕ
  | _, [] => []
  | r, d::word => (r*b+d)::accumulate b k ((r*b+d)%k) word

/-- The divisions until only zeros are left, as far as the fuel reaches. -/
def divisions (b k : ℕ) : ℕ → List ℕ → List (List ℕ)
  | 0, _ => []
  | _, [] => []
  | fuel+1, d::word =>
    let accumulated := accumulate b k 0 (d::word)
    accumulated::divisions b k fuel ((accumulated.map (· / k)).dropWhile (· = 0))

def value (b : ℕ) (digits : List ℕ) : ℕ := ofDigits b digits.reverse

/-- A number is divided less often than it is great. -/
def divisionsOf (b k : ℕ) (digits : List ℕ) : List (List ℕ) :=
  let rest := digits.dropWhile (· = 0)
  divisions b k (value b rest) rest

def convert (b k : ℕ) (digits : List ℕ) : List ℕ :=
  ((divisionsOf b k digits).map (getLastD · 0%k)++
    replicate (digits.takeWhile (· = 0)).length 0).reverse

variable {b k : ℕ} {word : List ℕ}

theorem value_cons (d : ℕ) : value b (d::word)=d*b^word.length+value b word := by
  rw [value,reverse_cons,ofDigits_append,length_reverse,ofDigits_singleton,value]
  ring

theorem value_dropWhile : value b (word.dropWhile (· = 0))=value b word := by
  induction word with
  | nil => rfl
  | cons d word ih =>
    by_cases hd : d=0
    · rw [dropWhile_cons_of_pos (by simpa using hd),ih,value_cons,hd,zero_mul,zero_add]
    · rw [dropWhile_cons_of_neg (by simpa using hd)]

theorem getLastD_mod (l : List ℕ) (r : ℕ) : l.getLastD r%k=l.getLastD (r%k)%k := by
  cases l with
  | nil => exact (mod_mod r k).symm
  | cons => rfl

variable {r : ℕ}

theorem length_accumulate : (accumulate b k r word).length=word.length := by
  induction word generalizing r with
  | nil => rfl
  | cons d word ih => rw [accumulate,length_cons,ih,length_cons]

/-- A division carries `r` in front of the digits. -/
theorem accumulate_spec (hr : r<k) :
    k*value b ((accumulate b k r word).map
      (· / k))+(accumulate b k r word).getLastD r%k= r*b^word.length+value b word := by
  induction word generalizing r with
  | nil => simpa [accumulate,value] using mod_eq_of_lt hr
  | cons d word ih =>
    have hi := ih (mod_lt (r*b+d) (zero_lt_of_lt hr))
    have hd := div_add_mod (r*b+d) k
    rw [accumulate,map_cons,value_cons,value_cons,length_map,length_accumulate,getLastD_cons,
      getLastD_mod,length_cons]
    rw [mul_add,add_assoc,hi,← mul_assoc,← add_assoc,← add_mul,hd]
    ring

theorem division (hk : 0<k) : value b word/k=value b ((accumulate b k 0 word).map (· / k)) ∧
    value b word%k=(accumulate b k 0 word).getLastD 0%k := by
  have hs := @accumulate_spec b k word 0 hk
  refine (Nat.div_mod_unique hk).mpr ⟨?_,Nat.mod_lt _ hk⟩
  omega

theorem accumulate_lt (hr : r<k) (hd : ∀d∈word,d<b) : ∀a∈accumulate b k r word,a<k*b := by
  induction word generalizing r with
  | nil => simp [accumulate]
  | cons d word ih =>
    rw [forall_mem_cons] at hd
    rw [accumulate,forall_mem_cons]
    refine ⟨?_,ih (Nat.mod_lt _ (Nat.zero_lt_of_lt hr)) hd.2⟩
    calc r*b+d < r*b+b := Nat.add_lt_add_left hd.1 _
      _=(r+1)*b := by ring
      _≤k*b := Nat.mul_le_mul_right b hr

theorem head_dropWhile (l : List ℕ) : (l.dropWhile (· = 0)).head?≠some 0 := by
  intro h
  have hn := head?_dropWhile_not (· = 0) l
  rw [h] at hn
  simp at hn

theorem digits_divisions (hb : 0<b) (hk : 1<k) {fuel : ℕ} (hf : value b word≤fuel)
    (hd : word.head?≠some 0) :
    (divisions b k fuel word).map (getLastD · 0%k)=digits k (value b word) := by
  induction fuel generalizing word with
  | zero =>
    rw [le_zero.mp hf,digits_zero]
    rfl
  | succ fuel ih =>
    cases word with
    | nil => simp [divisions,value]
    | cons d word =>
      have hpos : 0<value b (d::word) := by
        rw [value_cons]
        have : 0<d := pos_of_ne_zero fun h => hd (h ▸ rfl)
        positivity
      obtain ⟨hq,hm⟩ := @division b k (d::word) (zero_lt_of_lt hk)
      have hlt := div_lt_self hpos hk
      rw [digits_def' hk hpos,divisions,map_cons,hm,hq,← value_dropWhile]
      rw [hq,← value_dropWhile] at hlt
      rw [ih (by omega) (head_dropWhile _)]

theorem exists_zeros (word : List ℕ) : ∃n l,word=replicate n 0++l ∧ l.head?≠some 0 := by
  induction word with
  | nil => exact ⟨0,[],rfl,by simp⟩
  | cons d word ih =>
    obtain ⟨n,l,rfl,hl⟩ := ih
    by_cases hd : d=0
    · exact ⟨n+1,l,by rw [hd]; rfl,hl⟩
    · exact ⟨0,_,rfl,by simpa using hd⟩

section

variable {l : List ℕ} (hl : l.head?≠some 0) (n : ℕ)

include hl

theorem span_zeros : (replicate n 0++l).takeWhile (· = 0)=replicate n 0 ∧
    (replicate n 0++l).dropWhile (· = 0)=l := by
  induction n with
  | zero => cases l <;> simp_all
  | succ n ih => simp [replicate_succ,ih]

theorem convert_zeros (hb : 0<b) (hk : 1<k) :
    convert b k (replicate n 0++l)=replicate n 0++(digits k (value b l)).reverse := by
  obtain ⟨ht,hd⟩ := span_zeros hl n
  rw [convert,divisionsOf,ht,hd,digits_divisions hb hk le_rfl hl,reverse_append,length_replicate,
    reverse_replicate]

end

theorem convert_lt (hb : 0<b) (hk : 1<k) : ∀d∈convert b k word,d<k := by
  obtain ⟨n,l,rfl,hl⟩ := exists_zeros word
  intro d h
  rw [convert_zeros hl n hb hk,mem_append,mem_reverse] at h
  obtain h | h := h
  · rw [eq_of_mem_replicate h]
    exact zero_lt_of_lt hk
  · exact digits_lt_base hk h

/-- The way back returns the digits. -/
theorem convert_convert (hb : 1<b) (hk : 1<k) (h : ∀d∈word,d<b) :
    convert k b (convert b k word)=word := by
  obtain ⟨n,l,rfl,hl⟩ := exists_zeros word
  have hd : (digits k (value b l)).reverse.head?≠some 0 := by
    intro h0
    rw [head?_reverse,getLast?_eq_some_iff] at h0
    obtain ⟨ys,hys⟩ := h0
    have hne : value b l≠0 := fun h => by simp [h] at hys
    exact getLast_digit_ne_zero k hne (by simp [hys])
  have hv : digits b (value b l)=l.reverse := by
    refine digits_ofDigits b hb _ (fun d hm => ?_) (fun hne => ?_)
    · exact h d (mem_append_right _ (mem_reverse.mp hm))
    · rw [getLast_reverse]
      exact fun h0 => hl (h0 ▸ head?_eq_some_head _)
  rw [convert_zeros hl n (zero_lt_of_lt hb) hk,convert_zeros hd n (zero_lt_of_lt hk) hb,
    value,reverse_reverse,ofDigits_digits,hv,reverse_reverse]

/-- Nothing that is accumulated exceeds the product of the bases. -/
theorem accumulated_lt (hk : 0<k) {fuel : ℕ} (h : ∀d∈word,d<b) :
    ∀l∈divisions b k fuel word,∀a∈l,a<k*b := by
  induction fuel generalizing word with
  | zero => simp [divisions]
  | succ fuel ih =>
    cases word with
    | nil => simp [divisions]
    | cons d word =>
      have ha := accumulate_lt hk h
      rw [divisions,forall_mem_cons]
      refine ⟨ha,ih fun q hq => ?_⟩
      obtain ⟨a,hm,rfl⟩ := mem_map.mp ((dropWhile_sublist _).subset hq)
      exact Nat.div_lt_of_lt_mul (ha a hm)

end OxideSfu.RadixConversion
