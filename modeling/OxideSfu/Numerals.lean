import Mathlib.Algebra.Group.Nat.Defs
import Mathlib.Data.List.Basic
import Mathlib.Order.Nat

/-!
# Padded hexadecimal numerals

Identifiers are often made of numbers with leading zeros. A padded numeral determines its number,
numbers that fit have numerals of one length, so that two of them in a row can be told apart, and
texts of one length are ordered as the numbers are.
-/

namespace OxideSfu.Numerals

def digitValue (c : Char) : ℕ :=
  if c.isDigit then c.toNat - '0'.toNat
  else if 'a'≤c ∧ c ≤ 'f' then c.toNat - 'a'.toNat+10
  else 0

theorem digitValue_digitChar {d : ℕ} (h : d<16) : digitValue d.digitChar=d := by
  have hall : ∀d<16,digitValue (Nat.digitChar d)=d := by decide
  exact hall d h

def value (digits : List Char) : ℕ :=
  digits.foldl (fun n c => n*16+digitValue c) 0

theorem value_concat (digits : List Char) (c : Char) :
    value (digits++[c])=value digits*16+digitValue c := by
  rw [value,List.foldl_append]
  rfl

theorem value_toDigits (n : ℕ) : value (Nat.toDigits 16 n)=n := by
  induction n using Nat.strongRecOn with
  | ind n ih =>
    by_cases hs : n<16
    · rw [Nat.toDigits_of_lt_base hs]
      exact (Nat.zero_add _).trans (digitValue_digitChar hs)
    · have hl := digitValue_digitChar (Nat.mod_lt n (by decide : 0<16))
      rw [Nat.toDigits_of_base_le (by decide) (Nat.not_lt.mp hs),value_concat,
        ih (n / 16) (by omega)]
      omega

theorem value_replicate_append (zeros : ℕ) (digits : List Char) :
    value (List.replicate zeros '0'++digits)=value digits := by
  induction zeros with
  | zero => rfl
  | succ zeros ih => exact ih

def padded (width n : ℕ) : List Char :=
  List.replicate (width-(Nat.toDigits 16 n).length) '0'++Nat.toDigits 16 n

theorem value_padded (width n : ℕ) : value (padded width n)=n := by
  rw [padded,value_replicate_append,value_toDigits]

theorem padded_injective (width : ℕ) : Function.Injective (padded width) := by
  intro m n h
  rw [← value_padded width m,h,value_padded]

variable {width n : ℕ}

theorem length_padded (hw : 0<width) (h : n<16^width) : (padded width n).length=width := by
  have hd := (Nat.length_toDigits_le_iff (by decide : 1<16) hw).mpr h
  rw [padded,List.length_append,List.length_replicate]
  omega

theorem padded_append_padded_inj {width' m m' n' : ℕ} (hw : 0<width) (hm : m<16^width)
    (hn : n<16^width) (h : padded width m++padded width' m'=padded width n++padded width' n') :
    m=n ∧ m'=n' := by
  have hl : (padded width m).length=(padded width n).length := by
    rw [length_padded hw hm,length_padded hw hn]
  obtain ⟨hf,hs⟩ := List.append_inj h hl
  exact ⟨padded_injective width hf,padded_injective width' hs⟩

theorem digitChar_lt {d e : ℕ} (h : d<e) (he : e<16) : d.digitChar<e.digitChar := by
  have hall : ∀e<16,∀d<e,Nat.digitChar d<Nat.digitChar e := by decide
  exact hall e he d h

/-- A comparison is decided in texts of one length before what follows them. -/
theorem append_lt_append {l l' : List Char} (h : l<l') (hle : l.length=l'.length)
    (rest rest' : List Char) : l++rest<l'++rest' := by
  induction l generalizing l' with
  | nil =>
    obtain rfl := List.length_eq_zero_iff.mp hle.symm
    exact absurd h (List.lt_irrefl _)
  | cons c l ih =>
    cases l' with
    | nil => cases hle
    | cons c' l' =>
      rw [List.cons_append,List.cons_append,List.cons_lt_cons_iff]
      obtain hc | ⟨hc,hl⟩ := List.cons_lt_cons_iff.mp h
      · exact .inl hc
      · exact .inr ⟨hc,ih hl (Nat.succ.inj hle)⟩

theorem padded_succ (hw : 0<width) (n : ℕ) :
    padded (width+1) n=padded width (n / 16)++[(n % 16).digitChar] := by
  by_cases hs : n<16
  · have hz : padded width 0=List.replicate width '0' := by
      obtain ⟨width,rfl⟩ := Nat.exists_eq_succ_of_ne_zero hw.ne'
      exact List.replicate_succ'.symm
    rw [Nat.div_eq_of_lt hs,Nat.mod_eq_of_lt hs,hz,padded,Nat.toDigits_of_lt_base hs]
    rfl
  · rw [padded,padded,Nat.toDigits_of_base_le (by decide) (Nat.not_lt.mp hs),List.append_assoc]
    congr 2
    simp

theorem padded_lt_padded {m : ℕ} (hw : 0<width) (h : m<n) (hn : n<16^width) :
    padded width m<padded width n := by
  induction width,hw using Nat.le_induction generalizing m n with
  | base =>
    have hone : ∀k<16,padded 1 k=[k.digitChar] := by
      intro k hk
      rw [padded,Nat.toDigits_of_lt_base hk]
      rfl
    rw [hone m (by omega),hone n (by omega),List.cons_lt_cons_iff]
    exact .inl (digitChar_lt h (by omega))
  | succ width hw ih =>
    rw [padded_succ hw,padded_succ hw]
    have hf : n / 16<16^width := by
      omega
    -- the numbers differ before the last digit, or in the last digit alone
    by_cases hla : m / 16=n / 16
    · rw [hla]
      refine List.append_left_lt (List.cons_lt_cons_iff.mpr (.inl ?_))
      exact digitChar_lt (by omega) (Nat.mod_lt n (by decide))
    · have hl : m / 16<n / 16 := by omega
      refine append_lt_append (ih hl hf) ?_ _ _
      rw [length_padded hw (hl.trans hf),length_padded hw hf]

end OxideSfu.Numerals
