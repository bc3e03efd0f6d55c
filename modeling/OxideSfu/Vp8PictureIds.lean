import Mathlib.Algebra.Group.Int.Defs
import OxideSfu.StepRuns

/-!
# Extension of VP8 picture ids

Packets carry the low 15 or 7 bits of a picture id; `Vp8PictureIdWrapHandler` in
`media/vp8_munger.rs` extends them. Its `i32` numbers are integers here, since fewer than `2^30` ids
pass. -/

namespace OxideSfu.Vp8

open StepRuns List

structure Vp8PictureIdWrapHandler where
  maxPictureId : ℤ
  maxMBit : Bool
  (totalWrap lastWrap : ℤ)

namespace Vp8PictureIdWrapHandler

variable (h : Vp8PictureIdWrapHandler) (extPictureId : ℤ) (pictureId : UInt16) (mBit : Bool)

def init : Vp8PictureIdWrapHandler := ⟨extPictureId,mBit,0,0⟩

def updateMaxPictureId :
    Vp8PictureIdWrapHandler := {h with maxPictureId := extPictureId,maxMBit := mBit}

def idRange : ℤ := if mBit then 2^15 else 2^7

def isWrapping (range val1 val2 : ℤ) : Bool := val2<val1 ∧ val1-val2>range/2

/-- What `unwrap` and `unwrap_and_update` compute: the extended id and the wrap that it shows. -/
def extend : ℤ × ℤ :=
  let maxPictureId :=
    if h.maxPictureId>0 then h.maxPictureId % idRange h.maxMBit else h.maxPictureId
  let newPictureId := (pictureId.toNat : ℤ) % idRange mBit
  if h.totalWrap>0 ∧ h.maxPictureId+h.lastWrap/2<newPictureId+h.totalWrap then
    (newPictureId+h.totalWrap-h.lastWrap,0)
  else
    let wrap := if isWrapping
      (idRange h.maxMBit) maxPictureId newPictureId then idRange h.maxMBit else 0
    (newPictureId+h.totalWrap+wrap,wrap)

def unwrap : ℤ := (h.extend pictureId mBit).1

def unwrapAndUpdate : ℤ × Vp8PictureIdWrapHandler :=
  let (extPictureId,wrap) := h.extend pictureId mBit
  (extPictureId,{h with
    totalWrap := h.totalWrap+wrap,lastWrap := if wrap≠0 then wrap else h.lastWrap})

end Vp8PictureIdWrapHandler

open Vp8PictureIdWrapHandler

/-- How a packet passes: in order, or late with or without an update of the wraps. -/
inductive Passage | inOrder | late (updates : Bool) deriving DecidableEq

def headerId (mBit : Bool) (trueId : ℤ) : UInt16 := .ofNat (trueId % idRange mBit).toNat

def pass (mBit : Bool) (h : Vp8PictureIdWrapHandler) (id : ℤ × Passage) :
    ℤ × Vp8PictureIdWrapHandler :=
  let header := headerId mBit id.1
  match id.2 with
  | .inOrder =>
    let (ext,h) := h.unwrapAndUpdate header mBit
    (ext,h.updateMaxPictureId ext mBit)
  | .late true => h.unwrapAndUpdate header mBit
  | .late false => (h.unwrap header mBit,h)

def highest (first : ℤ) (ids : List (ℤ × Passage)) : ℤ :=
  ids.foldl (fun high id => if id.2 = .inOrder then id.1 else high) first

/-- The id is closer than half the range to the highest one, on the side where it belongs. -/
def Near (mBit : Bool) (first : ℤ) (ids : List (ℤ × Passage)) (id : ℤ × Passage) : Prop :=
  let distance := id.1-highest first ids
  2*distance.natAbs < idRange mBit ∧ id.1-first<2^30 ∧
    if id.2 = .inOrder then 0≤distance else distance≤0
  deriving Decidable

/-- The handler after ids that do not lie before the cycle of the first one. -/
structure Follows (mBit : Bool) (high : ℤ) (h : Vp8PictureIdWrapHandler) : Prop where
  low : -1≤high
  max_eq : h.maxPictureId=high
  bit : h.maxMBit=mBit
  total : h.totalWrap=max high 0 / idRange mBit*idRange mBit
  last : 0<h.totalWrap → h.lastWrap=idRange mBit

variable {mBit : Bool} {high x t first c : ℤ} {h : Vp8PictureIdWrapHandler}
  {ids : List (ℤ × Passage)}
  {id : ℤ × Passage}

theorem Follows.extend (hf : Follows mBit high h) (hn : 2*(x-high).natAbs < idRange mBit)
    (ht : idRange mBit∣t-x) : h.extend (headerId mBit t) mBit=if x<0 then (x+idRange mBit,0)
      else (x,max high x / idRange mBit*idRange mBit-h.totalWrap) := by
  obtain ⟨hlow,hmax,hbit,htot,hl⟩ := hf
  obtain ⟨k,hk⟩ := ht
  have hid : ((headerId mBit t).toNat : ℤ)=t % idRange mBit := by
    cases mBit <;> simp [headerId,idRange] <;> omega
  rw [Vp8PictureIdWrapHandler.extend,hid,hmax,hbit]
  simp only [isWrapping,decide_eq_true_eq]
  generalize h.totalWrap=T at *
  generalize h.lastWrap=L at *
  cases mBit with
  | false =>
    simp only [idRange,Bool.false_eq_true,if_false] at *
    split_ifs <;> grind
  | true =>
    simp only [idRange,if_true] at *
    split_ifs <;> grind

theorem highest_concat :
    highest first (ids++[id])=if id.2 = .inOrder then id.1 else highest first ids := by
  rw [highest,foldl_append]
  rfl

theorem Follows.pass (hf : Follows mBit (highest first ids-c) h) (hn : Near mBit first ids id)
    (hc : idRange mBit∣c) (hx : c ≤ id.1) :
    Follows mBit (highest first (ids++[id])-c) (pass mBit h id).2 := by
  obtain ⟨t,passage⟩ := id
  obtain ⟨hd,-,hs⟩ := hn
  have he := hf.extend (x := t-c) (t := t) (by grind) (by rwa [Int.sub_sub_self])
  rw [if_neg (by grind)] at he
  obtain ⟨hlow,hmax,hbit,htot,hl⟩ := hf
  rw [highest_concat]
  cases passage with
  | inOrder =>
    simp only [Vp8.pass,unwrapAndUpdate,he,updateMaxPictureId]
    refine ⟨by grind,by grind,by grind,by grind,fun hp => ?_⟩
    cases mBit <;> simp only [idRange,Bool.false_eq_true,if_false,if_true] at * <;> grind
  | late updates =>
    cases updates with
    | false => exact ⟨hlow,hmax,hbit,htot,hl⟩
    | true =>
      have hw : max (highest first ids-c) (t-c)=max (highest first ids-c) 0 := by grind
      simp only [Vp8.pass,unwrapAndUpdate,he,hw,← htot]
      exact ⟨hlow,hmax,hbit,by grind,by grind⟩

/-- The extended ids keep their distance to the true ids exactly as long as no id lies before the
cycle of the first one. `init` gets `ext` for the first id. -/
theorem extended_iff (mBit : Bool) (first ext : ℤ) (hlow : -1≤ext) (hbound : ext < idRange mBit)
    (hbits : idRange mBit∣first-ext) (ids : List (ℤ × Passage))
    (hnear : AtEveryStep (Near mBit first) ids) :
    (∀p∈trace (pass mBit) (init ext mBit) ids,p.output-p.input.1=ext-first) ↔
      ∀id∈ids,first-ext ≤ id.1 := by
  suffices hi : _ ∧ ((∀id∈ids,first-ext ≤ id.1) →
      Follows mBit (highest first ids-(first-ext)) (exec (pass mBit) (init ext mBit) ids)) from hi.1
  refine hnear.induction ⟨by simp,fun _ => ?_⟩ ?_
  · have hn : highest first []-(first-ext)=ext := Int.sub_sub_self first ext
    rw [hn]
    refine ⟨hlow,rfl,rfl,?_,nofun⟩
    cases mBit <;> simp only [exec,init,idRange,Bool.false_eq_true,if_false,if_true]
      at hbound ⊢ <;> grind
  · rintro ids id ⟨hi,hf⟩ hid
    rw [trace_concat,forall_mem_append,forall_mem_append,exec_concat,propext hi]
    refine ⟨and_congr_right (fun hc => ?_),
      fun hc => (hf hc.1).pass hid hbits (hc.2 id mem_cons_self)⟩
    have he := (hf hc).extend (x := id.1-(first-ext)) (t := id.1) (by grind [Near])
      (by rwa [Int.sub_sub_self])
    have hout : (pass mBit (exec (pass mBit) (init ext mBit) ids) id).1 =
        ((exec (pass mBit) (init ext mBit) ids).extend (headerId mBit id.1) mBit).1 := by
      obtain ⟨t,_ | _ | _⟩ := id <;> rfl
    have hpos : 0 < idRange mBit := by cases mBit <;> decide
    simp only [forall_mem_singleton,transition,hout,he]
    split_ifs <;> grind

/-- Ids that wrap once, with a late one from before the wrap. -/
theorem extended_over_wrap : idRange false=128 ∧
    ∀p∈trace (pass false) (init 99 false) [(120,.inOrder),(140,.inOrder),(125,.late true)],
      p.output-p.input.1=0 :=
  ⟨rfl,(extended_iff false 99 99 (by decide) (by decide) (by decide) _ (by decide)).mpr (by decide)⟩

/-- The id right before the first one comes out a whole range too large. -/
theorem before_first_misplaced :
    AtEveryStep (Near true 0) [(-1,.late true)] ∧
      ¬∀p∈trace (pass true) (init 0 true) [(-1,.late true)],p.output-p.input.1=0 := by
  decide

end OxideSfu.Vp8
