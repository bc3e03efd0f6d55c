import Mathlib.Data.Nat.Bitwise
import OxideSfu.DescriptorSteps

/-!
# Forwarded descriptor frames are decodable

A run of the selector is described by the log of the frames it decided: a frame is decided when its
number is not one of the last 256 decided ones. The decision cache is the newest part of the log, so
the references of a forwarded frame are closed under references.
-/

namespace OxideSfu.VideoIngress

open StepRuns RecencyWindow DependencyDescriptorForwardingSelector List

structure DecidedFrame where
  frame : DependencyDescriptorFrame
  decision : DependencyDescriptorForwardingDecision
  deriving DecidableEq

namespace DecidedFrame

def number (decided : DecidedFrame) : ℕ := decided.frame.frameNumber

def entry (decided : DecidedFrame) : ℕ × DependencyDescriptorForwardingDecision :=
  (decided.number,decided.decision)

end DecidedFrame

open DecidedFrame

def answer (policy : DependencyDescriptorLayerPolicy) (frames : List DependencyDescriptorFrame)
    (frame : DependencyDescriptorFrame) : DependencyDescriptorForwardingDecision :=
  ((exec select (new policy) frames).select frame).1

def DecidedRecently (log : List DecidedFrame) (frameNumber : ℕ) : Prop :=
  frameNumber∈(log.map DecidedFrame.number).rtake decisionCacheCapacity

def decidedFrames (policy : DependencyDescriptorLayerPolicy)
    (frames : List DependencyDescriptorFrame) : List DecidedFrame :=
  ((trace select (new policy) frames).map (fun t => ⟨t.input,t.output⟩)).foldl
    (recordFresh DecidedFrame.number decisionCacheCapacity) []

def forwardedFrames (log : List DecidedFrame) : List DependencyDescriptorFrame :=
  (log.filter (·.decision.isForward)).map DecidedFrame.frame

/-- A frame with the number was forwarded. Numbers are integers here, because a diff can
point below frame zero. -/
def ForwardedNumber (log : List DecidedFrame) (frameNumber : ℤ) : Prop :=
  ∃frame∈forwardedFrames log,(frame.frameNumber : ℤ)=frameNumber

/-- Numbers reached from a frame through its own non-zero frame diffs and those of
forwarded frames. -/
inductive Reaches (log : List DecidedFrame) (frame : DependencyDescriptorFrame) : ℤ→Prop
  | direct {diff : UInt16} : diff∈frame.frameDiffs → diff≠0 →
      Reaches log frame (frame.frameNumber-diff.toNat)
  | through {reference : DependencyDescriptorFrame} {diff : UInt16} :
      Reaches log frame reference.frameNumber → reference∈forwardedFrames log →
      diff∈reference.frameDiffs → diff≠0 →
      Reaches log frame (reference.frameNumber-diff.toNat)

def DependencyDescriptorFrame.Marks (frame : DependencyDescriptorFrame) (target : UInt8) : Prop :=
  target.toNat<32 ∧ frame.activeDecodeTargets.toNat.testBit target.toNat

/-- A layer whose target is active and which both bounds of the policy permit. -/
structure WithinPolicy (policy : DependencyDescriptorLayerPolicy)
    (frame : DependencyDescriptorFrame) (layer : DependencyDescriptorTargetLayer) : Prop where
  active : frame.Marks layer.target
  maximum : layer.spatial≤policy.maxSpatial ∧ layer.temporal≤policy.maxTemporal
  desired : layer.spatial≤policy.desiredSpatial ∧ layer.temporal≤policy.desiredTemporal

/-- A layer is at most as high as another: the spatial layer counts first. -/
def NotAbove (layer other : DependencyDescriptorTargetLayer) : Prop :=
  layer.spatial<other.spatial ∨
    layer.spatial=other.spatial ∧ layer.temporal≤other.temporal

/-- What makes it right to forward a frame for a target after the decisions in the log. -/
structure DecodableForward (policy : DependencyDescriptorLayerPolicy) (log : List DecidedFrame)
    (frame : DependencyDescriptorFrame) (target : UInt8) : Prop where
  highest : ∃layer∈frame.targetLayers,layer.target=target ∧
    WithinPolicy policy frame layer ∧
    ∀other∈frame.targetLayers,WithinPolicy policy frame other → NotAbove other layer
  present : ∃dti,frame.dtis[target.toNat]?=some dti ∧ dti ≠ .notPresent
  dependencies : ∀frameNumber,Reaches log frame frameNumber → ForwardedNumber log frameNumber
  chain : frame.chainDiffs≠[] → ∃chain diff,
    frame.targetProtectedByChain[target.toNat]?=some chain ∧
    frame.chainDiffs[chain.toNat]?=some diff ∧
    (diff=0 ∨ ForwardedNumber log (frame.frameNumber-diff.toNat))

structure SoundAnswer (policy : DependencyDescriptorLayerPolicy) (log : List DecidedFrame)
    (frame : DependencyDescriptorFrame) (decision : DependencyDescriptorForwardingDecision) :
    Prop where
  /-- A frame that is decided now is forwarded only if it is decodable. -/
  decided : ¬ DecidedRecently log frame.frameNumber →
    ∀target,decision = .forward target → DecodableForward policy log frame target
  /-- Any other answer repeats a decision, which was right for the frame it was made for. -/
  repeated : DecidedRecently log frame.frameNumber → ∃earlier first later,
    log=earlier++first::later ∧ first.number=frame.frameNumber ∧
    first.decision=decision ∧
    ∀target,decision = .forward target → DecodableForward policy earlier first.frame target
  /-- A decision is repeated until 256 other numbers have been decided after it. -/
  stable : ∀earlier first later,log=earlier++first::later →
    first.number=frame.frameNumber →
    ((later.map DecidedFrame.number).toFinset.erase frame.frameNumber).card <
      decisionCacheCapacity →
    decision=first.decision

theorem isActive_iff (f : DependencyDescriptorFrame) (k : UInt8) : f.isActive k ↔ f.Marks k := by
  rw [DependencyDescriptorFrame.isActive,Bool.and_eq_true,decide_eq_true_eq,decide_eq_true_eq,
    DependencyDescriptorFrame.Marks,UInt8.lt_iff_toNat_lt]
  refine and_congr_right ?_
  intro hlt
  have hlt : k.toNat<32 := hlt
  have hbit : ((1 : UInt32) <<< k.toUInt32).toNat=2^k.toNat := by
    have hpow : 2^k.toNat<2^32 := Nat.pow_lt_pow_right (by decide) hlt
    rw [UInt32.toNat_shiftLeft,UInt8.toNat_toUInt32,Nat.mod_eq_of_lt hlt,UInt32.toNat_one,
      Nat.one_shiftLeft,Nat.mod_eq_of_lt hpow]
  rw [Ne,← UInt32.toNat_inj,UInt32.toNat_and,hbit,Nat.and_two_pow]
  cases f.activeDecodeTargets.toNat.testBit k.toNat with
  | false => simp
  | true => simp

variable (y : DependencyDescriptorLayerPolicy)

theorem isAdmissible_iff (f : DependencyDescriptorFrame) (l : DependencyDescriptorTargetLayer) :
    isAdmissible y f l ↔ WithinPolicy y f l := by
  simp only [isAdmissible,Bool.and_eq_true,decide_eq_true_eq,isActive_iff]
  constructor
  · intro h
    obtain ⟨⟨⟨⟨ha,hs⟩,ht⟩,hs'⟩,ht'⟩ := h
    exact ⟨ha,⟨hs,ht⟩,⟨hs',ht'⟩⟩
  · intro h
    exact ⟨⟨⟨⟨h.active,h.maximum.1⟩,h.maximum.2⟩,h.desired.1⟩,h.desired.2⟩

variable {frameNumber : ℤ}

theorem ForwardedNumber.append {e : List DecidedFrame} (h : ForwardedNumber e frameNumber)
    (l : List DecidedFrame) :
    ForwardedNumber (e++l) frameNumber := by
  obtain ⟨f,hf,hn⟩ := h
  refine ⟨f,?_,hn⟩
  rw [forwardedFrames,filter_append,map_append]
  exact mem_append_left _ hf

variable {frame : DependencyDescriptorFrame}

theorem mem_forwardedFrames {log : List DecidedFrame} :
    frame∈forwardedFrames log ↔ ∃k,⟨frame,.forward k⟩∈log := by
  simp only [forwardedFrames,mem_map,mem_filter]
  constructor
  · intro hfr
    obtain ⟨⟨_,d⟩,⟨hmem,hf⟩,rfl⟩ := hfr
    cases d with
    | forward k => exact ⟨k,hmem⟩
    | _ => cases hf
  · intro ht
    obtain ⟨k,hmem⟩ := ht
    exact ⟨_,⟨hmem,rfl⟩,rfl⟩

/-- Every forwarded frame of the log was decodable when it was decided. -/
def AllDecodable (policy : DependencyDescriptorLayerPolicy) (log : List DecidedFrame) : Prop :=
  AtEveryStep (fun earlier decided => ∀target,decided.decision = .forward target →
    DecodableForward policy earlier decided.frame target) log

theorem AllDecodable.reaches {policy : DependencyDescriptorLayerPolicy} {log : List DecidedFrame}
    (h : AllDecodable policy log)
    (href : ∀diff∈frame.frameDiffs,diff≠0 →
      ForwardedNumber log (frame.frameNumber-diff.toNat)) (hre : Reaches log frame frameNumber) :
    ForwardedNumber log frameNumber := by
  cases hre with
  | direct hdi hne => exact href _ hdi hne
  | through _ hr hdi hne =>
    obtain ⟨target,hmem⟩ := mem_forwardedFrames.mp hr
    obtain ⟨earlier,later,rfl⟩ := append_of_mem hmem
    have hd := h earlier _ later rfl target rfl
    exact (hd.dependencies _ (Reaches.direct hdi hne)).append _

/-- The selector's state describes the log: the cache is its newest part. -/
structure Represents (policy : DependencyDescriptorLayerPolicy) (log : List DecidedFrame)
    (s : DependencyDescriptorForwardingSelector) : Prop where
  samePolicy : s.policy=policy
  cache : s.decisions=(log.map DecidedFrame.entry).rtake decisionCacheCapacity
  fresh : FreshKeys decisionCacheCapacity (log.map DecidedFrame.number)
  decodable : AllDecodable policy log

variable {policy : DependencyDescriptorLayerPolicy} {log : List DecidedFrame}
  {s : DependencyDescriptorForwardingSelector}

theorem represents_new : Represents y [] (new y) :=
  ⟨rfl,rfl,atEveryStep_nil _,atEveryStep_nil _⟩

theorem Represents.diffForwarded_iff (h : Represents policy log s) (frameNumber : ℕ)
    (diff : UInt16) :
    diffForwarded s.decisions frameNumber diff ↔
      ForwardedNumber (log.rtake decisionCacheCapacity) (frameNumber-diff.toNat) := by
  rw [diffForwarded,Bool.and_eq_true,decide_eq_true_eq,wasForwardedIn,any_eq_true,h.cache,
    ← map_rtake]
  constructor
  · intro hfo
    obtain ⟨hle,entry,he,hf⟩ := hfo
    obtain ⟨decided,hd,rfl⟩ := mem_map.mp he
    rw [Bool.and_eq_true,decide_eq_true_eq] at hf
    obtain ⟨hn,hf⟩ := hf
    change decided.frame.frameNumber=_ at hn
    exact ⟨decided.frame,mem_map.mpr ⟨decided,mem_filter.mpr ⟨hd,hf⟩,rfl⟩,by omega⟩
  · intro hr
    obtain ⟨frame,hfr,hn⟩ := hr
    obtain ⟨target,hmem⟩ := mem_forwardedFrames.mp hfr
    refine ⟨by omega,_,mem_map_of_mem hmem,?_⟩
    have hs : frame.frameNumber=frameNumber-diff.toNat := by omega
    simp [entry,number,hs,DependencyDescriptorForwardingDecision.isForward]

theorem ForwardedNumber.of_rtake {n : ℕ}
    (h : ForwardedNumber (log.rtake n) frameNumber) : ForwardedNumber log frameNumber := by
  obtain ⟨f,hf,hn⟩ := h
  obtain ⟨k,hmem⟩ := mem_forwardedFrames.mp hf
  exact ⟨f,mem_forwardedFrames.mpr ⟨k,mem_of_mem_rtake hmem⟩,hn⟩

section

variable (h : Represents policy log s)

include h

namespace Represents

theorem diffForwarded {n : ℕ} {diff : UInt16} (hd : diffForwarded s.decisions n diff) :
    ForwardedNumber log (n-diff.toNat) :=
  ((h.diffForwarded_iff n diff).mp hd).of_rtake

theorem numbers : s.decisions.map Prod.fst=(log.map number).rtake decisionCacheCapacity := by
  rw [h.cache,map_rtake,map_map]
  rfl

theorem cachedDecision_eq_none_iff (n : ℕ) : s.cachedDecision n=none ↔ ¬ DecidedRecently log n := by
  rw [DecidedRecently,← h.numbers,cachedDecision,Option.map_eq_none_iff,find?_eq_none]
  constructor
  · intro hn hmem
    obtain ⟨e,he,hkey⟩ := mem_map.mp hmem
    exact hn e he (decide_eq_true hkey)
  · intro hnot e he hkey
    exact hnot (mem_map.mpr ⟨e,he,of_decide_eq_true hkey⟩)

theorem cachedDecision_eq {decided : DecidedFrame} (hmem : decided.entry∈s.decisions) :
    s.cachedDecision decided.number=some decided.decision := by
  have hn : (s.decisions.map Prod.fst).Nodup := by
    rw [h.numbers]
    exact h.fresh.nodup_rtake.sublist (rtake_sublist_rtake (Nat.le_succ _) _)
  cases hf : s.decisions.find? (·.1=decided.number) with
  | none =>
    have hnot := find?_eq_none.mp hf _ hmem
    simp [entry] at hnot
  | some found =>
    have hkey : found.1=decided.number := by simpa using find?_some hf
    have hs : found=decided.entry := inj_on_of_nodup_map hn (mem_of_find?_eq_some hf) hmem hkey
    rw [cachedDecision,hf,hs]
    rfl

theorem decodable_of_selectUncached {target : UInt8}
    (hf : (s.selectUncached frame).1 = .forward target) :
    DecodableForward policy log frame target := by
  have hv : frame.chainsCovered := by
    by_contra hnot
    simp [selectUncached,updateChains,hnot] at hf
  have hde : (s.updateChains frame).2.decideFrame frame = .forward target := by
    simpa [selectUncached,updateChains,hv] using hf
  obtain ⟨⟨layer,hl,rfl⟩,hpr,hre,hc⟩ := decideFrame_forward hde
  have hpo : (s.updateChains frame).2.policy=policy := h.samePolicy
  rw [hpo] at hl
  obtain ⟨hmem,ha,hmax⟩ := selectTarget_eq_some hl
  have hw := (isAdmissible_iff policy frame layer).mp ha
  have hh : ∀other∈frame.targetLayers,WithinPolicy policy frame other → NotAbove other layer := by
    intro other ho hok
    exact (keyLe_iff other layer).mp (hmax other ho ((isAdmissible_iff _ _ _).mpr hok))
  refine ⟨⟨layer,hmem,rfl,hw,hh⟩,hpr,?_,?_⟩
  · intro frameNumber hr
    exact h.decodable.reaches (fun diff hd hne => h.diffForwarded (hre diff hd hne)) hr
  · intro hne
    obtain ⟨chain,state,hp,hs,hi⟩ := hc hne
    have hac := (isActive_iff frame layer.target).mpr hw.active
    obtain ⟨diff,hd,hb⟩ := updateChains_intact hs hi (chainActive_of_isActive hmem hac hp)
    exact ⟨chain,diff,hp,hd,hb.imp_right h.diffForwarded⟩

theorem length_decisions_le : s.decisions.length≤decisionCacheCapacity := by
  rw [h.cache,length_rtake]
  exact Nat.min_le_left _ _

theorem select (f : DependencyDescriptorFrame) :
    Represents policy
      (recordFresh number decisionCacheCapacity log ⟨f,(s.select f).1⟩)
      (s.select f).2 := by
  cases hc : s.cachedDecision f.frameNumber with
  | some d =>
    have hr : DecidedRecently log f.frameNumber := by
      by_contra hnot
      rw [(h.cachedDecision_eq_none_iff _).mpr hnot] at hc
      cases hc
    rw [recordFresh,if_pos (by exact hr),DependencyDescriptorForwardingSelector.select,hc]
    exact h
  | none =>
    have hnew := (h.cachedDecision_eq_none_iff _).mp hc
    have hs : s.select f=((s.selectUncached f).1,
        (s.selectUncached f).2.remember f.frameNumber (s.selectUncached f).1) := by
      rw [DependencyDescriptorForwardingSelector.select,hc]
    have hf := h.fresh.recordFresh ⟨f,(s.select f).1⟩
    rw [recordFresh,if_neg (by exact hnew)] at hf ⊢
    rw [hs] at hf ⊢
    obtain ⟨hp,hd⟩ := selectUncached_frame s f
    refine ⟨hp.trans h.samePolicy,?_,hf,?_⟩
    · rw [remember_decisions _ (by rw [hd]; exact h.length_decisions_le),hd, h.cache,
        rtake_rtake_concat,map_append]
      rfl
    · refine (atEveryStep_concat _ _ _).mpr ⟨h.decodable,?_⟩
      intro k ht
      exact h.decodable_of_selectUncached ht

end Represents

end

variable (fs : List DependencyDescriptorFrame)

theorem decidedFrames_concat (f : DependencyDescriptorFrame) :
    decidedFrames y (fs++[f]) =
      recordFresh number decisionCacheCapacity (decidedFrames y fs) ⟨f,answer y fs f⟩ := by
  simp only [decidedFrames,trace_concat,map_append,foldl_append,map_cons,
    map_nil,foldl_cons,foldl_nil,transition,answer]

theorem represents_decidedFrames :
    Represents y (decidedFrames y fs) (exec select (new y) fs) := by
  induction fs using reverseRecOn with
  | nil => exact represents_new y
  | append_singleton fs f ih =>
    rw [decidedFrames_concat,exec_concat]
    exact ih.select f

variable {y : DependencyDescriptorLayerPolicy}

theorem Represents.select_eq (h : Represents y log s) {i : ℕ} {first : DecidedFrame}
    (hf : log[i]?=some first)
    (hi : log.length ≤ i+decisionCacheCapacity) (hn : first.number=frame.frameNumber) :
    (s.select frame).1=first.decision := by
  have hmem : first.entry∈s.decisions := by
    rw [h.cache]
    refine mem_rtake_iff_getElem?.mpr ⟨i,by rwa [length_map],?_⟩
    rw [getElem?_map,hf,Option.map_some]
  have hc := h.cachedDecision_eq hmem
  rw [hn] at hc
  rw [DependencyDescriptorForwardingSelector.select,hc]

theorem Represents.soundAnswer (h : Represents y log s) (f : DependencyDescriptorFrame) :
    SoundAnswer y log f (s.select f).1 := by
  refine ⟨?_,?_,?_⟩
  · intro hnew k hf
    have hc := (h.cachedDecision_eq_none_iff _).mpr hnew
    rw [select_of_uncached hc] at hf
    exact h.decodable_of_selectUncached hf
  · intro hr
    obtain ⟨i,hi,hget⟩ := mem_rtake_iff_getElem?.mp hr
    rw [List.length_map] at hi
    rw [List.getElem?_map,Option.map_eq_some_iff] at hget
    obtain ⟨first,hfi,hn⟩ := hget
    have hs := h.select_eq hfi hi hn
    obtain ⟨hlt,rfl⟩ := List.getElem?_eq_some_iff.mp hfi
    have hlog : log=log.take i++log[i]::log.drop (i+1) := by simp
    refine ⟨_,_,_,hlog,hn,hs.symm,?_⟩
    intro k hf
    exact h.decodable _ _ _ hlog k (hs.symm.trans hf)
  · intro e first l hlog hn hca
    have hfr := h.fresh
    rw [hlog,List.map_append,List.map_cons,hn] at hfr
    have hl := hfr.length_lt_of_card_lt hca
    rw [List.length_map] at hl
    have hfi : log[e.length]?=some first := by simp [hlog]
    refine h.select_eq hfi ?_ hn
    rw [hlog,List.length_append,List.length_cons]
    omega

theorem repeat_changes_nothing {fs : List DependencyDescriptorFrame} (f : DependencyDescriptorFrame)
    (hre : DecidedRecently (decidedFrames y fs) f.frameNumber) :
    exec select (new y) (fs++[f])=exec select (new y) fs ∧
      decidedFrames y (fs++[f])=decidedFrames y fs := by
  have hr := represents_decidedFrames y fs
  constructor
  · cases hc : (exec select (new y) fs).cachedDecision f.frameNumber with
    | none => exact absurd hre ((hr.cachedDecision_eq_none_iff _).mp hc)
    | some d =>
      rw [exec_concat,select,hc]
  · rw [decidedFrames_concat,recordFresh,if_pos (by exact hre)]

/-- In every run of the selector, over any frames whatsoever, a frame is forwarded when it
is decided only if it is decodable, and every other answer repeats such a decision. -/
theorem select_soundAnswer (policy : DependencyDescriptorLayerPolicy)
    (frames : List DependencyDescriptorFrame) (frame : DependencyDescriptorFrame) :
    SoundAnswer policy (decidedFrames policy frames) frame (answer policy frames frame) :=
  (represents_decidedFrames policy frames).soundAnswer frame

def lowFrame (frameNumber : ℕ) (frameDiffs : List UInt16) (dti : DependencyDescriptorDti) :
    DependencyDescriptorFrame :=
  ⟨frameNumber,1,[⟨0,.low,0⟩],[dti],frameDiffs,[],[]⟩

def lowDescriptorPolicy : DependencyDescriptorLayerPolicy := ⟨.low,.low,0,0⟩

/-- Frame 1 refers to frame 0, the other frames refer to nothing. -/
def referringFrame (frameNumber : ℕ) : DependencyDescriptorFrame :=
  lowFrame frameNumber (if frameNumber=1 then [1] else []) .required

def referringRun (length : ℕ) : List DependencyDescriptorFrame :=
  (range length).map referringFrame

theorem referringRun_succ (length : ℕ) :
    referringRun (length+1)=referringRun length++[referringFrame length] := by
  rw [referringRun,range_succ,map_append]
  rfl

theorem selectUncached_lowFrame {s : DependencyDescriptorForwardingSelector}
    (hp : s.policy=lowDescriptorPolicy) (n : ℕ) (frameDiffs : List UInt16) :
    (s.selectUncached (lowFrame n frameDiffs .required)).1 =
      if frameDiffs.any (fun diff => diff != 0 && !diffForwarded s.decisions n diff) then
        .dropDependency
      else .forward 0 := by
  have ht : selectTarget s.policy (lowFrame n frameDiffs .required)=some ⟨0,.low,0⟩ := by
    rw [hp]
    change selectTarget lowDescriptorPolicy (lowFrame 0 [] .required)=_
    decide
  have hd : (s.selectUncached (lowFrame n frameDiffs .required)).1 =
      (s.updateChains (lowFrame n frameDiffs .required)).2.decideFrame
        (lowFrame n frameDiffs .required) := rfl
  have ha : (s.updateChains (lowFrame n frameDiffs .required)).2.policy=s.policy := rfl
  rw [hd,decideFrame,ha,ht]
  rfl

theorem numbers_referringRun (length : ℕ) :
    ((referringRun length).map
      (fun f => (⟨f,.forward 0⟩ : DecidedFrame))).map number=range length := by
  rw [referringRun,map_map,map_map]
  exact map_id _

theorem decidedFrames_referringRun (length : ℕ) :
    decidedFrames lowDescriptorPolicy (referringRun length) =
      (referringRun length).map (fun f => ⟨f,.forward 0⟩) := by
  induction length with
  | zero => rfl
  | succ length ih =>
    have hr := represents_decidedFrames lowDescriptorPolicy (referringRun length)
    rw [ih] at hr
    have hnew : ¬ DecidedRecently ((referringRun length).map (fun f => ⟨f,.forward 0⟩)) length := by
      intro hre
      have hmem := mem_of_mem_rtake hre
      rw [numbers_referringRun,mem_range] at hmem
      omega
    have ha : answer lowDescriptorPolicy (referringRun length) (referringFrame length) =
      .forward 0 := by
      rw [answer,select_of_uncached ((hr.cachedDecision_eq_none_iff _).mpr hnew),
        referringFrame,selectUncached_lowFrame hr.samePolicy]
      by_cases hone : length=1
      · subst hone
        decide
      · simp [hone]
    rw [referringRun_succ,decidedFrames_concat,ha,ih,recordFresh,if_neg (by exact hnew),map_append]
    rfl

/-- Frame 257 evicts frame 1, and frame 0 that it refers to is no longer known either. -/
theorem answer_referringRun_evicted :
    answer lowDescriptorPolicy (referringRun 258) (referringFrame 1) = .dropDependency := by
  have hr := represents_decidedFrames lowDescriptorPolicy (referringRun 258)
  rw [decidedFrames_referringRun] at hr
  have hnew : ¬ DecidedRecently ((referringRun 258).map (fun f => ⟨f,.forward 0⟩)) 1 := by
    rw [DecidedRecently]
    decide +kernel
  rw [answer,select_of_uncached ((hr.cachedDecision_eq_none_iff _).mpr hnew),
    referringFrame,selectUncached_lowFrame hr.samePolicy,hr.cache]
  decide +kernel

/-- The properties do not hold of every answer and between any two answers. A repeated
number is answered from the cache whatever its metadata says now, and the cache forgets
by the age of the decision: frame 1 is answered twice with only frame 257 decided in
between, and the second answer differs because frame 0 is no longer known. -/
theorem soundAnswer_fails_between_answers :
    (answer lowDescriptorPolicy [lowFrame 12 [] .required] (lowFrame 12 [] .notPresent) =
        .forward 0 ∧
      ¬ DecodableForward lowDescriptorPolicy
        (decidedFrames lowDescriptorPolicy [lowFrame 12 [] .required])
        (lowFrame 12 [] .notPresent) 0) ∧
    answer lowDescriptorPolicy (referringRun 257) (referringFrame 1) = .forward 0 ∧
    decidedFrames lowDescriptorPolicy (referringRun 257 ++ [referringFrame 1,referringFrame 257]) =
      decidedFrames lowDescriptorPolicy (referringRun 257) ++
        [⟨referringFrame 257,.forward 0⟩] ∧
    answer lowDescriptorPolicy (referringRun 257 ++ [referringFrame 1,referringFrame 257])
        (referringFrame 1) = .dropDependency := by
  have hr := represents_decidedFrames lowDescriptorPolicy (referringRun 257)
  have hl : (decidedFrames lowDescriptorPolicy (referringRun 257)).length=257 := by
    rw [decidedFrames_referringRun]
    simp [referringRun]
  have hf : (decidedFrames lowDescriptorPolicy (referringRun 257))[1]? =
    some ⟨referringFrame 1,.forward 0⟩ := by
    rw [decidedFrames_referringRun]
    simp [referringRun]
  have hre : DecidedRecently (decidedFrames lowDescriptorPolicy (referringRun 257)) 1 := by
    rw [decidedFrames_referringRun,DecidedRecently]
    decide +kernel
  obtain ⟨hs,hlog⟩ := repeat_changes_nothing (referringFrame 1) hre
  have ha : referringRun 257++[referringFrame 1,referringFrame 257] =
      (referringRun 257++[referringFrame 1])++[referringFrame 257] := by simp
  refine ⟨⟨by decide +kernel,?_⟩,?_,?_,?_⟩
  · intro h
    obtain ⟨dti,hdti,hp⟩ := h.present
    have hnot : dti = .notPresent := (Option.some.inj hdti).symm
    exact hp hnot
  · rw [answer]
    exact hr.select_eq hf (by rw [hl]; decide) rfl
  · rw [ha,decidedFrames_concat,answer,hs,hlog,← answer,← decidedFrames_concat,
      ← referringRun_succ,decidedFrames_referringRun,decidedFrames_referringRun,
      referringRun_succ,map_append]
    rfl
  · rw [ha,answer,exec_concat,hs,← exec_concat,← answer,← referringRun_succ]
    exact answer_referringRun_evicted

end OxideSfu.VideoIngress
