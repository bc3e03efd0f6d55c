import OxideSfu.DescriptorDecodability

/-!
# Exactly when a descriptor frame is forwarded

A frame that is decided now is forwarded if and only if its target is present, its references
were forwarded among the last 256 decided frames, and the chain of its target has been kept up
without a gap since its last restart.
-/

namespace OxideSfu.VideoIngress

open StepRuns RecencyWindow DependencyDescriptorForwardingSelector List Option

def ForwardedRecently (log : List DecidedFrame) (frameNumber : ℤ) : Prop :=
  ForwardedNumber (log.rtake decisionCacheCapacity) frameNumber

/-- A chain is intact at a frame: it is active there, and either the frame restarts it or
the chain was intact at the frame decided before and the diff names a forwarded frame. -/
inductive ChainIntact (chain : ℕ) : List DecidedFrame → DependencyDescriptorFrame→Prop
  | restart {log : List DecidedFrame} {frame : DependencyDescriptorFrame} :
      frame.chainActive chain → frame.chainDiffs[chain]?=some 0 →
      ChainIntact chain log frame
  | next {log : List DecidedFrame} {last : DecidedFrame} {frame : DependencyDescriptorFrame}
      {diff : UInt16} :
      ChainIntact chain log last.frame → frame.chainActive chain →
      frame.chainDiffs[chain]?=some diff →
      ForwardedRecently (log++[last]) (frame.frameNumber-diff.toNat) →
      ChainIntact chain (log++[last]) frame

structure Forwardable (policy : DependencyDescriptorLayerPolicy) (log : List DecidedFrame)
    (frame : DependencyDescriptorFrame) (target : UInt8) : Prop where
  covered : frame.chainsCovered
  selected : ∃layer,selectTarget policy frame=some layer ∧ layer.target=target
  present : ∃dti,frame.dtis[target.toNat]?=some dti ∧ dti ≠ .notPresent
  references : ∀diff∈frame.frameDiffs,diff≠0 →
    ForwardedRecently log (frame.frameNumber-diff.toNat)
  chain : frame.chainDiffs≠[] → ∃chain,frame.targetProtectedByChain[target.toNat]?=some chain ∧
    ChainIntact chain.toNat log frame

variable {f : DependencyDescriptorFrame} {k : UInt8}

theorem ForwardChecks.decideFrame {s : DependencyDescriptorForwardingSelector}
    (h : ForwardChecks s f k) :
    s.decideFrame f = .forward k := by
  obtain ⟨l,hl,rfl⟩ := h.highest
  obtain ⟨dti,hdti,hp⟩ := h.present
  have hany : ¬ f.frameDiffs.any (fun diff =>
      diff != 0 && !diffForwarded s.decisions f.frameNumber diff) := by
    intro hany
    obtain ⟨diff,hd,hbad⟩ := any_eq_true.mp hany
    rw [Bool.and_eq_true,bne_iff_ne] at hbad
    simp [h.references diff hd hbad.1] at hbad
  rw [decideFrame,hl]
  simp only [hdti,hany,Bool.false_eq_true,if_false]
  by_cases he : f.chainDiffs=[]
  · simp [he]
  · obtain ⟨c,state,hc,hs,hi⟩ := h.chain he
    simp [he,hc,hs,hi]

theorem resizeChains_getElem? (chains : List DescriptorChainState) {length i : ℕ} (h : i<length) :
    (resizeChains chains length)[i]?=some (chains[i]?.getD ⟨false,false⟩) := by
  rw [resizeChains]
  by_cases hi : i<chains.length
  · rw [getElem?_append_left (by rw [length_take]; omega),getElem?_take_of_lt h,
      getElem?_eq_getElem hi,getD_some]
  · rw [getElem?_append_right (by rw [length_take]; omega),length_take,
      getElem?_replicate_of_lt (by omega),getElem?_eq_none (by omega),getD_none]

theorem updateChains_getElem? (s : DependencyDescriptorForwardingSelector)
    (f : DependencyDescriptorFrame) (c : ℕ) :
    (s.updateChains f).2.chains[c]?=f.chainDiffs[c]?.map (fun _ =>
      advanceChain s.decisions f c (activateChain f c (s.chains[c]?.getD ⟨false,false⟩))) := by
  simp only [updateChains,getElem?_mapIdx]
  by_cases hlt : c<f.chainDiffs.length
  · rw [resizeChains_getElem? _ hlt,getElem?_eq_getElem hlt]
    rfl
  · have hlen : (resizeChains s.chains f.chainDiffs.length)[c]?=none := by
      apply getElem?_eq_none
      rw [resizeChains,length_append,length_take,length_replicate]
      omega
    have hn : f.chainDiffs[c]?=none := getElem?_eq_none (by omega)
    rw [hlen,hn]
    rfl

/-- One frame leaves an active chain intact if it restarts the chain, or finds it intact
and names a forwarded frame. -/
theorem advanceChain_eq_intact_iff {decisions : List (ℕ × DependencyDescriptorForwardingDecision)}
    {c : ℕ} {state : DescriptorChainState} {diff : UInt16} (hd : f.chainDiffs[c]?=some diff) :
    advanceChain decisions f c (activateChain f c state)=⟨true,false⟩ ↔
      f.chainActive c ∧ (diff=0 ∨ state=⟨true,false⟩ ∧
        diffForwarded decisions f.frameNumber diff) := by
  obtain ⟨active,broken⟩ := state
  cases ha : f.chainActive c with
  | false => simp [advanceChain,activateChain,ha]
  | true =>
    by_cases hz : diff=0
    · simp [advanceChain,activateChain,ha,hd,hz]
    · cases hb : diffForwarded decisions f.frameNumber diff <;> cases active <;>
        cases broken <;> simp [advanceChain,activateChain,ha,hd,hz,hb]

theorem advanceChain_active (decisions : List (ℕ × DependencyDescriptorForwardingDecision))
    (f : DependencyDescriptorFrame) (c : ℕ) (state : DescriptorChainState) :
    (advanceChain decisions f c (activateChain f c state)).active=f.chainActive c := by
  simp only [advanceChain]
  split_ifs <;> rfl

variable {y : DependencyDescriptorLayerPolicy} {log : List DecidedFrame}
  {s : DependencyDescriptorForwardingSelector}

def ChainsRecorded (log : List DecidedFrame) (s : DependencyDescriptorForwardingSelector) : Prop :=
  ∀chain,s.chains[chain]?=some ⟨true,false⟩ ↔
    ∃earlier last,log=earlier++[last] ∧ ChainIntact chain earlier last.frame

theorem Represents.updateChains_intact_iff (h : Represents y log s)
    (hc : ChainsRecorded log s) (f : DependencyDescriptorFrame) (c : ℕ) :
    (s.updateChains f).2.chains[c]?=some ⟨true,false⟩ ↔ ChainIntact c log f := by
  rw [updateChains_getElem?]
  constructor
  · intro haf
    obtain ⟨diff,hd,hst⟩ := map_eq_some_iff.mp haf
    obtain ⟨ha,hz | ⟨hb,hba⟩⟩ := (advanceChain_eq_intact_iff hd).mp hst
    · exact ChainIntact.restart ha (hz ▸ hd)
    · have hs : s.chains[c]?=some ⟨true,false⟩ := by
        cases hget : s.chains[c]? with
        | none => rw [hget] at hb; cases hb
        | some state => rw [hget,getD_some] at hb; rw [hb]
      obtain ⟨e,last,rfl,hl⟩ := (hc c).mp hs
      exact ChainIntact.next hl ha hd ((h.diffForwarded_iff _ _).mp hba)
  · intro hi
    cases hi with
    | restart ha hd =>
      rw [hd,map_some,(advanceChain_eq_intact_iff hd).mpr ⟨ha,.inl rfl⟩]
    | next hl ha hd hf =>
      have hs := (hc c).mpr ⟨_,_,rfl,hl⟩
      have hba := (h.diffForwarded_iff _ _).mpr hf
      rw [hd,map_some,hs,getD_some,(advanceChain_eq_intact_iff hd).mpr ⟨ha,.inr ⟨rfl,hba⟩⟩]

theorem selectUncached_chains (s : DependencyDescriptorForwardingSelector)
    (f : DependencyDescriptorFrame) :
    (s.selectUncached f).2.chains=(s.updateChains f).2.chains := by
  cases hv : f.chainsCovered with
  | true => simp [selectUncached,updateChains,hv]
  | false => simp [selectUncached,updateChains,hv]

theorem Represents.select_chainsRecorded (h : Represents y log s)
    (hch : ChainsRecorded log s) (f : DependencyDescriptorFrame) :
    ChainsRecorded
      (recordFresh DecidedFrame.number decisionCacheCapacity log ⟨f,(s.select f).1⟩)
      (s.select f).2 := by
  cases hc : s.cachedDecision f.frameNumber with
  | some d =>
    have hr : DecidedRecently log f.frameNumber := by
      by_contra hnot
      rw [(h.cachedDecision_eq_none_iff _).mpr hnot] at hc
      cases hc
    rw [recordFresh,if_pos (by exact hr),DependencyDescriptorForwardingSelector.select,hc]
    exact hch
  | none =>
    have hnew := (h.cachedDecision_eq_none_iff _).mp hc
    rw [recordFresh,if_neg (by exact hnew)]
    intro c
    have ha : (s.select f).2.chains=(s.updateChains f).2.chains := by
      rw [DependencyDescriptorForwardingSelector.select,hc,← selectUncached_chains]
      rfl
    rw [ha,h.updateChains_intact_iff hch]
    constructor
    · intro hi
      exact ⟨log,_,rfl,hi⟩
    · intro hl
      obtain ⟨e,last,hlog,hi⟩ := hl
      obtain ⟨rfl,hs⟩ := append_inj' hlog rfl
      obtain rfl := singleton_injective hs
      exact hi

theorem chainsRecorded_decidedFrames (y : DependencyDescriptorLayerPolicy)
    (fs : List DependencyDescriptorFrame) :
    ChainsRecorded (decidedFrames y fs) (exec select (new y) fs) := by
  induction fs using reverseRecOn with
  | nil => exact fun c => by simp [new,decidedFrames]
  | append_singleton fs f ih =>
    rw [decidedFrames_concat,exec_concat]
    exact (represents_decidedFrames y fs).select_chainsRecorded ih f

/-- The chain of the selected target is active, so an unbroken one is an intact one. -/
theorem Represents.forwardChecks_iff {log : List DecidedFrame}
    {s : DependencyDescriptorForwardingSelector}
    (h : Represents y log s) (hc : ChainsRecorded log s) (hco : f.chainsCovered) :
    ForwardChecks (s.updateChains f).2 f k ↔ Forwardable y log f k := by
  have hpo : (s.updateChains f).2.policy=y := h.samePolicy
  constructor
  · intro hch
    obtain ⟨⟨l,hl,rfl⟩,hpr,hr,hcha⟩ := hch
    rw [hpo] at hl
    refine ⟨hco,⟨l,hl,rfl⟩,hpr,?_,?_⟩
    · intro diff hd hne
      exact (h.diffForwarded_iff _ _).mp (hr diff hd hne)
    · intro hne
      obtain ⟨c,state,hp,hs,hi⟩ := hcha hne
      obtain ⟨hmem,ha,-⟩ := selectTarget_eq_some hl
      have hw := (isAdmissible_iff y f l).mp ha
      have hac := chainActive_of_isActive hmem ((isActive_iff f l.target).mpr hw.active) hp
      refine ⟨c,hp,(h.updateChains_intact_iff hc f _).mp ?_⟩
      rw [hs]
      have hk : state.active := by
        rw [updateChains_getElem?] at hs
        obtain ⟨diff,-,rfl⟩ := map_eq_some_iff.mp hs
        exact advanceChain_active _ _ _ _ ▸ hac
      obtain ⟨active,broken⟩ := state
      cases hk
      cases hi
      rfl
  · intro hf
    refine ⟨?_,hf.present,?_,?_⟩
    · rw [hpo]
      exact hf.selected
    · intro diff hd hne
      exact (h.diffForwarded_iff _ _).mpr (hf.references diff hd hne)
    · intro hne
      obtain ⟨c,hp,hi⟩ := hf.chain hne
      exact ⟨c,_,hp,(h.updateChains_intact_iff hc f _).mpr hi,rfl⟩

theorem answer_eq_forward_iff {fs : List DependencyDescriptorFrame}
    (hnew : ¬ DecidedRecently (decidedFrames y fs) f.frameNumber) (k : UInt8) :
    answer y fs f = .forward k ↔ Forwardable y (decidedFrames y fs) f k := by
  have h := represents_decidedFrames y fs
  have hch := chainsRecorded_decidedFrames y fs
  rw [answer,select_of_uncached ((h.cachedDecision_eq_none_iff _).mpr hnew)]
  cases hc : f.chainsCovered with
  | false =>
    constructor
    · intro hfo
      simp [selectUncached,updateChains,hc] at hfo
    · intro hf
      rw [hf.covered] at hc
      cases hc
  | true =>
    have hd : ((exec select (new y) fs).selectUncached f).1 =
        ((exec select (new y) fs).updateChains f).2.decideFrame f := by
      simp [selectUncached,updateChains,hc]
    rw [hd,← h.forwardChecks_iff hch hc]
    exact ⟨decideFrame_forward,ForwardChecks.decideFrame⟩

end OxideSfu.VideoIngress
