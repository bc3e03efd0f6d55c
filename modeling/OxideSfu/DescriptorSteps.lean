import OxideSfu.DescriptorSelector
import OxideSfu.RecencyWindow

/-!
# What one decision of the descriptor selector does

The chosen target is the highest admissible one, an active chain that is intact after a
frame is backed by that frame's diff, a forwarded frame has passed all the checks, and
only the cache remembers a decision.
-/

namespace OxideSfu.VideoIngress

open RecencyWindow DependencyDescriptorForwardingSelector List

variable {l : DependencyDescriptorTargetLayer} {f : DependencyDescriptorFrame}
  (layers : List DependencyDescriptorTargetLayer) (a : DependencyDescriptorTargetLayer)

theorem keyLe_iff (b : DependencyDescriptorTargetLayer) :
    keyLe a b ↔ a.spatial<b.spatial ∨ a.spatial=b.spatial ∧ a.temporal≤b.temporal := by
  simp [keyLe]

theorem keyLe_refl : keyLe a a := by
  simp [keyLe_iff]

theorem keyLe_trans {a b c : DependencyDescriptorTargetLayer} (hab : keyLe a b)
    (hbc : keyLe b c) : keyLe a c := by
  rw [keyLe_iff] at hab hbc ⊢
  rcases hab with hab | ⟨hab,hab'⟩
  · rcases hbc with hbc | ⟨hbc,-⟩
    · exact .inl (hab.trans hbc)
    · exact .inl (hbc ▸ hab)
  · rcases hbc with hbc | ⟨hbc,hbc'⟩
    · exact .inl (hab ▸ hbc)
    · exact .inr ⟨hab.trans hbc,UInt8.le_trans hab' hbc'⟩

theorem keyLe_of_not_keyLe {a b : DependencyDescriptorTargetLayer} (h : ¬ keyLe a b) :
    keyLe b a := by
  rw [keyLe_iff] at h ⊢
  rcases lt_trichotomy a.spatial b.spatial with hlt | heq | hgt
  · exact absurd (.inl hlt) h
  · rcases UInt8.le_total a.temporal b.temporal with hle | hle
    · exact absurd (.inr ⟨heq,hle⟩) h
    · exact .inr ⟨heq.symm,hle⟩
  · exact .inl hgt

theorem maxByKey_concat (l : DependencyDescriptorTargetLayer) :
    maxByKey (layers++[l])=match maxByKey layers with
      | none => some l
      | some best => if keyLe best l then some l else some best := by
  rw [maxByKey,foldl_append]
  rfl

theorem maxByKey_spec :
    match maxByKey layers with
    | none => layers=[]
    | some best => best∈layers ∧ ∀l∈layers,keyLe l best := by
  induction layers using reverseRecOn with
  | nil => rfl
  | append_singleton layers l ih =>
    rw [maxByKey_concat]
    cases hb : maxByKey layers with
    | none =>
      rw [hb] at ih
      subst ih
      simp [keyLe_refl]
    | some best =>
      rw [hb] at ih
      obtain ⟨hmem,hmax⟩ := ih
      by_cases hle : keyLe best l
      · simp only [hle,if_true]
        refine ⟨by simp,?_⟩
        intro o ho
        rcases mem_append.mp ho with ho | ho
        · exact keyLe_trans (hmax o ho) hle
        · rw [mem_singleton.mp ho]
          exact keyLe_refl l
      · simp only [hle,Bool.false_eq_true,if_false]
        refine ⟨mem_append_left _ hmem,?_⟩
        intro o ho
        rcases mem_append.mp ho with ho | ho
        · exact hmax o ho
        · rw [mem_singleton.mp ho]
          exact keyLe_of_not_keyLe hle

theorem selectTarget_eq_some {y : DependencyDescriptorLayerPolicy} (h : selectTarget y f=some l) :
    l∈f.targetLayers ∧ isAdmissible y f l ∧ ∀o∈f.targetLayers,isAdmissible y f o → keyLe o l := by
  have hs := maxByKey_spec (f.targetLayers.filter (isAdmissible y f))
  rw [selectTarget] at h
  rw [h] at hs
  obtain ⟨hmem,hmax⟩ := hs
  obtain ⟨hl,ha⟩ := mem_filter.mp hmem
  refine ⟨hl,ha,?_⟩
  intro o ho hok
  exact hmax o (mem_filter.mpr ⟨ho,hok⟩)

variable {decisions : List (ℕ × DependencyDescriptorForwardingDecision)}
  {state : DescriptorChainState} {chainIndex : ℕ}

theorem advanceChain_intact {diff : UInt16} (hd : f.chainDiffs[chainIndex]?=some diff)
    (ha : state.active) (h : (advanceChain decisions f chainIndex state).broken=false) :
    diff=0 ∨ diffForwarded decisions f.frameNumber diff := by
  have hget : f.chainDiffs.getD chainIndex 0=diff := by
    rw [getD_eq_getElem?_getD,hd,Option.getD_some]
  by_contra hnot
  obtain ⟨hz,hb⟩ := not_or.mp hnot
  simp only [advanceChain,ha,hget,hz,hb] at h
  simp at h

/-- An active chain that is intact after the update is backed by this frame's diff. -/
theorem updateChains_intact {s : DependencyDescriptorForwardingSelector}
    (hs : (s.updateChains f).2.chains[chainIndex]?=some state)
    (hi : state.broken=false) (ha : f.chainActive chainIndex) :
    ∃diff,f.chainDiffs[chainIndex]?=some diff ∧
      (diff=0 ∨ diffForwarded s.decisions f.frameNumber diff) := by
  simp only [updateChains,List.getElem?_mapIdx,Option.map_eq_some_iff] at hs
  obtain ⟨_,⟨b,hb,rfl⟩,rfl⟩ := hs
  have hlt : chainIndex<f.chainDiffs.length := by
    have hlen := (List.getElem?_eq_some_iff.mp hb).1
    simp only [resizeChains,List.length_append,List.length_take,List.length_replicate] at hlen
    omega
  have hd := List.getElem?_eq_getElem hlt
  exact ⟨_,hd,advanceChain_intact hd (by exact ha) hi⟩

theorem chainActive_of_isActive {c : UInt8} (hl : l∈f.targetLayers)
    (ha : f.isActive l.target) (hc : f.targetProtectedByChain[l.target.toNat]?=some c) :
    f.chainActive c.toNat := by
  refine any_eq_true.mpr ⟨l,hl,?_⟩
  simp [ha,hc]

structure ForwardChecks (s : DependencyDescriptorForwardingSelector)
    (frame : DependencyDescriptorFrame) (target : UInt8) : Prop where
  highest : ∃layer,selectTarget s.policy frame=some layer ∧ layer.target=target
  present : ∃dti,frame.dtis[target.toNat]?=some dti ∧ dti ≠ .notPresent
  references : ∀diff∈frame.frameDiffs,diff≠0 →
    diffForwarded s.decisions frame.frameNumber diff
  chain : frame.chainDiffs≠[] → ∃chain state,
    frame.targetProtectedByChain[target.toNat]?=some chain ∧
    s.chains[chain.toNat]?=some state ∧ state.broken=false

theorem references_of_not_any
    (h : ¬ f.frameDiffs.any (fun diff =>
      diff != 0 && !diffForwarded decisions f.frameNumber diff)) :
    ∀diff∈f.frameDiffs,diff≠0 → diffForwarded decisions f.frameNumber diff := by
  intro diff hd hne
  by_contra hb
  apply h
  refine any_eq_true.mpr ⟨diff,hd,?_⟩
  rw [Bool.not_eq_true] at hb
  simp [hne,hb]

theorem decideFrame_forward {s : DependencyDescriptorForwardingSelector}
    {k : UInt8} (h : s.decideFrame f = .forward k) : ForwardChecks s f k := by
  rw [decideFrame] at h
  split at h
  · cases h
  · rename_i l hl
    split at h
    · cases h
    · cases h
    · rename_i dti hp hdti
      split at h
      · cases h
      · rename_i hany
        have hr := references_of_not_any hany
        split at h
        · rename_i he
          cases h
          exact ⟨⟨l,hl,rfl⟩,⟨dti,hdti,hp⟩,hr,
            fun hne => absurd (isEmpty_iff.mp he) hne⟩
        · split at h
          · cases h
          · rename_i c hc
            split at h
            · cases h
            · rename_i state hs
              split at h
              · cases h
              · rename_i hi
                cases h
                exact ⟨⟨l,hl,rfl⟩,⟨dti,hdti,hp⟩,hr,
                  fun _ => ⟨c,state,hc,hs,by simpa using hi⟩⟩

variable (s : DependencyDescriptorForwardingSelector)

theorem selectUncached_frame (f : DependencyDescriptorFrame) :
    (s.selectUncached f).2.policy=s.policy ∧ (s.selectUncached f).2.decisions=s.decisions := by
  cases hv : f.chainsCovered with
  | true => simp [selectUncached,updateChains,hv]
  | false => simp [selectUncached,updateChains,hv]

theorem remember_decisions (hlen : s.decisions.length≤decisionCacheCapacity) (n : ℕ)
    (d : DependencyDescriptorForwardingDecision) :
    (s.remember n d).decisions=(s.decisions++[(n,d)]).rtake decisionCacheCapacity := by
  rw [remember]
  by_cases hf : s.decisions.length=decisionCacheCapacity
  · rw [rtake,length_append,hf,length_singleton]
    cases hs : s.decisions with
    | nil => rw [hs] at hf; cases hf
    | cons e rest => rfl
  · simp only [hf,if_false]
    rw [rtake_of_length_le]
    rw [length_append,length_singleton]
    omega

variable {s}

theorem select_of_uncached (h : s.cachedDecision f.frameNumber=none) :
    (s.select f).1=(s.selectUncached f).1 := by
  rw [select,h]

end OxideSfu.VideoIngress
