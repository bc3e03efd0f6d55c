import OxideSfu.DescriptorForwarding
import OxideSfu.DescriptorIngress

/-!
# Completely delivered scalable streams

In a stream that is delivered in order with consecutive 16-bit frame numbers, every diff finds the
frame that many positions earlier, as long as it does not exceed the number on the wire. This gives
the exact condition under which all frames of the target are forwarded.
-/

namespace OxideSfu.VideoIngress

open StepRuns RecencyWindow DependencyDescriptorForwardingSelector DependencyDescriptorFrame List

/-- The structure that all frames of a stream share: the layers of the decode targets,
which the mask has room for, and the chain that protects each of them. -/
structure ScalableStructure where
  layers : List DecodeTargetLayer
  chainCount : ℕ
  protectedByChain : List UInt8
  length_layers_le : layers.length≤32
  length_protectedByChain : chainCount≠0 → protectedByChain.length=layers.length
  lt_chainCount : ∀chain∈protectedByChain,chain.toNat<chainCount

/-- A descriptor that follows the structure and has all targets active. -/
structure FollowsStructure (shape : ScalableStructure)
    (metadata : DependencyDescriptorPacketMetadata) : Prop where
  layers : metadata.decodeTargetLayers=shape.layers
  protectedByChain : metadata.decodeTargetProtectedByChain=shape.protectedByChain
  chains : metadata.chainDiffs.length=shape.chainCount
  indications : metadata.decodeTargetIndications.length=shape.layers.length
  active : ∀target<shape.layers.length,
    metadata.activeDecodeTargetsMask.toNat.testBit target

def PresentInSelected (policy : DependencyDescriptorLayerPolicy)
    (metadata : DependencyDescriptorPacketMetadata) : Prop :=
  ∃layer dti,selectTarget policy metadata.frame=some layer ∧
    metadata.decodeTargetIndications[layer.target.toNat]?=some dti ∧ dti ≠ .notPresent

def protectingDiff (policy : DependencyDescriptorLayerPolicy)
    (metadata : DependencyDescriptorPacketMetadata) : UInt8 :=
  (((selectTarget policy metadata.frame).bind fun layer =>
    metadata.decodeTargetProtectedByChain[layer.target.toNat]?).bind fun chain =>
      metadata.chainDiffs[chain.toNat]?).getD 0

/-- A diff of frame `k` names an earlier frame that is present in the selected target. -/
def NamesPresent (policy : DependencyDescriptorLayerPolicy)
    (stream : List DependencyDescriptorPacketMetadata) (k diff : ℕ) : Prop :=
  diff≤k ∧ ∃metadata,stream[k-diff]?=some metadata ∧ PresentInSelected policy metadata

structure CompleteStream (shape : ScalableStructure) (policy : DependencyDescriptorLayerPolicy)
    (stream : List DependencyDescriptorPacketMetadata) : Prop where
  follows : ∀metadata∈stream,FollowsStructure shape metadata
  consecutive : ∃first : UInt16,∀k metadata,stream[k]?=some metadata →
    metadata.frameNumber=first+UInt16.ofNat k
  startsWithKeyFrame : ∀metadata,stream[0]?=some metadata →
    metadata.frameDiffs=[] ∧ ∀diff∈metadata.chainDiffs,diff=0
  references : ∀k metadata,stream[k]?=some metadata → PresentInSelected policy metadata →
    ∀diff∈metadata.frameDiffs,diff≠0 → diff<256 ∧ NamesPresent policy stream k diff.toNat
  chainReferences : ∀k metadata,stream[k]?=some metadata → PresentInSelected policy metadata →
    protectingDiff policy metadata≠0 →
    NamesPresent policy stream k (protectingDiff policy metadata).toNat

def streamDecision (policy : PolicyInForce) (earlier : List DependencyDescriptorPacketMetadata)
    (metadata : DependencyDescriptorPacketMetadata) : DependencyDescriptorForwardingDecision :=
  (selectDependencyDescriptorFrame
    (exec selectDependencyDescriptorFrame none (earlier.map fun m => (policy,m.frame)))
    (policy,metadata.frame)).1

def ForwardsPresentFrames (policy : PolicyInForce)
    (stream : List DependencyDescriptorPacketMetadata) : Prop :=
  ∀k metadata,stream[k]?=some metadata →
    PresentInSelected policy.descriptorPolicy metadata →
    (streamDecision policy (stream.take k) metadata).isForward

/-- No diff that decides about a present frame exceeds the number on the wire. Those are
its own frame diffs, and the chain diffs of all frames since the chain was last
restarted; the latter may belong to frames outside the target and then have to name a
present frame as well. -/
def DiffsWithinWireNumbers (policy : DependencyDescriptorLayerPolicy)
    (stream : List DependencyDescriptorPacketMetadata) : Prop :=
  ∀k metadata,stream[k]?=some metadata → PresentInSelected policy metadata →
    (∀diff∈metadata.frameDiffs,diff ≤ metadata.frameNumber) ∧
    ∀i link,i≤k → stream[i]?=some link →
      (∀j between,i≤j → j≤k → stream[j]?=some between →
        protectingDiff policy between≠0) →
      (protectingDiff policy link).toNat≤link.frameNumber.toNat ∧
        NamesPresent policy stream i (protectingDiff policy link).toNat

section

def NumberedFrom (first : ℕ) (frames : List DependencyDescriptorFrame) : Prop :=
  ∀k frame,frames[k]?=some frame → frame.frameNumber=(first+k) % 65536

def ForwardedAt (policy : DependencyDescriptorLayerPolicy) (frames : List DependencyDescriptorFrame)
    (k : ℕ) : Prop :=
  ∃frame,frames[k]?=some frame ∧ (answer policy (frames.take k) frame).isForward

def Resolves (policy : DependencyDescriptorLayerPolicy) (frames : List DependencyDescriptorFrame)
    (k frameNumber diff : ℕ) : Prop :=
  diff≤frameNumber ∧ diff≤k ∧ ForwardedAt policy frames (k-diff)

variable {first : ℕ} {y : DependencyDescriptorLayerPolicy}
  {frames : List DependencyDescriptorFrame}

section

variable (h : NumberedFrom first frames)

include h

/-- The window is far shorter than a cycle of the frame number. -/
theorem NumberedFrom.freshKeys : FreshKeys decisionCacheCapacity (frames.map frameNumber) := by
  intro pre n post hs hmem
  obtain ⟨i,hi,hget⟩ := mem_rtake_iff_getElem?.mp hmem
  have hlt := (List.getElem?_eq_some_iff.mp hget).1
  have hl : (frames.map frameNumber)[pre.length]?=some n := by
    simp [hs]
  have hf : (frames.map frameNumber)[i]?=some n := by
    rw [hs,getElem?_append_left hlt,hget]
  rw [getElem?_map,Option.map_eq_some_iff] at hl hf
  obtain ⟨last,hl,hla⟩ := hl
  obtain ⟨e,he,hea⟩ := hf
  have hk := h _ _ hl
  have hj := h _ _ he
  rw [decisionCacheCapacity] at hi
  omega

theorem NumberedFrom.take (k : ℕ) : NumberedFrom first (frames.take k) := by
  intro i f hf
  rw [getElem?_take] at hf
  split_ifs at hf
  exact h i f hf

theorem NumberedFrom.decidedFrames_getElem? (i : ℕ) :
    (decidedFrames y frames)[i]?=frames[i]?.map (fun f => ⟨f,answer y (frames.take i) f⟩) := by
  have hk : ((trace select (new y) frames).map (fun t =>
      (⟨t.input,t.output⟩ : DecidedFrame))).map DecidedFrame.number =
      frames.map frameNumber := by
    conv_rhs => rw [← map_input_trace select (new y) frames]
    rw [map_map,map_map]
    rfl
  have hf := h.freshKeys
  rw [← hk] at hf
  rw [decidedFrames,hf.foldl_recordFresh,getElem?_map,trace_getElem?,Option.map_map]
  rfl

theorem NumberedFrom.length_decidedFrames : (decidedFrames y frames).length=frames.length := by
  apply le_antisymm
  · apply getElem?_eq_none_iff.mp
    rw [h.decidedFrames_getElem?,getElem?_eq_none (le_refl _)]
    rfl
  · apply getElem?_eq_none_iff.mp
    have hn : (decidedFrames y frames)[(decidedFrames y frames).length]?=none :=
      getElem?_eq_none (le_refl _)
    rw [h.decidedFrames_getElem?,Option.map_eq_none_iff] at hn
    exact hn

end

variable {frame : DependencyDescriptorFrame} {k : ℕ} (h : NumberedFrom first frames)

include h

theorem decidedFrames_take_getElem? {i : ℕ} (hik : i<k) :
    (decidedFrames y (frames.take k))[i]? =
      frames[i]?.map (fun f => ⟨f,answer y (frames.take i) f⟩) := by
  rw [(h.take k).decidedFrames_getElem?,getElem?_take_of_lt hik,take_take,
    min_eq_left (le_of_lt hik)]

section

variable (hk : frames[k]? = some frame)

include hk

/-- A diff below 256 finds the frame that many positions earlier, and no other one. -/
theorem NumberedFrom.forwardedRecently_iff {diff : ℕ} (hpos : 0<diff) (hdi : diff<256) :
    ForwardedRecently (decidedFrames y (frames.take k)) (frame.frameNumber-diff) ↔
      Resolves y frames k frame.frameNumber diff := by
  have hlt := (List.getElem?_eq_some_iff.mp hk).1
  have hlen : (decidedFrames y (frames.take k)).length=k := by
    rw [(h.take k).length_decidedFrames,length_take,min_eq_left (le_of_lt hlt)]
  have hn := h k frame hk
  constructor
  · intro hre
    obtain ⟨found,hfo,hs⟩ := hre
    obtain ⟨tg,hmem⟩ := mem_forwardedFrames.mp hfo
    obtain ⟨i,hi,hget⟩ := mem_rtake_iff_getElem?.mp hmem
    have hik := (List.getElem?_eq_some_iff.mp hget).1
    rw [hlen] at hi hik
    rw [decidedFrames_take_getElem? h hik,Option.map_eq_some_iff] at hget
    obtain ⟨e,he,hd⟩ := hget
    obtain ⟨rfl,ha⟩ := DecidedFrame.mk.inj hd
    have hp := h i e he
    rw [decisionCacheCapacity] at hi
    have hi' : i=k-diff := by omega
    subst hi'
    refine ⟨by omega,by omega,e,he,?_⟩
    rw [ha]
    rfl
  · intro hr
    obtain ⟨hle,hb,e,he,hf⟩ := hr
    have hp := h _ e he
    refine ⟨e,?_,by omega⟩
    refine mem_map.mpr ⟨⟨e,answer y (frames.take (k-diff)) e⟩,?_,rfl⟩
    refine mem_filter.mpr ⟨mem_rtake_iff_getElem?.mpr ⟨k-diff,?_,?_⟩,hf⟩
    · rw [decisionCacheCapacity]
      omega
    · rw [decidedFrames_take_getElem? h (by omega),he]
      rfl

theorem NumberedFrom.not_decidedRecently :
    ¬ DecidedRecently (decidedFrames y (frames.take k)) frame.frameNumber := by
  intro hr
  obtain ⟨i,hi,hget⟩ := mem_rtake_iff_getElem?.mp hr
  have hlt := (List.getElem?_eq_some_iff.mp hk).1
  have hik := (List.getElem?_eq_some_iff.mp hget).1
  rw [length_map,(h.take k).length_decidedFrames,length_take, min_eq_left (le_of_lt hlt)] at hi hik
  rw [getElem?_map,decidedFrames_take_getElem? h hik,Option.map_map,Option.map_eq_some_iff] at hget
  obtain ⟨e,he,hs⟩ := hget
  change e.frameNumber=_ at hs
  have hp := h i e he
  have hn := h k frame hk
  rw [decisionCacheCapacity] at hi
  omega

theorem decidedFrames_take_succ :
    decidedFrames y (frames.take (k+1))=decidedFrames y (frames.take k) ++
      [⟨frame,answer y (frames.take k) frame⟩] := by
  rw [take_add_one,hk,Option.toList_some,decidedFrames_concat,recordFresh,
    if_neg (by exact h.not_decidedRecently hk)]

end

/-- One more frame keeps a chain intact by restarting it or by a diff that resolves. -/
theorem NumberedFrom.chainIntact_succ_iff {c : ℕ} {last : DependencyDescriptorFrame} {diff : UInt16}
    (hl : frames[k]?=some last) (hk : frames[k+1]?=some frame) (ha : frame.chainActive c)
    (hd : frame.chainDiffs[c]?=some diff) (hsm : diff.toNat<256) :
    ChainIntact c (decidedFrames y (frames.take (k+1))) frame ↔
      diff=0 ∨ ChainIntact c (decidedFrames y (frames.take k)) last ∧
        Resolves y frames (k+1) frame.frameNumber diff.toNat := by
  by_cases hz : diff=0
  · exact ⟨fun _ => .inl hz,fun _ => ChainIntact.restart ha (hz ▸ hd)⟩
  · have hpos : 0<diff.toNat := Nat.pos_of_ne_zero fun he => hz (UInt16.toNat_inj.mp he)
    rw [← h.forwardedRecently_iff hk hpos hsm,decidedFrames_take_succ h hl]
    constructor
    · intro hi
      generalize hex : decidedFrames y (frames.take k) ++
        [⟨last,answer y (frames.take k) last⟩]=extended at hi ⊢
      cases hi with
      | restart _ hs =>
        rw [hd] at hs
        exact absurd (Option.some.inj hs) hz
      | next hb _ hs hf =>
        obtain ⟨rfl,hsame⟩ := append_inj' hex rfl
        obtain rfl := singleton_injective hsame
        obtain rfl := Option.some.inj (hd.symm.trans hs)
        exact .inr ⟨hb,hf⟩
    · rintro (hbad | ⟨hb,hf⟩)
      · exact absurd hbad hz
      · exact ChainIntact.next hb ha hd hf

/-- A chain that is active throughout is intact at a frame when all diffs since its last
restart resolve. -/
theorem NumberedFrom.chainIntact_iff {chain : ℕ}
    (diffOf : DependencyDescriptorFrame → UInt16)
    (ha : ∀frame∈frames,frame.chainActive chain)
    (hd : ∀frame∈frames,frame.chainDiffs[chain]?=some (diffOf frame) ∧
      (diffOf frame).toNat<256) (hs : ∀frame,frames[0]?=some frame → diffOf frame=0)
    (hk : frames[k]?=some frame) :
    ChainIntact chain (decidedFrames y (frames.take k)) frame ↔
      ∀i link,i≤k → frames[i]?=some link →
        (∀j between,i≤j → j≤k → frames[j]?=some between → diffOf between≠0) →
        Resolves y frames i link.frameNumber (diffOf link).toNat := by
  induction k generalizing frame with
  | zero =>
    have hmem := mem_of_getElem? hk
    have hz := hs frame hk
    constructor
    · intro _ i link hi hl hb
      obtain rfl : i=0 := by omega
      exact absurd (hs link hl) (hb 0 link (le_refl 0) (le_refl 0) hl)
    · intro _
      exact ChainIntact.restart (ha frame hmem) (hz ▸ (hd frame hmem).1)
  | succ k ih =>
    have hmem := mem_of_getElem? hk
    obtain ⟨hdi,hsm⟩ := hd frame hmem
    have hlt := (List.getElem?_eq_some_iff.mp hk).1
    obtain ⟨last,hla⟩ : ∃last,frames[k]?=some last := ⟨_,getElem?_eq_getElem (by omega)⟩
    rw [h.chainIntact_succ_iff hla hk (ha frame hmem) hdi hsm,ih hla]
    constructor
    · rintro (hz | ⟨hbe,hown⟩) i link hi hl hb
      · exact absurd hz (hb (k+1) frame hi (le_refl _) hk)
      · rcases lt_or_ge i (k+1) with hik | hik
        · refine hbe i link (by omega) hl ?_
          intro j between hij hjk
          exact hb j between hij (by omega)
        · obtain rfl : i=k+1 := by omega
          obtain rfl := Option.some.inj (hk.symm.trans hl)
          exact hown
    · intro hall
      by_cases hz : diffOf frame=0
      · exact .inl hz
      · refine .inr ⟨?_,?_⟩
        · intro i link hi hl hb
          refine hall i link (by omega) hl ?_
          intro j between hij hjk hget
          rcases lt_or_ge j (k+1) with hj | hj
          · exact hb j between hij (by omega) hget
          · obtain rfl : j=k+1 := by omega
            obtain rfl := Option.some.inj (hk.symm.trans hget)
            exact hz
        · refine hall (k+1) frame (le_refl _) hk ?_
          intro j between hij hjk hget
          obtain rfl : j=k+1 := by omega
          obtain rfl := Option.some.inj (hk.symm.trans hget)
          exact hz

end

section

variable {shape : ScalableStructure} {y : DependencyDescriptorLayerPolicy}
  {m : DependencyDescriptorPacketMetadata} {l : DependencyDescriptorTargetLayer}

theorem target_lt_of_mem_targetLayers (hl : l∈m.frame.targetLayers) :
    l.target.toNat < m.decodeTargetLayers.length := by
  obtain ⟨k,ht,rfl⟩ := mem_map.mp hl
  obtain ⟨⟨decodeTarget,x⟩,hp,hs⟩ := mem_filterMap.mp ht
  have hlt := (mem_zipIdx hp).2.1
  dsimp only at hs
  by_cases hb : x<256
  · rw [if_pos hb] at hs
    obtain rfl := Option.some.inj hs
    rw [UInt8.toNat_ofNat_of_lt' hb]
    simpa using hlt
  · rw [if_neg hb] at hs
    cases hs

theorem FollowsStructure.target_lt (h : FollowsStructure shape m)
    (hl : l∈m.frame.targetLayers) : l.target.toNat<shape.layers.length := by
  have hlt := target_lt_of_mem_targetLayers hl
  rwa [h.layers] at hlt

theorem FollowsStructure.isActive (h : FollowsStructure shape m) (hl : l∈m.frame.targetLayers) :
    m.frame.isActive l.target := by
  have hlt := h.target_lt hl
  exact (isActive_iff _ _).mpr ⟨lt_of_lt_of_le hlt shape.length_layers_le,h.active _ hlt⟩

variable {o : DependencyDescriptorPacketMetadata} (h : FollowsStructure shape m)

include h

theorem FollowsStructure.targetLayers_eq (ho : FollowsStructure shape o) :
    m.frame.targetLayers=o.frame.targetLayers := by
  simp only [DependencyDescriptorPacketMetadata.frame,DependencyDescriptorMetadataSnapshot.frame,
    DependencyDescriptorMetadataSnapshot.fromPacketMetadata,h.layers,ho.layers]

theorem FollowsStructure.selectTarget_eq (ho : FollowsStructure shape o) :
    selectTarget y m.frame=selectTarget y o.frame := by
  have hl := h.targetLayers_eq ho
  rw [selectTarget,hl]
  congr 1
  apply filter_congr
  intro l hla
  rw [isAdmissible,isAdmissible,ho.isActive hla,h.isActive (hl ▸ hla)]

theorem FollowsStructure.protected (hc : shape.chainCount≠0) (hl : l∈m.frame.targetLayers) :
    ∃c,shape.protectedByChain[l.target.toNat]?=some c ∧ c.toNat<shape.chainCount := by
  have hlt := h.target_lt hl
  rw [← shape.length_protectedByChain hc] at hlt
  exact ⟨_,getElem?_eq_getElem hlt,shape.lt_chainCount _ (getElem_mem hlt)⟩

theorem FollowsStructure.targetProtectedByChain :
    m.frame.targetProtectedByChain=shape.protectedByChain :=
  h.protectedByChain

theorem FollowsStructure.length_chainDiffs : m.frame.chainDiffs.length=shape.chainCount := by
  rw [← h.chains]
  exact length_map _

theorem FollowsStructure.chainDiffs_eq_nil_iff : m.frame.chainDiffs=[] ↔ shape.chainCount=0 := by
  rw [← length_eq_zero_iff,h.length_chainDiffs]

theorem FollowsStructure.chainsCovered : m.frame.chainsCovered := by
  rw [DependencyDescriptorFrame.chainsCovered,Bool.or_eq_true]
  by_cases hc : shape.chainCount=0
  · exact .inl (isEmpty_iff.mpr (h.chainDiffs_eq_nil_iff.mpr hc))
  · refine .inr (all_eq_true.mpr ?_)
    intro l hl
    obtain ⟨c,hch,hlt⟩ := h.protected hc hl
    simp only [h.targetProtectedByChain,hch,h.length_chainDiffs,decide_eq_true_eq]
    exact hlt

end

section

variable {shape : ScalableStructure} {policy : DependencyDescriptorLayerPolicy}
  {stream : List DependencyDescriptorPacketMetadata}

def streamFrames (stream : List DependencyDescriptorPacketMetadata) :
    List DependencyDescriptorFrame :=
  stream.map DependencyDescriptorPacketMetadata.frame

variable {metadata : DependencyDescriptorPacketMetadata} {l : DependencyDescriptorTargetLayer}
  {k : ℕ} {c : UInt8}

theorem streamFrames_getElem? (hk : stream[k]?=some metadata) :
    (streamFrames stream)[k]?=some metadata.frame := by
  rw [streamFrames,getElem?_map,hk]
  rfl

theorem exists_of_streamFrames_getElem? {f : DependencyDescriptorFrame}
    (hk : (streamFrames stream)[k]?=some f) :
    ∃m,stream[k]?=some m ∧ m.frame=f := by
  rw [streamFrames,getElem?_map] at hk
  exact Option.map_eq_some_iff.mp hk

theorem CompleteStream.numbered (h : CompleteStream shape policy stream) :
    ∃first,NumberedFrom first (streamFrames stream) := by
  obtain ⟨first,hf⟩ := h.consecutive
  refine ⟨first.toNat,?_⟩
  intro k f hk
  obtain ⟨m,hm,rfl⟩ := exists_of_streamFrames_getElem? hk
  change m.frameNumber.toNat=_
  rw [hf k m hm,UInt16.toNat_add,UInt16.toNat_ofNat']
  omega

theorem streamDecision_eq (y : PolicyInForce) (e : List DependencyDescriptorPacketMetadata)
    (md : DependencyDescriptorPacketMetadata) :
    streamDecision y e md=answer y.descriptorPolicy (streamFrames e) md.frame := by
  have hc : (e.map fun m => (y,m.frame))=(streamFrames e).map (Prod.mk y) := by
    rw [streamFrames,map_map]
    rfl
  rw [streamDecision,selectDependencyDescriptorFrame_fst,hc,currentSelector_exec,
    framesUnderPolicy_of_one_policy,answer]

theorem isForward_iff (d : DependencyDescriptorForwardingDecision) :
    d.isForward ↔ ∃k,d = .forward k := by
  cases d <;> simp [DependencyDescriptorForwardingDecision.isForward]

theorem forwardedAt_iff (hk : stream[k]?=some metadata) :
    ForwardedAt policy (streamFrames stream) k ↔
      (answer policy (streamFrames (stream.take k)) metadata.frame).isForward := by
  rw [ForwardedAt,streamFrames_getElem? hk,streamFrames,streamFrames]
  simp

section

variable (h : CompleteStream shape policy stream)

include h

theorem CompleteStream.present_of_forwardedAt (hk : stream[k]?=some metadata)
    (hfo : ForwardedAt policy (streamFrames stream) k) :
    PresentInSelected policy metadata := by
  obtain ⟨first,hn⟩ := h.numbered
  obtain ⟨f,hfr,ha⟩ := hfo
  obtain rfl := Option.some.inj ((streamFrames_getElem? hk).symm.trans hfr)
  obtain ⟨tg,ht⟩ := (isForward_iff _).mp ha
  have hf := (answer_eq_forward_iff (hn.not_decidedRecently hfr) tg).mp ht
  obtain ⟨l,hl,rfl⟩ := hf.selected
  obtain ⟨dti,hdti,hp⟩ := hf.present
  exact ⟨l,dti,hl,hdti,hp⟩

/-- The chain diff of a frame, as the selector reads it for the selected target. -/
theorem CompleteStream.protectingDiff_eq (hmem : metadata∈stream)
    (hl : selectTarget policy metadata.frame=some l)
    (hc : shape.protectedByChain[l.target.toNat]?=some c) :
    metadata.frame.chainDiffs[c.toNat]?=some (protectingDiff policy metadata).toUInt16 := by
  have hf := h.follows metadata hmem
  have hlt : c.toNat < metadata.chainDiffs.length := by
    rw [hf.chains]
    exact shape.lt_chainCount c (mem_of_getElem? hc)
  have hd : protectingDiff policy metadata=metadata.chainDiffs[c.toNat] := by
    rw [protectingDiff,hl,hf.protectedByChain,Option.bind_some,hc,
      Option.bind_some,getElem?_eq_getElem hlt,Option.getD_some]
  change (metadata.chainDiffs.map UInt8.toUInt16)[c.toNat]?=_
  rw [getElem?_map,getElem?_eq_getElem hlt,hd]
  rfl

/-- The diffs since the last restart of the protecting chain all resolve. -/
def ChainResolves (policy : DependencyDescriptorLayerPolicy)
    (stream : List DependencyDescriptorPacketMetadata) (k : ℕ) : Prop :=
  ∀i link,i≤k → stream[i]?=some link →
    (∀j between,i≤j → j≤k → stream[j]?=some between →
      protectingDiff policy between≠0) →
    Resolves policy (streamFrames stream) i link.frameNumber.toNat
      (protectingDiff policy link).toNat

theorem CompleteStream.selectTarget_eq {o : DependencyDescriptorPacketMetadata}
    (hmem : metadata∈stream) (ho : o∈stream) :
    selectTarget policy metadata.frame=selectTarget policy o.frame :=
  (h.follows metadata hmem).selectTarget_eq (h.follows o ho)

theorem CompleteStream.chainActive (hmem : metadata∈stream)
    (hla : selectTarget policy metadata.frame=some l)
    (hc : shape.protectedByChain[l.target.toNat]?=some c) :
    metadata.frame.chainActive c.toNat := by
  have hf := h.follows metadata hmem
  obtain ⟨hl,-,-⟩ := selectTarget_eq_some hla
  refine chainActive_of_isActive hl (hf.isActive hl) ?_
  rw [hf.targetProtectedByChain]
  exact hc

/-- The key frame at the start restarts every chain. -/
theorem CompleteStream.protectingDiff_first (hf : stream[0]?=some metadata) :
    protectingDiff policy metadata=0 := by
  rw [protectingDiff]
  cases hd : ((selectTarget policy metadata.frame).bind fun l =>
      metadata.decodeTargetProtectedByChain[l.target.toNat]?).bind fun c =>
        metadata.chainDiffs[c.toNat]? with
  | none => rfl
  | some diff =>
    obtain ⟨c,-,hget⟩ := Option.bind_eq_some_iff.mp hd
    exact (h.startsWithKeyFrame metadata hf).2 diff (mem_of_getElem? hget)

end

theorem toUInt16_eq_zero_iff (diff : UInt8) : diff.toUInt16=0 ↔ diff=0 := by
  rw [← UInt16.toNat_inj,← UInt8.toNat_inj]
  rfl

theorem CompleteStream.chainIntact_iff (h : CompleteStream shape policy stream)
    (hk : stream[k]?=some metadata) (hla : selectTarget policy metadata.frame=some l)
    (hc : shape.protectedByChain[l.target.toNat]?=some c) :
    ChainIntact c.toNat (decidedFrames policy ((streamFrames stream).take k)) metadata.frame ↔
      ChainResolves policy stream k := by
  obtain ⟨first,hn⟩ := h.numbered
  have hs : ∀m∈stream,selectTarget policy m.frame=some l := by
    intro m hm
    rw [h.selectTarget_eq hm (mem_of_getElem? hk),hla]
  -- the frames' own view of the protecting diff, to which the general lemma applies
  have hdi : ∀m∈stream,m.frame.chainDiffs[c.toNat]?=some (protectingDiff policy m).toUInt16 :=
    fun m hm => h.protectingDiff_eq hm (hs m hm) hc
  have hd : ∀m∈stream,m.frame.chainDiffs.getD c.toNat 0=(protectingDiff policy m).toUInt16 := by
    intro m hm
    rw [getD_eq_getElem?_getD,hdi m hm,Option.getD_some]
  have hz : ∀m∈stream,m.frame.chainDiffs.getD c.toNat 0=0 ↔ protectingDiff policy m=0 := by
    intro m hm
    rw [hd m hm,toUInt16_eq_zero_iff]
  rw [hn.chainIntact_iff (fun frame => frame.chainDiffs.getD c.toNat 0) ?active ?diffs
    ?start (streamFrames_getElem? hk)]
  case active =>
    intro frame hf
    obtain ⟨m,hm,rfl⟩ := mem_map.mp hf
    exact h.chainActive hm (hs m hm) hc
  case diffs =>
    intro frame hf
    obtain ⟨m,hm,rfl⟩ := mem_map.mp hf
    refine ⟨by rw [hd m hm,hdi m hm],?_⟩
    rw [hd m hm]
    exact UInt8.toNat_lt _
  case start =>
    intro frame hf
    obtain ⟨m,hm,rfl⟩ := exists_of_streamFrames_getElem? hf
    exact (hz m (mem_of_getElem? hm)).mpr (h.protectingDiff_first hm)
  constructor
  · intro hall i link hi hl hb
    have hr := hall i link.frame hi (streamFrames_getElem? hl) (by
      intro j frame hij hjk hf
      obtain ⟨m,hm,rfl⟩ := exists_of_streamFrames_getElem? hf
      exact fun he => hb j m hij hjk hm ((hz m (mem_of_getElem? hm)).mp he))
    rw [hd link (mem_of_getElem? hl)] at hr
    exact hr
  · intro hall i frame hi hf hb
    obtain ⟨link,hl,rfl⟩ := exists_of_streamFrames_getElem? hf
    rw [hd link (mem_of_getElem? hl)]
    refine hall i link hi hl ?_
    intro j m hij hjk hm he
    exact hb j m.frame hij hjk (streamFrames_getElem? hm) ((hz m (mem_of_getElem? hm)).mpr he)

theorem protectingDiff_of_chainDiffs_eq_nil (he : metadata.chainDiffs=[]) :
    protectingDiff policy metadata=0 := by
  rw [protectingDiff,he]
  cases (selectTarget policy metadata.frame).bind fun l =>
    metadata.decodeTargetProtectedByChain[l.target.toNat]? with
  | none => rfl
  | some c => rfl

theorem CompleteStream.chainResolves_of_chainCount_eq_zero (h : CompleteStream shape policy stream)
    (hc : shape.chainCount=0) (k : ℕ) : ChainResolves policy stream k := by
  intro i link hi hl hb
  have hf := h.follows link (mem_of_getElem? hl)
  have he : link.chainDiffs=[] := length_eq_zero_iff.mp (hf.chains.trans hc)
  exact absurd (protectingDiff_of_chainDiffs_eq_nil he) (hb i link (le_refl i) hi hl)

/-- A present frame is forwarded exactly when its own diffs and those of its chain since
the last restart all resolve. -/
theorem CompleteStream.forwardedAt_iff_resolves (h : CompleteStream shape policy stream)
    (hk : stream[k]?=some metadata) (hp : PresentInSelected policy metadata) :
    ForwardedAt policy (streamFrames stream) k ↔
      (∀diff∈metadata.frameDiffs,diff≠0 →
        Resolves policy (streamFrames stream) k metadata.frameNumber.toNat diff.toNat) ∧
      ChainResolves policy stream k := by
  obtain ⟨first,hn⟩ := h.numbered
  have hfr := streamFrames_getElem? hk
  have hf := h.follows metadata (mem_of_getElem? hk)
  have hde : ∀target,answer policy ((streamFrames stream).take k) metadata.frame =
      .forward target ↔
        Forwardable policy
          (decidedFrames policy ((streamFrames stream).take k)) metadata.frame target :=
    answer_eq_forward_iff (hn.not_decidedRecently hfr)
  have hr : ∀diff∈metadata.frameDiffs,diff≠0 →
      (ForwardedRecently (decidedFrames policy ((streamFrames stream).take k))
          (metadata.frame.frameNumber-diff.toNat) ↔
        Resolves policy (streamFrames stream) k metadata.frameNumber.toNat diff.toNat) := by
    intro diff hd hne
    have hsm : diff.toNat<256 := (h.references k metadata hk hp diff hd hne).1
    have hpos : 0<diff.toNat := Nat.pos_of_ne_zero fun he => hne (UInt16.toNat_inj.mp he)
    exact hn.forwardedRecently_iff hfr hpos hsm
  obtain ⟨layer,dti,hl,hdti,hdt⟩ := hp
  obtain ⟨hla,-,-⟩ := selectTarget_eq_some hl
  constructor
  · intro hfor
    obtain ⟨frame,hget,ha⟩ := hfor
    obtain rfl := Option.some.inj (hfr.symm.trans hget)
    obtain ⟨target,ht⟩ := (isForward_iff _).mp ha
    have hfo := (hde target).mp ht
    obtain ⟨selected,hs,rfl⟩ := hfo.selected
    obtain rfl := Option.some.inj (hl.symm.trans hs)
    refine ⟨fun diff hd hne =>
      (hr diff hd hne).mp (hfo.references diff hd hne),?_⟩
    by_cases hc : shape.chainCount=0
    · exact h.chainResolves_of_chainCount_eq_zero hc k
    · obtain ⟨chain,hch,hlt⟩ := hf.protected hc hla
      refine (h.chainIntact_iff hk hl hch).mp ?_
      obtain ⟨named,hna,hi⟩ := hfo.chain (hc ∘ hf.chainDiffs_eq_nil_iff.mp)
      rw [hf.targetProtectedByChain,hch] at hna
      obtain rfl := Option.some.inj hna
      exact hi
  · rintro ⟨hdi,hcha⟩
    refine ⟨metadata.frame,hfr,(isForward_iff _).mpr ⟨layer.target,(hde _).mpr ?_⟩⟩
    refine ⟨hf.chainsCovered,⟨layer,hl,rfl⟩,⟨dti,hdti,hdt⟩,?_,?_⟩
    · intro diff hd hne
      exact (hr diff hd hne).mpr (hdi diff hd hne)
    · intro hne
      have hc : shape.chainCount≠0 := hne ∘ hf.chainDiffs_eq_nil_iff.mpr
      obtain ⟨chain,hch,-⟩ := hf.protected hc hla
      refine ⟨chain,?_,(h.chainIntact_iff hk hl hch).mpr hcha⟩
      rw [hf.targetProtectedByChain]
      exact hch

/-- Every present frame of a completely delivered stream is forwarded if and only if no
diff that decides about one exceeds the 16-bit number of its frame. -/
theorem forwardsPresentFrames_iff (shape : ScalableStructure) (policy : PolicyInForce)
    (stream : List DependencyDescriptorPacketMetadata)
    (h : CompleteStream shape policy.descriptorPolicy stream) :
    ForwardsPresentFrames policy stream ↔
      DiffsWithinWireNumbers policy.descriptorPolicy stream := by
  have hd : ∀k metadata,stream[k]?=some metadata →
      ((streamDecision policy (stream.take k) metadata).isForward ↔
        ForwardedAt policy.descriptorPolicy (streamFrames stream) k) := by
    intro k metadata hk
    rw [streamDecision_eq,forwardedAt_iff hk]
  constructor
  · intro hall k metadata hk hp
    -- what is forwarded is present, so a resolved diff names a present frame
    have hn : ∀i frameNumber diff,
        Resolves policy.descriptorPolicy (streamFrames stream) i frameNumber diff →
        diff≤frameNumber ∧ NamesPresent policy.descriptorPolicy stream i diff := by
      intro i frameNumber diff hre
      obtain ⟨hle,hba,hf⟩ := hre
      have ⟨frame,hfr,_⟩ := hf
      obtain ⟨m,hm,-⟩ := exists_of_streamFrames_getElem? hfr
      exact ⟨hle,hba,m,hm,h.present_of_forwardedAt hm hf⟩
    obtain ⟨hdif,hc⟩ :=
      (h.forwardedAt_iff_resolves hk hp).mp ((hd k metadata hk).mp (hall k metadata hk hp))
    constructor
    · intro diff hdi
      by_cases hz : diff=0
      · rw [hz]
        exact Nat.zero_le _
      · exact (hdif diff hdi hz).1
    · intro i link hi hl hb
      exact hn i _ _ (hc i link hi hl hb)
  · intro hw k metadata hk hp
    rw [hd k metadata hk]
    -- strong induction: everything a present frame refers to was forwarded before it
    induction k using Nat.strong_induction_on generalizing metadata with
    | _ k ih =>
      have hr : ∀i frameNumber diff,i≤k → diff≠0 → diff≤frameNumber →
          NamesPresent policy.descriptorPolicy stream i diff →
          Resolves policy.descriptorPolicy (streamFrames stream) i frameNumber diff := by
        intro i frameNumber diff hi hne hle hn
        obtain ⟨hba,m,hm,hmP⟩ := hn
        exact ⟨hle,hba,ih (i-diff) (by omega) m hm hmP⟩
      obtain ⟨hdif,hc⟩ := hw k metadata hk hp
      refine (h.forwardedAt_iff_resolves hk hp).mpr ⟨?_,?_⟩
      · intro diff hdi hne
        have hn := (h.references k metadata hk hp diff hdi hne).2
        exact hr k _ _ (Nat.le_refl k) (fun he => hne (UInt16.toNat_inj.mp he)) (hdif diff hdi) hn
      · intro i link hi hl hb
        obtain ⟨hle,hn⟩ := hc i link hi hl hb
        have hne := hb i link (Nat.le_refl i) hi hl
        exact hr i _ _ hi (fun he => hne (UInt8.toNat_inj.mp he)) hle hn

end

def soleTarget : ScalableStructure where
  layers := [⟨0,0⟩]
  chainCount := 0
  protectedByChain := []
  length_layers_le := by decide
  length_protectedByChain := by decide
  lt_chainCount := by simp

def lowestLayer : PolicyInForce := ⟨.fixed .low,none⟩

def soleTargetFrame (frameNumber : UInt16) (frameDiffs : List UInt16) :
    DependencyDescriptorPacketMetadata :=
  ⟨frameNumber,1,[⟨0,0⟩],[.required],frameDiffs,[],[]⟩

def keyAndDelta (first : UInt16) : List DependencyDescriptorPacketMetadata :=
  [soleTargetFrame first [],soleTargetFrame (first+1) [1]]

theorem present_soleTargetFrame (n : UInt16) (frameDiffs : List UInt16) :
    PresentInSelected lowestLayer.descriptorPolicy (soleTargetFrame n frameDiffs) := by
  -- the numbers and diffs of a frame have no influence on the target
  have hs : selectTarget lowestLayer.descriptorPolicy (soleTargetFrame 0 []).frame =
    some ⟨0,.low,0⟩ := by decide
  exact ⟨⟨0,.low,0⟩,.required,hs,rfl,by decide⟩

theorem completeStream_keyAndDelta (first : UInt16) :
    CompleteStream soleTarget lowestLayer.descriptorPolicy (keyAndDelta first) where
  follows := by
    intro m hmem
    have ha : ∀tg<soleTarget.layers.length,(1 : UInt32).toNat.testBit tg := by
      decide
    rcases mem_pair.mp hmem with rfl | rfl
    · exact ⟨rfl,rfl,rfl,rfl,ha⟩
    · exact ⟨rfl,rfl,rfl,rfl,ha⟩
  consecutive := by
    refine ⟨first,?_⟩
    intro k m hk
    match k,hk with
    | 0, hk =>
      obtain rfl := Option.some.inj hk
      exact (UInt16.add_zero first).symm
    | 1, hk =>
      obtain rfl := Option.some.inj hk
      rfl
  startsWithKeyFrame := by
    intro m hk
    obtain rfl := Option.some.inj hk
    simp [soleTargetFrame]
  references := by
    intro k m hk _ diff hd _
    match k,hk with
    | 0, hk =>
      obtain rfl := Option.some.inj hk
      cases hd
    | 1, hk =>
      obtain rfl := Option.some.inj hk
      obtain rfl := mem_singleton.mp hd
      exact ⟨by decide,le_refl 1,_,rfl,present_soleTargetFrame _ _⟩
  chainReferences := by
    intro k m hk _ hne
    match k,hk with
    | 0, hk =>
      obtain rfl := Option.some.inj hk
      exact absurd (protectingDiff_of_chainDiffs_eq_nil rfl) hne
    | 1, hk =>
      obtain rfl := Option.some.inj hk
      exact absurd (protectingDiff_of_chainDiffs_eq_nil rfl) hne

/-- A stream that does not wrap is forwarded completely. -/
theorem forwardsPresentFrames_from_zero :
    CompleteStream soleTarget lowestLayer.descriptorPolicy (keyAndDelta 0) ∧
      ForwardsPresentFrames lowestLayer (keyAndDelta 0) := by
  refine ⟨completeStream_keyAndDelta 0,
    (forwardsPresentFrames_iff soleTarget lowestLayer _ (completeStream_keyAndDelta 0)).mpr ?_⟩
  intro k metadata hk _
  have hc : ∀link∈keyAndDelta 0,protectingDiff lowestLayer.descriptorPolicy link=0 := by
    intro link hl
    rcases mem_pair.mp hl with rfl | rfl
    · exact protectingDiff_of_chainDiffs_eq_nil rfl
    · exact protectingDiff_of_chainDiffs_eq_nil rfl
  constructor
  · intro diff hd
    rcases mem_pair.mp (mem_of_getElem? hk) with rfl | rfl
    · cases hd
    · obtain rfl := mem_singleton.mp hd
      decide
  · intro i link hi hl hb
    exact absurd (hc link (mem_of_getElem? hl)) (hb i link (le_refl i) hi hl)

/-- The frame after frame 65535 has number 0, which its diff exceeds. -/
theorem forwardsPresentFrames_fails_at_wrap :
    CompleteStream soleTarget lowestLayer.descriptorPolicy (keyAndDelta 65535) ∧
      ¬ ForwardsPresentFrames lowestLayer (keyAndDelta 65535) := by
  refine ⟨completeStream_keyAndDelta 65535,?_⟩
  intro hall
  have hf := hall 1 _ rfl (present_soleTargetFrame _ _)
  have hd : streamDecision lowestLayer ((keyAndDelta 65535).take 1) (soleTargetFrame 0 [1]) =
      .dropDependency := by decide +kernel
  cases hf

end OxideSfu.VideoIngress
