import OxideSfu.DescriptorSelector
import OxideSfu.StepRuns

/-!
# From a received descriptor to a decision of one forwarding target

The receiver turns the metadata of a packet into a snapshot (`tracks.rs`), the session turns the
snapshot into a frame, and every forwarding target asks its own selector, which it builds anew when
the policy in force differs.
-/

namespace OxideSfu.VideoIngress

open StepRuns List

inductive TemporalLayer | t0 | t1 | t2

def TemporalLayer.id : TemporalLayer → UInt8
  | .t0 => 0 | .t1 => 1 | .t2 => 2

structure TemporalLayerPolicy where
  (max desired : TemporalLayer)

structure DecodeTargetLayer where
  (spatialId temporalId : UInt8)

/-- What the extension parser reports for one packet. The frame number is the 16-bit
number on the wire and the chain diffs are single bytes. -/
structure DependencyDescriptorPacketMetadata where
  frameNumber : UInt16
  activeDecodeTargetsMask : UInt32
  decodeTargetLayers : List DecodeTargetLayer
  decodeTargetIndications : List DependencyDescriptorDti
  frameDiffs : List UInt16
  (chainDiffs decodeTargetProtectedByChain : List UInt8)

structure DependencyDescriptorTargetMetadata where
  (target temporalId spatialId : UInt8)

structure DependencyDescriptorMetadataSnapshot where
  frameNumber : ℕ
  activeDecodeTargets : UInt32
  targetLayers : List DependencyDescriptorTargetMetadata
  decodeTargetIndications : List DependencyDescriptorDti
  (frameDiffs chainDiffs : List UInt16)
  targetProtectedByChain : List UInt8

/-- Widens the frame number without extending it. Targets are numbered by position, and
those whose position does not fit a byte are left out. -/
def DependencyDescriptorMetadataSnapshot.fromPacketMetadata
    (metadata : DependencyDescriptorPacketMetadata) : DependencyDescriptorMetadataSnapshot where
  frameNumber := metadata.frameNumber.toNat
  activeDecodeTargets := metadata.activeDecodeTargetsMask
  targetLayers := metadata.decodeTargetLayers.zipIdx.filterMap (fun (layer,target) =>
    if target<256 then some ⟨UInt8.ofNat target,layer.temporalId,layer.spatialId⟩ else none)
  decodeTargetIndications := metadata.decodeTargetIndications
  frameDiffs := metadata.frameDiffs
  chainDiffs := metadata.chainDiffs.map UInt8.toUInt16
  targetProtectedByChain := metadata.decodeTargetProtectedByChain

/-- Spatial ids above one are the highest layer. -/
def spatialOfId (spatialId : UInt8) : SpatialLayer :=
  if spatialId=0 then .low else if spatialId=1 then .medium else .high

/-- The view of a snapshot that all targets share, `PacketDependencyDescriptorFrame::new`
and the frame that `select_dependency_descriptor_frame` builds from it. -/
def DependencyDescriptorMetadataSnapshot.frame (snapshot : DependencyDescriptorMetadataSnapshot) :
    DependencyDescriptorFrame where
  frameNumber := snapshot.frameNumber
  activeDecodeTargets := snapshot.activeDecodeTargets
  targetLayers := snapshot.targetLayers.map (fun layer =>
    ⟨layer.target,spatialOfId layer.spatialId,layer.temporalId⟩)
  dtis := snapshot.decodeTargetIndications
  frameDiffs := snapshot.frameDiffs
  chainDiffs := snapshot.chainDiffs
  targetProtectedByChain := snapshot.targetProtectedByChain

def DependencyDescriptorPacketMetadata.frame (metadata : DependencyDescriptorPacketMetadata) :
    DependencyDescriptorFrame :=
  (DependencyDescriptorMetadataSnapshot.fromPacketMetadata metadata).frame

/-- The selector of a forwarding target, with the policy it was built for. -/
abbrev DescriptorSelectorSlot :=
  Option (DependencyDescriptorLayerPolicy × DependencyDescriptorForwardingSelector)

/-- The policies in force for one packet. Without a temporal policy all layers are wanted. -/
structure PolicyInForce where
  spatial : LayerPolicy
  temporal : Option TemporalLayerPolicy

def PolicyInForce.descriptorPolicy (policy : PolicyInForce) : DependencyDescriptorLayerPolicy :=
  let temporal := policy.temporal.getD ⟨.t2,.t2⟩
  ⟨policy.spatial.max,policy.spatial.desired,temporal.max.id,temporal.desired.id⟩

def currentSelector (slot : DescriptorSelectorSlot) (policy : DependencyDescriptorLayerPolicy) :
    DependencyDescriptorForwardingSelector :=
  match slot with
  | some (current,selector) => if current=policy then selector else .new policy
  | none => .new policy

/-- One call on a target. The slot is filled before the selector is asked, so the branch of
the source for an empty slot is never taken. -/
def selectDependencyDescriptorFrame (slot : DescriptorSelectorSlot)
    (call : PolicyInForce × DependencyDescriptorFrame) :
    DependencyDescriptorForwardingDecision × DescriptorSelectorSlot :=
  let policy := call.1.descriptorPolicy
  let (decision,selector) := (currentSelector slot policy).select call.2
  (decision,some (policy,selector))

variable (slot : DescriptorSelectorSlot) (y : PolicyInForce)
  (f : DependencyDescriptorFrame)

theorem selectDependencyDescriptorFrame_fst :
    (selectDependencyDescriptorFrame slot (y,f)).1 =
      ((currentSelector slot y.descriptorPolicy).select f).1 := rfl

theorem selectDependencyDescriptorFrame_snd :
    (selectDependencyDescriptorFrame slot (y,f)).2 =
      some (y.descriptorPolicy,((currentSelector slot y.descriptorPolicy).select f).2) := rfl

/-- The frames of the calls since the policy in force was installed. -/
def framesUnderPolicy (policy : DependencyDescriptorLayerPolicy)
    (calls : List (PolicyInForce × DependencyDescriptorFrame)) : List DependencyDescriptorFrame :=
  (calls.rtakeWhile (·.1.descriptorPolicy=policy)).map Prod.snd

/-- The selector that answers has seen the frames since its policy was installed, and
nothing before. -/
theorem currentSelector_exec (y : DependencyDescriptorLayerPolicy)
    (calls : List (PolicyInForce × DependencyDescriptorFrame)) :
    currentSelector (exec selectDependencyDescriptorFrame none calls) y =
      exec DependencyDescriptorForwardingSelector.select (.new y) (framesUnderPolicy y calls) := by
  induction calls using reverseRecOn with
  | nil => rfl
  | append_singleton calls call ih =>
    obtain ⟨inForce,f⟩ := call
    rw [exec_concat,selectDependencyDescriptorFrame_snd,currentSelector,framesUnderPolicy]
    by_cases hs : inForce.descriptorPolicy=y
    · subst hs
      rw [if_pos rfl,rtakeWhile_concat_pos _ _ _ (by simp),map_append,
        map_singleton,exec_concat,ih,framesUnderPolicy]
    · rw [if_neg hs,rtakeWhile_concat_neg _ _ _ (by simpa using hs)]
      rfl

theorem framesUnderPolicy_of_one_policy (fs : List DependencyDescriptorFrame) :
    framesUnderPolicy y.descriptorPolicy (fs.map (Prod.mk y))=fs := by
  have hall : (fs.map (Prod.mk y)).rtakeWhile
      (·.1.descriptorPolicy=y.descriptorPolicy)=fs.map (Prod.mk y) := by
    apply rtakeWhile_eq_self_iff.mpr
    intro call hc
    obtain ⟨f,-,rfl⟩ := mem_map.mp hc
    simp
  rw [framesUnderPolicy,hall,map_map]
  exact map_id fs

end OxideSfu.VideoIngress
