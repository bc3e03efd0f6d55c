import OxideSfu.VideoLayers

/-!
# The dependency-descriptor forwarding selector

One selector decides frame by frame for a single-SSRC scalable source. It caches decisions in a
window of 256 frame numbers and forwards a frame when its target is admissible, its references were
forwarded and the chain of its target is intact.
-/

namespace OxideSfu.VideoIngress

structure DependencyDescriptorTargetLayer where
  target : UInt8
  spatial : SpatialLayer
  temporal : UInt8
  deriving DecidableEq

inductive DependencyDescriptorDti | notPresent | discardable | switch | required
  deriving DecidableEq

/-- Descriptor metadata that determines a whole-frame decision. -/
structure DependencyDescriptorFrame where
  frameNumber : ℕ
  activeDecodeTargets : UInt32
  targetLayers : List DependencyDescriptorTargetLayer
  dtis : List DependencyDescriptorDti
  (frameDiffs chainDiffs : List UInt16)
  targetProtectedByChain : List UInt8
  deriving DecidableEq

inductive DependencyDescriptorForwardingDecision
  | forward (target : UInt8)
  | dropNoAdmissibleTarget | dropDependency | dropBrokenChain | dropInvalidMetadata
  deriving DecidableEq

def DependencyDescriptorForwardingDecision.isForward :
    DependencyDescriptorForwardingDecision→Bool
  | .forward _ => true | _ => false

structure DescriptorChainState where
  (active broken : Bool)

structure DependencyDescriptorForwardingSelector where
  policy : DependencyDescriptorLayerPolicy
  decisions : List (ℕ × DependencyDescriptorForwardingDecision)
  chains : List DescriptorChainState

namespace DependencyDescriptorFrame

def isActive (frame : DependencyDescriptorFrame) (target : UInt8) : Bool :=
  target<32 && frame.activeDecodeTargets &&& (1 <<< target.toUInt32)≠0

def chainActive (frame : DependencyDescriptorFrame) (chainIndex : ℕ) : Bool :=
  frame.targetLayers.any (fun layer => frame.isActive layer.target &&
    match frame.targetProtectedByChain[layer.target.toNat]? with
    | some chain => chain.toNat=chainIndex | none => false)

def chainsCovered (frame : DependencyDescriptorFrame) : Bool :=
  frame.chainDiffs.isEmpty || frame.targetLayers.all (fun layer =>
    match frame.targetProtectedByChain[layer.target.toNat]? with
    | some chain => chain.toNat<frame.chainDiffs.length | none => false)

end DependencyDescriptorFrame

namespace DependencyDescriptorForwardingSelector

def decisionCacheCapacity : ℕ := 256

def new (policy : DependencyDescriptorLayerPolicy) : DependencyDescriptorForwardingSelector :=
  ⟨policy,[],[]⟩

def wasForwardedIn (decisions : List (ℕ × DependencyDescriptorForwardingDecision))
    (frameNumber : ℕ) : Bool :=
  decisions.any (fun entry => entry.1=frameNumber && entry.2.isForward)

def diffForwarded (decisions : List (ℕ × DependencyDescriptorForwardingDecision))
    (frameNumber : ℕ) (diff : UInt16) : Bool :=
  diff.toNat≤frameNumber && wasForwardedIn decisions (frameNumber-diff.toNat)

def isAdmissible (policy : DependencyDescriptorLayerPolicy) (frame : DependencyDescriptorFrame)
    (layer : DependencyDescriptorTargetLayer) : Bool :=
  frame.isActive layer.target && layer.spatial≤policy.maxSpatial &&
    layer.temporal≤policy.maxTemporal &&
    layer.spatial≤policy.desiredSpatial &&
    layer.temporal≤policy.desiredTemporal

def keyLe (a b : DependencyDescriptorTargetLayer) : Bool :=
  a.spatial<b.spatial || (a.spatial=b.spatial && a.temporal≤b.temporal)

/-- `Iterator::max_by_key`, which returns the last of several maximal elements. -/
def maxByKey : List DependencyDescriptorTargetLayer→Option DependencyDescriptorTargetLayer :=
  List.foldl (fun best layer => match best with
    | none => some layer
    | some best => if keyLe best layer then some layer else some best) none

def selectTarget (policy : DependencyDescriptorLayerPolicy) (frame : DependencyDescriptorFrame) :
    Option DependencyDescriptorTargetLayer :=
  maxByKey (frame.targetLayers.filter (isAdmissible policy frame))

def resizeChains (chains : List DescriptorChainState) (length : ℕ) : List DescriptorChainState :=
  chains.take length++List.replicate (length-chains.length) ⟨false,false⟩

/-- First loop of `update_chains`: a chain that becomes active starts out broken. -/
def activateChain (frame : DependencyDescriptorFrame) (chainIndex : ℕ)
    (state : DescriptorChainState) : DescriptorChainState :=
  let active := frame.chainActive chainIndex
  ⟨active,state.broken || (active && !state.active)⟩

/-- Second loop of `update_chains`. The resize keeps the index inside the diffs. -/
def advanceChain (decisions : List (ℕ × DependencyDescriptorForwardingDecision))
    (frame : DependencyDescriptorFrame) (chainIndex : ℕ) (state : DescriptorChainState) :
    DescriptorChainState :=
  if !state.active then state
  else
    let diff := frame.chainDiffs.getD chainIndex 0
    if diff=0 then {state with broken := false}
    else if state.broken || !diffForwarded decisions frame.frameNumber diff then
      {state with broken := true}
    else state

def updateChains (s : DependencyDescriptorForwardingSelector) (frame : DependencyDescriptorFrame) :
    Bool × DependencyDescriptorForwardingSelector :=
  (frame.chainsCovered,{s with
    chains := ((resizeChains s.chains frame.chainDiffs.length).mapIdx (activateChain frame)).mapIdx
      (advanceChain s.decisions frame)})

/-- The checks of `select_uncached` after the chains have been updated. -/
def decideFrame (s : DependencyDescriptorForwardingSelector) (frame : DependencyDescriptorFrame) :
    DependencyDescriptorForwardingDecision :=
  match selectTarget s.policy frame with
  | none => .dropNoAdmissibleTarget
  | some layer =>
    match frame.dtis[layer.target.toNat]? with
    | none => .dropInvalidMetadata | some .notPresent => .dropNoAdmissibleTarget
    | some _ =>
      if frame.frameDiffs.any (fun diff =>
          diff != 0 && !diffForwarded s.decisions frame.frameNumber diff) then .dropDependency
      else if frame.chainDiffs.isEmpty then .forward layer.target
      else
        match frame.targetProtectedByChain[layer.target.toNat]? with
        | none => .dropInvalidMetadata
        | some chain =>
          match s.chains[chain.toNat]? with
          | none => .dropBrokenChain
          | some state => if state.broken then .dropBrokenChain else .forward layer.target

def selectUncached (s : DependencyDescriptorForwardingSelector)
    (frame : DependencyDescriptorFrame) :
    DependencyDescriptorForwardingDecision × DependencyDescriptorForwardingSelector :=
  let (valid,s) := s.updateChains frame
  if valid then (s.decideFrame frame,s) else (.dropInvalidMetadata,s)

def cachedDecision (s : DependencyDescriptorForwardingSelector) (frameNumber : ℕ) :
    Option DependencyDescriptorForwardingDecision :=
  (s.decisions.find? (·.1=frameNumber)).map Prod.snd

def remember (s : DependencyDescriptorForwardingSelector) (frameNumber : ℕ)
    (decision : DependencyDescriptorForwardingDecision) : DependencyDescriptorForwardingSelector :=
  let kept := if s.decisions.length=decisionCacheCapacity then s.decisions.tail else s.decisions
  {s with decisions := kept++[(frameNumber,decision)]}

def select (s : DependencyDescriptorForwardingSelector) (frame : DependencyDescriptorFrame) :
    DependencyDescriptorForwardingDecision × DependencyDescriptorForwardingSelector :=
  match s.cachedDecision frame.frameNumber with
  | some decision => (decision,s)
  | none =>
    let (decision,s) := s.selectUncached frame
    (decision,s.remember frame.frameNumber decision)

end DependencyDescriptorForwardingSelector

end OxideSfu.VideoIngress
