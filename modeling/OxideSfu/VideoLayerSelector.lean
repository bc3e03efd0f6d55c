import OxideSfu.RtpForwardingState
import OxideSfu.StepRuns
import OxideSfu.VideoLayers

/-!
# The layer selector of one subscriber

A state machine (`media/video_ingress.rs`) that decides packet by packet which source a subscriber
receives; a 250 ms timer expires silent sources, starts a fallback and asks for keyframes. Eight-bit
tick counters are naturals with the saturation written out.
-/

namespace OxideSfu.VideoIngress

open RtpForwarding

structure PerLayer (α : Type) where
  (low medium high : α)

namespace PerLayer

variable {α : Type}

def get (p : PerLayer α) : SpatialLayer → α
  | .low => p.low | .medium => p.medium | .high => p.high

def ofFn (f : SpatialLayer → α) : PerLayer α := ⟨f .low,f .medium,f .high⟩

def set (p : PerLayer α) (layer : SpatialLayer) (a : α) : PerLayer α :=
  ofFn (fun other => if other=layer then a else p.get other)

@[simp] theorem get_ofFn (f : SpatialLayer → α) (l : SpatialLayer) : (ofFn f).get l=f l := by
  cases l <;> rfl

theorem get_set (p : PerLayer α) (l o : SpatialLayer) (a : α) :
    (p.set l a).get o=if o=l then a else p.get o := by
  rw [set,get_ofFn]

@[simp] theorem get_set_self (p : PerLayer α) (l : SpatialLayer) (a : α) : (p.set l a).get l=a := by
  rw [get_set,if_pos rfl]

end PerLayer

inductive VideoSourceKind | simulcast | singleScalable deriving DecidableEq

structure LayerPacketMetadata where
  ssrc : UInt32
  spatial : Option SpatialLayer
  sourceKind : VideoSourceKind
  isDecodableSwitchPoint : Bool
  deriving DecidableEq

inductive VideoIngressDecision
  | forward (selectedSsrcChanged : Bool)
  | dropWaitingForKeyframe | dropNonSelectedSsrc | dropAboveMaximum | dropUnknownLayer
  deriving DecidableEq

structure KeyframeRequest where
  mediaSsrc : UInt32
  deriving DecidableEq

def acquisitionGraceTicks : ℕ := 4
def keyframeRetryTicks : ℕ := 2
def maxKeyframeRequestsPerAcquisition : ℕ := 12
def sourceStaleTicks : ℕ := 8

structure SubscriberVideoLayerSelector where
  policy : LayerPolicy
  current : Option (UInt32 × SpatialLayer)
  rtpSeenSsrc : PerLayer (Option UInt32)
  decoderUsableSsrc : PerLayer (Option UInt32)
  seenAgeTicks : PerLayer ℕ
  waitingFor : SpatialLayer
  acquisitionTicks : ℕ
  (fallbackStarted fallbackLocked : Bool)
  (pliTicks remainingPliRequests : ℕ)
  singleScalableActive : Bool
  (singleScalableCurrent singleScalableSeen : Option UInt32)
  (singleScalableSeenAgeTicks singleScalableCurrentAgeTicks : ℕ)

def nextTick (ticks : ℕ) : ℕ := saturatingAdd 8 ticks 1

namespace SubscriberVideoLayerSelector

def new (policy : LayerPolicy) : SubscriberVideoLayerSelector where
  policy := policy
  current := none
  rtpSeenSsrc := .ofFn fun _ => none
  decoderUsableSsrc := .ofFn fun _ => none
  seenAgeTicks := .ofFn fun _ => 255
  waitingFor := policy.desired
  acquisitionTicks := 0
  fallbackStarted := false
  fallbackLocked := false
  pliTicks := 0
  remainingPliRequests := maxKeyframeRequestsPerAcquisition
  singleScalableActive := false
  singleScalableCurrent := none
  singleScalableSeen := none
  singleScalableSeenAgeTicks := 255
  singleScalableCurrentAgeTicks := 255

def currentSsrc (s : SubscriberVideoLayerSelector) : Option UInt32 := s.current.map Prod.fst

def currentSpatial (s : SubscriberVideoLayerSelector) : Option SpatialLayer :=
  s.current.map Prod.snd

def selectedSsrc (s : SubscriberVideoLayerSelector) : Option UInt32 :=
  s.singleScalableCurrent.or s.currentSsrc

def restartAcquisition (s : SubscriberVideoLayerSelector) : SubscriberVideoLayerSelector :=
  {s with
    waitingFor := s.policy.desired,acquisitionTicks := 0,fallbackStarted :=
      false,fallbackLocked := false
    pliTicks := 0,remainingPliRequests := maxKeyframeRequestsPerAcquisition}

/-- The closing branch of the source, which sets `waiting_for` to the desired layer once
more, has no further effect. -/
def setPolicy (s : SubscriberVideoLayerSelector) (policy : LayerPolicy) :
    SubscriberVideoLayerSelector :=
  if s.policy=policy then s else restartAcquisition {s with policy := policy}

/-- A simulcast packet with a known layer occupies the slot of its layer. -/
def registerPacket (s : SubscriberVideoLayerSelector) (packet : LayerPacketMetadata)
    (spatial : SpatialLayer) (dependencyDescriptorMetadataAvailable : Bool) :
    SubscriberVideoLayerSelector :=
  let s :=
    if s.rtpSeenSsrc.get spatial=some packet.ssrc then s
    else {s with decoderUsableSsrc := s.decoderUsableSsrc.set spatial none}
  let s := {s with
    rtpSeenSsrc := s.rtpSeenSsrc.set spatial (some packet.ssrc)
    seenAgeTicks := s.seenAgeTicks.set spatial 0}
  if !dependencyDescriptorMetadataAvailable || packet.isDecodableSwitchPoint then
    {s with decoderUsableSsrc := s.decoderUsableSsrc.set spatial (some packet.ssrc)}
  else s

/-- The selected source keeps its own slot alive whatever layer it is labelled with. -/
def refreshSelected (s : SubscriberVideoLayerSelector) (ssrc : UInt32) (spatial : SpatialLayer) :
    SubscriberVideoLayerSelector :=
  {s with
    rtpSeenSsrc := s.rtpSeenSsrc.set spatial (some ssrc),
      seenAgeTicks := s.seenAgeTicks.set spatial 0}

def switchTarget (s : SubscriberVideoLayerSelector) (packet : LayerPacketMetadata)
    (spatial : SpatialLayer) : SpatialLayer :=
  if packet.isDecodableSwitchPoint ∧ spatial=s.policy.desired ∧
      s.current.isSome ∧ s.currentSpatial≠some s.policy.desired then s.policy.desired
  else s.waitingFor

/-- A source other than the selected one is switched to at a decodable boundary. -/
def switchOrDrop (s : SubscriberVideoLayerSelector) (packet : LayerPacketMetadata)
    (spatial : SpatialLayer) : VideoIngressDecision × SubscriberVideoLayerSelector :=
  let target := s.switchTarget packet spatial
  if spatial≠target ∨ !packet.isDecodableSwitchPoint then
    (if spatial=target then .dropWaitingForKeyframe else .dropNonSelectedSsrc,s)
  else
    (.forward (s.current≠some (packet.ssrc,spatial)),{s with
      current := some (packet.ssrc,spatial),acquisitionTicks := 0,pliTicks := 0
      fallbackLocked := s.fallbackStarted && spatial≠s.policy.desired,fallbackStarted := false
      remainingPliRequests := maxKeyframeRequestsPerAcquisition,waitingFor := s.policy.desired})

def observeSingleScalablePacket (s : SubscriberVideoLayerSelector) (packet : LayerPacketMetadata) :
    VideoIngressDecision × SubscriberVideoLayerSelector :=
  let s := {s with
    singleScalableActive := true,singleScalableSeen := some packet.ssrc
    singleScalableSeenAgeTicks := 0}
  if s.singleScalableCurrent=some packet.ssrc then
    (.forward false,{s with singleScalableCurrentAgeTicks := 0})
  else if s.singleScalableCurrent.isSome then (.dropNonSelectedSsrc,s)
  else if !packet.isDecodableSwitchPoint then (.dropWaitingForKeyframe,s)
  else
    (.forward true,{s with
      singleScalableCurrent := some packet.ssrc,singleScalableCurrentAgeTicks :=
        0,acquisitionTicks := 0
      pliTicks := 0,remainingPliRequests := maxKeyframeRequestsPerAcquisition})

/-- The simulcast part of `observe_packet_with_dependency_descriptor_metadata`. -/
def observeSimulcastPacket (s : SubscriberVideoLayerSelector) (packet : LayerPacketMetadata)
    (dependencyDescriptorMetadataAvailable : Bool) :
    VideoIngressDecision × SubscriberVideoLayerSelector :=
  match packet.spatial with
  | none =>
    if s.currentSsrc=some packet.ssrc then (.forward false,s) else (.dropUnknownLayer,s)
  | some spatial =>
    if s.policy.max<spatial then (.dropAboveMaximum,s)
    else
      let s := s.registerPacket packet spatial dependencyDescriptorMetadataAvailable
      match s.current with
      | some (selectedSsrc,selectedSpatial) =>
        if selectedSsrc=packet.ssrc then
          (.forward false,s.refreshSelected packet.ssrc selectedSpatial)
        else s.switchOrDrop packet spatial
      | none => s.switchOrDrop packet spatial

def observePacketWithDependencyDescriptorMetadata (s : SubscriberVideoLayerSelector)
    (packet : LayerPacketMetadata) (dependencyDescriptorMetadataAvailable : Bool) :
    VideoIngressDecision × SubscriberVideoLayerSelector :=
  match packet.sourceKind with
  | .singleScalable => s.observeSingleScalablePacket packet
  | .simulcast => s.observeSimulcastPacket packet dependencyDescriptorMetadataAvailable

/-- Ages of scalable sources advance only in scalable mode. -/
def expireScalable (s : SubscriberVideoLayerSelector) : SubscriberVideoLayerSelector :=
  let seenAge := nextTick s.singleScalableSeenAgeTicks
  let currentAge := nextTick s.singleScalableCurrentAgeTicks
  {s with
    singleScalableSeenAgeTicks := seenAge
    singleScalableSeen := if sourceStaleTicks ≤ seenAge then none else s.singleScalableSeen
    singleScalableCurrentAgeTicks :=
      if s.singleScalableCurrent.isSome then currentAge else s.singleScalableCurrentAgeTicks
    singleScalableCurrent :=
      if s.singleScalableCurrent.isSome && sourceStaleTicks≤currentAge then none
      else s.singleScalableCurrent}

def expireSlots (s : SubscriberVideoLayerSelector) : SubscriberVideoLayerSelector :=
  let stale := fun layer => decide (sourceStaleTicks≤nextTick (s.seenAgeTicks.get layer))
  {s with
    seenAgeTicks := .ofFn fun layer => nextTick (s.seenAgeTicks.get layer)
    rtpSeenSsrc := .ofFn fun layer => if stale layer then none else s.rtpSeenSsrc.get layer
    decoderUsableSsrc := .ofFn fun layer =>
      if stale layer then none else s.decoderUsableSsrc.get layer}

def releaseLost (s : SubscriberVideoLayerSelector) : SubscriberVideoLayerSelector :=
  match s.current with
  | some (ssrc,spatial) =>
    if s.rtpSeenSsrc.get spatial=some ssrc then s
    else restartAcquisition {s with current := none}
  | none => s

def expireStaleSources (s : SubscriberVideoLayerSelector) : SubscriberVideoLayerSelector :=
  if s.singleScalableActive then s.expireScalable else s.expireSlots.releaseLost

def bestDecoderUsableAllowed (s : SubscriberVideoLayerSelector) : Option SpatialLayer :=
  [SpatialLayer.high,.medium,.low].find? fun layer =>
    layer ≤ s.policy.max && (s.decoderUsableSsrc.get layer).isSome

/-- The common end of both timers: wait out the retry gap, then spend one request. -/
def requestKeyframe (s : SubscriberVideoLayerSelector) (source : Option UInt32) :
    Option KeyframeRequest × SubscriberVideoLayerSelector :=
  if 0<s.pliTicks then (none,{s with pliTicks := s.pliTicks-1})
  else if s.remainingPliRequests=0 then (none,s)
  else
    match source with
    | none => (none,s)
    | some ssrc => (some ⟨ssrc⟩,{s with
        pliTicks := keyframeRetryTicks-1,remainingPliRequests := s.remainingPliRequests-1})

def onSingleScalableTimer (s : SubscriberVideoLayerSelector) :
    Option KeyframeRequest × SubscriberVideoLayerSelector :=
  if s.singleScalableCurrent.isSome then (none,s)
  else requestKeyframe {s with acquisitionTicks := nextTick s.acquisitionTicks}
    s.singleScalableSeen

/-- The acquisition clock, and the start of the fallback when the grace is over. -/
def advanceAcquisition (s : SubscriberVideoLayerSelector) : SubscriberVideoLayerSelector :=
  let ticks := nextTick s.acquisitionTicks
  if !s.fallbackStarted && acquisitionGraceTicks≤ticks then
    {s with fallbackStarted := true,acquisitionTicks := 0}
  else {s with acquisitionTicks := ticks}

def fallbackLayer (s : SubscriberVideoLayerSelector) : SpatialLayer :=
  s.bestDecoderUsableAllowed.getD s.policy.desired

/-- A started fallback that aims at another layer begins a new request budget. -/
def aimFallback (s : SubscriberVideoLayerSelector) : SubscriberVideoLayerSelector :=
  if s.fallbackStarted ∧ s.fallbackLayer≠s.waitingFor then
    {s with
      waitingFor := s.fallbackLayer,pliTicks := 0
      remainingPliRequests := maxKeyframeRequestsPerAcquisition}
  else s

def onTimer (s : SubscriberVideoLayerSelector) :
    Option KeyframeRequest × SubscriberVideoLayerSelector :=
  let s := s.expireStaleSources
  if s.singleScalableActive then s.onSingleScalableTimer
  else if s.fallbackLocked then (none,s)
  else if s.currentSpatial=some s.policy.desired then (none,s)
  else
    let s := s.advanceAcquisition.aimFallback
    s.requestKeyframe (s.rtpSeenSsrc.get s.waitingFor)

end SubscriberVideoLayerSelector

inductive SelectorEvent
  | packet (metadata : LayerPacketMetadata) (dependencyDescriptorMetadataAvailable : Bool)
  | setPolicy (policy : LayerPolicy)
  | timer deriving DecidableEq

inductive SelectorOutput
  | decided (decision : VideoIngressDecision)
  | updated
  | ticked (request : Option KeyframeRequest)
  deriving DecidableEq

open SubscriberVideoLayerSelector in
def selectorStep (s : SubscriberVideoLayerSelector) :
    SelectorEvent → SelectorOutput × SubscriberVideoLayerSelector
  | .packet metadata available =>
    let (decision,s) := s.observePacketWithDependencyDescriptorMetadata metadata available
    (.decided decision,s)
  | .setPolicy policy => (.updated,s.setPolicy policy)
  | .timer =>
    let (request,s) := s.onTimer
    (.ticked request,s)

def selectorAfter (policy : LayerPolicy) (events : List SelectorEvent) :
    SubscriberVideoLayerSelector :=
  StepRuns.exec selectorStep (SubscriberVideoLayerSelector.new policy) events

@[simp] theorem selectorAfter_nil (y : LayerPolicy) :
    selectorAfter y []=SubscriberVideoLayerSelector.new y := rfl

@[simp] theorem selectorAfter_concat (y : LayerPolicy) (es : List SelectorEvent)
    (e : SelectorEvent) : selectorAfter y (es++[e])=(selectorStep (selectorAfter y es) e).2 :=
  StepRuns.exec_concat _ _ _ _

end OxideSfu.VideoIngress
