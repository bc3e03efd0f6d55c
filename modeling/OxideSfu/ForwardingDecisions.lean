import OxideSfu.SubscriptionStores
import Mathlib.Data.Prod.Lex
import Mathlib.Data.String.Basic

/-!
# Forwarding decisions

For every forwarding target the reader of a track decides whether packets go to its subscriber and
in which quality (`router/session.rs`). A decision is kept in the target with the revisions it was
made for, and it is made again when a revision differs.
-/

namespace OxideSfu.Signaling

open FiniteMaps Rooms

/-- The nearest number with 24 significant bits, ties to even: a natural number as `f32`. -/
def roundToF32 (n : ℕ) : ℕ :=
  let unit := 2^(n.log2-23)
  let quotient := n / unit
  let remainder := n % unit
  if unit<2*remainder ∨ (unit=2*remainder ∧ quotient % 2=1) then (quotient+1)*unit
  else quotient*unit

def minDimension (width height : ℕ) : Option ℕ :=
  if width=0 then (if height=0 then none else some height)
  else if height=0 then some width else some (min width height)

def layerSize (track : TrackInfo) (quality : VideoQuality) : Option ℕ :=
  let layers := track.layers++track.codecs.flatMap SimulcastCodecInfo.layers
  let ofQuality := layers.filter (fun layer => VideoQuality.ofNumber layer.quality=quality)
  (ofQuality.filterMap (fun layer => minDimension layer.width layer.height)).max?

/-- The sizes of the qualities from the lowest to the highest. A track without layer sizes is
taken to have the usual ones below its own size. -/
def qualitySizePairs (track : TrackInfo) : List (VideoQuality × ℕ) :=
  let advertised := [VideoQuality.low,.medium,.high,.off].filterMap (fun quality =>
    (layerSize track quality).map (Prod.mk quality))
  if advertised.isEmpty then
    match minDimension track.width track.height with
    | some size => [(.low,180),(.medium,360),(.high,size)] | none => []
  else advertised

/-- Whether a size reaches the requested one times 0.8. Both sides are `f32` numbers, here in
units of `2 ^ -24`, and 13421773 of these units are the constant. -/
def reachesRequestedSize (size requested : ℕ) : Bool :=
  roundToF32 (roundToF32 requested*13421773)≤roundToF32 size*2^24

def requestedQualityFromDimensionsForTrack (settings : UpdateTrackSettings) (track : TrackInfo) :
    Option VideoQuality :=
  if settings.width=0 ∨ settings.height=0 then none
  else
    let pairs := qualitySizePairs track
    let requested := min settings.width settings.height
    pairs.getLast?.map (fun last =>
      ((pairs.find? (fun pair => reachesRequestedSize pair.2 requested)).getD last).1)

def requestedVideoQualityFromSettings (settings : Option UpdateTrackSettings)
    (track : Option TrackInfo) : Option VideoQuality :=
  settings.bind (fun settings =>
    if settings.disabled then none
    else
      match track.bind (requestedQualityFromDimensionsForTrack settings) with
      | some derived => some derived | none => some (.ofNumber settings.quality))

def requestedVideoFpsFromSettings (settings : Option UpdateTrackSettings) : Option ℕ :=
  settings.bind (fun settings => if settings.fps > 0 then some settings.fps else none)

def desiredVideoQualityFromAllocation (requestedMax allocatedDesired : Option VideoQuality) :
    Option VideoQuality :=
  match requestedMax,allocatedDesired with
  | none, desired => desired | some maximum,none => some maximum
  | some maximum, some desired =>
    some (if desired.number ≤ maximum.number then desired else maximum)

structure SubscriptionLimits where
  (audio video : Option ℕ)

def SubscriptionLimits.forType (limits : SubscriptionLimits) : TrackType→Option ℕ
  | .audio => limits.audio | .video => limits.video | .data => none

structure ForwardingDecisionContext where
  mediaSubscriptions : MediaSubscriptionStore
  autoSubscribePreferences : AutoSubscribePreferenceStore
  trackSettings : TrackSettingsStore
  trackAllocations : TrackAllocationStore
  rooms : RoomStore
  subscriptionLimits : SubscriptionLimits

def settingsKey (key : MediaTrackKey) : TrackSettingsKey := ⟨key.room,key.subscriber,key.trackSid⟩

def publishedIn (rooms : RoomStore) (room : String) :
    Multiset (String × List (String × TrackType)) :=
  ((rooms.listParticipants room).toOption.getD 0).map (fun participant =>
    (participant.identity,participant.tracks.map (fun track => (track.sid,track.type))))

namespace ForwardingDecisionContext

variable (c : ForwardingDecisionContext)

def settingsFor (key : MediaTrackKey) : Option UpdateTrackSettings :=
  c.trackSettings.getForTrack (settingsKey key)

/-- A subscription, explicit or by preference, that the room store allows. -/
def subscribedTo (key : MediaTrackKey) : Bool :=
  c.mediaSubscriptions.isSubscribedWithDefault key
    (c.autoSubscribePreferences.autoSubscribeEnabled ⟨key.room,key.subscriber⟩) &&
  c.rooms.canSubscribeToMediaTrack key

def shouldForwardMediaForSubscriberWithSettingsValue (key : MediaTrackKey)
    (settings : Option UpdateTrackSettings) : Bool :=
  !settings.any (·.disabled) && c.subscribedTo key

def shouldForwardMediaForSubscriberWithTrackSettings (key : MediaTrackKey) : Bool :=
  c.shouldForwardMediaForSubscriberWithSettingsValue key (c.settingsFor key)

def candidates (room subscriber : String) (type : TrackType) : Multiset (String × String) :=
  (((publishedIn c.rooms room).filter (·.1≠subscriber)).bind
    (fun publisher => (publisher.2.filter (fun track =>
      track.1 ≠ "" ∧ track.2=type)).map (fun track => (publisher.1,track.1)))).filter
    (fun candidate => c.subscribedTo ⟨room,candidate.1,candidate.2,subscriber⟩=true)

/-- Tracks that are forwarded now come first, then publisher and sid decide. -/
def rankedTracks (room subscriber : String) (type : TrackType) : List (Bool ×ₗ String ×ₗ String) :=
  sortedElements (·≤·) ((c.candidates room subscriber type).map (fun candidate =>
    toLex (!c.rooms.isMediaTrackSubscribed ⟨room,candidate.1,candidate.2,subscriber⟩,
      toLex candidate)))

def rankedWithin (limit : ℕ) (key : MediaTrackKey) (type : TrackType) : Bool :=
  ((c.rankedTracks key.room key.subscriber type).take limit).any (fun ranked =>
    ofLex (ofLex ranked).2=(key.publisher,key.trackSid))

def subscriberWithinTrackTypeSubscriptionLimit (key : MediaTrackKey)
    (trackInfo : Option TrackInfo) : Bool :=
  match trackInfo with
  | none => true
  | some track =>
    match c.subscriptionLimits.forType track.type with
    | none => true
    | some limit => if limit=0 then false else c.rankedWithin limit key track.type

end ForwardingDecisionContext

structure ForwardingDecisionRevisions where
  (mediaSubscription autoSubscribe trackSettings trackAllocation : UInt64)
  roomMediaSubscription : ℕ
  deriving DecidableEq

structure CachedForwardingDecision where
  shouldForwardMedia : Bool
  (requestedMaxQuality desiredQuality : Option VideoQuality)
  (desiredTemporalLayer requestedFps : Option ℕ)
  revisions : ForwardingDecisionRevisions

def ForwardingDecisionContext.revisions (c : ForwardingDecisionContext) (key : MediaTrackKey) :
    ForwardingDecisionRevisions where
  mediaSubscription := c.mediaSubscriptions.revision
  autoSubscribe := c.autoSubscribePreferences.revision
  trackSettings := c.trackSettings.revisionForTrack (settingsKey key)
  trackAllocation := c.trackAllocations.revisionForTrack (settingsKey key)
  roomMediaSubscription := c.rooms.mediaSubscriptionRevision

def ForwardingDecisionContext.freshDecision (c : ForwardingDecisionContext) (key : MediaTrackKey)
    (trackInfo : Option TrackInfo) (revisions : ForwardingDecisionRevisions) :
    CachedForwardingDecision :=
  let settings := c.settingsFor key
  let requestedMaxQuality := requestedVideoQualityFromSettings settings trackInfo
  { shouldForwardMedia := c.shouldForwardMediaForSubscriberWithSettingsValue key settings &&
      c.subscriberWithinTrackTypeSubscriptionLimit key trackInfo
    requestedMaxQuality
    desiredQuality := desiredVideoQualityFromAllocation requestedMaxQuality
      (c.trackAllocations.desiredQuality.lookup (settingsKey key))
    desiredTemporalLayer := c.trackAllocations.desiredTemporalLayer.lookup (settingsKey key)
    requestedFps := requestedVideoFpsFromSettings settings
    revisions}

def cachedForwardingDecisionForTarget (decision : Option CachedForwardingDecision)
    (key : MediaTrackKey) (revisions : ForwardingDecisionRevisions)
    (c : ForwardingDecisionContext) (trackInfo : Option TrackInfo) : CachedForwardingDecision :=
  match decision with
  | some decision =>
    if decision.revisions=revisions then decision else c.freshDecision key trackInfo revisions
  | none => c.freshDecision key trackInfo revisions

end OxideSfu.Signaling
