import OxideSfu.ForwardTrackStore
import OxideSfu.ForwardingDecisions
import OxideSfu.StepRuns

/-!
# Media negotiation

The handlers that decide which tracks a subscriber gets: publishing, subscription requests, and the
offers and answers in which media sections are found for tracks (`router/session.rs`,
`signal_request.rs`, `oxidesfu-api/src/router.rs`). A subscriber receives on a connection of its own
(dual-PC) or on the one it publishes on (single-PC). Every handler is one step; what peer
connections answer, the orders of hash maps and what parsers find are inputs. Messages to the
clients are left out.
-/

namespace OxideSfu.Signaling

open FiniteMaps Rooms ForwardTracks StepRuns

inductive MediaKind | audio | video deriving DecidableEq

def MediaKind.ofTrack (track : TrackInfo) : MediaKind :=
  if track.type = .video then .video else .audio

structure MediaCidKey where
  (room publisher cid : String)
  deriving DecidableEq

structure SignalState (T : Type) where
  context : ForwardingDecisionContext
  subscribePermissions : SubscribePermissionStore
  participantSubscriberPrimary : FiniteMap ParticipantKey Bool
  participantSubscribeVideoMimeTypes : FiniteMap ParticipantKey (Finset String)
  (signalConnections publisherConnections subscriberConnections : Finset ParticipantKey)
  mediaTrackCids : FiniteMap MediaCidKey String
  singlePcOfferMediaKinds : FiniteMap ParticipantKey (FiniteMap String MediaKind)
  mediaForwarding : Finset MediaTrackKey
  pendingMediaSectionRequests : FiniteMap MediaTrackKey MediaKind
  forwardTracks : ForwardTrackStore T

inductive ForwardTrackBindResult | pending
  | compatible (payloadType : UInt8)
  | unsupportedCodec

/-- What a handler meets outside of the stores: the orders in which maps are listed, and how
the calls on peer connections end. -/
structure Surroundings (T : Type) where
  (participantOrder receiverOrder : Iteration String)
  targetOrder : Iteration ForwardTrackKey
  (midOrder trackSidOrder : Iteration String)
  firstParticipant : RoomStore.FirstFound
  addForwardingTrack : MediaTrackKey→Option T
  addForwardingTrackToMid : MediaTrackKey → String→Option T
  removesForwardingTrack : T→Bool
  bindResult : T → ForwardTrackBindResult
  negotiates : ParticipantKey→Bool
  (setsRemoteDescription preparesTransceivers createsDescription : Bool)

def sortedTargets : Iteration ForwardTrackKey :=
  @Iteration.sorted ForwardTrackKey (LinearOrder.lift' (fun target =>
    toLex (target.room,toLex (target.publisher,toLex (target.trackSid,target.subscriber))))
    (fun a b h => by cases a; cases b; simp_all))

def forwardKey (key : MediaTrackKey) : ForwardTrackKey :=
  ⟨key.room,key.publisher,key.trackSid,key.subscriber⟩

def mediaKey (target : ForwardTrackKey) : MediaTrackKey :=
  ⟨target.room,target.publisher,target.trackSid,target.subscriber⟩

namespace SignalState

variable {T : Type}

def withRooms (s : SignalState T) (rooms : RoomStore) : SignalState T :=
  {s with context := {s.context with rooms}}

def setSubscribed (s : SignalState T) (key : MediaTrackKey) (subscribed : Bool) : SignalState T :=
  {s with context := {s.context with
      mediaSubscriptions := s.context.mediaSubscriptions.setSubscribed key subscribed}}

/-- The mark of the room store; a room that does not exist is not marked. -/
def setRoomSubscribed (s : SignalState T) (key : MediaTrackKey) (subscribed : Bool) :
    SignalState T :=
  s.withRooms (s.context.rooms.setMediaTrackSubscribed key subscribed).2

def removePreferences (s : SignalState T) (key : MediaTrackKey) : SignalState T :=
  {s with context := {s.context with
      trackSettings := s.context.trackSettings.removeForTrack (settingsKey key)
      trackAllocations := s.context.trackAllocations.removeForTrack (settingsKey key)}}

def insertForwarding (s : SignalState T) (key : MediaTrackKey) : SignalState T :=
  {s with mediaForwarding := insert key s.mediaForwarding}

def removeForwarding (s : SignalState T) (key : MediaTrackKey) : SignalState T :=
  {s with mediaForwarding := s.mediaForwarding.erase key}

def requestSection (s : SignalState T) (key : MediaTrackKey) (kind : MediaKind) : SignalState T :=
  {s with pendingMediaSectionRequests := s.pendingMediaSectionRequests.insert key kind}

def dropSectionRequest (s : SignalState T) (key : MediaTrackKey) : SignalState T :=
  {s with pendingMediaSectionRequests := s.pendingMediaSectionRequests.erase key}

def attach (s : SignalState T) (key : MediaTrackKey) (track : T) : SignalState T :=
  {s with forwardTracks := s.forwardTracks.insertWithActive (forwardKey key) track false}

def detach (s : SignalState T) (key : MediaTrackKey) : SignalState T :=
  {s with forwardTracks := s.forwardTracks.remove (forwardKey key)}

def participantsOf (s : SignalState T) (world : Surroundings T) (room : String) :
    List ParticipantInfo :=
  match s.context.rooms.rooms.lookup room with
  | none => [] | some record => (record.participants.entries world.participantOrder).map Prod.snd

def tracksOfOthers (s : SignalState T) (world : Surroundings T) (room identity : String) :
    List (String × TrackInfo) :=
  ((s.participantsOf world room).filter (·.identity≠identity)).flatMap
    (fun publisher => publisher.tracks.map (Prod.mk publisher.identity))

def findMediaTrackPublisher (s : SignalState T) (world : Surroundings T) (room trackSid : String) :
    Option (String × TrackInfo) :=
  (s.participantsOf world room).findSome? (fun participant =>
    (participant.tracks.find? (·.sid=trackSid)).map
      (Prod.mk participant.identity))

def publishedTrack (s : SignalState T) (room publisher trackSid : String) : Option TrackInfo :=
  (s.context.rooms.getParticipant room publisher).toOption.bind (fun participant =>
    participant.tracks.find? (·.sid=trackSid))

def defaultTrackMimeType (type : TrackType) : String :=
  if type = .video then "video/vp8" else "audio/opus"

def normalizeMimeType (mimeType : String) : String :=
  RoomStore.toAsciiLowercase (RoomStore.trim mimeType)

def advertisedTrackMimeTypes (track : TrackInfo) : List String :=
  let ofCodecs := (track.codecs.map (fun codec => normalizeMimeType codec.mimeType)).filter
    (· ≠ "")
  if ofCodecs≠[] then ofCodecs
  else if normalizeMimeType track.mimeType ≠ "" then [normalizeMimeType track.mimeType]
  else [defaultTrackMimeType track.type]

def normalizeMimeTypes (mimeTypes : Finset String) : Finset String :=
  (mimeTypes.image normalizeMimeType).filter (· ≠ "")

/-- What the last offer could receive; an offer without video receives everything. -/
def rememberParticipantSubscribeVideoMimeTypes (s : SignalState T) (participant : ParticipantKey)
    (mimeTypes : Finset String) : SignalState T :=
  let known := s.participantSubscribeVideoMimeTypes
  {s with participantSubscribeVideoMimeTypes :=
      if mimeTypes=∅ then known.erase participant
      else known.insert participant (normalizeMimeTypes mimeTypes)}

def mergeParticipantSubscribeVideoMimeTypes (s : SignalState T) (participant : ParticipantKey)
    (mimeTypes : Finset String) : SignalState T :=
  let known := s.participantSubscribeVideoMimeTypes
  let merged := (known.lookup participant).getD ∅ ∪ normalizeMimeTypes mimeTypes
  if normalizeMimeTypes mimeTypes=∅ then s
  else {s with participantSubscribeVideoMimeTypes := known.insert participant merged}

def participantSupportsVideoMimeType (s : SignalState T) (participant : ParticipantKey)
    (mimeType : String) : Bool :=
  let normalized := normalizeMimeType mimeType
  decide (normalized = "") ||
    ((s.participantSubscribeVideoMimeTypes.lookup participant).map (fun supported =>
      decide (normalized∈supported))).getD true

def subscriberSupportsAnyTrackMimeType (s : SignalState T) (subscriber : ParticipantKey)
    (track : TrackInfo) : Bool :=
  track.type ≠ .video ||
    (advertisedTrackMimeTypes track).any (s.participantSupportsVideoMimeType subscriber)

/-- A subscription that is turned down because of its codec is an explicit unsubscription, but
the forwarding entry stays. -/
def rejectUnsupported (s : SignalState T) (key : MediaTrackKey) : SignalState T :=
  ((s.setSubscribed key false).setRoomSubscribed key false).detach key

inductive MediaForwardingConnectionKind | dualPcSubscriber | singlePcPublisher

def mediaReceiverForIdentity (s : SignalState T) (participant : ParticipantKey) :
    Option MediaForwardingConnectionKind :=
  if participant∈s.subscriberConnections then some .dualPcSubscriber
  else if participant∈s.publisherConnections then some .singlePcPublisher
  else none

def mediaReceiversInRoomExcept (s : SignalState T) (world : Surroundings T)
    (room excluded : String) : List (String × MediaForwardingConnectionKind) :=
  let connected := (s.publisherConnections ∪ s.subscriberConnections).filter (fun participant =>
    participant.room=room ∧ participant.identity≠excluded)
  (world.receiverOrder.order (connected.image ParticipantKey.identity)).filterMap (fun identity =>
    (s.mediaReceiverForIdentity ⟨room,identity⟩).map (Prod.mk identity))

def subscribedByDefault (s : SignalState T) (key : MediaTrackKey) : Bool :=
  s.context.mediaSubscriptions.isSubscribedWithDefault key
    (s.context.autoSubscribePreferences.autoSubscribeEnabled ⟨key.room,key.subscriber⟩)

/-- One receiver of a track. A single-PC receiver is asked for a section, a dual-PC receiver
gets a sender at once. Fails when the connection does; a receiver that is not subscribed by
preference is marked as explicitly not subscribed. -/
def ensureForReceiver (limited : Bool) (world : Surroundings T) (room publisher : String)
    (track : TrackInfo) (s : SignalState T) (receiver : String × MediaForwardingConnectionKind) :
    Bool × SignalState T :=
  let key : MediaTrackKey := ⟨room,publisher,track.sid,receiver.1⟩
  if !s.subscribePermissions.canSubscribe ⟨room,receiver.1⟩ then (true,s)
  else if !s.subscribedByDefault key then
    (true,if (s.context.mediaSubscriptions.explicitSubscription key).isNone then
      s.setSubscribed key false else s)
  else if limited && !s.context.subscriberWithinTrackTypeSubscriptionLimit key (some track) then
    (true,s)
  else if key∈s.mediaForwarding then (true,s)
  else
    match receiver.2 with
    | .singlePcPublisher => (true,s.requestSection key (.ofTrack track))
    | .dualPcSubscriber =>
      match world.addForwardingTrack key with
      | none => (false,s.insertForwarding key)
      | some transport =>
        (⟨room,receiver.1⟩∉s.signalConnections || world.negotiates ⟨room,receiver.1⟩,
          (s.insertForwarding key).attach key transport)

/-- The common body of the two functions below, which differ in the check of the limits. -/
def ensureForReceivers (limited : Bool) (s : SignalState T) (world : Surroundings T)
    (room publisher : String) (track : TrackInfo) : Bool × SignalState T :=
  if track.sid = "" ∨ ⟨room,publisher⟩∉s.signalConnections then (true,s)
  else
    match s.context.rooms.getParticipant room publisher with
    | .error _ => (true,s)
    | .ok _ =>
      execWhile (ensureForReceiver limited world room publisher track) s
        (s.mediaReceiversInRoomExcept world room publisher)

def ensureSubscriberForwardingForTrack (s : SignalState T) (world : Surroundings T)
    (room publisher : String) (track : TrackInfo) : Bool × SignalState T :=
  ensureForReceivers false s world room publisher track

def ensureSubscriberForwardingFromParts (s : SignalState T) (world : Surroundings T)
    (room publisher : String) (track : TrackInfo) : Bool × SignalState T :=
  ensureForReceivers true s world room publisher track

/-- Goes on after a failure. All receivers of these tracks are looked at, not only the
subscriber. -/
def ensureExistingMediaForwardingForSubscriber (s : SignalState T) (world : Surroundings T)
    (room subscriber : String) : SignalState T :=
  (s.tracksOfOthers world room subscriber).foldl (fun s published =>
    (s.ensureSubscriberForwardingForTrack world room published.1 published.2).2) s

def addTrackResponse (s : SignalState T) (world : Surroundings T) (room identity cid : String)
    (track : TrackInfo) : SignalState T :=
  let s := {s with mediaTrackCids := s.mediaTrackCids.insert ⟨room,identity,cid⟩ track.sid}
  let s := s.withRooms (s.context.rooms.addParticipantTrack room identity track).2
  (s.ensureSubscriberForwardingForTrack world room identity track).2

def removePublishedMediaTrack (s : SignalState T) (room publisher trackSid : String) :
    Bool × SignalState T :=
  match s.context.rooms.removeParticipantTrack room publisher trackSid with
  | (.error _,_) => (false,s)
  | (.ok _,rooms) =>
    (true,{s.withRooms rooms with
      mediaTrackCids := s.mediaTrackCids.filter (fun key sid =>
        (key.room≠room ∨ key.publisher≠publisher ∨ sid≠trackSid))})

/-- Requests for media sections are left where they are. -/
def cleanupPublisherForwardingForTrack (s : SignalState T) (room publisher trackSid : String) :
    SignalState T :=
  {s with
    forwardTracks := s.forwardTracks.removeTrack ⟨room,publisher,trackSid⟩
    mediaForwarding := s.mediaForwarding.filter (fun key =>
      key.room≠room ∨ key.publisher≠publisher ∨ key.trackSid≠trackSid)
    context := {s.context with
      mediaSubscriptions := s.context.mediaSubscriptions.removeTrack room publisher trackSid}}

def unpublishTrack (s : SignalState T) (room publisher trackSid : String) : SignalState T :=
  match s.removePublishedMediaTrack room publisher trackSid with
  | (false,s) => s | (true,s) => s.cleanupPublisherForwardingForTrack room publisher trackSid

def forwardPublisherRemoteTrack (s : SignalState T) (world : Surroundings T)
    (room publisher trackSid : String) : SignalState T :=
  match s.publishedTrack room publisher trackSid with
  | none => s | some track => (s.ensureSubscriberForwardingFromParts world room publisher track).2

structure ParticipantTracks where
  participantSid : String
  trackSids : List String

structure UpdateSubscription where
  trackSids : List String
  participantTracks : List ParticipantTracks
  subscribe : Bool

def requestedMediaTrackSids (request : UpdateSubscription) : List String :=
  sortedElements (·≤·)
    (request.trackSids++request.participantTracks.flatMap ParticipantTracks.trackSids).toFinset.val

/-- The transport is taken out of the store also when the connection then fails to drop it. A
request for a media section stays. -/
def removeSubscriberMediaForwardingForTrack (s : SignalState T) (key : MediaTrackKey) :
    SignalState T :=
  ((s.removeForwarding key).setRoomSubscribed key false).detach key

def unsubscribeFrom (s : SignalState T) (key : MediaTrackKey) : SignalState T :=
  ((s.setSubscribed key false).removePreferences key).removeSubscriberMediaForwardingForTrack key

def priorTracksSameLogicalStream (s : SignalState T) (key : MediaTrackKey) (track : TrackInfo) :
    List TrackInfo :=
  ((s.context.rooms.getParticipant key.room key.publisher).toOption.map (fun publisher =>
    publisher.tracks.filter (fun candidate =>
      candidate.sid≠track.sid ∧ candidate.type=track.type ∧ candidate.name=track.name ∧
      s.context.mediaSubscriptions.isSubscribed {key with trackSid := candidate.sid}=true))).getD
    []

def subscribeToTrack (world : Surroundings T) (room subscriber : String) (allowed : Bool)
    (s : SignalState T) (trackSid : String) : SignalState T :=
  if !allowed && !s.subscribePermissions.canSubscribe ⟨room,subscriber⟩ then s
  else
    match s.findMediaTrackPublisher world room trackSid with
    | none => s
    | some (publisher,track) =>
      let key : MediaTrackKey := ⟨room,publisher,trackSid,subscriber⟩
      if !s.subscriberSupportsAnyTrackMimeType ⟨room,subscriber⟩ track then
        s.rejectUnsupported key
      else
        let s := (s.priorTracksSameLogicalStream key track).foldl (fun s prior =>
          s.unsubscribeFrom {key with trackSid := prior.sid}) s
        ((s.setSubscribed key true).ensureSubscriberForwardingForTrack world room publisher
          track).2

/-- A track that nobody publishes is switched off for every participant that could. -/
def unsubscribeFromTrack (world : Surroundings T) (room subscriber : String) (s : SignalState T)
    (trackSid : String) : SignalState T :=
  match s.findMediaTrackPublisher world room trackSid with
  | some (publisher,_) => s.unsubscribeFrom ⟨room,publisher,trackSid,subscriber⟩
  | none =>
    (s.participantsOf world room).foldl (fun s participant =>
      let key : MediaTrackKey := ⟨room,participant.identity,trackSid,subscriber⟩
      (((s.setSubscribed key false).removePreferences key).removeForwarding key).detach key) s

def handleMediaSubscriptionRequest (s : SignalState T) (world : Surroundings T)
    (room subscriber : String) (request : UpdateSubscription) (allowed : Bool) : SignalState T :=
  (requestedMediaTrackSids request).foldl
    (if request.subscribe then subscribeToTrack world room subscriber allowed
      else unsubscribeFromTrack world room subscriber) s

/-- The marks that the service API makes: a track by its sid alone, or by the sid of its
publisher too. -/
def requestedMarks (request : UpdateSubscription) : List (Option String × String) :=
  request.trackSids.map (Prod.mk none)++request.participantTracks.flatMap (fun tracks =>
    tracks.trackSids.map (Prod.mk (some tracks.participantSid)))

def markInRoom (world : Surroundings T) (room identity : String) (subscribe : Bool)
    (marked : Bool × SignalState T) (mark : Option String × String) :
    Bool × (Bool × SignalState T) :=
  let (result,rooms) :=
    match mark.1 with
    | none =>
      marked.2.context.rooms.setMediaTrackSubscribedByTrackSid room identity mark.2 subscribe
    | some publisherSid =>
      marked.2.context.rooms.setMediaTrackSubscribedByPublisherSid room publisherSid mark.2
        identity subscribe world.firstParticipant
  match result with
  | .ok applied => (true,marked.1 || applied,marked.2.withRooms rooms)
  | .error _ => (false,marked.1,marked.2.withRooms rooms)

def markRequested (s : SignalState T) (world : Surroundings T) (room identity : String)
    (request : UpdateSubscription) : Bool × SignalState T :=
  let (completed,applied,s) :=
    execWhile (markInRoom world room identity request.subscribe) (false,s)
      (requestedMarks request)
  (completed && applied,s)

/-- The service API marks the tracks in the room store first, and it needs no permission. -/
def updateSubscriptions (s : SignalState T) (world : Surroundings T) (room identity : String)
    (request : UpdateSubscription) : SignalState T :=
  match s.context.rooms.getParticipant room identity with
  | .error _ => s
  | .ok _ =>
    match s.markRequested world room identity request with
    | (false,s) => s | (true,s) => s.handleMediaSubscriptionRequest world room identity request true

inductive Direction | sendrecv | sendonly | recvonly | inactive deriving DecidableEq

structure OfferMediaSection where
  mid : String
  kind : Option MediaKind
  direction : Direction
  (hasMsid isRejected : Bool)

structure ReceiveSection where
  mid : String
  kind : MediaKind

/-- An offer of a client: the sections of its description, the track ids that are signalled
with it and those in the description, and the video codecs it can receive. -/
structure PublisherOffer where
  sections : List OfferMediaSection
  (midToTrackId sdpMidToTrackId : FiniteMap String String)
  usesIceTrickle : Bool
  videoMimeTypes : Finset String

def activePublisherMids (sections : List OfferMediaSection) : Finset String :=
  ((sections.filter (fun offered => !offered.isRejected && (offered.direction = .sendonly ||
    (offered.direction = .sendrecv && offered.hasMsid)))).map
      OfferMediaSection.mid).toFinset

/-- Sections whose id names a track of somebody else are for receiving, and sections whose id
names a track of the client are for publishing. -/
def classifySinglePcOfferSections (s : SignalState T) (world : Surroundings T)
    (room identity : String) (offer : PublisherOffer) : Finset String × List ReceiveSection :=
  let remoteTrackSids := (s.tracksOfOthers world room identity).map (·.2.sid)
  let (publisherMids,remoteMids) := (offer.midToTrackId.entries world.midOrder).foldl
    (fun (mids : Finset String × Finset String) (entry : String × String) =>
      if entry.2 ≠ "" ∧ entry.2∈remoteTrackSids then
        (mids.1.erase entry.1,insert entry.1 mids.2)
      else if (s.mediaTrackCids.lookup ⟨room,identity,entry.2⟩).isSome then
        (insert entry.1 mids.1,mids.2)
      else mids) (activePublisherMids offer.sections,∅)
  (publisherMids,(offer.sections.filter (fun offered =>
      !offered.isRejected && offered.mid∉publisherMids &&
      (offered.direction = .recvonly || (offered.direction = .sendrecv &&
        (!offered.hasMsid || offered.mid∈remoteMids))))).filterMap (fun offered =>
    offered.kind.map (ReceiveSection.mk offered.mid)))

variable [ForwardingTransport T]

def forwardingMidForSubscriberTrack (s : SignalState T) (key : MediaTrackKey) : Option String :=
  (s.forwardTracks.tracks.lookup (forwardKey key)).bind forwardingMid

def targetsInSection (s : SignalState T) (room subscriber mid : String) : Finset ForwardTrackKey :=
  s.forwardTracks.tracks.keys.filter (fun target => target.room=room ∧
    target.subscriber=subscriber ∧
    (s.forwardTracks.tracks.lookup target).bind forwardingMid=some mid)

def removeSubscriberMid (s : SignalState T) (room subscriber mid : String) : SignalState T :=
  {s with forwardTracks := s.forwardTracks.removeSubscriberMid room subscriber mid}

/-- A target loses its section to a track of the subscriber itself and waits for another one. -/
def reclaimForPublisher (world : Surroundings T) (s : SignalState T)
    (target : ForwardTrackKey × T) : Bool × SignalState T :=
  let key := mediaKey target.1
  let s := (s.removeForwarding key).dropSectionRequest key
  if !world.removesForwardingTrack target.2 then (false,s)
  else
    match s.publishedTrack key.room key.publisher key.trackSid with
    | none => (true,s) | some track => (true,s.requestSection key (.ofTrack track))

def reclaimedTargets (s : SignalState T) (world : Surroundings T) (room subscriber mid : String) :
    List (ForwardTrackKey × T) :=
  (world.targetOrder.order (s.targetsInSection room subscriber mid)).filterMap (fun target =>
    (s.forwardTracks.tracks.lookup target).map (Prod.mk target))

def reclaimSinglePcForwardingOnPublisherMids (s : SignalState T) (world : Surroundings T)
    (room subscriber : String) (publisherMids : Finset String) : Bool × SignalState T :=
  execWhile (fun s mid =>
    execWhile (reclaimForPublisher world) (s.removeSubscriberMid room subscriber mid)
      (s.reclaimedTargets world room subscriber mid)) s (world.midOrder.order publisherMids)

/-- A target loses its section to the track that is being attached. It waits for another one
unless it is that track or is no longer published. -/
def reclaimForTrack (current : MediaTrackKey) (s : SignalState T) (target : ForwardTrackKey) :
    SignalState T :=
  let key := mediaKey target
  let released := (s.removeForwarding key).dropSectionRequest key
  match s.publishedTrack key.room key.publisher key.trackSid with
  | some track =>
    if key=current then (released.setSubscribed key false).setRoomSubscribed key false
    else released.requestSection key (.ofTrack track)
  | none => (released.setSubscribed key false).setRoomSubscribed key false

structure Attaching (T : Type) where
  state : SignalState T
  sections : List ReceiveSection
  attached : FiniteMap String String

def findLastIdx? {α : Type} (test : α→Bool) (items : List α) : Option ℕ :=
  (items.reverse.findIdx? test).map (fun index => items.length-1-index)

/-- A track keeps its section; otherwise it may take one when it waits for one. -/
def chooseSection (sections : List ReceiveSection) (existingMid : Option String)
    (kind : MediaKind) (alreadyForwarding hasPendingRequest preferNewest : Bool) : Option ℕ :=
  let existing := existingMid.bind (fun mid =>
    sections.findIdx? (fun offered => offered.mid=mid ∧ offered.kind=kind))
  match existing with
  | some index => some index
  | none =>
    if alreadyForwarding && !hasPendingRequest then none
    else if preferNewest then findLastIdx? (·.kind=kind) sections
    else sections.findIdx? (·.kind=kind)

/-- A section is taken for a track that waits for one or had one: what is sent there is
reclaimed, and the track is marked subscribed and attached. -/
def attachToSection (world : Surroundings T) (key : MediaTrackKey)
    (alreadyForwarding hasPendingRequest : Bool) (taken : ReceiveSection) (a : Attaching T) :
    Bool × Attaching T :=
  let reclaimed := a.state.targetsInSection key.room key.subscriber taken.mid
  let s := (world.targetOrder.order reclaimed).foldl (reclaimForTrack key)
    (a.state.removeSubscriberMid key.room key.subscriber taken.mid)
  let attached := a.attached.insert taken.mid key.trackSid
  if alreadyForwarding && forwardKey key∉reclaimed && !hasPendingRequest then
    (true,{a with state := s,attached})
  else if key∈s.mediaForwarding then
    (true,{a with state := s.dropSectionRequest key,attached})
  else
    let s := ((s.insertForwarding key).setSubscribed key true).setRoomSubscribed key true
    match world.addForwardingTrackToMid key taken.mid with
    | none => (false,{a with state := s})
    | some transport =>
      (true,{a with state := (s.attach key transport).dropSectionRequest key,attached})

def attachTrack (world : Surroundings T) (room subscriber : String) (preferNewest : Bool)
    (publisher : String) (a : Attaching T) (track : TrackInfo) : Bool × Attaching T :=
  if track.sid = "" then (true,a)
  else
    let key : MediaTrackKey := ⟨room,publisher,track.sid,subscriber⟩
    let hasPendingRequest := (a.state.pendingMediaSectionRequests.lookup key).isSome
    let existingMid := a.state.forwardingMidForSubscriberTrack key
    let alreadyForwarding := key∈a.state.mediaForwarding || existingMid.isSome
    match chooseSection a.sections existingMid (.ofTrack track) alreadyForwarding
        hasPendingRequest preferNewest with
    | none => (true,a)
    | some index =>
      if !hasPendingRequest && !alreadyForwarding then (true,a)
      else
        match a.sections[index]? with
        | none => (true,a)
        | some taken =>
          attachToSection world key alreadyForwarding hasPendingRequest taken
            {a with sections := a.sections.eraseIdx index}

/-- Tracks with a section come first, then those that wait for one. -/
def attachOrder (s : SignalState T) (room subscriber publisher : String) (track : TrackInfo) :
    Bool ×ₗ Bool ×ₗ String :=
  let key : MediaTrackKey := ⟨room,publisher,track.sid,subscriber⟩
  toLex (!(s.forwardingMidForSubscriberTrack key).isSome,
    toLex (!(s.pendingMediaSectionRequests.lookup key).isSome,track.sid))

def attachPublisher (world : Surroundings T) (room subscriber : String) (preferNewest : Bool)
    (a : Attaching T) (publisher : ParticipantInfo) : Bool × Attaching T :=
  if publisher.identity=subscriber then (true,a)
  else
    execWhile (attachTrack world room subscriber preferNewest publisher.identity) a
      (publisher.tracks.insertionSort (fun left right =>
        a.state.attachOrder room subscriber publisher.identity left ≤
          a.state.attachOrder room subscriber publisher.identity right))

def attachReceiveSectionForwardingToSinglePc (s : SignalState T) (world : Surroundings T)
    (room subscriber : String) (sections : List ReceiveSection) (preferNewest : Bool) :
    Bool × Attaching T :=
  if sections=[] then (true,⟨s,[],.empty⟩)
  else
    execWhile (attachPublisher world room subscriber preferNewest) ⟨s,sections,.empty⟩
      (s.participantsOf world room)

/-- Where the transport of a track is bound decides: a compatible codec marks the track
subscribed in the room, and an unsupported one takes the target away. -/
def activateTrack (world : Surroundings T) (room subscriber : String)
    (acc : Finset String × SignalState T) (trackSid : String) : Finset String × SignalState T :=
  let (compatible,s) := acc
  match s.findMediaTrackPublisher world room trackSid with
  | none => acc
  | some (publisher,track) =>
    let key : MediaTrackKey := ⟨room,publisher,trackSid,subscriber⟩
    match (s.forwardTracks.tracks.lookup (forwardKey key)).map world.bindResult with
    | some (.compatible _) => (insert trackSid compatible,s.setRoomSubscribed key true)
    | some .unsupportedCodec =>
      if track.type ≠ .video then acc
      else if s.subscriberSupportsAnyTrackMimeType ⟨room,subscriber⟩ track then
        (compatible,(s.detach key).removeForwarding key)
      else (compatible,s.rejectUnsupported key)
    | some .pending | none => acc

def activateTracksWithCompatibleBindResults (s : SignalState T) (world : Surroundings T)
    (room subscriber : String) (trackSids : Finset String) : SignalState T :=
  let (compatible,s) := (world.trackSidOrder.order trackSids).foldl
    (activateTrack world room subscriber) (∅,s)
  {s with forwardTracks :=
      s.forwardTracks.activateSubscriberTrackSids room subscriber compatible}

def rejectUnacceptedVideoTracksFromSubscriberAnswer (s : SignalState T) (world : Surroundings T)
    (room subscriber : String) (offered : FiniteMap String String) (acceptedMids : Finset String) :
    SignalState T :=
  (offered.entries world.midOrder).foldl (fun s entry =>
    if entry.1∈acceptedMids then s
    else
      match s.findMediaTrackPublisher world room entry.2 with
      | none => s
      | some (publisher,track) =>
        if track.type ≠ .video then s
        else s.rejectUnsupported ⟨room,publisher,entry.2,subscriber⟩) s

/-- An answer of a client to an offer of the server: the tracks of that offer by section, and
the sections and video codecs that the client accepts. -/
structure SubscriberAnswer where
  offered : FiniteMap String String
  (acceptedMids videoMimeTypes : Finset String)

def trackSidsOf (midToTrackId : FiniteMap String String) : Finset String :=
  midToTrackId.keys.image (fun mid => (midToTrackId.lookup mid).getD "")

def subscriberTrackSidsForForwardingMids (s : SignalState T) (room subscriber : String)
    (mids : Finset String) : Finset String :=
  (s.forwardTracks.tracks.keys.filter (fun target => target.room=room ∧
    target.subscriber=subscriber ∧
    ((s.forwardTracks.tracks.lookup target).bind forwardingMid).any (fun mid =>
      mid∈mids))).image ForwardTrackKey.trackSid

/-- An answer to an offer of the server. On the connection of a publisher, and when it is stale,
nothing changes. -/
def subscriberAnswer (s : SignalState T) (world : Surroundings T) (room identity : String)
    (answer : SubscriberAnswer) : SignalState T :=
  if ⟨room,identity⟩∉s.subscriberConnections ∨ world.setsRemoteDescription=false then s
  else
    let s := s.mergeParticipantSubscribeVideoMimeTypes ⟨room,identity⟩ answer.videoMimeTypes
    let s := s.rejectUnacceptedVideoTracksFromSubscriberAnswer world room identity answer.offered
      answer.acceptedMids
    let offeredTrackSids := trackSidsOf answer.offered
    let trackSids := if offeredTrackSids=∅ then
      s.subscriberTrackSidsForForwardingMids room identity answer.acceptedMids else offeredTrackSids
    (s.activateTracksWithCompatibleBindResults world room identity
      trackSids).ensureExistingMediaForwardingForSubscriber world room identity

/-- Attaches every track of the room, whatever the subscriber has asked for. -/
def attachExistingMediaToSubscriberPc (s : SignalState T) (world : Surroundings T)
    (room subscriber : String) : Bool × SignalState T :=
  execWhile (fun s published =>
    let key : MediaTrackKey := ⟨room,published.1,published.2.sid,subscriber⟩
    if published.2.sid = "" ∨ key∈s.mediaForwarding then (true,s)
    else
      match world.addForwardingTrack key with
      | none => (false,s.insertForwarding key)
      | some transport => (true,(s.insertForwarding key).attach key transport)) s
    (s.tracksOfOthers world room subscriber)

def createSubscriberOffer (s : SignalState T) (world : Surroundings T) (room identity : String) :
    SignalState T :=
  let (attached,s) := s.attachExistingMediaToSubscriberPc world room identity
  if attached && world.createsDescription then
    {s with subscriberConnections := insert ⟨room,identity⟩ s.subscriberConnections}
  else s

/-- The kinds of the sections of an offer; the last one counts for an id that is there twice. -/
def offerMediaKinds (sections : List OfferMediaSection) : FiniteMap String MediaKind :=
  sections.foldl (fun kinds offered =>
    match offered.kind with
    | some kind => kinds.insert offered.mid kind | none => kinds) .empty

def isCompatibleWithPrevious (s : SignalState T) (participant : ParticipantKey)
    (offered : FiniteMap String MediaKind) : Bool :=
  match s.singlePcOfferMediaKinds.lookup participant with
  | none => true
  | some previous => decide (∀mid∈offered.keys,
      previous.lookup mid=none ∨ previous.lookup mid=offered.lookup mid)

/-- The track that a section of an offer sends: by the sid in its id, by the client's name for
it, or as the only track of its kind that is not bound yet. -/
def publishedSidForSection (s : SignalState T) (room publisher : String) (offer : PublisherOffer)
    (mid sdpTrackId : String) : Option String :=
  if "TR_".toList.isPrefixOf sdpTrackId.toList then some sdpTrackId
  else
    let byId := s.mediaTrackCids.lookup ⟨room,publisher,sdpTrackId⟩
    let bySignal := (offer.midToTrackId.lookup mid).bind (fun cid =>
      s.mediaTrackCids.lookup ⟨room,publisher,cid⟩)
    let byKind := ((offerMediaKinds offer.sections).lookup mid).bind (fun kind =>
      (s.context.rooms.getParticipant room publisher).toOption.bind (fun participant =>
        match participant.tracks.filter (fun track =>
          track.type=(match kind with | .audio => .audio | .video => .video) ∧
          track.mid = "" ∧ track.codecs.all (·.sdpCid = "")) with
        | [track] => some track.sid | _ => none))
    byId.or (bySignal.or byKind)

def bindSection (room publisher : String) (offer : PublisherOffer) (s : SignalState T)
    (entry : String × String) : SignalState T :=
  match s.publishedSidForSection room publisher offer entry.1 entry.2 with
  | none => s
  | some trackSid =>
    let s := {s with mediaTrackCids := s.mediaTrackCids.insert ⟨room,publisher,entry.2⟩ trackSid}
    let rooms := (s.context.rooms.setParticipantTrackMid room publisher trackSid entry.1).2
    s.withRooms (rooms.setParticipantTrackSdpCid room publisher trackSid entry.2).2

/-- The tracks that a dual-PC offer has stopped sending: one that is bound to a section which
no longer sends, or the only unbound track of a kind when a section of that kind stopped. -/
def staleTracks (tracks : List TrackInfo) (sections : List OfferMediaSection)
    (singlePcMode : Bool) : List TrackInfo :=
  let removed := sections.filter (fun offered => offered.isRejected ||
    offered.direction = .inactive ||
    (!singlePcMode && offered.direction = .recvonly))
  let unbound := fun track : TrackInfo =>
    track.mid = "" && track.codecs.all (·.sdpCid = "")
  tracks.filter (fun track => !singlePcMode &&
    ((track.mid ≠ "" && track.codecs.any (·.sdpCid ≠ "") &&
      sections.any (·.mid=track.mid) &&
      track.mid∉activePublisherMids sections &&
      removed.any (·.mid=track.mid)) ||
    (unbound track &&
      sections.any (fun offered => offered.kind=some (.ofTrack track) &&
        removed.any (·.mid=offered.mid)) &&
      decide ((tracks.filter (fun candidate =>
        candidate.type=track.type && unbound candidate)).length=1))))

def reconcilePublisherMediaTracksAfterAnswer (s : SignalState T) (world : Surroundings T)
    (room publisher : String) (offer : PublisherOffer) (midToSdpTrackId : FiniteMap String String)
    (singlePcMode : Bool) : SignalState T :=
  let s := (midToSdpTrackId.entries world.midOrder).foldl (bindSection room publisher offer) s
  match s.context.rooms.getParticipant room publisher with
  | .error _ => s
  | .ok participant =>
    (staleTracks participant.tracks offer.sections singlePcMode).foldl (fun s track =>
      s.unpublishTrack room publisher track.sid) s

def completeAnswer (s : SignalState T) (world : Surroundings T) (room identity : String)
    (offer : PublisherOffer) (answerMidToTrackId : FiniteMap String String)
    (singlePcMode : Bool) : SignalState T :=
  let participant : ParticipantKey := ⟨room,identity⟩
  let s := {s with publisherConnections := insert participant s.publisherConnections}
  let s := s.reconcilePublisherMediaTracksAfterAnswer world room identity offer
    (if offer.sdpMidToTrackId.keys=∅ then answerMidToTrackId else offer.sdpMidToTrackId)
    singlePcMode
  let s := s.ensureExistingMediaForwardingForSubscriber world room identity
  let s := {s with singlePcOfferMediaKinds :=
      s.singlePcOfferMediaKinds.insert participant (offerMediaKinds offer.sections)}
  s.activateTracksWithCompatibleBindResults world room identity (trackSidsOf answerMidToTrackId)

/-- What an offer can receive is remembered, and a connection whose sections change their kind
is replaced. -/
def rememberOffer (s : SignalState T) (participant : ParticipantKey) (offer : PublisherOffer)
    (singlePcMode : Bool) : SignalState T :=
  let s := s.rememberParticipantSubscribeVideoMimeTypes participant offer.videoMimeTypes
  if singlePcMode && !s.isCompatibleWithPrevious participant (offerMediaKinds offer.sections) then
    {s with publisherConnections := s.publisherConnections.erase participant}
  else s

/-- The sections of an offer are given to the tracks of the room. An answer without attached
sections names the tracks found in its description. -/
def answerSections (s : SignalState T) (world : Surroundings T) (room identity : String)
    (offer : PublisherOffer) (sdpAnswerMidToTrackId : FiniteMap String String)
    (singlePcMode : Bool) : SignalState T :=
  let (publisherMids,receiveSections) :=
    if singlePcMode then s.classifySinglePcOfferSections world room identity offer else (∅,[])
  match s.reclaimSinglePcForwardingOnPublisherMids world room identity publisherMids with
  | (false,s) => s
  | (true,s) =>
    if world.preparesTransceivers=false then s
    else
      match s.attachReceiveSectionForwardingToSinglePc world room identity receiveSections
        (!offer.usesIceTrickle) with
      | (false,a) => a.state
      | (true,a) =>
        if world.createsDescription=false then a.state
        else
          a.state.completeAnswer world room identity offer
            (if a.attached.keys=∅ then sdpAnswerMidToTrackId else a.attached) singlePcMode

/-- An offer of a client; it is a single-PC client unless it was told to expect offers. -/
def answerPublisherOffer (s : SignalState T) (world : Surroundings T) (room identity : String)
    (offer : PublisherOffer) (sdpAnswerMidToTrackId : FiniteMap String String) : SignalState T :=
  let singlePcMode := !(s.participantSubscriberPrimary.lookup ⟨room,identity⟩).getD false
  let remembered := s.rememberOffer ⟨room,identity⟩ offer singlePcMode
  if world.setsRemoteDescription=false then remembered
  else remembered.answerSections world room identity offer sdpAnswerMidToTrackId singlePcMode

end SignalState

variable {T : Type}

inductive SignalEvent (T : Type)
  | publish (world : Surroundings T) (room identity cid : String) (track : TrackInfo)
  | unpublish (room publisher trackSid : String)
  | mediaArrives (world : Surroundings T) (room publisher trackSid : String)
  | subscription (world : Surroundings T) (room subscriber : String)
      (request : SignalState.UpdateSubscription)
  | serviceSubscription (world : Surroundings T) (room identity : String)
      (request : SignalState.UpdateSubscription)
  | subscriberOffer (world : Surroundings T) (room identity : String)
  | subscriberAnswer (world : Surroundings T) (room identity : String)
      (answer : SignalState.SubscriberAnswer)
  | publisherOffer (world : Surroundings T) (room identity : String)
      (offer : SignalState.PublisherOffer) (sdpAnswerMidToTrackId : FiniteMap String String)

def SignalEvent.room : SignalEvent T → String
  | .publish _ room _ _ _ => room | .unpublish room _ _ => room | .mediaArrives _ room _ _ => room
  | .subscription _ room _ _ => room | .serviceSubscription _ room _ _ => room
  | .subscriberOffer _ room _ => room | .subscriberAnswer _ room _ _ => room
  | .publisherOffer _ room _ _ _ => room

variable [ForwardingTransport T]

def SignalState.step (s : SignalState T) : SignalEvent T → SignalState T
  | .publish world room identity cid track => s.addTrackResponse world room identity cid track
  | .unpublish room publisher trackSid => s.unpublishTrack room publisher trackSid
  | .mediaArrives world room publisher trackSid =>
    s.forwardPublisherRemoteTrack world room publisher trackSid
  | .subscription world room subscriber request =>
    s.handleMediaSubscriptionRequest world room subscriber request false
  | .serviceSubscription world room identity request =>
    s.updateSubscriptions world room identity request
  | .subscriberOffer world room identity => s.createSubscriberOffer world room identity
  | .subscriberAnswer world room identity answer => s.subscriberAnswer world room identity answer
  | .publisherOffer world room identity offer sdpAnswerMidToTrackId =>
    s.answerPublisherOffer world room identity offer sdpAnswerMidToTrackId

end OxideSfu.Signaling
