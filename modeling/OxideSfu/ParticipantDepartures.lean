import OxideSfu.DataTrackReconciliation
import OxideSfu.OfferNegotiation
import OxideSfu.ParticipantResidue
import OxideSfu.PendingMediaSections

/-!
# A participant leaves its node

An explicit leave ends in `cleanup_participant_runtime_state` (`router.rs`), one step here. What the
peer connections answer and the orders of maps are inputs; webhooks and messages are left out. A
store whose values no step reads is the set of its keys.
-/

namespace OxideSfu.Signaling

open FiniteMaps StepRuns Rooms RoomStore ForwardTracks ForwardTrackStore SignalState FiniteMap
  PendingMediaSectionRequestStore

class OfParticipant (κ : Type) where
  Names : κ → ParticipantKey→Prop
  decidable : ∀k key,Decidable (Names k key)

export OfParticipant (Names)

instance {κ : Type} [OfParticipant κ] (k : κ) (key : ParticipantKey) : Decidable (Names k key) :=
  OfParticipant.decidable k key

instance : OfParticipant ParticipantKey where
  Names k key := k=key
  decidable _ _ := inferInstance

/-- A key that belongs to one participant, with a part of its own. -/
instance {α : Type} : OfParticipant (ParticipantKey × α) where
  Names k key := k.1=key
  decidable _ _ := inferInstance

instance : OfParticipant MediaTrackKey where
  Names k key := k.room=key.room ∧ (k.publisher=key.identity ∨ k.subscriber=key.identity)
  decidable _ _ := inferInstance

instance : OfParticipant TrackSettingsKey where
  Names k key := k.room=key.room ∧ k.identity=key.identity
  decidable _ _ := inferInstance

instance : OfParticipant MediaCidKey where
  Names k key := k.room=key.room ∧ k.publisher=key.identity
  decidable _ _ := inferInstance

structure ActivePair where
  (room publisher subscriber : String)
  deriving DecidableEq

instance : OfParticipant ActivePair where
  Names k key := k.room=key.room ∧ (k.publisher=key.identity ∨ k.subscriber=key.identity)
  decidable _ _ := inferInstance

def Unnamed {κ : Type} [OfParticipant κ] (key : ParticipantKey) (keys : Finset κ) : Prop :=
  ∀k∈keys,¬ Names k key
  deriving Decidable

def forget {κ β : Type} [OfParticipant κ] (key : ParticipantKey) (m : FiniteMap κ β) :
    FiniteMap κ β :=
  m.filter (fun k _ => !(Names k key))

def forgetIn {κ : Type} [OfParticipant κ] (key : ParticipantKey) (keys : Finset κ) : Finset κ :=
  keys.filter (fun k => ¬ Names k key)

variable {T : Type}

/-- The stores of a participant's negotiations. The mapping of a subscriber's offer tells the track
of each of its media sections. -/
structure NegotiationStores where
  offerIds : SubscriberOfferIdStore
  offers : SubscriberOfferNegotiationStore
  offerMidTrackIds : FiniteMap (ParticipantKey × UInt32) (FiniteMap String String)
  sections : PendingMediaSectionRequestStore

structure MediaStores (T : Type) where
  trackSettings : TrackSettingsStore
  mediaForwarding : Finset MediaTrackKey
  mediaSubscriptions : MediaSubscriptionStore
  activePairs : Finset ActivePair
  mediaTrackCids : FiniteMap MediaCidKey String
  pendingRemoteTracks : Finset ParticipantKey
  singlePcOfferMediaKinds : FiniteMap ParticipantKey (FiniteMap String MediaKind)
  forwardTracks : ForwardTrackStore T

structure ClientStores where
  dataChannels : Finset ParticipantKey
  subscriberPrimary : FiniteMap ParticipantKey Bool
  clientInfos : Finset ParticipantKey
  subscribeVideoMimeTypes : FiniteMap ParticipantKey (Finset String)
  dataBlobs : FiniteMap (ParticipantKey × List UInt8) (List UInt8)

/-- The stores of a node that a leave touches. Of the peer connections, `data.sessions` has the
participants with any, and `subscriberConnections` those with one for receiving. -/
structure NodeState (T : Type) where
  data : DataSessionState
  subscriberConnections : Finset ParticipantKey
  negotiation : NegotiationStores
  media : MediaStores T
  client : ClientStores

/-- The offers that a leave can ask for: one after the tracks of the participant, two after the
targets that were left over. -/
inductive OfferAttempt | consolidated | orphanedAudio | orphanedVideo

/-- What a leave meets outside of the stores. An offer that is created has the tracks of its media
sections. -/
structure Departure (T : Type) where
  orders : MapOrders
  targetOrder : Iteration ForwardTrackKey
  renegotiationOrder : Iteration String
  settingsOrder : Iteration TrackSettingsKey
  removesForwardingTrack : T→Bool
  removedForPublisher : ParticipantKey → String → ℕ
  createOffer : OfferAttempt → ParticipantKey→Option (FiniteMap String String)

namespace NegotiationStores

def empty : NegotiationStores := ⟨⟨.empty⟩,⟨.empty⟩,.empty,.empty⟩

/-- A mapping without sections is not kept. -/
def rememberOfferMidTrackIds (n : NegotiationStores) (subscriber : ParticipantKey)
    (offerId : UInt32) (midTrackIds : FiniteMap String String) : NegotiationStores :=
  {n with
    offerMidTrackIds :=
      if midTrackIds.keys=∅ then n.offerMidTrackIds.erase (subscriber,offerId)
      else n.offerMidTrackIds.insert (subscriber,offerId) midTrackIds}

/-- `signal_server_offer_with_offer_id`; `created` is the offer that the connection makes. -/
def signalServerOffer (n : NegotiationStores) (subscriber : ParticipantKey)
    (created : Option (FiniteMap String String)) : NegotiationStores :=
  match n.offers.requestOffer subscriber with
  | (.coalesced,offers) => {n with offers}
  | (.start,offers) =>
    match created with
    | none => {n with offers := offers.abortOfferCreation subscriber}
    | some midTrackIds =>
      let (id,offerIds) := n.offerIds.nextOfferId subscriber
      {n with
        offerIds
        offers := offers.markOfferInFlight subscriber id}.rememberOfferMidTrackIds subscriber id
          midTrackIds

def requestRenegotiationIfIdle (n : NegotiationStores) (subscriber : ParticipantKey) :
    NegotiationStores :=
  {n with
    sections :=
      if subscriber∈n.sections.negotiatingSubscribers then n.sections.recordCoalesced subscriber
      else n.sections.markNegotiating subscriber}

/-- A subscriber whose senders were removed is asked to renegotiate, with an offer for each attempt
if it receives on a connection of its own. -/
def renegotiate (n : NegotiationStores) (world : Departure T) (attempts : List OfferAttempt)
    (subscriber : ParticipantKey) : Option MediaForwardingConnectionKind → NegotiationStores
  | none => n | some .singlePcPublisher => n.requestRenegotiationIfIdle subscriber
  | some .dualPcSubscriber =>
    attempts.foldl (fun n attempt => n.signalServerOffer subscriber
      (world.createOffer attempt subscriber))
      n

def removeParticipant (n : NegotiationStores) (key : ParticipantKey) : NegotiationStores where
  offerIds := n.offerIds.removeParticipant key
  offers := n.offers.removeParticipant key
  offerMidTrackIds := forget key n.offerMidTrackIds
  sections := (((n.sections.keepOthersKeys key).keepOthersRequested key).unmarkNegotiating
    key).dropCoalesced key

end NegotiationStores

namespace MediaStores

def empty : MediaStores T :=
  ⟨.empty,∅,.empty,∅,.empty,∅,.empty,.empty⟩

def removeParticipant (m : MediaStores T) (key : ParticipantKey)
    (settingsOrder : Iteration TrackSettingsKey) : MediaStores T where
  trackSettings := m.trackSettings.removeParticipant key.room key.identity settingsOrder
  mediaForwarding := forgetIn key m.mediaForwarding
  mediaSubscriptions := m.mediaSubscriptions.removeParticipant key.room key.identity
  activePairs := forgetIn key m.activePairs
  mediaTrackCids := forget key m.mediaTrackCids
  pendingRemoteTracks := forgetIn key m.pendingRemoteTracks
  singlePcOfferMediaKinds := m.singlePcOfferMediaKinds.erase key
  forwardTracks := m.forwardTracks.removeParticipant key.room key.identity

end MediaStores

namespace ClientStores

def empty : ClientStores := ⟨∅,.empty,∅,.empty,.empty⟩

def removeParticipant (c : ClientStores) (key : ParticipantKey) : ClientStores where
  dataChannels := c.dataChannels.erase key
  subscriberPrimary := c.subscriberPrimary.erase key
  clientInfos := c.clientInfos.erase key
  subscribeVideoMimeTypes := c.subscribeVideoMimeTypes.erase key
  dataBlobs := forget key c.dataBlobs

end ClientStores

def DataSessionState.othersBeside (s : DataSessionState) (key : ParticipantKey)
    (orders : MapOrders) : List ParticipantKey :=
  ((s.listParticipants key.room orders.participants).filter
    (·.identity≠key.identity)).map
      (fun participant => ⟨key.room,participant.identity⟩)

namespace NodeState

def initial (defaults : RoomDefaults) (roomAutoCreateOnJoin : Bool) : NodeState T :=
  ⟨.initial defaults roomAutoCreateOnJoin,∅,.empty,.empty,.empty⟩

def rooms (s : NodeState T) : RoomStore := s.data.sessions.rooms

def withRooms (s : NodeState T) (rooms : RoomStore) : NodeState T :=
  {s with data := s.data.withSessions (s.data.sessions.withRooms rooms)}

def getParticipant (s : NodeState T) (key : ParticipantKey) : Option ParticipantInfo :=
  s.data.sessions.getParticipant key

def othersOf (s : NodeState T) (world : Departure T) (key : ParticipantKey) : List ParticipantKey :=
  s.data.othersBeside key world.orders

def mediaReceiverForIdentity (s : NodeState T) (participant : ParticipantKey) :
    Option MediaForwardingConnectionKind :=
  if participant∈s.subscriberConnections then some .dualPcSubscriber
  else if participant∈s.data.sessions.peerConnections then some .singlePcPublisher
  else none

def negotiable (s : NodeState T) (subscriber : ParticipantKey) :
    Option MediaForwardingConnectionKind :=
  if (s.data.sessions.signalConnections.lookup subscriber).isSome then
    s.mediaReceiverForIdentity subscriber
  else none

def renegotiate (s : NodeState T) (world : Departure T) (attempts : List OfferAttempt)
    (subscriber : ParticipantKey) : NodeState T :=
  {s with
    negotiation := s.negotiation.renegotiate world attempts subscriber (s.negotiable subscriber)}

def renegotiateAll (s : NodeState T) (world : Departure T) (attempts : List OfferAttempt)
    (room : String) (subscribers : Finset String) : NodeState T :=
  (world.renegotiationOrder.order subscribers).foldl
    (fun s subscriber => s.renegotiate world attempts ⟨room,subscriber⟩) s

def hasActiveTrack (s : NodeState T) (key : MediaTrackKey) : Bool :=
  (s.getParticipant ⟨key.room,key.publisher⟩).any (fun publisher =>
    publisher.tracks.any (fun track => track.sid ≠ "" &&
      s.rooms.isMediaTrackSubscribed {key with trackSid := track.sid} &&
      s.media.mediaSubscriptions.isSubscribed {key with trackSid := track.sid}))

def removeForwarding (s : NodeState T) (key : MediaTrackKey) : NodeState T :=
  {s.withRooms (s.rooms.setMediaTrackSubscribed key false).2 with
    media := {s.media with mediaForwarding := s.media.mediaForwarding.erase key}}

def clearPublisherSubscriptionActiveIfNoRemainingTracks (s : NodeState T) (key : MediaTrackKey) :
    NodeState T :=
  if s.hasActiveTrack key then s
  else
    {s with
      media := {s.media with
        activePairs := s.media.activePairs.erase ⟨key.room,key.publisher,key.subscriber⟩}}

/-- `remove_subscriber_media_forwarding_for_track_without_negotiation`, and whether the subscriber
has to renegotiate. -/
def removeSubscriberMediaForwardingForTrack (s : NodeState T) (world : Departure T)
    (key : MediaTrackKey) : Bool × NodeState T :=
  let s := (s.removeForwarding key).clearPublisherSubscriptionActiveIfNoRemainingTracks key
  let removed := s.media.forwardTracks.tracks.lookup (forwardKey key)
  let connected := (s.mediaReceiverForIdentity ⟨key.room,key.subscriber⟩).isSome
  (removed.any (fun track => connected && world.removesForwardingTrack track),
    {s with media := {s.media with forwardTracks := s.media.forwardTracks.remove (forwardKey key)}})

/-- One subscriber and one track of the participant that leaves; the first component collects who
has to renegotiate. -/
def giveUpTrack (world : Departure T) (acc : Finset String × NodeState T) (key : MediaTrackKey) :
    Finset String × NodeState T :=
  let (renegotiates,s) := acc.2.removeSubscriberMediaForwardingForTrack world key
  (if renegotiates then insert key.subscriber acc.1 else acc.1,s)

def departingKeys (s : NodeState T) (world : Departure T) (key : ParticipantKey) :
    List MediaTrackKey :=
  let tracks := ((s.getParticipant key).map (·.tracks)).getD []
  (s.othersOf world key).flatMap (fun other => tracks.map (fun track =>
    ⟨key.room,key.identity,track.sid,other.identity⟩))

def giveUpTarget (acc : Finset String × NodeState T) (target : ForwardTrackKey) :
    Finset String × NodeState T :=
  let s := acc.2.removeForwarding (mediaKey target)
  (if (s.mediaReceiverForIdentity ⟨target.room,target.subscriber⟩).isSome then
    insert target.subscriber acc.1 else acc.1,s)

def stillSending (s : NodeState T) (world : Departure T) (key : ParticipantKey) (sid : String) :
    List ParticipantKey :=
  if sid = "" then []
  else (s.othersOf world key).filter (fun other =>
    (s.mediaReceiverForIdentity other).isSome && 0<world.removedForPublisher other sid)

def removeOrphanedForwardTracksForDepartingPublisher (s : NodeState T) (world : Departure T)
    (key : ParticipantKey) (sid : String) : NodeState T :=
  let targets := s.media.forwardTracks.tracks.keys.filter (fun target =>
    target.room=key.room ∧ target.publisher=key.identity)
  let s := {s with media := {s.media with
    forwardTracks := s.media.forwardTracks.removeAllForPublisher key.room key.identity}}
  let (renegotiating,s) := (world.targetOrder.order targets).foldl giveUpTarget (∅,s)
  s.renegotiateAll world [.orphanedAudio,.orphanedVideo] key.room
    (renegotiating ∪ ((s.stillSending world key sid).map (·.identity)).toFinset)

def cleanupParticipantRuntimeState (s : NodeState T) (world : Departure T) (key : ParticipantKey)
    (now : ℤ) : NodeState T :=
  let sid := ((s.getParticipant key).map (·.sid)).getD ""
  let (renegotiating,s) := (s.departingKeys world key).foldl (giveUpTrack world) (∅,s)
  let s := s.renegotiateAll world [.consolidated] key.room renegotiating
  let s := s.removeOrphanedForwardTracksForDepartingPublisher world key sid
  { data := s.data.cleanupParticipantRuntimeState key world.orders now
    subscriberConnections := s.subscriberConnections.erase key
    negotiation := s.negotiation.removeParticipant key
    media := s.media.removeParticipant key world.settingsOrder
    client := s.client.removeParticipant key}

/-- The connection of the session and its data channels go first. -/
def leave (s : NodeState T) (world : Departure T) (key : ParticipantKey) (now : ℤ) : NodeState T :=
  NodeState.cleanupParticipantRuntimeState
    {s with
      data := s.data.withSessions {s.data.sessions with
        signalConnections := s.data.sessions.signalConnections.erase key}
      client := {s.client with dataChannels := s.client.dataChannels.erase key}}
    world key now

end NodeState

variable {κ β : Type} [OfParticipant κ] {key : ParticipantKey}

theorem Unnamed.forget {m : FiniteMap κ β} (h : Unnamed key m.keys) : forget key m=m := by
  apply filter_eq_self
  intro k b hk
  simp [h k (mem_keys_of_lookup hk)]

theorem Unnamed.forgetIn {keys : Finset κ} (h : Unnamed key keys) : forgetIn key keys=keys :=
  Finset.filter_eq_self.mpr h

theorem Unnamed.notMem {keys : Finset ParticipantKey} (h : Unnamed key keys) : key∉keys :=
  fun hmem => h key hmem rfl

variable {m : FiniteMap ParticipantKey β}

theorem Unnamed.lookup (h : Unnamed key m.keys) :
    m.lookup key=none := lookup_eq_none_iff.mpr h.notMem

theorem Unnamed.erase (h : Unnamed key m.keys) : m.erase key=m := erase_of_lookup_eq_none h.lookup

/-- The tests of `retain` calls on tracks keep what does not name the participant. -/
theorem notOfParticipant_eq_true_iff (k : MediaTrackKey) :
    notOfParticipant key.room key.identity k ↔ ¬ Names k key := by
  change decide _ ↔ ¬(_ ∧ _)
  rw [decide_eq_true_eq,not_and_or,not_or]

structure NegotiationStores.Forgets (n : NegotiationStores) (key : ParticipantKey) : Prop where
  offerIds : Unnamed key n.offerIds.ids.keys
  offers : Unnamed key n.offers.entries.keys
  offerMidTrackIds : Unnamed key n.offerMidTrackIds.keys
  sectionKeys : Unnamed key n.sections.keys.keys
  requestedKeys : Unnamed key n.sections.requestedKeys
  negotiating : Unnamed key n.sections.negotiatingSubscribers
  coalesced : Unnamed key n.sections.coalescedRenegotiations

structure MediaStores.Forgets (m : MediaStores T) (key : ParticipantKey) : Prop where
  settings : Unnamed key m.trackSettings.settings.keys
  pendingSettings : Unnamed key m.trackSettings.pending.keys
  mediaForwarding : Unnamed key m.mediaForwarding
  mediaSubscriptions : Unnamed key m.mediaSubscriptions.entries.keys
  activePairs : Unnamed key m.activePairs
  mediaTrackCids : Unnamed key m.mediaTrackCids.keys
  pendingRemoteTracks : Unnamed key m.pendingRemoteTracks
  singlePcOfferMediaKinds : Unnamed key m.singlePcOfferMediaKinds.keys
  forwardTracks : ForwardTracks.Forgets m.forwardTracks key.room key.identity

structure ClientStores.Forgets (c : ClientStores) (key : ParticipantKey) : Prop where
  dataChannels : Unnamed key c.dataChannels
  subscriberPrimary : Unnamed key c.subscriberPrimary.keys
  clientInfos : Unnamed key c.clientInfos
  subscribeVideoMimeTypes : Unnamed key c.subscribeVideoMimeTypes.keys
  dataBlobs : Unnamed key c.dataBlobs.keys

structure PermissionStores.Forgets (p : PermissionStores) (key : ParticipantKey) : Prop where
  publishMedia : Unnamed key p.publish.mediaAllowed.keys
  publishData : Unnamed key p.publish.dataAllowed.keys
  publishSources : Unnamed key p.publish.sourcesAllowed.keys
  subscribe : Unnamed key p.subscribe.canSubscribeData.keys

/-- No permission, connection or data track of the participant is known, and nobody subscribes to
one. -/
structure DataSessionState.Forgets (s : DataSessionState) (key : ParticipantKey) : Prop where
  permissions : s.sessions.permissions.Forgets key
  authContexts : Unnamed key s.sessions.participantAuthContexts.keys
  signalConnections : Unnamed key s.sessions.signalConnections.keys
  peerConnections : Unnamed key s.sessions.peerConnections
  dataTracks : Unnamed key s.dataTracks.tracks.keys
  subscriptions : ∀entry subscription,s.subscriptions.subscriptions.lookup entry=some subscription →
    ¬(entry.room=key.room ∧ (entry.subscriber=key.identity ∨
      subscription.publisherIdentity=key.identity))
  autoSubscribe : Unnamed key s.autoSubscribePreferences.autoSubscribe.keys
  autoSubscribeDataTrack : Unnamed key s.autoSubscribePreferences.autoSubscribeDataTrack.keys

structure NodeState.Forgets (s : NodeState T) (key : ParticipantKey) : Prop where
  data : s.data.Forgets key
  subscriberConnections : Unnamed key s.subscriberConnections
  negotiation : s.negotiation.Forgets key
  media : s.media.Forgets key
  client : s.client.Forgets key

theorem NegotiationStores.Forgets.removeParticipant {n : NegotiationStores} (h : n.Forgets key) :
    n.removeParticipant key=n := by
  have hke : n.sections.keys.filter (fun k _ => notOfParticipant key.room key.identity k) =
    n.sections.keys :=
    filter_eq_self (fun k _ hk =>
      (notOfParticipant_eq_true_iff k).mpr (h.sectionKeys k (mem_keys_of_lookup hk)))
  have hr : n.sections.requestedKeys.filter
      (fun k => notOfParticipant key.room key.identity k)=n.sections.requestedKeys :=
    Finset.filter_eq_self.mpr (fun k hk =>
      (notOfParticipant_eq_true_iff k).mpr (h.requestedKeys k hk))
  simp only [NegotiationStores.removeParticipant,SubscriberOfferIdStore.removeParticipant,
    SubscriberOfferNegotiationStore.removeParticipant,keepOthersKeys,
    keepOthersRequested,
    unmarkNegotiating,
    dropCoalesced,h.offerIds.erase,h.offers.erase,
    h.offerMidTrackIds.forget,hke,hr,Finset.erase_eq_of_notMem h.negotiating.notMem,
    Finset.erase_eq_of_notMem h.coalesced.notMem]

theorem ClientStores.Forgets.removeParticipant {c : ClientStores} (h : c.Forgets key) :
    c.removeParticipant key=c := by
  simp only [ClientStores.removeParticipant,h.subscriberPrimary.erase,
    h.subscribeVideoMimeTypes.erase,h.dataBlobs.forget,
    Finset.erase_eq_of_notMem h.dataChannels.notMem,
    Finset.erase_eq_of_notMem h.clientInfos.notMem]

theorem PermissionStores.Forgets.removeParticipant {p : PermissionStores} (h : p.Forgets key) :
    p.removeParticipant key=p := by
  simp only [PermissionStores.removeParticipant,PublishPermissionStore.removeParticipant,
    SubscribePermissionStore.removeParticipant,h.publishMedia.erase,h.publishData.erase,
    h.publishSources.erase,h.subscribe.erase]

theorem trackSettings_removeParticipant {s : TrackSettingsStore} (hs : Unnamed key s.settings.keys)
    (hp : Unnamed key s.pending.keys) (orders : Iteration TrackSettingsKey) :
    s.removeParticipant key.room key.identity orders=s := by
  have hr : s.settings.keys.filter (fun k => k.room=key.room ∧ k.identity=key.identity)=∅ :=
    Finset.filter_eq_empty_iff.mpr hs
  have hke : s.pending.filter (fun k _ => (k.room≠key.room ∨ k.identity≠key.identity))=s.pending :=
    filter_eq_self (fun k _ hk =>
      decide_eq_true (not_and_or.mp (hp k (mem_keys_of_lookup hk))))
  simp only [TrackSettingsStore.removeParticipant,hr,Iteration.order_empty,List.foldl_nil,hke]

theorem mediaSubscriptions_removeParticipant {s : MediaSubscriptionStore}
    (h : Unnamed key s.entries.keys) : s.removeParticipant key.room key.identity=s := by
  have hke : s.entries.filter (fun k _ => notOfParticipant key.room key.identity k)=s.entries :=
    filter_eq_self (fun k _ hk =>
      (notOfParticipant_eq_true_iff k).mpr (h k (mem_keys_of_lookup hk)))
  simp only [MediaSubscriptionStore.removeParticipant,MediaSubscriptionStore.retain,hke,ne_eq,
    not_true_eq_false,if_false]

/-- Only the revision of the store changes. -/
theorem forwardTracks_removeParticipant {s : ForwardTrackStore T} (hin : Indexed s)
    (h : ForwardTracks.Forgets s key.room key.identity) :
    s.removeParticipant key.room key.identity=s.bumpRevision := by
  have ht : s.tracks.filter (fun k _ => decide (k.room≠key.room ∨
      (k.publisher≠key.identity ∧ k.subscriber≠key.identity)))=s.tracks := by
    apply filter_eq_self
    intro k tr hk
    refine decide_eq_true ((keeps_iff_not_involves k _ _).mpr (fun hi => ?_))
    rw [h.tracks k hi] at hk
    cases hk
  have ha : s.active.filter (fun k => k.room≠key.room ∨
      (k.publisher≠key.identity ∧ k.subscriber≠key.identity))=s.active :=
    Finset.filter_eq_self.mpr (fun k hk =>
      (keeps_iff_not_involves k _ _).mpr (h.active k hk))
  have hs : s.started.filter
    (fun k _ => (k.room≠key.room ∨ k.publisher≠key.identity))=s.started := by
    apply filter_eq_self
    intro k lease hk
    refine decide_eq_true (not_and_or.mp (fun hp => ?_))
    rw [h.readers k hp] at hk
    cases hk
  have hind : indexOfActive s.active=s.activeByTrack :=
    (indexOfActive_eq s.active).trans hin.grouped.symm
  simp only [ForwardTrackStore.removeParticipant,rebuildActiveIndexFromActiveSet,bumpRevision, ht,
    ha,hs,hind]

theorem MediaStores.Forgets.removeParticipant {m : MediaStores T} (h : m.Forgets key)
    (hi : Indexed m.forwardTracks) (orders : Iteration TrackSettingsKey) :
    m.removeParticipant key orders={m with forwardTracks := m.forwardTracks.bumpRevision} := by
  simp only [MediaStores.removeParticipant,
    trackSettings_removeParticipant h.settings h.pendingSettings,h.mediaForwarding.forgetIn,
    mediaSubscriptions_removeParticipant h.mediaSubscriptions,h.activePairs.forgetIn,
    h.mediaTrackCids.forget,h.pendingRemoteTracks.forgetIn,h.singlePcOfferMediaKinds.erase,
    forwardTracks_removeParticipant hi h.forwardTracks]

open DataTrackSubscriptionStore

/-- Subscribing to the track without options changes nothing for the subscriber: it is subscribed
like that, or nobody publishes the track, or no handle is left for it. -/
def DataTrackSubscriptionStore.Settled (s : DataTrackSubscriptionStore)
    (dataTracks : DataTrackStore)
    (subscriber : ParticipantKey) (trackSid : String) : Prop :=
  match s.subscriptions.lookup ⟨subscriber.room,subscriber.identity,trackSid⟩ with
  | some subscription => subscription.options=none
  | none => 65535 ≤ s.nextHandle ∨
    ¬ ∃publisher,dataTracks.Publishes ⟨subscriber.room,publisher⟩ trackSid

/-- What is subscribed stays so, and options that are gone do not come back. -/
def DataTrackSubscriptionStore.Grows (s t : DataTrackSubscriptionStore) : Prop :=
  ∀entry subscription,s.subscriptions.lookup entry=some subscription →
    ∃later,t.subscriptions.lookup entry=some later ∧
      (subscription.options=none → later.options=none)

variable {s t u : DataTrackSubscriptionStore} {dataTracks : DataTrackStore} {rooms : RoomStore}
  {first : FirstFound}

def reconcileTrack (dataTracks : DataTrackStore) (rooms : RoomStore) (first : FirstFound)
    (s : DataTrackSubscriptionStore) (wanted : ParticipantKey × String) :
    DataTrackSubscriptionStore :=
  s.applyUpdate wanted.1 dataTracks rooms first ⟨wanted.2,true,none⟩

theorem DataTrackSubscriptionStore.Grows.trans (h : s.Grows t) (h' : t.Grows u) : s.Grows u := by
  intro e b hlo
  obtain ⟨l,hla,ho⟩ := h e b hlo
  obtain ⟨latest,hl,ho'⟩ := h' e l hla
  exact ⟨latest,hl,ho' ∘ ho⟩

theorem updated_reconcileTrack (s : DataTrackSubscriptionStore) (wanted : ParticipantKey × String) :
    DataTrackSubscriptionStore.Updated wanted.1 dataTracks rooms s ⟨wanted.2,true,none⟩
      (reconcileTrack dataTracks rooms first s wanted) :=
  updated_applyUpdate wanted.1 dataTracks rooms first s ⟨wanted.2,true,none⟩

/-- An entry that is replaced keeps its options away if they are away. -/
theorem grows_insert {e : DataTrackSubscriptionKey} {b : DataTrackSubscription}
    (ho : b.options=none) (nextHandle : ℕ) :
    s.Grows ⟨s.subscriptions.insert e b,nextHandle⟩ := by
  intro entry' subscription' hl
  by_cases he : entry'=e
  · exact ⟨b,by rw [lookup_insert,if_pos he],fun _ => ho⟩
  · exact ⟨subscription',by rw [lookup_insert,if_neg he,hl],id⟩

theorem grows_reconcileTrack (s : DataTrackSubscriptionStore) (wanted : ParticipantKey × String) :
    s.Grows (reconcileTrack dataTracks rooms first s wanted) := by
  have hu := @updated_reconcileTrack dataTracks rooms first s wanted
  generalize reconcileTrack dataTracks rooms first s wanted=t at hu ⊢
  cases hu with
  | unsubscribed ha => cases ha
  | known => exact grows_insert rfl _
  | unpublished | exhausted => exact fun _ b hl => ⟨b,hl,id⟩
  | opened => exact grows_insert rfl _

variable {wanted : ParticipantKey × String}

/-- A settled track changes no subscription and leaves the question whether handles are left. -/
theorem reconcileTrack_of_settled (rooms : RoomStore) (first : FirstFound)
    (h : s.Settled dataTracks wanted.1 wanted.2) :
    (reconcileTrack dataTracks rooms first s wanted).subscriptions=s.subscriptions ∧
      (65535≤(reconcileTrack dataTracks rooms first s wanted).nextHandle ↔
        65535 ≤ s.nextHandle) := by
  have hu := @updated_reconcileTrack dataTracks rooms first s wanted
  generalize reconcileTrack dataTracks rooms first s wanted=t at hu ⊢
  rw [Settled] at h
  cases hu with
  | unsubscribed ha => cases ha
  | known ha b hk =>
    rw [hk] at h
    have hs : {b with options := none}=b := by rw [← h]
    refine ⟨ext (fun e => ?_),Iff.rfl⟩
    rw [lookup_insert,hs]
    split_ifs with he
    · rw [he,hk]
    · rfl
  | unpublished => exact ⟨rfl,Iff.rfl⟩
  | exhausted ha hnew hp hh =>
    refine ⟨rfl,iff_of_true ?_ hh⟩
    change 65535 ≤ saturatingSucc 32 s.nextHandle
    rw [saturatingSucc]
    omega
  | opened ha hnew q k ht hsid hh =>
    rw [hnew] at h
    exact absurd ⟨q,k,ht,hsid⟩ (h.resolve_left (Nat.not_le.mpr hh))

/-- What is changed for a track that is not settled can be seen in the end. -/
theorem settled_of_grows (hg : (reconcileTrack dataTracks rooms first s wanted).Grows t)
    (hs : t.subscriptions=s.subscriptions) : s.Settled dataTracks wanted.1 wanted.2 := by
  have hu := @updated_reconcileTrack dataTracks rooms first s wanted
  generalize reconcileTrack dataTracks rooms first s wanted=reconciled at hu hg
  rw [Settled]
  cases hu with
  | unsubscribed ha => cases ha
  | known ha b hk =>
    obtain ⟨l,hl,ho⟩ := hg _ _ (by rw [lookup_insert,if_pos rfl])
    rw [hs,hk] at hl
    rw [hk,Option.some.inj hl]
    exact ho rfl
  | unpublished ha hnew hn =>
    rw [hnew]
    exact .inr hn
  | exhausted ha hnew hp hh =>
    rw [hnew]
    exact .inl hh
  | opened ha hnew =>
    obtain ⟨l,hl,-⟩ := hg _ _ (by rw [lookup_insert,if_pos rfl])
    rw [hs,hnew] at hl
    cases hl

theorem leavesTraces_reconcileTrack (rooms : RoomStore) (first : FirstFound) :
    LeavesTraces subscriptions Grows
      (fun s wanted => s.Settled dataTracks wanted.1 wanted.2)
      (reconcileTrack dataTracks rooms first) where
  refl _ _ subscription hl := ⟨subscription,hl,id⟩
  trans _ _ _ := DataTrackSubscriptionStore.Grows.trans
  grows_step := grows_reconcileTrack
  quiet_of_view _ _ _ := settled_of_grows
  view_step _ _ h := (reconcileTrack_of_settled rooms first h).1
  quiet_step s wanted wanted' h := by
    obtain ⟨hs,hh⟩ := reconcileTrack_of_settled rooms first h
    rw [Settled,Settled,hs,hh]

namespace DataSessionState

variable (s : DataSessionState) (key : ParticipantKey) (orders : MapOrders)

def wantedBy (subscriber : ParticipantKey) : List (ParticipantKey × String) :=
  if s.autoSubscribes subscriber then
    (s.reconcilingUpdates subscriber orders).map (fun update => (subscriber,update.trackSid))
  else []

def SettledBeside : Prop :=
  ∀subscriber∈s.othersBeside key orders,∀wanted∈s.wantedBy orders subscriber,
    s.subscriptions.Settled s.dataTracks wanted.1 wanted.2

theorem reconcile_eq (u : ParticipantKey) :
    s.reconcileSubscriberDataTrackSubscriptions u orders =
      {s with
        subscriptions := (s.wantedBy orders u).foldl
          (reconcileTrack s.dataTracks s.sessions.rooms orders.publisher) s.subscriptions} := by
  rw [reconcileSubscriberDataTrackSubscriptions,wantedBy,autoSubscribes]
  cases s.autoSubscribePreferences.autoSubscribeDataTrackEnabled u with
  | false => rfl
  | true =>
    cases ha : s.canSubscribe u with
    | false => rfl
    | true =>
      simp only [Bool.not_true,Bool.or_self,Bool.false_eq_true,if_false,Bool.and_self,if_true]
      split_ifs with hn
      · rw [hn]
        rfl
      · rw [updateDataSubscription,ha,if_pos rfl,update,
          reconcilingUpdates,List.map_map,List.foldl_map,List.foldl_map]
        rfl

theorem foldl_reconcile_eq (us : List ParticipantKey) :
    us.foldl (fun s u =>
        s.reconcileSubscriberDataTrackSubscriptions u orders) s =
      {s with
        subscriptions := (us.flatMap (s.wantedBy orders)).foldl
          (reconcileTrack s.dataTracks s.sessions.rooms orders.publisher) s.subscriptions} := by
  induction us generalizing s with
  | nil => rfl
  | cons u us ih =>
    rw [List.foldl_cons,List.flatMap_cons,List.foldl_append,ih,reconcile_eq]
    rfl

theorem reconcileOthers_eq :
    s.reconcileOthers key orders =
      {s with
        subscriptions := ((s.othersBeside key orders).flatMap (s.wantedBy orders)).foldl
          (reconcileTrack s.dataTracks s.sessions.rooms orders.publisher) s.subscriptions} := by
  rw [← foldl_reconcile_eq,reconcileOthers,othersBeside,List.foldl_map]

theorem subscriptions_reconcileOthers_iff :
    (s.reconcileOthers key orders).subscriptions.subscriptions=s.subscriptions.subscriptions ↔
      s.SettledBeside key orders := by
  rw [reconcileOthers_eq]
  refine ((leavesTraces_reconcileTrack _ _).view_foldl_iff _ _).trans ?_
  constructor
  · intro h u hs wanted hw
    exact h wanted (List.mem_flatMap.mpr ⟨u,hs,hw⟩)
  · intro h wanted hw
    obtain ⟨u,hs,hw⟩ := List.mem_flatMap.mp hw
    exact h u hs wanted hw

end DataSessionState

end OxideSfu.Signaling
