import OxideSfu.DataTrackStores
import OxideSfu.SessionOutcomes

/-!
# Data tracks in sessions

A participant publishes data tracks and asks for those of others (`router/session.rs`), and with
auto-subscribe it gets all of them whenever somebody publishes, leaves or joins
(`reconcile_subscriber_data_track_subscriptions`). A handler runs to its end in one step, and
reconciliations that run on their own are steps of their own.
-/

namespace OxideSfu.Signaling

open FiniteMaps Rooms RoomStore

structure MapOrders where
  participants : Iteration String
  publisher : FirstFound

def MapOrders.sorted : MapOrders := ⟨.sorted String,firstInOrder (.sorted String)⟩

structure JoinSettings where
  autoSubscribe : Bool := true
  autoSubscribeDataTrack : Bool := true
  createsSubscriberOffer : Bool := true

inductive RequestReason | notFound | notAllowed | invalidHandle | invalidName | duplicateHandle
  | duplicateName

def AutoSubscribePreferenceStore.autoSubscribeDataTrackEnabled (s : AutoSubscribePreferenceStore)
    (participant : ParticipantKey) : Bool :=
  (s.autoSubscribeDataTrack.lookup participant).getD true

structure DataSessionState where
  sessions : SessionState
  dataTracks : DataTrackStore
  subscriptions : DataTrackSubscriptionStore
  autoSubscribePreferences : AutoSubscribePreferenceStore

namespace DataSessionState

def initial (defaults : RoomDefaults) (roomAutoCreateOnJoin : Bool) : DataSessionState :=
  ⟨.initial defaults roomAutoCreateOnJoin,.empty,.empty,.empty⟩

def withSessions (s : DataSessionState) (sessions : SessionState) : DataSessionState :=
  {s with sessions}

def canSubscribe (s : DataSessionState) (key : ParticipantKey) : Bool :=
  s.sessions.permissions.subscribe.canSubscribe key

def autoSubscribes (s : DataSessionState) (key : ParticipantKey) : Bool :=
  s.autoSubscribePreferences.autoSubscribeDataTrackEnabled key && s.canSubscribe key

def listParticipants (s : DataSessionState) (room : String) (order : Iteration String) :
    List ParticipantInfo :=
  match s.sessions.rooms.rooms.lookup room with
  | none => [] | some record => (record.participants.entries order).map Prod.snd

/-- A request of a participant that may not subscribe can only unsubscribe. -/
def updateDataSubscription (s : DataSessionState) (key : ParticipantKey)
    (updates : List DataSubscriptionUpdate) (orders : MapOrders) : DataSessionState :=
  let updates := if s.canSubscribe key then updates else updates.filter
    (fun update => !update.subscribe)
  {s with
    subscriptions := s.subscriptions.update key updates s.dataTracks s.sessions.rooms
      orders.publisher}

def reconcilingUpdates (s : DataSessionState) (key : ParticipantKey) (orders : MapOrders) :
    List DataSubscriptionUpdate :=
  let others := (s.listParticipants key.room orders.participants).filter
    (·.identity≠key.identity)
  ((others.flatMap (·.dataTracks)).filter (·.sid ≠ "")).map
    (fun track => ⟨track.sid,true,none⟩)

def reconcileSubscriberDataTrackSubscriptions (s : DataSessionState) (key : ParticipantKey)
    (orders : MapOrders) : DataSessionState :=
  if !s.autoSubscribePreferences.autoSubscribeDataTrackEnabled key || !s.canSubscribe key then s
  else
    let updates := s.reconcilingUpdates key orders
    if updates=[] then s else s.updateDataSubscription key updates orders

def reconcileOthers (s : DataSessionState) (key : ParticipantKey) (orders : MapOrders) :
    DataSessionState :=
  ((s.listParticipants key.room orders.participants).filter
      (·.identity≠key.identity)).foldl
    (fun s subscriber =>
      s.reconcileSubscriberDataTrackSubscriptions ⟨key.room,subscriber.identity⟩ orders) s

def publishDataTrack (s : DataSessionState) (key : ParticipantKey)
    (request : PublishDataTrackRequest) (clock : ℤ) (orders : MapOrders) :
    Except (RequestReason × String) DataTrackInfo × DataSessionState :=
  if !s.sessions.permissions.publish.canPublishData key then
    (.error (.notAllowed,"does not have permission to publish data"),s)
  else if request.pubHandle=0 ∨ request.pubHandle > 65535 then
    (.error (.invalidHandle,"handle should be > 0 AND < 65536"),s)
  else if request.name = "" ∨ request.name.length > 256 then
    (.error (.invalidName,"name should not be empty and should not exceed 256 characters"),s)
  else
    match s.dataTracks.publish key request clock with
    | (.error .duplicateHandle,_) =>
      (.error (.duplicateHandle,"a data track with same handle already exists"),s)
    | (.error .duplicateName,_) =>
      (.error (.duplicateName,"a data track with same name already exists"),s)
    | (.ok info,dataTracks) =>
      let s := {s with dataTracks}
      match s.sessions.rooms.addParticipantDataTrack key.room key.identity info with
      | (.error _,store) => (.ok info,s.withSessions (s.sessions.withRooms store))
      | (.ok participant,store) =>
        let s := s.withSessions ((s.sessions.withRooms store).broadcastUpdate key.room participant)
        (.ok info,s.reconcileOthers key orders)

def unpublishDataTrack (s : DataSessionState) (key : ParticipantKey) (pubHandle : ℕ) :
    Except (RequestReason × String) DataTrackInfo × DataSessionState :=
  match s.dataTracks.unpublish key pubHandle with
  | (none,_) => (.error (.notFound,""),s)
  | (some info,dataTracks) =>
    let s := {s with
      dataTracks
      subscriptions := s.subscriptions.removePublishedTrack key pubHandle}
    match s.sessions.rooms.removeParticipantDataTrack key.room key.identity pubHandle with
    | (.error _,store) => (.ok info,s.withSessions (s.sessions.withRooms store))
    | (.ok participant,store) =>
      (.ok info,
        s.withSessions ((s.sessions.withRooms store).broadcastUpdate key.room participant))

/-- The tracks and subscriptions of a participant go, and the others are reconciled before it
leaves the room. -/
def cleanupParticipantRuntimeState (s : DataSessionState) (key : ParticipantKey)
    (orders : MapOrders) (now : ℤ) : DataSessionState :=
  let s := {s with
    dataTracks := s.dataTracks.removeParticipant key
    subscriptions := s.subscriptions.removeParticipant key}
  let s := s.reconcileOthers key orders
  {s with
    autoSubscribePreferences := s.autoSubscribePreferences.removeParticipant key
    sessions := s.sessions.cleanupParticipantRuntimeState key now}

def disconnectParticipantFromService (s : DataSessionState) (key : ParticipantKey)
    (orders : MapOrders) (now : ℤ) : DataSessionState :=
  match s.sessions.getParticipant key with
  | none => s | some _ => s.cleanupParticipantRuntimeState key orders now

/-- The preferences of a session that opens. Without an offer it is reconciled at once. -/
def startSession (s : DataSessionState) (key : ParticipantKey) (settings : JoinSettings)
    (orders : MapOrders) : DataSessionState :=
  let s := {s with
    autoSubscribePreferences := (s.autoSubscribePreferences.setAutoSubscribe key
      settings.autoSubscribe).setAutoSubscribeDataTrack key settings.autoSubscribeDataTrack}
  if settings.createsSubscriberOffer then s
  else s.reconcileSubscriberDataTrackSubscriptions key orders

def answerJoin (s : DataSessionState) (key : ParticipantKey) (sessions : SessionState)
    (settings : JoinSettings) (orders : MapOrders) : DataSessionState :=
  if sessions.nextChannel=s.sessions.nextChannel then s.withSessions sessions
  else (s.withSessions sessions).startSession key settings orders

def runJoinSocket (s : DataSessionState) (auth : AuthContext) (request : SignalJoinRequest)
    (settings : JoinSettings) (orders : MapOrders) (delivered : Bool) (now : ℤ) :
    DataSessionState :=
  if !auth.ensureJoinPermission then s
  else if request.reconnect then
    s.answerJoin auth.key (s.sessions.reconnect auth request delivered) settings orders
  else
    let s := s.withSessions (s.sessions.applyRoomConfigOnFirstRoomCreation auth now)
    -- A participant of the same identity is disconnected first.
    let s := s.disconnectParticipantFromService auth.key orders now
    s.answerJoin auth.key (enterRoom s.sessions auth request delivered now) settings orders

def cleanupIfActiveSession (s : DataSessionState) (key : ParticipantKey) (channel : ℕ)
    (explicitLeave : Bool) (orders : MapOrders) (now : ℤ) : DataSessionState :=
  if s.sessions.signalConnections.lookup key≠some channel then s
  else if explicitLeave ∨ key∉s.sessions.peerConnections then
    (s.withSessions {s.sessions with
      signalConnections := s.sessions.signalConnections.erase key}).cleanupParticipantRuntimeState
        key orders now
  -- Data tracks and their subscriptions stay while the session waits for a reconnect.
  else s.withSessions (s.sessions.cleanupIfActiveSession key channel explicitLeave now)

def closeSocket (s : DataSessionState) (channel : ℕ) (explicitLeave : Bool) (orders : MapOrders)
    (now : ℤ) : DataSessionState :=
  match s.sessions.sockets.lookup channel with
  | none => s
  | some key =>
    let s := s.cleanupIfActiveSession key channel explicitLeave orders now
    s.withSessions {s.sessions with
      sockets := s.sessions.sockets.erase channel,updates := s.sessions.updates.close channel}

def graceExpired (s : DataSessionState) (key : ParticipantKey) (sid : String) (orders : MapOrders)
    (now : ℤ) : DataSessionState :=
  if (key,sid)∉s.sessions.graceTimers then s
  else
    let s := s.withSessions {s.sessions with graceTimers := s.sessions.graceTimers.erase (key,sid)}
    if (s.sessions.signalConnections.lookup key).isSome then s
    else if (s.sessions.getParticipant key).map (·.sid)=some sid then
      s.cleanupParticipantRuntimeState key orders now
    else s

end DataSessionState

def dataTrackPacketHandle (bytes : List UInt8) : Option ℕ :=
  if bytes.length<12 then none
  else some ((bytes.getD 2 0).toNat*256+(bytes.getD 3 0).toNat)

def rewriteDataTrackPacketHandle (bytes : List UInt8) (handle : ℕ) : Option (List UInt8) :=
  if handle > 65535 then none
  else if bytes.length<12 then none
  else some ((bytes.set 2 (.ofNat (handle / 256))).set 3 (.ofNat (handle % 256)))

namespace DataSessionState

/-- The packets that are sent on for one of a publisher. `isOpen` says whose data track channel is
open and takes the packet. -/
def relayDataTrackPacket (s : DataSessionState) (key : ParticipantKey) (bytes : List UInt8)
    (isOpen : String→Bool) : Multiset (String × List UInt8) :=
  if !s.sessions.permissions.publish.canPublishData key then 0
  else
    match dataTrackPacketHandle bytes with
    | none => 0
    | some pubHandle =>
      let publisherSid := DataTrackSubscriptionStore.participantSid s.sessions.rooms key
      if publisherSid = "" then 0
      else
        (s.subscriptions.subscribersForPacketWithPublisherSid key publisherSid pubHandle).filterMap
          (fun subscriber =>
            if isOpen subscriber.1 then
              (rewriteDataTrackPacketHandle bytes subscriber.2).map (Prod.mk subscriber.1)
            else none)

end DataSessionState

/-- The settings of a session event are those of its join request; other events do not read
them. -/
inductive DataTrackEvent
  | session (event : SessionEvent) (settings : JoinSettings) (orders : MapOrders)
  | publish (key : ParticipantKey) (request : PublishDataTrackRequest) (clock : ℤ)
      (orders : MapOrders)
  | unpublish (key : ParticipantKey) (pubHandle : ℕ)
  | update (key : ParticipantKey) (updates : List DataSubscriptionUpdate) (orders : MapOrders)
  | reconcile (key : ParticipantKey) (orders : MapOrders)

/-- A participant joins with a token for the room that gives it every right. -/
def DataTrackEvent.joinOf (identity : String) (settings : JoinSettings) : DataTrackEvent :=
  .session (.join ⟨"key",{sub := identity,video := {roomJoin := true,room := "room"}}⟩ {} true
    0) settings .sorted

namespace DataSessionState

def sessionStep (s : DataSessionState) (event : SessionEvent) (settings : JoinSettings)
    (orders : MapOrders) : DataSessionState :=
  match event with
  | .join auth request delivered now => s.runJoinSocket auth request settings orders delivered now
  | .close channel explicitLeave now => s.closeSocket channel explicitLeave orders now
  | .graceExpired key sid now => s.graceExpired key sid orders now
  | .leave key now => s.cleanupParticipantRuntimeState key orders now
  | .disconnect key now => s.disconnectParticipantFromService key orders now
  | event => s.withSessions (s.sessions.step event)

def step (s : DataSessionState) : DataTrackEvent → DataSessionState
  | .session event settings orders => s.sessionStep event settings orders
  | .publish key request clock orders => (s.publishDataTrack key request clock orders).2
  | .unpublish key pubHandle => (s.unpublishDataTrack key pubHandle).2
  | .update key updates orders => s.updateDataSubscription key updates orders
  | .reconcile key orders => s.reconcileSubscriberDataTrackSubscriptions key orders

def run (s : DataSessionState) (events : List DataTrackEvent) : DataSessionState :=
  events.foldl step s

theorem run_append (s : DataSessionState) (es l : List DataTrackEvent) :
    s.run (es++l)=(s.run es).run l :=
  List.foldl_append

@[simp] theorem run_concat (s : DataSessionState) (es : List DataTrackEvent)
    (e : DataTrackEvent) : s.run (es++[e])=(s.run es).step e :=
  s.run_append es [e]

variable (s : DataSessionState) (key : ParticipantKey) (orders : MapOrders) (now : ℤ)

@[simp] theorem sessions_reconcile :
    (s.reconcileSubscriberDataTrackSubscriptions key orders).sessions=s.sessions := by
  rw [reconcileSubscriberDataTrackSubscriptions]
  dsimp only
  split_ifs <;> rfl

@[simp] theorem preferences_reconcile :
    (s.reconcileSubscriberDataTrackSubscriptions key orders).autoSubscribePreferences =
      s.autoSubscribePreferences := by
  rw [reconcileSubscriberDataTrackSubscriptions]
  dsimp only
  split_ifs <;> rfl

theorem same_foldl_reconcile (us : List ParticipantInfo) (room : String) :
    (us.foldl (fun s u =>
        s.reconcileSubscriberDataTrackSubscriptions ⟨room,u.identity⟩ orders) s).sessions =
      s.sessions ∧
    (us.foldl (fun s u =>
        s.reconcileSubscriberDataTrackSubscriptions ⟨room,u.identity⟩ orders)
          s).autoSubscribePreferences=s.autoSubscribePreferences := by
  induction us generalizing s with
  | nil => exact ⟨rfl,rfl⟩
  | cons u us ih =>
    obtain ⟨hs,hp⟩ := ih (s.reconcileSubscriberDataTrackSubscriptions ⟨room,u.identity⟩ orders)
    exact ⟨hs.trans (sessions_reconcile s _ orders),hp.trans (preferences_reconcile s _ orders)⟩

@[simp] theorem sessions_reconcileOthers : (s.reconcileOthers key orders).sessions=s.sessions :=
  (same_foldl_reconcile s orders _ key.room).1

@[simp] theorem sessions_cleanup :
    (s.cleanupParticipantRuntimeState key orders now).sessions =
      s.sessions.cleanupParticipantRuntimeState key now := by
  rw [cleanupParticipantRuntimeState]
  simp only [sessions_reconcileOthers]

@[simp] theorem sessions_disconnect :
    (s.disconnectParticipantFromService key orders now).sessions =
      s.sessions.disconnectParticipantFromService key now := by
  rw [disconnectParticipantFromService,SessionState.disconnectParticipantFromService]
  cases s.sessions.getParticipant key with
  | none => rfl
  | some p => exact sessions_cleanup s key orders now

@[simp] theorem sessions_startSession (st : JoinSettings) :
    (s.startSession key st orders).sessions=s.sessions := by
  rw [startSession]
  split_ifs
  · rfl
  · rw [sessions_reconcile]

@[simp] theorem sessions_answerJoin (sessions : SessionState) (st : JoinSettings) :
    (s.answerJoin key sessions st orders).sessions=sessions := by
  rw [answerJoin]
  split_ifs
  · rfl
  · rw [sessions_startSession]
    rfl

theorem sessions_runJoinSocket (auth : AuthContext) (r : SignalJoinRequest) (st : JoinSettings)
    (d : Bool) :
    (s.runJoinSocket auth r st orders d now).sessions=s.sessions.runJoinSocket auth r d now := by
  rw [runJoinSocket,SessionState.runJoinSocket]
  split_ifs
  · rfl
  · rw [sessions_answerJoin]
  · rw [sessions_answerJoin,sessions_disconnect]
    rfl

theorem sessions_cleanupIfActiveSession (c : ℕ) (ex : Bool) :
    (s.cleanupIfActiveSession key c ex orders now).sessions =
      s.sessions.cleanupIfActiveSession key c ex now := by
  rw [cleanupIfActiveSession]
  split_ifs with ha hl
  · rw [SessionState.cleanupIfActiveSession,if_pos ha]
  · rw [SessionState.cleanupIfActiveSession,if_neg ha,sessions_cleanup]
    exact (if_pos hl).symm
  · rfl

theorem sessions_closeSocket (c : ℕ) (ex : Bool) :
    (s.closeSocket c ex orders now).sessions=s.sessions.closeSocket c ex now := by
  rw [closeSocket,SessionState.closeSocket]
  cases s.sessions.sockets.lookup c with
  | none => rfl
  | some key =>
    dsimp only [withSessions]
    rw [sessions_cleanupIfActiveSession]

theorem sessions_graceExpired (sid : String) :
    (s.graceExpired key sid orders now).sessions=s.sessions.graceExpired key sid now := by
  rw [graceExpired,SessionState.graceExpired]
  by_cases ha : (key,sid)∉s.sessions.graceTimers
  · rw [if_pos ha,if_pos ha]
  · rw [if_neg ha]
    dsimp only [withSessions]
    split_ifs
    · rfl
    · exact sessions_cleanup _ key orders now
    · rfl

theorem sessions_sessionStep (e : SessionEvent) (st : JoinSettings) :
    (s.sessionStep e st orders).sessions=s.sessions.step e := by
  cases e with
  | join auth r d now =>
    exact sessions_runJoinSocket s orders now auth r st d
  | close c ex now => exact sessions_closeSocket s orders now c ex
  | graceExpired key sid now => exact sessions_graceExpired s key orders now sid
  | leave key now => exact sessions_cleanup s key orders now
  | disconnect key now => exact sessions_disconnect s key orders now
  | _ => rfl

end DataSessionState

end OxideSfu.Signaling
