import OxideSfu.ParticipantPermissions
import OxideSfu.ParticipantUpdates

/-!
# Sessions of participants

A participant joins over a socket, is updated, loses its socket, resumes its session and leaves
(`router.rs`, `state.rs`, `signal_request.rs`, `oxidesfu-api`). When the room lives on another node,
the join arrives there as an intent (`relay/intents.rs`, `join.rs`,
`oxidesfu-server/src/relay_worker.rs`). A handler runs to its end in one step. Media, data tracks,
webhooks and messages other than join responses and refresh tokens are left out.
-/

namespace OxideSfu.Signaling

open FiniteMaps Rooms RoomStore

structure JoinResponse where
  key : ParticipantKey
  relayed : Bool
  participant : ParticipantInfo
  otherParticipants : FiniteMap String ParticipantInfo

/-- `sockets` are the loops of joined sockets with their channels, `graceTimers` the sessions
that wait for a reconnect; refresh tokens and join responses are recorded. -/
structure SessionState where
  rooms : RoomStore
  permissions : PermissionStores
  participantAuthContexts : FiniteMap ParticipantKey AuthContext
  signalConnections : FiniteMap ParticipantKey ℕ
  peerConnections : Finset ParticipantKey
  updates : ParticipantUpdateHub
  roomAutoCreateOnJoin : Bool
  sockets : FiniteMap ℕ ParticipantKey
  nextChannel : ℕ
  graceTimers : Finset (ParticipantKey × String)
  refreshTokens : List (ParticipantKey × Claims)
  joinResponses : List JoinResponse

structure SignalJoinRequest where
  reconnect : Bool := false
  participantSid : String := ""
  metadata : String := ""
  participantAttributes : FiniteMap String String := .empty

/-- The protocol's number for `DisconnectReason::ClientInitiated`. -/
def clientInitiated : ℕ := 1

namespace SessionState

def initial (defaults : RoomDefaults) (roomAutoCreateOnJoin : Bool) : SessionState where
  rooms := .withDefaults defaults
  permissions := .empty
  participantAuthContexts := .empty
  signalConnections := .empty
  peerConnections := ∅
  updates := .empty
  roomAutoCreateOnJoin
  sockets := .empty
  nextChannel := 0
  graceTimers := ∅
  refreshTokens := []
  joinResponses := []

def withRooms (s : SessionState) (rooms : RoomStore) : SessionState := {s with rooms}

def getParticipant (s : SessionState) (key : ParticipantKey) : Option ParticipantInfo :=
  (s.rooms.getParticipant key.room key.identity).toOption

def broadcastUpdate (s : SessionState) (room : String) (participant : ParticipantInfo) :
    SessionState :=
  {s with updates := s.updates.broadcastUpdate room participant}

def grant (s : SessionState) (key : ParticipantKey) (rights : Rights) : SessionState :=
  {s with permissions := s.permissions.grant key rights}

def issueRefreshToken (s : SessionState) (room : String) (participant : ParticipantInfo) :
    SessionState :=
  match s.participantAuthContexts.lookup ⟨room,participant.identity⟩ with
  | none => s
  | some auth =>
    {s with
      refreshTokens := s.refreshTokens ++
        [(⟨room,participant.identity⟩,refreshClaims auth room participant)]}

def enforcePermission (s : SessionState) (key : ParticipantKey)
    (permission : Option ParticipantPermission) : SessionState :=
  match permission with
  | none => s | some permission => s.grant key (permissionRights permission)

def sendRefreshToken (s : SessionState) (room : String) (participant : ParticipantInfo) :
    SessionState :=
  if (s.signalConnections.lookup ⟨room,participant.identity⟩).isSome then
    s.issueRefreshToken room participant
  else s

/-- The permission of the snapshot is enforced, a connected participant gets a new token, and the
room gets the snapshot. -/
def applyServiceParticipantUpdate (s : SessionState) (room : String)
    (participant : ParticipantInfo) : SessionState :=
  ((s.enforcePermission ⟨room,participant.identity⟩ participant.permission).sendRefreshToken
    room participant).broadcastUpdate room participant

/-- Everything of a participant goes, and the room gets its last snapshot. -/
def cleanupParticipantRuntimeState (s : SessionState) (key : ParticipantKey) (now : ℤ) :
    SessionState :=
  let s := {s with
    permissions := s.permissions.removeParticipant key,peerConnections :=
      s.peerConnections.erase key
    participantAuthContexts := s.participantAuthContexts.erase key}
  match s.rooms.removeParticipantWithReason key.room key.identity clientInitiated now with
  | (.ok participant,rooms) => (s.withRooms rooms).broadcastUpdate key.room participant
  | (.error _,rooms) => s.withRooms rooms

def disconnectParticipantFromService (s : SessionState) (key : ParticipantKey) (now : ℤ) :
    SessionState :=
  match s.getParticipant key with
  | none => s | some _ => s.cleanupParticipantRuntimeState key now

/-- The last part of `run_join_socket` before its loop: the session listens to updates and its
token decides what it may do. -/
def openSession (s : SessionState) (auth : AuthContext) (updates : ParticipantUpdateHub) :
    SessionState :=
  let s := {s with
    updates
    signalConnections := s.signalConnections.insert auth.key s.nextChannel
    sockets := s.sockets.insert s.nextChannel auth.key,nextChannel := s.nextChannel+1
    participantAuthContexts := s.participantAuthContexts.insert auth.key auth}
  s.grant auth.key auth.claims.video.rights

def nextReceiver (s : SessionState) (key : ParticipantKey) : UpdateReceiver := ⟨s.nextChannel,key⟩

/-- A socket that resumes the session of a participant; the sid must be the participant's and its
transports must be alive. -/
def reconnect (s : SessionState) (auth : AuthContext) (request : SignalJoinRequest)
    (delivered : Bool) : SessionState :=
  if (s.getParticipant auth.key).map (·.sid)≠some request.participantSid then s
  else if auth.key∉s.peerConnections then s
  else if !delivered then s
  -- The permission in the room store is neither read nor written here.
  else s.openSession auth (s.updates.register auth.key.room (s.nextReceiver auth.key))

def applyRoomConfigOnFirstRoomCreation (s : SessionState) (auth : AuthContext) (now : ℤ) :
    SessionState :=
  match s.rooms.rooms.lookup auth.key.room,auth.claims.roomConfig with
  | none, some config =>
    s.withRooms (s.rooms.createRoom {config with name := auth.key.room} now).2
  | _, _ => s

def joinMetadata (claims : Claims) (request : SignalJoinRequest) : String :=
  if request.metadata = "" then claims.metadata else request.metadata

def joinAttributes (claims : Claims) (request : SignalJoinRequest) : FiniteMap String String :=
  claims.attributes.overlay request.participantAttributes (fun _ => true)

def joinCall (auth : AuthContext) (request : SignalJoinRequest) : JoinRequest where
  room := auth.key.room
  identity := auth.key.identity
  name := auth.claims.name
  metadata := joinMetadata auth.claims request
  attributes := joinAttributes auth.claims request
  permission := some auth.claims.video.permission

/-- A participant that has joined gets its kind and its join response, which lists the others
that are not hidden. If the response reaches the socket, the session opens. -/
def completeJoin (s : SessionState) (auth : AuthContext) (joined : Joined) (delivered : Bool) :
    SessionState :=
  let (kinded,rooms) := s.rooms.setParticipantKind auth.key.room auth.key.identity
    auth.claims.kind auth.claims.kindDetails
  let response : JoinResponse := {
    key := auth.key,relayed := false,participant := kinded.toOption.getD joined.participant
    otherParticipants := joined.existing.filter (fun _ other => !participantIsHidden other)}
  let s := {s with rooms,joinResponses := s.joinResponses++[response]}
  -- The handler returns when the response cannot be sent, and the participant stays in the room.
  if !delivered then s
  else
    match s.getParticipant auth.key with
    | none => s
    | some participant =>
      s.openSession auth (s.updates.registerAndBroadcastJoin auth.key.room participant
        (s.nextReceiver auth.key))

/-- A new participant; one that is there under the same identity is disconnected first. -/
def freshJoin (s : SessionState) (auth : AuthContext) (request : SignalJoinRequest)
    (delivered : Bool) (now : ℤ) : SessionState :=
  let s := s.applyRoomConfigOnFirstRoomCreation auth now
  let s := s.disconnectParticipantFromService auth.key now
  if !s.roomAutoCreateOnJoin ∧ auth.key.room∉s.rooms.rooms.keys then s
  else
    match s.rooms.joinParticipantWithPermission (joinCall auth request) now with
    | (.error _,rooms) => s.withRooms rooms
    | (.ok joined,rooms) => (s.withRooms rooms).completeJoin auth joined delivered

/-- `run_join_socket` up to its loop, for a room of this node. `delivered` tells whether the
first response could be sent. -/
def runJoinSocket (s : SessionState) (auth : AuthContext) (request : SignalJoinRequest)
    (delivered : Bool) (now : ℤ) : SessionState :=
  if !auth.ensureJoinPermission then s
  else if request.reconnect then s.reconnect auth request delivered
  else s.freshJoin auth request delivered now

def unpublishTrack (key : ParticipantKey) (s : SessionState) (track : TrackInfo) : SessionState :=
  match s.rooms.removeParticipantTrack key.room key.identity track.sid with
  | (.ok participant,rooms) => (s.withRooms rooms).broadcastUpdate key.room participant
  | (.error _,rooms) => s.withRooms rooms

def unpublishParticipantTracksForReconnectGrace (s : SessionState) (key : ParticipantKey) :
    SessionState :=
  (((s.getParticipant key).map (·.tracks)).getD []).foldl (unpublishTrack key) s

/-- The loop of a socket has ended. Only the session that is connected cleans up: at once after a
leave or without transports, else the participant is kept for a while without its tracks. -/
def cleanupIfActiveSession (s : SessionState) (key : ParticipantKey) (channel : ℕ)
    (explicitLeave : Bool) (now : ℤ) : SessionState :=
  if s.signalConnections.lookup key≠some channel then s
  else
    let s := {s with signalConnections := s.signalConnections.erase key}
    if explicitLeave ∨ key∉s.peerConnections then s.cleanupParticipantRuntimeState key now
    else
      -- The participant keeps its sid and its permissions until the time for a reconnect is over.
      let departing := (s.getParticipant key).map (·.sid)
      let s := s.unpublishParticipantTracksForReconnectGrace key
      match departing with
      | none => s
      | some sid =>
        if sid = "" then s else {s with graceTimers := insert (key,sid) s.graceTimers}

def closeSocket (s : SessionState) (channel : ℕ) (explicitLeave : Bool) (now : ℤ) :
    SessionState :=
  match s.sockets.lookup channel with
  | none => s
  | some key =>
    let s := s.cleanupIfActiveSession key channel explicitLeave now
    {s with sockets := s.sockets.erase channel,updates := s.updates.close channel}

/-- A socket whose first offer or answer failed ends without any cleanup. -/
def abandonSocket (s : SessionState) (channel : ℕ) : SessionState :=
  {s with sockets := s.sockets.erase channel,updates := s.updates.close channel}

/-- The time for a reconnect is over: a participant that has not come back goes. -/
def graceExpired (s : SessionState) (key : ParticipantKey) (sid : String) (now : ℤ) :
    SessionState :=
  if (key,sid)∉s.graceTimers then s
  else
    let s := {s with graceTimers := s.graceTimers.erase (key,sid)}
    if (s.signalConnections.lookup key).isSome then s
    else if (s.getParticipant key).map (·.sid)=some sid then
      s.cleanupParticipantRuntimeState key now
    else s

def updateParticipantFromService (s : SessionState) (key : ParticipantKey)
    (update : ParticipantUpdate) : SessionState :=
  match s.rooms.updateParticipant key.room key.identity update with
  | (.ok participant,rooms) =>
    (s.withRooms rooms).applyServiceParticipantUpdate key.room participant
  | (.error _,rooms) => s.withRooms rooms

def muteTrackFromService (s : SessionState) (key : ParticipantKey) (trackSid : String)
    (muted : Bool) : SessionState :=
  match s.rooms.setParticipantTrackMuted key.room key.identity trackSid muted with
  | (.error _,rooms) => s.withRooms rooms
  | (.ok _,rooms) =>
    let s := s.withRooms rooms
    match s.getParticipant key with
    | none => s | some participant => s.applyServiceParticipantUpdate key.room participant

def updateMetadata (s : SessionState) (key : ParticipantKey) (metadata name : String)
    (attributes : FiniteMap String String) : SessionState :=
  if ((s.getParticipant key).bind (·.permission)).any (·.canUpdateMetadata) then
    match s.rooms.updateParticipant key.room key.identity ⟨metadata,name,none,attributes⟩ with
    | (.ok participant,rooms) =>
      ((s.withRooms rooms).issueRefreshToken key.room participant).broadcastUpdate key.room
        participant
    | (.error _,rooms) => s.withRooms rooms
  else s

/-- What publishing, unpublishing, muting and negotiating do to the tracks of a participant. The
room gets the snapshot; its version counts up if something changed. -/
def changeTracks (s : SessionState) (key : ParticipantKey) (tracks : List TrackInfo)
    (dataTracks : List DataTrackInfo) (counts : Bool) : SessionState :=
  match s.rooms.editParticipant key.room key.identity (fun participant =>
      let edited := {participant with tracks,dataTracks}
      .ok (if counts then newVersion edited else edited)) with
  | (.ok participant,rooms) => (s.withRooms rooms).broadcastUpdate key.room participant
  | (.error _,rooms) => s.withRooms rooms

end SessionState

/-- What the origin node tells the owner of a room about a join. -/
structure NonLocalRelayJoinIntent where
  (room identity name metadata : String)
  attributes : FiniteMap String String
  requestedParticipantSid : Option String
  (canPublish canSubscribe canPublishData canUpdateMetadata hidden : Bool)
  apiKey : String
  kind : ℕ
  kindDetails : List ℕ
  destinationRoom : String
  roomConfig : Option CreateRoomRequest

namespace NonLocalRelayJoinIntent

def key (intent : NonLocalRelayJoinIntent) : ParticipantKey := ⟨intent.room,intent.identity⟩

/-- `non_local_relay_intent_from_outcome`, when another node was selected. -/
def ofJoin (auth : AuthContext) (request : SignalJoinRequest) : NonLocalRelayJoinIntent where
  room := auth.key.room
  identity := auth.key.identity
  name := auth.claims.name
  metadata := SessionState.joinMetadata auth.claims request
  attributes := SessionState.joinAttributes auth.claims request
  requestedParticipantSid :=
    if request.participantSid = "" then none else some request.participantSid
  canPublish := auth.claims.video.canPublish
  canSubscribe := auth.claims.video.canSubscribe
  canPublishData := auth.claims.video.canPublishData
  canUpdateMetadata := auth.claims.video.canUpdateOwnMetadata
  hidden := auth.claims.video.hidden
  apiKey := auth.apiKey
  kind := auth.claims.kind
  kindDetails := auth.claims.kindDetails
  destinationRoom := auth.claims.video.destinationRoom
  roomConfig := auth.claims.roomConfig

def requestedPermission (intent : NonLocalRelayJoinIntent) : ParticipantPermission where
  canSubscribe := intent.canSubscribe
  canPublish := intent.canPublish
  canPublishData := intent.canPublishData
  hidden := intent.hidden
  canUpdateMetadata := intent.canUpdateMetadata
  canSubscribeMetrics := false
  canManageAgentSession := false

def authContext (intent : NonLocalRelayJoinIntent) (participant : ParticipantInfo) :
    AuthContext where
  apiKey := intent.apiKey
  claims := {
    sub := intent.identity,identity := intent.identity,name := participant.name,kind := intent.kind
    kindDetails := intent.kindDetails
    video := {
      roomJoin := true,room := intent.room,destinationRoom := intent.destinationRoom
      canPublish := intent.canPublish,canSubscribe := intent.canSubscribe
      canPublishData := intent.canPublishData,canUpdateOwnMetadata := intent.canUpdateMetadata
      hidden := intent.hidden}
    metadata := participant.metadata,attributes := participant.attributes
    roomConfig := intent.roomConfig}

end NonLocalRelayJoinIntent

namespace SessionState

/-- The part of `execute_join` that both kinds of relayed joins share: the permission of the
intent is stored and enforced, the kind is set, the token is remembered, and the response lists
the others as they are. The flag tells whether the join was accepted. -/
def completeRelayedJoin (s : SessionState) (intent : NonLocalRelayJoinIntent)
    (others : FiniteMap String ParticipantInfo) : Bool × SessionState :=
  match s.rooms.updateParticipant intent.room intent.identity
      ⟨"","",some intent.requestedPermission,.empty⟩ with
  | (.error _,rooms) => (false,s.withRooms rooms)
  | (.ok updated,rooms) =>
    let s := (s.withRooms rooms).applyServiceParticipantUpdate intent.room updated
    let (kinded,rooms) :=
      s.rooms.setParticipantKind intent.room intent.identity intent.kind intent.kindDetails
    let participant := kinded.toOption.getD updated
    let s := {s with
      rooms
      participantAuthContexts :=
        s.participantAuthContexts.insert intent.key (intent.authContext participant)}
    let s := s.applyServiceParticipantUpdate intent.room participant
    let response : JoinResponse := {
      key := intent.key,relayed := true,participant,otherParticipants := others}
    (true,{s with joinResponses := s.joinResponses++[response]})

/-- `execute_join` on the node that owns the room. An intent with a sid resumes the participant
that has it. -/
def executeJoin (s : SessionState) (intent : NonLocalRelayJoinIntent) (now : ℤ) :
    Bool × SessionState :=
  match intent.requestedParticipantSid with
  | some requestedSid =>
    match s.rooms.rooms.lookup intent.room with
    | none => (false,s)
    | some record =>
      match record.participants.lookup intent.identity with
      | none => (false,s)
      | some participant =>
        if participant.sid=requestedSid then
          s.completeRelayedJoin intent (record.participants.filter
            (fun _ other => other.identity≠intent.identity))
        else (false,s)
  | none =>
    match s.rooms.joinParticipantWithPermission ⟨intent.room,intent.identity,intent.name,
        intent.metadata,intent.attributes,none⟩ now with
    | (.error _,rooms) => (false,s.withRooms rooms)
    | (.ok joined,rooms) => (s.withRooms rooms).completeRelayedJoin intent joined.existing

/-- The first signal request of a relayed participant connects it and makes it listen. -/
def connectRelayed (s : SessionState) (key : ParticipantKey) : SessionState :=
  if (s.signalConnections.lookup key).isSome then s
  else
    let channel := s.nextChannel
    let s := {s with
      signalConnections := s.signalConnections.insert key channel,nextChannel := channel+1}
    match s.getParticipant key with
    | none => s
    | some participant =>
      {s with updates := s.updates.registerAndBroadcastJoin key.room participant ⟨channel,key⟩}

def executeTermination (s : SessionState) (key : ParticipantKey) (sid : String) (now : ℤ) :
    SessionState :=
  if (s.getParticipant key).map (·.sid)≠some sid then s
  else
    match s.rooms.removeParticipantWithReason key.room key.identity clientInitiated now with
    | (.ok participant,rooms) =>
      (s.withRooms rooms).applyServiceParticipantUpdate key.room participant
    | (.error _,rooms) => s.withRooms rooms

end SessionState

inductive SessionEvent
  | join (auth : AuthContext) (request : SignalJoinRequest) (delivered : Bool) (now : ℤ)
  | close (channel : ℕ) (explicitLeave : Bool) (now : ℤ)
  | abandon (channel : ℕ)
  | graceExpired (key : ParticipantKey) (sid : String) (now : ℤ)
  | openPeerConnection (key : ParticipantKey)
  | closePeerConnections (key : ParticipantKey)
  | updateParticipant (key : ParticipantKey) (update : ParticipantUpdate)
  | muteTrack (key : ParticipantKey) (trackSid : String) (muted : Bool)
  | updateMetadata (key : ParticipantKey) (metadata name : String)
      (attributes : FiniteMap String String)
  | changeTracks (key : ParticipantKey) (tracks : List TrackInfo)
      (dataTracks : List DataTrackInfo) (counts : Bool)
  | leave (key : ParticipantKey) (now : ℤ)
  | disconnect (key : ParticipantKey) (now : ℤ)
  | relayJoin (intent : NonLocalRelayJoinIntent) (now : ℤ)
  | relayConnect (key : ParticipantKey)
  | relayTerminate (key : ParticipantKey) (sid : String) (now : ℤ)

namespace SessionState

def step (s : SessionState) : SessionEvent → SessionState
  | .join auth request delivered now => s.runJoinSocket auth request delivered now
  | .close channel explicitLeave now => s.closeSocket channel explicitLeave now
  | .abandon channel => s.abandonSocket channel
  | .graceExpired key sid now => s.graceExpired key sid now
  | .openPeerConnection key => {s with peerConnections := insert key s.peerConnections}
  | .closePeerConnections key => {s with peerConnections := s.peerConnections.erase key}
  | .updateParticipant key update => s.updateParticipantFromService key update
  | .muteTrack key trackSid muted => s.muteTrackFromService key trackSid muted
  | .updateMetadata key metadata name attributes => s.updateMetadata key metadata name attributes
  | .changeTracks key tracks dataTracks counts => s.changeTracks key tracks dataTracks counts
  | .leave key now => s.cleanupParticipantRuntimeState key now
  | .disconnect key now => s.disconnectParticipantFromService key now
  | .relayJoin intent now => (s.executeJoin intent now).2
  | .relayConnect key => s.connectRelayed key
  | .relayTerminate key sid now => s.executeTermination key sid now

def run (s : SessionState) (events : List SessionEvent) : SessionState := events.foldl step s

variable (s : SessionState)

theorem run_append (es l : List SessionEvent) : s.run (es++l)=(s.run es).run l := List.foldl_append

@[simp] theorem run_concat (es : List SessionEvent) (e : SessionEvent) :
    s.run (es++[e])=(s.run es).step e :=
  s.run_append es [e]

end SessionState

end OxideSfu.Signaling
