import OxideSfu.FiniteMaps
import Mathlib.Algebra.BigOperators.Group.Finset.Defs

/-!
# The room store

Rooms with their participants, the media tracks that subscribers have switched off, and the counters
that the signaling layer reads (`oxidesfu-room/src/store.rs`, `participant.rs`, `room.rs`). Every
method takes the one lock, which is never poisoned here, so a call is one step.
-/

namespace OxideSfu.Rooms

open FiniteMaps Finset

/-- Counts up and stays at the largest value of an unsigned type (`saturating_add`). -/
def saturatingSucc (bits n : ℕ) : ℕ := min (n+1) (2^bits-1)

inductive RoomStoreError | roomNotFound | participantNotFound | agentDispatchNotFound
  | maxParticipantsExceeded
  | invalidArgument (message : String)
  deriving DecidableEq

/-- What a participant may do. Sources are the protocol's numbers; an empty list allows all. -/
structure ParticipantPermission where
  (canSubscribe canPublish canPublishData hidden canUpdateMetadata canSubscribeMetrics : Bool)
  canManageAgentSession : Bool
  canPublishSources : List ℤ := []
  deriving DecidableEq

inductive TrackType | audio | video | data deriving DecidableEq

/-- An encoding of a video track. The quality is the protocol's number. -/
structure VideoLayer where
  quality : ℤ
  (width height : ℕ)
  bitrate : ℕ := 0

structure SimulcastCodecInfo where
  mimeType : String
  sdpCid : String := ""
  layers : List VideoLayer := []

structure TrackInfo where
  sid : String
  type : TrackType
  name : String := ""
  muted : Bool := false
  width : ℕ := 0
  height : ℕ := 0
  simulcast : Bool := false
  layers : List VideoLayer := []
  mimeType : String := ""
  mid : String := ""
  codecs : List SimulcastCodecInfo := []

structure DataTrackInfo where
  pubHandle : ℕ
  sid : String := ""
  name : String := ""

inductive ParticipantState | joined | disconnected deriving DecidableEq

/-- A participant as clients see it. Disconnect reasons and kinds are the protocol's numbers,
zero when unset. -/
structure ParticipantInfo where
  sid : String
  version : ℕ
  (identity name metadata : String)
  attributes : FiniteMap String String
  permission : Option ParticipantPermission
  state : ParticipantState
  joinedAt : ℤ
  tracks : List TrackInfo := []
  dataTracks : List DataTrackInfo := []
  kind : ℕ := 0
  kindDetails : List ℕ := []
  disconnectReason : ℕ := 0

structure Room where
  (sid name : String)
  (emptyTimeout departureTimeout maxParticipants : ℕ)
  (creationTime creationTimeMs : ℤ)
  metadata : String := ""
  enabledCodecs : List String := []
  numParticipants : ℕ := 0

structure RoomAgentDispatch where
  (agentName metadata : String)
  restartPolicy : ℕ
  deployment : String
  attributes : FiniteMap String String

structure AgentDispatch where
  (id room : String)
  createdAt : ℤ
  request : RoomAgentDispatch

/-- A room with its participants. `participantVersions` remembers a version of identities
across their departures; `emptySince` is the time at which the room became empty. -/
structure RoomRecord where
  room : Room
  participants : FiniteMap String ParticipantInfo
  participantVersions : FiniteMap String ℕ
  agentDispatches : List AgentDispatch
  emptySince : Option ℤ
  hadParticipants : Bool

structure MediaTrackKey where
  (room publisher trackSid subscriber : String)
  deriving DecidableEq

structure RoomDefaults where
  maxParticipants : ℕ := 0
  emptyTimeout : ℕ := 300
  departureTimeout : ℕ := 20

structure RoomLockState where
  token : String
  expiresAt : ℤ

structure RoomStore where
  defaults : RoomDefaults
  rooms : FiniteMap String RoomRecord
  (nextRoomId nextParticipantId nextAgentDispatchId : ℕ)
  mediaUnsubscribed : Finset MediaTrackKey
  mediaSubscriptionRevision : ℕ
  roomLocks : FiniteMap String RoomLockState

namespace RoomStore

def withDefaults (defaults : RoomDefaults) : RoomStore :=
  ⟨defaults,.empty,0,0,0,∅,0,.empty⟩

def hex16 (n : ℕ) : String :=
  let digits := Nat.toDigits 16 n
  String.ofList (List.replicate (16-digits.length) '0'++digits)

def participantIsHidden (participant : ParticipantInfo) : Bool :=
  participant.permission.any (·.hidden)

def visibleParticipantCount (record : RoomRecord) : ℕ :=
  min (record.participants.keys.filter (fun identity =>
    (record.participants.lookup identity).any (fun p => !participantIsHidden p))).card
    (2^32-1)

def setRoom (s : RoomStore) (name : String) (record : RoomRecord) : RoomStore :=
  {s with rooms := s.rooms.insert name record}

structure CreateRoomRequest where
  name : String
  (emptyTimeout departureTimeout maxParticipants : ℕ)
  metadata : String
  agents : List RoomAgentDispatch

def defaultEnabledCodecs : List String := ["audio/opus","video/vp8"]

def emptyRecord (room : Room) (dispatches : List AgentDispatch) (now : ℤ) : RoomRecord :=
  ⟨room,.empty,.empty,dispatches,some now,false⟩

def numberDispatches (room : String) (now : ℤ) :
    ℕ → List RoomAgentDispatch → List AgentDispatch × ℕ
  | lastId, [] => ([],lastId)
  | lastId, request::requests =>
    let id := saturatingSucc 64 lastId
    let (dispatches,lastId) := numberDispatches room now id requests
    (⟨"AD_" ++ hex16 id,room,now,request⟩::dispatches,lastId)

def requestedRoom (s : RoomStore) (request : CreateRoomRequest) (now : ℤ) : Room where
  sid := "RM_" ++ hex16 (saturatingSucc 64 s.nextRoomId)
  name := request.name
  emptyTimeout := if request.emptyTimeout=0 then s.defaults.emptyTimeout
    else request.emptyTimeout
  departureTimeout := if request.departureTimeout=0 then s.defaults.departureTimeout
    else request.departureTimeout
  maxParticipants := if request.maxParticipants=0 then s.defaults.maxParticipants
    else request.maxParticipants
  creationTime := now / 1000
  creationTimeMs := now
  metadata := request.metadata
  enabledCodecs := defaultEnabledCodecs

/-- A room that exists is returned as it is, whatever the request asks for. -/
def createRoom (s : RoomStore) (request : CreateRoomRequest) (now : ℤ) : Room × RoomStore :=
  match s.rooms.lookup request.name with
  | some record => (record.room,s)
  | none =>
    let room := s.requestedRoom request now
    let (dispatches,lastId) :=
      numberDispatches request.name now s.nextAgentDispatchId request.agents
    (room,{s with
      nextRoomId := saturatingSucc 64 s.nextRoomId,nextAgentDispatchId := lastId
      rooms := s.rooms.insert request.name (emptyRecord room dispatches now)})

/-- The record is replaced or created, and nothing else of an existing record changes. -/
def storeRoomWithInternal (s : RoomStore) (room : Room) (now : ℤ) :
    Except RoomStoreError Unit × RoomStore :=
  if room.name = "" then (.error (.invalidArgument "room name cannot be empty"),s)
  else
    match s.rooms.lookup room.name with
    | some record => (.ok (),s.setRoom room.name {record with room})
    | none => (.ok (),s.setRoom room.name (emptyRecord room [] now))

def updateRoomMetadata (s : RoomStore) (name metadata : String) :
    Except RoomStoreError Room × RoomStore :=
  match s.rooms.lookup name with
  | none => (.error .roomNotFound,s)
  | some record =>
    let room := {record.room with metadata}
    (.ok room,s.setRoom name {record with room})

/-- Keeps the switched-off tracks that satisfy a test and counts the revision up when some
were dropped. -/
def retainUnsubscribed (s : RoomStore) (keeps : MediaTrackKey→Bool) : RoomStore :=
  let kept := s.mediaUnsubscribed.filter (fun key => keeps key)
  {s with
    mediaUnsubscribed := kept
    mediaSubscriptionRevision :=
      if kept.card≠s.mediaUnsubscribed.card then saturatingSucc 64 s.mediaSubscriptionRevision
      else s.mediaSubscriptionRevision}

def deleteRoom (s : RoomStore) (name : String) : Except RoomStoreError Room × RoomStore :=
  match s.rooms.lookup name with
  | none => (.error .roomNotFound,s)
  | some record =>
    let s := {s with rooms := s.rooms.erase name,roomLocks := s.roomLocks.erase name}
    (.ok record.room,s.retainUnsubscribed (·.room≠name))

/-- The age in milliseconds at which an empty room expires. -/
def roomTimeoutMs (record : RoomRecord) (defaultEmptyAgeMs : ℤ) : ℤ :=
  let seconds :=
    if record.hadParticipants then
      if record.room.departureTimeout > 0 then record.room.departureTimeout
      else record.room.emptyTimeout
    else record.room.emptyTimeout
  if seconds > 0 then (seconds : ℤ)*1000 else defaultEmptyAgeMs

def keepRoom (defaultEmptyAgeMs now : ℤ) (record : RoomRecord) : Bool :=
  match record.emptySince with
  | none => true | some emptySince => now-emptySince<roomTimeoutMs record defaultEmptyAgeMs

/-- Removes the expired rooms from the map of rooms and from nothing else. -/
def cleanupExpiredEmptyRooms (s : RoomStore) (defaultEmptyAgeMs now : ℤ) : RoomStore :=
  {s with rooms := s.rooms.filter (fun _ record => keepRoom defaultEmptyAgeMs now record)}

structure JoinRequest where
  (room identity name metadata : String)
  attributes : FiniteMap String String
  permission : Option ParticipantPermission

def ensureRoom (s : RoomStore) (name : String) (now : ℤ) : RoomRecord × RoomStore :=
  match s.rooms.lookup name with
  | some record => (record,s)
  | none =>
    let id := saturatingSucc 64 s.nextRoomId
    let room : Room := {
      sid := "RM_" ++ hex16 id
      name
      emptyTimeout := s.defaults.emptyTimeout,departureTimeout := s.defaults.departureTimeout
      maxParticipants := s.defaults.maxParticipants,creationTime := now / 1000,
        creationTimeMs := now}
    let record := emptyRecord room [] now
    (record,{s with nextRoomId := id,rooms := s.rooms.insert name record})

structure Joined where
  room : Room
  participant : ParticipantInfo
  existing : FiniteMap String ParticipantInfo

def countVisible (record : RoomRecord) : RoomRecord :=
  {record with room := {record.room with numParticipants := visibleParticipantCount record}}

def joinRefused (record : RoomRecord) (identity : String) : Bool :=
  decide (record.room.maxParticipants > 0 ∧ identity∉record.participants.keys ∧
    record.participants.keys.card ≥ record.room.maxParticipants)

/-- A join gets the version after the remembered one, or zero. -/
def newParticipant (s : RoomStore) (record : RoomRecord) (request : JoinRequest) (now : ℤ) :
    ParticipantInfo where
  sid := "PA_" ++ hex16 (saturatingSucc 64 s.nextParticipantId)
  version := ((record.participantVersions.lookup request.identity).map (saturatingSucc 32)).getD 0
  identity := request.identity
  name := request.name
  metadata := request.metadata
  attributes := request.attributes
  permission := request.permission
  state := .joined
  joinedAt := now / 1000

/-- The record with a new participant, whose version is remembered from the start. -/
def admitParticipant (record : RoomRecord) (participant : ParticipantInfo) : RoomRecord :=
  let record := countVisible {record with
    participants := record.participants.insert participant.identity participant
    participantVersions :=
      record.participantVersions.insert participant.identity participant.version
    hadParticipants := true}
  {record with emptySince := none}

def joinParticipantWithPermission (s : RoomStore) (request : JoinRequest) (now : ℤ) :
    Except RoomStoreError Joined × RoomStore :=
  let (record,s) := s.ensureRoom request.room now
  if joinRefused record request.identity then (.error .maxParticipantsExceeded,s)
  else
    let participant := s.newParticipant record request now
    let joined := admitParticipant record participant
    let s := {s with nextParticipantId := saturatingSucc 64 s.nextParticipantId}
    (.ok ⟨joined.room,participant,record.participants⟩,s.setRoom request.room joined)

/-- A room that has lost a participant counts again and notes when it became empty. -/
def afterDeparture (record : RoomRecord) (now : ℤ) : RoomRecord :=
  let record := countVisible record
  if record.participants.keys=∅ then {record with emptySince := some now} else record

/-- The tracks that are left when everything of an identity in a room is forgotten. -/
def notOfParticipant (room identity : String) (key : MediaTrackKey) : Bool :=
  key.room≠room ∨ (key.publisher≠identity ∧ key.subscriber≠identity)

def newVersion (participant : ParticipantInfo) : ParticipantInfo :=
  {participant with version := saturatingSucc 32 participant.version}

def disconnected (participant : ParticipantInfo) (reason : ℕ) : ParticipantInfo :=
  newVersion {participant with state := .disconnected,disconnectReason := reason}

/-- The record without a participant, whose last version is remembered. -/
def dismissParticipant (record : RoomRecord) (identity : String) (last : ParticipantInfo)
    (now : ℤ) : RoomRecord :=
  afterDeparture {record with
    participants := record.participants.erase identity
    participantVersions := record.participantVersions.insert identity last.version} now

def removeParticipantWithReason (s : RoomStore) (room identity : String) (reason : ℕ) (now : ℤ) :
    Except RoomStoreError ParticipantInfo × RoomStore :=
  match s.rooms.lookup room with
  | none => (.error .roomNotFound,s)
  | some record =>
    match record.participants.lookup identity with
    | none => (.error .participantNotFound,s)
    | some participant =>
      let last := disconnected participant reason
      let s := s.setRoom room (dismissParticipant record identity last now)
      (.ok last,s.retainUnsubscribed (notOfParticipant room identity))

/-- The record that a participant is moved out of; the remembered version stays as it was. -/
def moveOut (record : RoomRecord) (identity : String) (now : ℤ) : RoomRecord :=
  afterDeparture {record with participants := record.participants.erase identity} now

/-- The record that a participant is moved into; the remembered version stays as it was. -/
def moveIn (record : RoomRecord) (identity : String) (participant : ParticipantInfo) :
    RoomRecord :=
  let record := countVisible {record with
    participants := record.participants.insert identity participant}
  {record with emptySince := none}

def moveParticipant (s : RoomStore) (room identity destination : String) (now : ℤ) :
    Except RoomStoreError ParticipantInfo × RoomStore :=
  if destination∉s.rooms.keys then (.error .roomNotFound,s)
  else
    match s.rooms.lookup room with
    | none => (.error .roomNotFound,s)
    | some source =>
      match source.participants.lookup identity with
      | none => (.error .participantNotFound,s)
      | some participant =>
        let s := s.setRoom room (moveOut source identity now)
        let moved := newVersion participant
        match s.rooms.lookup destination with
        | none => (.error .roomNotFound,s)
        | some record =>
          let s := s.setRoom destination (moveIn record identity moved)
          (.ok moved,s.retainUnsubscribed (notOfParticipant room identity))

def getParticipant (s : RoomStore) (room identity : String) :
    Except RoomStoreError ParticipantInfo :=
  match s.rooms.lookup room with
  | none => .error .roomNotFound
  | some record =>
    match record.participants.lookup identity with
    | none => .error .participantNotFound | some participant => .ok participant

def listParticipants (s : RoomStore) (room : String) :
    Except RoomStoreError (Multiset ParticipantInfo) :=
  match s.rooms.lookup room with
  | none => .error .roomNotFound | some record => .ok record.participants.values

/-- Finds a participant, edits it in place and returns the snapshot. An edit that fails
changes nothing. -/
def editParticipant (s : RoomStore) (room identity : String)
    (edit : ParticipantInfo→Except RoomStoreError ParticipantInfo) :
    Except RoomStoreError ParticipantInfo × RoomStore :=
  match s.rooms.lookup room with
  | none => (.error .roomNotFound,s)
  | some record =>
    match record.participants.lookup identity with
    | none => (.error .participantNotFound,s)
    | some participant =>
      match edit participant with
      | .error error => (.error error,s)
      | .ok edited =>
        (.ok edited,s.setRoom room {record with
          participants := record.participants.insert identity edited})

/-- Edits the first track with a sid; the version counts only edits that change something. -/
def editTrack (trackSid : String) (edit : TrackInfo→Option TrackInfo)
    (participant : ParticipantInfo) : Except RoomStoreError ParticipantInfo :=
  match participant.tracks.find? (·.sid=trackSid) with
  | none => .error .participantNotFound
  | some track =>
    match edit track with
    | none => .ok participant
    | some edited =>
      let index := participant.tracks.findIdx (·.sid=trackSid)
      .ok (newVersion {participant with tracks := participant.tracks.set index edited})

def setParticipantKind (s : RoomStore) (room identity : String) (kind : ℕ)
    (kindDetails : List ℕ) : Except RoomStoreError ParticipantInfo × RoomStore :=
  s.editParticipant room identity (fun participant =>
    .ok (newVersion {participant with kind,kindDetails}))

def addParticipantTrack (s : RoomStore) (room identity : String) (track : TrackInfo) :
    Except RoomStoreError ParticipantInfo × RoomStore :=
  s.editParticipant room identity (fun participant =>
    .ok (newVersion {participant with tracks := participant.tracks++[track]}))

def isWhitespace (c : Char) : Bool :=
  let n := c.toNat
  decide ((9≤n ∧ n≤13) ∨ (0x2000≤n ∧ n≤0x200a) ∨
    n∈[0x20,0x85,0xa0,0x1680,0x2028,0x2029,0x202f,0x205f,0x3000])

def trim (text : String) : String :=
  String.ofList (((text.toList.dropWhile isWhitespace).reverse.dropWhile isWhitespace).reverse)

def toAsciiLowercase (text : String) : String := String.ofList (text.toList.map Char.toLower)

def setParticipantTrackMimeType (s : RoomStore) (room identity trackSid mimeType : String) :
    Except RoomStoreError ParticipantInfo × RoomStore :=
  let normalized := toAsciiLowercase (trim mimeType)
  s.editParticipant room identity (editTrack trackSid (fun track =>
    if normalized = "" ∨ track.mimeType=normalized then none
    else some {track with mimeType := normalized,codecs := [{mimeType := normalized}]}))

def setParticipantTrackMid (s : RoomStore) (room identity trackSid mid : String) :
    Except RoomStoreError ParticipantInfo × RoomStore :=
  s.editParticipant room identity (editTrack trackSid (fun track =>
    if track.mid=mid then none else some {track with mid}))

def setParticipantTrackSdpCid (s : RoomStore) (room identity trackSid sdpCid : String) :
    Except RoomStoreError ParticipantInfo × RoomStore :=
  s.editParticipant room identity (editTrack trackSid (fun track =>
    if track.codecs.all (·.sdpCid=sdpCid) then none
    else some {track with codecs := track.codecs.map (fun codec => {codec with sdpCid})}))

/-- Returns the track and not the participant. -/
def setParticipantTrackMuted (s : RoomStore) (room identity trackSid : String) (muted : Bool) :
    Except RoomStoreError TrackInfo × RoomStore :=
  let (result,s) := s.editParticipant room identity (editTrack trackSid (fun track =>
    if track.muted=muted then none else some {track with muted}))
  (result.bind (fun participant =>
    match participant.tracks.find? (·.sid=trackSid) with
    | some track => .ok track | none => .error .participantNotFound),s)

/-- Removes every track with the sid; the version counts up also when there is none. -/
def removeParticipantTrack (s : RoomStore) (room identity trackSid : String) :
    Except RoomStoreError ParticipantInfo × RoomStore :=
  let (result,s) := s.editParticipant room identity (fun participant =>
    .ok (newVersion {participant with
      tracks := participant.tracks.filter (·.sid≠trackSid)}))
  match result with
  | .error error => (.error error,s)
  | .ok participant => (.ok participant,s.retainUnsubscribed (fun key =>
      (key.room≠room ∨ key.publisher≠identity ∨ key.trackSid≠trackSid)))

def addParticipantDataTrack (s : RoomStore) (room identity : String) (dataTrack : DataTrackInfo) :
    Except RoomStoreError ParticipantInfo × RoomStore :=
  s.editParticipant room identity (fun participant =>
    .ok (newVersion {participant with dataTracks := participant.dataTracks++[dataTrack]}))

def removeParticipantDataTrack (s : RoomStore) (room identity : String) (pubHandle : ℕ) :
    Except RoomStoreError ParticipantInfo × RoomStore :=
  s.editParticipant room identity (fun participant =>
    .ok (newVersion {participant with
      dataTracks := participant.dataTracks.filter (·.pubHandle≠pubHandle)}))

structure ParticipantUpdate where
  (metadata name : String)
  permission : Option ParticipantPermission
  attributes : FiniteMap String String

def maxParticipantMetadataBytes : ℕ := 512*1024

def maxParticipantAttributesBytes : ℕ := 64*1024

def attributesSize (attributes : FiniteMap String String) : ℕ :=
  attributes.keys.sum (fun key =>
    key.utf8ByteSize+((attributes.lookup key).getD "").utf8ByteSize)

/-- The attributes after an update; an empty value removes the attribute. -/
def updatedAttributes (old changes : FiniteMap String String) : FiniteMap String String :=
  old.overlay changes (· ≠ "")

def changesPermission (participant : ParticipantInfo) (update : ParticipantUpdate) : Bool :=
  update.permission.isSome && participant.permission≠update.permission

/-- A participant that may no longer publish loses its tracks. -/
def withPermission (participant : ParticipantInfo) (permission : Option ParticipantPermission) :
    ParticipantInfo :=
  if permission.any (·.canPublish) then {participant with permission}
  else {participant with permission,tracks := [],dataTracks := []}

/-- Something other than the permission changes: non-empty texts that differ, attributes that
disappear, and attributes that get another value. -/
def changesTexts (participant : ParticipantInfo) (update : ParticipantUpdate) : Bool :=
  (update.metadata ≠ "" && participant.metadata≠update.metadata) ||
  (update.name ≠ "" && participant.name≠update.name) ||
  decide (∃key∈update.attributes.keys,
    let value := (update.attributes.lookup key).getD ""
    if value = "" then key∈participant.attributes.keys
    else participant.attributes.lookup key≠some value)

def updateTexts (participant : ParticipantInfo) (update : ParticipantUpdate) : ParticipantInfo :=
  {participant with
    metadata := if update.metadata = "" then participant.metadata else update.metadata
    name := if update.name = "" then participant.name else update.name}

def updateFields (participant : ParticipantInfo) (update : ParticipantUpdate) : ParticipantInfo :=
  let texts := updateTexts participant update
  let permitted :=
    if changesPermission participant update then withPermission texts update.permission else texts
  {permitted with attributes := updatedAttributes participant.attributes update.attributes}

def updatedParticipant (participant : ParticipantInfo) (update : ParticipantUpdate) :
    ParticipantInfo :=
  if changesPermission participant update || changesTexts participant update then
    newVersion (updateFields participant update)
  else updateFields participant update

/-- The record with an updated participant; visible participants are counted again when one
was hidden or shown. -/
def updatedRecord (record : RoomRecord) (identity : String)
    (participant updated : ParticipantInfo) : RoomRecord :=
  let record := {record with participants := record.participants.insert identity updated}
  if participantIsHidden participant≠participantIsHidden updated then countVisible record
  else record

def updateParticipant (s : RoomStore) (room identity : String) (update : ParticipantUpdate) :
    Except RoomStoreError ParticipantInfo × RoomStore :=
  if update.metadata.utf8ByteSize > maxParticipantMetadataBytes then
    (.error (.invalidArgument "metadata exceeds 512KiB limit"),s)
  else
    match s.rooms.lookup room with
    | none => (.error .roomNotFound,s)
    | some record =>
      match record.participants.lookup identity with
      | none => (.error .participantNotFound,s)
      | some participant =>
        if attributesSize (updatedAttributes participant.attributes update.attributes) >
            maxParticipantAttributesBytes then
          (.error (.invalidArgument "attributes exceed 64KiB limit"),s)
        else
          let updated := updatedParticipant participant update
          let s := s.setRoom room (updatedRecord record identity participant updated)
          (.ok updated,if changesPermission participant update then
            {s with mediaSubscriptionRevision := saturatingSucc 64 s.mediaSubscriptionRevision}
          else s)

def setSubscribed (s : RoomStore) (keys : Finset MediaTrackKey) (subscribed : Bool) : RoomStore :=
  let next := if subscribed then s.mediaUnsubscribed \ keys else s.mediaUnsubscribed ∪ keys
  let changed :=
    if subscribed then decide (∃key∈keys,key∈s.mediaUnsubscribed)
    else decide (∃key∈keys,key∉s.mediaUnsubscribed)
  {s with
    mediaUnsubscribed := next
    mediaSubscriptionRevision :=
      if changed then saturatingSucc 64 s.mediaSubscriptionRevision
      else s.mediaSubscriptionRevision}

def setMediaTrackSubscribed (s : RoomStore) (key : MediaTrackKey) (subscribed : Bool) :
    Except RoomStoreError Unit × RoomStore :=
  if key.room∈s.rooms.keys then (.ok (),s.setSubscribed {key} subscribed)
  else (.error .roomNotFound,s)

/-- Every publisher of a track with this sid is meant. -/
def setMediaTrackSubscribedByTrackSid (s : RoomStore) (room subscriber trackSid : String)
    (subscribed : Bool) : Except RoomStoreError Bool × RoomStore :=
  match s.rooms.lookup room with
  | none => (.error .roomNotFound,s)
  | some record =>
    if subscriber∉record.participants.keys then (.error .participantNotFound,s)
    else
      let publishers := record.participants.keys.filter (fun identity =>
        (record.participants.lookup identity).any (fun participant =>
          participant.tracks.any (·.sid=trackSid)))
      if publishers=∅ then (.ok false,s)
      else
        let keys := publishers.image (fun publisher => ⟨room,publisher,trackSid,subscriber⟩)
        (.ok true,s.setSubscribed keys subscribed)

/-- The first element that an iteration over a hash map finds, which may be any. -/
structure FirstFound where
  pick : Finset String→Option String
  pick_mem : ∀found identity,pick found=some identity → identity∈found
  pick_isSome : ∀found,found.Nonempty → (pick found).isSome

def setMediaTrackSubscribedByPublisherSid (s : RoomStore)
    (room publisherSid trackSid subscriber : String) (subscribed : Bool) (first : FirstFound) :
    Except RoomStoreError Bool × RoomStore :=
  match s.rooms.lookup room with
  | none => (.error .roomNotFound,s)
  | some record =>
    if subscriber∉record.participants.keys then (.error .participantNotFound,s)
    else
      let found := record.participants.keys.filter (fun identity =>
        (record.participants.lookup identity).any (·.sid=publisherSid))
      match first.pick found with
      | none => (.ok false,s)
      | some publisher =>
        (.ok true,s.setSubscribed {⟨room,publisher,trackSid,subscriber⟩} subscribed)

def isMediaTrackSubscribed (s : RoomStore) (key : MediaTrackKey) : Bool :=
  key∉s.mediaUnsubscribed

/-- A permission that allows to subscribe; without one everything is allowed. -/
def allowsSubscribe (permission : Option ParticipantPermission) : Bool :=
  (permission.map ParticipantPermission.canSubscribe).getD true

def maySubscribe (record : RoomRecord) (identity : String) : Bool :=
  allowsSubscribe ((record.participants.lookup identity).bind ParticipantInfo.permission)

/-- The subscriber's permission and its switched-off tracks decide. In a room that does not
exist nothing may be received, and somebody who is not in the room may receive everything. -/
def canSubscribeToMediaTrack (s : RoomStore) (key : MediaTrackKey) : Bool :=
  match s.rooms.lookup key.room with
  | none => false
  | some record => maySubscribe record key.subscriber && key∉s.mediaUnsubscribed

/-! What each call that touches a participant can do. -/

theorem ensureRoom_of_lookup {s : RoomStore} {name : String} {r : RoomRecord}
    (hr : s.rooms.lookup name=some r) (now : ℤ) :
    s.ensureRoom name now=(r,s) := by
  rw [ensureRoom,hr]

theorem participants_afterDeparture (r : RoomRecord) (now : ℤ) :
    (afterDeparture r now).participants=r.participants := by
  rw [afterDeparture]
  split_ifs <;> rfl

theorem participants_updatedRecord (r : RoomRecord) (i : String) (p updated : ParticipantInfo) :
    (updatedRecord r i p updated).participants=r.participants.insert i updated := by
  rw [updatedRecord]
  split_ifs <;> rfl

variable (s : RoomStore)

theorem retainUnsubscribed_cases (keeps : MediaTrackKey→Bool) :
    (s.retainUnsubscribed keeps).mediaSubscriptionRevision =
      saturatingSucc 64 s.mediaSubscriptionRevision ∨
      s.retainUnsubscribed keeps=s := by
  by_cases hc : (s.mediaUnsubscribed.filter (fun key => keeps key)).card = s.mediaUnsubscribed.card
  · have hs := filter_true_of_mem (card_filter_eq_iff.mp hc)
    exact .inr (by simp [retainUnsubscribed,hs])
  · exact .inl (by simp [retainUnsubscribed,hc])

theorem setSubscribed_cases (keys : Finset MediaTrackKey) (subscribed : Bool) :
    (s.setSubscribed keys subscribed).mediaSubscriptionRevision =
      saturatingSucc 64 s.mediaSubscriptionRevision ∨
      s.setSubscribed keys subscribed=s := by
  cases subscribed with
  | true =>
    by_cases hc : ∃key∈keys,key∈s.mediaUnsubscribed
    · exact .inl (by simp [setSubscribed,hc])
    · have hd : s.mediaUnsubscribed \ keys=s.mediaUnsubscribed := by
        rw [Finset.sdiff_eq_self_iff_disjoint,Finset.disjoint_left]
        intro key hkey hmem
        exact hc ⟨key,hmem,hkey⟩
      exact .inr (by simp [setSubscribed,hc,hd])
  | false =>
    by_cases hc : ∃key∈keys,key∉s.mediaUnsubscribed
    · exact .inl (by simp [setSubscribed,hc])
    · have hu : s.mediaUnsubscribed ∪ keys=s.mediaUnsubscribed := by
        rw [Finset.union_eq_left]
        intro key hkey
        by_contra hnot
        exact hc ⟨key,hkey,hnot⟩
      exact .inr (by simp [setSubscribed,hc,hu])

theorem removeParticipantWithReason_cases (room i : String) (re : ℕ) (now : ℤ) :
    (∃e,s.removeParticipantWithReason room i re now=(.error e,s)) ∨
      ∃r p,s.rooms.lookup room=some r ∧
        r.participants.lookup i=some p ∧
        s.removeParticipantWithReason room i re now =
          (.ok (disconnected p re),
            (s.setRoom room (dismissParticipant r i (disconnected p re)
              now)).retainUnsubscribed (notOfParticipant room i)) := by
  cases hr : s.rooms.lookup room with
  | none => exact .inl ⟨.roomNotFound,by simp only [removeParticipantWithReason,hr]⟩
  | some r =>
    cases hp : r.participants.lookup i with
    | none =>
      exact .inl ⟨.participantNotFound,by
        simp only [removeParticipantWithReason,hr,hp]⟩
    | some p =>
      exact .inr ⟨r,p,rfl,hp,by simp only [removeParticipantWithReason,hr,hp]⟩

/-- The record that a moved participant enters: in a move within a room it has just left it. -/
theorem moveParticipant_cases (room i d : String) (now : ℤ) :
    (∃e,s.moveParticipant room i d now=(.error e,s)) ∨
      ∃c p r,s.rooms.lookup room=some c ∧
        c.participants.lookup i=some p ∧
        d∈s.rooms.keys ∧
        (s.setRoom room (moveOut c i now)).rooms.lookup d=some r ∧
        s.moveParticipant room i d now =
          (.ok (newVersion p),
            ((s.setRoom room (moveOut c i now)).setRoom d
              (moveIn r i (newVersion p))).retainUnsubscribed (notOfParticipant room i)) := by
  by_cases hd : d∈s.rooms.keys
  · cases hs : s.rooms.lookup room with
    | none =>
      exact .inl ⟨.roomNotFound,by
        simp only [moveParticipant,hd,not_true_eq_false,if_false,hs]⟩
    | some c =>
      cases hp : c.participants.lookup i with
      | none =>
        exact .inl ⟨.participantNotFound,by
          simp only [moveParticipant,hd,not_true_eq_false,if_false,hs,hp]⟩
      | some p =>
        have hmem : d∈(s.setRoom room (moveOut c i now)).rooms.keys := mem_insert_of_mem hd
        obtain ⟨r,hr⟩ := Option.isSome_iff_exists.mp ((FiniteMap.mem_keys _ _).mp hmem)
        exact .inr ⟨c,p,r,rfl,hp,hd,hr,
          by simp only [moveParticipant,hd,not_true_eq_false,if_false,hs,hp,hr]⟩
  · exact .inl ⟨.roomNotFound,by
      simp only [moveParticipant,hd,not_false_eq_true,if_true]⟩

theorem editParticipant_cases (room i : String)
    (edit : ParticipantInfo→Except RoomStoreError ParticipantInfo) :
    (∃e,s.editParticipant room i edit=(.error e,s)) ∨
      ∃r p d,s.rooms.lookup room=some r ∧
        r.participants.lookup i=some p ∧
        edit p = .ok d ∧
        s.editParticipant room i edit =
          (.ok d,s.setRoom room {r with
            participants := r.participants.insert i d}) := by
  cases hr : s.rooms.lookup room with
  | none => exact .inl ⟨.roomNotFound,by simp only [editParticipant,hr]⟩
  | some r =>
    cases hp : r.participants.lookup i with
    | none =>
      exact .inl ⟨.participantNotFound,by simp only [editParticipant,hr,hp]⟩
    | some p =>
      cases he : edit p with
      | error e =>
        exact .inl ⟨e,by simp only [editParticipant,hr,hp,he]⟩
      | ok d =>
        exact .inr ⟨r,p,d,rfl,hp,he,by simp only [editParticipant,hr,hp,he]⟩

theorem removeParticipantTrack_cases (room i trackSid : String) :
    (∃e,s.removeParticipantTrack room i trackSid=(.error e,s)) ∨
      ∃r p d,s.rooms.lookup room=some r ∧
        r.participants.lookup i=some p ∧
        d=newVersion {p with
          tracks := p.tracks.filter (·.sid≠trackSid)} ∧
        s.removeParticipantTrack room i trackSid =
          (.ok d,(s.setRoom room {r with
            participants := r.participants.insert i d}).retainUnsubscribed
              (fun key =>
                (key.room≠room ∨ key.publisher≠i ∨ key.trackSid≠trackSid))) := by
  rcases s.editParticipant_cases room i (fun p =>
    .ok (newVersion {p with
      tracks := p.tracks.filter (·.sid≠trackSid)})) with
    ⟨e,heq⟩ | ⟨r,p,d,hr,hp,he,heq⟩
  · exact .inl ⟨e,by rw [removeParticipantTrack,heq]⟩
  · exact Or.inr ⟨r,p,d,hr,hp,(Except.ok.inj he).symm,by rw [removeParticipantTrack,heq]⟩

theorem updateParticipant_cases (room i : String) (u : ParticipantUpdate) :
    (∃e,s.updateParticipant room i u=(.error e,s)) ∨
      ∃r p,s.rooms.lookup room=some r ∧
        r.participants.lookup i=some p ∧
        s.updateParticipant room i u =
          (.ok (updatedParticipant p u),
            let t := s.setRoom room (updatedRecord r i p
              (updatedParticipant p u))
            if changesPermission p u then
              {t with mediaSubscriptionRevision := saturatingSucc 64 s.mediaSubscriptionRevision}
            else t) := by
  by_cases hm : u.metadata.utf8ByteSize > maxParticipantMetadataBytes
  · exact .inl ⟨.invalidArgument "metadata exceeds 512KiB limit",by
      simp only [updateParticipant,if_pos hm]⟩
  · cases hr : s.rooms.lookup room with
    | none =>
      exact .inl ⟨.roomNotFound,by simp only [updateParticipant,if_neg hm,hr]⟩
    | some r =>
      cases hp : r.participants.lookup i with
      | none =>
        exact .inl ⟨.participantNotFound,by
          simp only [updateParticipant,if_neg hm,hr,hp]⟩
      | some p =>
        by_cases hs : attributesSize
          (updatedAttributes p.attributes u.attributes) > maxParticipantAttributesBytes
        · exact .inl ⟨.invalidArgument "attributes exceed 64KiB limit",by
            simp only [updateParticipant,if_neg hm,hr,hp,if_pos hs]⟩
        · exact .inr ⟨r,p,rfl,hp,by
            simp only [updateParticipant,if_neg hm,hr,hp,if_neg hs]
            rfl⟩

/-- A call that switches some of the named tracks on or off, or does nothing. -/
def Switches (s t : RoomStore) (named : MediaTrackKey→Prop) (subscribed : Bool) : Prop :=
  t=s ∨ ∃keys : Finset MediaTrackKey,t=s.setSubscribed keys subscribed ∧
    ∀key∈keys,named key

theorem switches_setMediaTrackSubscribed (key : MediaTrackKey) (subscribed : Bool) :
    Switches s (s.setMediaTrackSubscribed key subscribed).2 (·=key) subscribed := by
  rw [setMediaTrackSubscribed]
  split_ifs
  · exact .inr ⟨{key},rfl,fun o ho => mem_singleton.mp ho⟩
  · exact .inl rfl

theorem switches_setMediaTrackSubscribedByTrackSid (room u sid : String) (subscribed : Bool) :
    Switches s (s.setMediaTrackSubscribedByTrackSid room u sid subscribed).2
      (fun key => key.room=room ∧ key.trackSid=sid ∧ key.subscriber=u)
      subscribed := by
  rw [setMediaTrackSubscribedByTrackSid]
  split
  · exact .inl rfl
  · dsimp only
    split_ifs
    · exact .inl rfl
    · refine .inr ⟨_,rfl,fun key hkey => ?_⟩
      obtain ⟨q,-,rfl⟩ := mem_image.mp hkey
      exact ⟨rfl,rfl,rfl⟩
    · exact .inl rfl

theorem switches_setMediaTrackSubscribedByPublisherSid
    (room publisherSid sid u : String) (subscribed : Bool) (first : FirstFound) :
    Switches s (s.setMediaTrackSubscribedByPublisherSid room publisherSid sid u
      subscribed first).2
      (fun key => key.room=room ∧ key.trackSid=sid ∧ key.subscriber=u)
      subscribed := by
  rw [setMediaTrackSubscribedByPublisherSid]
  split
  · exact .inl rfl
  · dsimp only
    split_ifs
    · split
      · exact .inl rfl
      · refine .inr ⟨_,rfl,fun key hkey => ?_⟩
        rw [mem_singleton.mp hkey]
        exact ⟨rfl,rfl,rfl⟩
    · exact .inl rfl

variable {s t : RoomStore} {named : MediaTrackKey→Prop} {subscribed : Bool}

theorem Switches.rooms (h : Switches s t named subscribed) : t.rooms=s.rooms := by
  rcases h with rfl | ⟨keys,rfl,-⟩
  · rfl
  · rfl

/-- A track stays switched off unless it is named by a call that switches tracks on. -/
theorem Switches.mem_mediaUnsubscribed (h : Switches s t named subscribed) {key : MediaTrackKey}
    (hkey : subscribed → ¬named key) (hmem : key∈s.mediaUnsubscribed) :
    key∈t.mediaUnsubscribed := by
  rcases h with rfl | ⟨keys,rfl,hn⟩
  · exact hmem
  · cases subscribed with
    | true => exact mem_sdiff.mpr ⟨hmem,fun hin => hkey rfl (hn key hin)⟩
    | false => exact mem_union_left keys hmem

/-- The calls on a room store. The clock of a call is part of it. -/
inductive RoomOperation
  | createRoom (request : CreateRoomRequest) (now : ℤ)
  | storeRoomWithInternal (room : Room) (now : ℤ)
  | updateRoomMetadata (room metadata : String)
  | deleteRoom (room : String)
  | cleanupExpiredEmptyRooms (defaultEmptyAgeMs now : ℤ)
  | joinParticipantWithPermission (request : JoinRequest) (now : ℤ)
  | removeParticipantWithReason (room identity : String) (reason : ℕ) (now : ℤ)
  | moveParticipant (room identity destination : String) (now : ℤ)
  | getParticipant (room identity : String)
  | setParticipantKind (room identity : String) (kind : ℕ) (kindDetails : List ℕ)
  | addParticipantTrack (room identity : String) (track : TrackInfo)
  | setParticipantTrackMimeType (room identity trackSid mimeType : String)
  | setParticipantTrackMid (room identity trackSid mid : String)
  | setParticipantTrackSdpCid (room identity trackSid sdpCid : String)
  | setParticipantTrackMuted (room identity trackSid : String) (muted : Bool)
  | removeParticipantTrack (room identity trackSid : String)
  | addParticipantDataTrack (room identity : String) (dataTrack : DataTrackInfo)
  | removeParticipantDataTrack (room identity : String) (pubHandle : ℕ)
  | updateParticipant (room identity : String) (update : ParticipantUpdate)
  | setMediaTrackSubscribed (key : MediaTrackKey) (subscribed : Bool)
  | setMediaTrackSubscribedByTrackSid (room subscriber trackSid : String) (subscribed : Bool)
  | setMediaTrackSubscribedByPublisherSid (room publisherSid trackSid subscriber : String)
      (subscribed : Bool) (first : FirstFound)

def apply (s : RoomStore) : RoomOperation → RoomStore
  | .createRoom request now => (s.createRoom request now).2
  | .storeRoomWithInternal room now => (s.storeRoomWithInternal room now).2
  | .updateRoomMetadata room metadata => (s.updateRoomMetadata room metadata).2
  | .deleteRoom room => (s.deleteRoom room).2
  | .cleanupExpiredEmptyRooms defaultEmptyAgeMs now =>
    s.cleanupExpiredEmptyRooms defaultEmptyAgeMs now
  | .joinParticipantWithPermission request now => (s.joinParticipantWithPermission request now).2
  | .removeParticipantWithReason room identity reason now =>
    (s.removeParticipantWithReason room identity reason now).2
  | .moveParticipant room identity destination now =>
    (s.moveParticipant room identity destination now).2
  | .getParticipant _ _ => s
  | .setParticipantKind room identity kind kindDetails =>
    (s.setParticipantKind room identity kind kindDetails).2
  | .addParticipantTrack room identity track => (s.addParticipantTrack room identity track).2
  | .setParticipantTrackMimeType room identity trackSid mimeType =>
    (s.setParticipantTrackMimeType room identity trackSid mimeType).2
  | .setParticipantTrackMid room identity trackSid mid =>
    (s.setParticipantTrackMid room identity trackSid mid).2
  | .setParticipantTrackSdpCid room identity trackSid sdpCid =>
    (s.setParticipantTrackSdpCid room identity trackSid sdpCid).2
  | .setParticipantTrackMuted room identity trackSid muted =>
    (s.setParticipantTrackMuted room identity trackSid muted).2
  | .removeParticipantTrack room identity trackSid =>
    (s.removeParticipantTrack room identity trackSid).2
  | .addParticipantDataTrack room identity dataTrack =>
    (s.addParticipantDataTrack room identity dataTrack).2
  | .removeParticipantDataTrack room identity pubHandle =>
    (s.removeParticipantDataTrack room identity pubHandle).2
  | .updateParticipant room identity update => (s.updateParticipant room identity update).2
  | .setMediaTrackSubscribed key subscribed => (s.setMediaTrackSubscribed key subscribed).2
  | .setMediaTrackSubscribedByTrackSid room subscriber trackSid subscribed =>
    (s.setMediaTrackSubscribedByTrackSid room subscriber trackSid subscribed).2
  | .setMediaTrackSubscribedByPublisherSid room publisherSid trackSid subscriber subscribed first =>
    (s.setMediaTrackSubscribedByPublisherSid room publisherSid trackSid subscriber subscribed
      first).2

def storeAfter (defaults : RoomDefaults) (operations : List RoomOperation) : RoomStore :=
  operations.foldl apply (.withDefaults defaults)

theorem storeAfter_concat (defaults : RoomDefaults) (ops : List RoomOperation)
    (op : RoomOperation) :
    storeAfter defaults (ops++[op])=(storeAfter defaults ops).apply op := by
  rw [storeAfter,List.foldl_append]
  rfl

end RoomStore

end OxideSfu.Rooms
