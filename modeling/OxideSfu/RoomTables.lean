import OxideSfu.RoomStore

/-!
# Agents and locks in the room store

The tables beside the rooms (`oxidesfu-room/src/store.rs`, `room.rs`): the agent dispatches of a
room, the dispatch and job records, which are kept by room name whether there is such a room or not,
and the locks on room names.
-/

namespace OxideSfu.Rooms

open FiniteMaps RoomStore

/-- A job of an agent. Of its participant the store keeps the identity only. -/
structure AgentJob where
  (id dispatchId : String)
  roomName : Option String := none
  participantIdentity : Option String := none

structure AgentDispatchState where
  createdAt : ℤ := 0
  deletedAt : ℤ := 0
  jobs : Multiset AgentJob := 0

structure AgentDispatchInfo where
  (id room : String)
  request : RoomAgentDispatch
  state : Option AgentDispatchState

structure CreateAgentDispatchRequest where
  room : String
  agent : RoomAgentDispatch

def maxAgentDispatchMetadataBytes : ℕ := 512*1024

def maxAgentDispatchAttributesBytes : ℕ := 64*1024

def AgentDispatch.info (dispatch : AgentDispatch) : AgentDispatchInfo where
  id := dispatch.id
  room := dispatch.room
  request := dispatch.request
  state := some {createdAt := dispatch.createdAt}

namespace RoomStore

def createAgentDispatch (s : RoomStore) (request : CreateAgentDispatchRequest) (now : ℤ) :
    Except RoomStoreError AgentDispatchInfo × RoomStore :=
  if request.room = "" then (.error (.invalidArgument "room name cannot be empty"),s)
  else if request.agent.metadata.utf8ByteSize > maxAgentDispatchMetadataBytes then
    (.error (.invalidArgument "metadata exceeds 512KiB limit"),s)
  else if attributesSize request.agent.attributes > maxAgentDispatchAttributesBytes then
    (.error (.invalidArgument "attributes exceed 64KiB limit"),s)
  else
    -- The number is used up before the room is looked for.
    let id := saturatingSucc 64 s.nextAgentDispatchId
    let s := {s with nextAgentDispatchId := id}
    let dispatch : AgentDispatch := ⟨"AD_" ++ hex16 id,request.room,now,request.agent⟩
    match s.rooms.lookup request.room with
    | none => (.error .roomNotFound,s)
    | some record =>
      (.ok dispatch.info,s.setRoom request.room
        {record with agentDispatches := record.agentDispatches++[dispatch]})

def deleteAgentDispatch (s : RoomStore) (room dispatchId : String) (now : ℤ) :
    Except RoomStoreError AgentDispatchInfo × RoomStore :=
  if room = "" then (.error (.invalidArgument "room name cannot be empty"),s)
  else if dispatchId = "" then (.error (.invalidArgument "dispatch id cannot be empty"),s)
  else
    match s.rooms.lookup room with
    | none => (.error .roomNotFound,s)
    | some record =>
      match record.agentDispatches.find? (·.id=dispatchId) with
      | none => (.error .agentDispatchNotFound,s)
      | some dispatch =>
        (.ok {dispatch.info with state := some {createdAt := dispatch.createdAt,deletedAt := now}},
          s.setRoom room {record with
            agentDispatches :=
              record.agentDispatches.eraseP (·.id=dispatchId)})

end RoomStore

structure RoomStoreInner where
  store : RoomStore
  nextRoomLockTokenId : ℕ
  storedAgentDispatchesByRoom : FiniteMap String (FiniteMap String AgentDispatchInfo)
  storedAgentJobsByRoom : FiniteMap String (FiniteMap String AgentJob)

/-- An entry of the map that is kept for a name; the map is made when it is missing. -/
def insertUnder {β : Type} (m : FiniteMap String (FiniteMap String β)) (name id : String)
    (value : β) : FiniteMap String (FiniteMap String β) :=
  m.insert name (((m.lookup name).getD .empty).insert id value)

/-- The entry is taken out, and a map that is empty then goes as well. -/
def eraseUnder {β : Type} (m : FiniteMap String (FiniteMap String β)) (name id : String) :
    FiniteMap String (FiniteMap String β) :=
  match m.lookup name with
  | none => m
  | some byId =>
    if (byId.erase id).keys=∅ then m.erase name else m.insert name (byId.erase id)

namespace RoomStoreInner

def withDefaults (defaults : RoomDefaults) : RoomStoreInner :=
  ⟨.withDefaults defaults,0,.empty,.empty⟩

def withStore (s : RoomStoreInner) (store : RoomStore) : RoomStoreInner := {s with store}

/-- The jobs of the record are not stored with it. -/
def storeAgentDispatchRecord (s : RoomStoreInner) (dispatch : AgentDispatchInfo) :
    Except RoomStoreError Unit × RoomStoreInner :=
  if dispatch.room = "" then (.error (.invalidArgument "dispatch room cannot be empty"),s)
  else if dispatch.id = "" then (.error (.invalidArgument "dispatch id cannot be empty"),s)
  else
    let stored := {dispatch with state := dispatch.state.map (fun state =>
      {state with jobs := 0})}
    (.ok (),{s with
      storedAgentDispatchesByRoom :=
        insertUnder s.storedAgentDispatchesByRoom dispatch.room dispatch.id stored})

def deleteAgentDispatchRecord (s : RoomStoreInner) (room dispatchId : String) :
    Except RoomStoreError Unit × RoomStoreInner :=
  if room = "" then (.error (.invalidArgument "dispatch room cannot be empty"),s)
  else if dispatchId = "" then (.error (.invalidArgument "dispatch id cannot be empty"),s)
  else
    (.ok (),{s with
      storedAgentDispatchesByRoom :=
        eraseUnder s.storedAgentDispatchesByRoom room dispatchId})

def jobRoomName (job : AgentJob) : Option String :=
  match job.roomName with
  | none => none
  | some name => if trim name = "" then none else some (trim name)

def storeAgentJobRecord (s : RoomStoreInner) (job : AgentJob) :
    Except RoomStoreError Unit × RoomStoreInner :=
  match jobRoomName job with
  | none => (.error (.invalidArgument "job room cannot be empty"),s)
  | some name =>
    if job.id = "" then (.error (.invalidArgument "job id cannot be empty"),s)
    else
      (.ok (),{s with
        storedAgentJobsByRoom :=
          insertUnder s.storedAgentJobsByRoom name job.id {job with roomName := none}})

def deleteAgentJobRecord (s : RoomStoreInner) (job : AgentJob) :
    Except RoomStoreError Unit × RoomStoreInner :=
  match jobRoomName job with
  | none => (.error (.invalidArgument "job room cannot be empty"),s)
  | some name =>
    if job.id = "" then (.error (.invalidArgument "job id cannot be empty"),s)
    else
      (.ok (),{s with storedAgentJobsByRoom := eraseUnder s.storedAgentJobsByRoom name job.id})

def maxUnixMs : ℤ := 2^63-1

/-- What `lock_room` refuses before it looks at the table. -/
def lockRoomRefusal (room : String) (lockIntervalMs : ℕ) : Option RoomStoreError :=
  if room = "" then some (.invalidArgument "room name cannot be empty")
  else if lockIntervalMs=0 then
    some (.invalidArgument "lock interval must be greater than zero")
  else none

def lockAvailable (s : RoomStoreInner) (room : String) (now : ℤ) : Bool :=
  match s.store.roomLocks.lookup room with
  | some lock => lock.expiresAt≤now | none => true

def nextLock (s : RoomStoreInner) (lockIntervalMs : ℕ) (now : ℤ) : RoomLockState where
  token := "rl_" ++ hex16 (saturatingSucc 64 s.nextRoomLockTokenId)
  expiresAt := min (now+min (lockIntervalMs : ℤ) maxUnixMs) maxUnixMs

/-- One turn of the loop of `lock_room` for a time that was read before it. -/
def tryLockRoom (s : RoomStoreInner) (room : String) (lockIntervalMs : ℕ) (now : ℤ) :
    Option String × RoomStoreInner :=
  if s.lockAvailable room now then
    let lock := s.nextLock lockIntervalMs now
    (some lock.token,{s with
      nextRoomLockTokenId := saturatingSucc 64 s.nextRoomLockTokenId
      store := {s.store with roomLocks := s.store.roomLocks.insert room lock}})
  else (none,s)

def holdsToken (s : RoomStoreInner) (room token : String) : Bool :=
  (s.store.roomLocks.lookup room).any (·.token=token)

def unlockRoom (s : RoomStoreInner) (room token : String) :
    Except RoomStoreError Unit × RoomStoreInner :=
  if room = "" then (.error (.invalidArgument "room name cannot be empty"),s)
  else if token = "" then (.error (.invalidArgument "lock token cannot be empty"),s)
  else if s.holdsToken room token then
    (.ok (),{s with store := {s.store with roomLocks := s.store.roomLocks.erase room}})
  else (.ok (),s)

end RoomStoreInner

/-- The calls on the store that may change something kept by room. A call of `lock_room` is one
turn of its loop here. -/
inductive RoomCall
  | operation (operation : RoomStore.RoomOperation)
  | createAgentDispatch (request : CreateAgentDispatchRequest) (now : ℤ)
  | deleteAgentDispatch (room dispatchId : String) (now : ℤ)
  | storeAgentDispatchRecord (dispatch : AgentDispatchInfo)
  | deleteAgentDispatchRecord (room dispatchId : String)
  | storeAgentJobRecord (job : AgentJob)
  | deleteAgentJobRecord (job : AgentJob)
  | tryLockRoom (room : String) (lockIntervalMs : ℕ) (now : ℤ)
  | unlockRoom (room token : String)

namespace RoomStoreInner

def apply (s : RoomStoreInner) : RoomCall → RoomStoreInner
  | .operation operation => s.withStore (s.store.apply operation)
  | .createAgentDispatch request now => s.withStore (s.store.createAgentDispatch request now).2
  | .deleteAgentDispatch room dispatchId now =>
    s.withStore (s.store.deleteAgentDispatch room dispatchId now).2
  | .storeAgentDispatchRecord dispatch => (s.storeAgentDispatchRecord dispatch).2
  | .deleteAgentDispatchRecord room dispatchId => (s.deleteAgentDispatchRecord room dispatchId).2
  | .storeAgentJobRecord job => (s.storeAgentJobRecord job).2
  | .deleteAgentJobRecord job => (s.deleteAgentJobRecord job).2
  | .tryLockRoom room lockIntervalMs now =>
    match lockRoomRefusal room lockIntervalMs with
    | some _ => s | none => (s.tryLockRoom room lockIntervalMs now).2
  | .unlockRoom room token => (s.unlockRoom room token).2

def after (defaults : RoomDefaults) (calls : List RoomCall) : RoomStoreInner :=
  calls.foldl apply (.withDefaults defaults)

@[simp] theorem after_concat (defaults : RoomDefaults) (calls : List RoomCall) (call : RoomCall) :
    after defaults (calls++[call])=(after defaults calls).apply call := by
  rw [after,List.foldl_append]
  rfl

end RoomStoreInner

end OxideSfu.Rooms
