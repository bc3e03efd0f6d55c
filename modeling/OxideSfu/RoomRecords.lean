import OxideSfu.RoomParticipants
import OxideSfu.RoomTables

/-!
# What a call does to the record of a room

Everything that a call on the store can do to the record kept under one name, said once for all
calls but the direct storing of room infos. What holds of every record in every run is then
shown for these few kinds of change.
-/

namespace OxideSfu.Rooms

open FiniteMaps RoomStore FiniteMap

def RoomStore.RoomOperation.clock : RoomOperation→Option ℤ
  | .createRoom _ now => some now | .storeRoomWithInternal _ now => some now
  | .cleanupExpiredEmptyRooms _ now => some now | .joinParticipantWithPermission _ now => some now
  | .removeParticipantWithReason _ _ _ now => some now | .moveParticipant _ _ _ now => some now
  | _ => none

def RoomCall.clock : RoomCall→Option ℤ
  | .operation call => call.clock | .createAgentDispatch _ now => some now
  | .deleteAgentDispatch _ _ now => some now | .tryLockRoom _ _ now => some now | _ => none

def RoomCall.storesRoomInfo : RoomCall→Bool
  | .operation (.storeRoomWithInternal _ _) => true | _ => false

def RoomCall.MovesInto (call : RoomCall) (name identity : String) : Prop :=
  ∃room now,room≠name ∧ call = .operation (.moveParticipant room identity name now)

inductive RecordStep (call : RoomCall) (name : String) :
    Option RoomRecord→Option RoomRecord→Prop
  | same (record : Option RoomRecord) : RecordStep call name record record
  | created {room : Room} {now : ℤ} (dispatches : List AgentDispatch)
      (hcount : room.numParticipants=0) (hnow : call.clock=some now) :
      RecordStep call name none (some (emptyRecord room dispatches now))
  | deleted (record : RoomRecord) : RecordStep call name (some record) none
  | relabelled (record : RoomRecord) (metadata : String) (dispatches : List AgentDispatch) :
      RecordStep call name (some record) (some {record with
        room := {record.room with metadata},agentDispatches := dispatches})
  | edited {record : RoomRecord} {identity : String} {participant edited : ParticipantInfo}
      (hparticipant : record.participants.lookup identity=some participant)
      (hsame : SameSession participant edited) :
      RecordStep call name (some record) (some {record with
        participants := record.participants.insert identity edited})
  | updated {record : RoomRecord} {identity : String} {participant updated : ParticipantInfo}
      (hparticipant : record.participants.lookup identity=some participant) :
      RecordStep call name (some record)
        (some (updatedRecord record identity participant updated))
  | founded {room : Room} {now : ℤ} (participant : ParticipantInfo)
      (hrefused : joinRefused (emptyRecord room [] now) participant.identity=false) :
      RecordStep call name none (some (admitParticipant (emptyRecord room [] now) participant))
  | joined {record : RoomRecord} (participant : ParticipantInfo)
      (hrefused : joinRefused record participant.identity=false) :
      RecordStep call name (some record) (some (admitParticipant record participant))
  | dismissed {record : RoomRecord} {identity : String} {now : ℤ} (last : ParticipantInfo)
      (hidentity : identity∈record.participants.keys) (hnow : call.clock=some now) :
      RecordStep call name (some record) (some (dismissParticipant record identity last now))
  | movedOut {record : RoomRecord} {identity : String} {now : ℤ}
      (hidentity : identity∈record.participants.keys) (hnow : call.clock=some now) :
      RecordStep call name (some record) (some (moveOut record identity now))
  | movedIn (record : RoomRecord) {identity : String} (moved : ParticipantInfo)
      (hcall : call.MovesInto name identity) :
      RecordStep call name (some record) (some (moveIn record identity moved))
  | movedWithin {record : RoomRecord} {identity : String} {now : ℤ} (moved : ParticipantInfo)
      (hidentity : identity∈record.participants.keys) :
      RecordStep call name (some record)
        (some (moveIn (moveOut record identity now) identity moved))

variable {s t : RoomStore} {call : RoomCall}

theorem RecordStep.of_rooms (hr : t.rooms=s.rooms) (name : String) :
    RecordStep call name (s.rooms.lookup name) (t.rooms.lookup name) := by
  rw [hr]
  exact .same _

theorem RecordStep.of_insert {room : String} {r : RoomRecord} (hr : t.rooms=s.rooms.insert room r)
    (hs : RecordStep call room (s.rooms.lookup room) (some r)) (name : String) :
    RecordStep call name (s.rooms.lookup name) (t.rooms.lookup name) := by
  rw [hr,lookup_insert]
  split_ifs with hn
  · rw [hn]
    exact hs
  · exact .same _

theorem recordStep_editParticipant (room i : String)
    {edit : ParticipantInfo→Except RoomStoreError ParticipantInfo}
    (hed : ∀p d,edit p = .ok d → SameSession p d) (name : String) :
    RecordStep call name (s.rooms.lookup name)
      ((s.editParticipant room i edit).2.rooms.lookup name) := by
  obtain ⟨e,heq⟩ | ⟨r,p,d,hr,hp,he,heq⟩ := s.editParticipant_cases room i edit
  · rw [heq]
    exact .same _
  · rw [heq]
    refine .of_insert rfl ?_ name
    rw [hr]
    exact .edited hp (hed p d he)

theorem recordStep_updateParticipant (room i : String) (u : ParticipantUpdate) (name : String) :
    RecordStep call name (s.rooms.lookup name)
      ((s.updateParticipant room i u).2.rooms.lookup name) := by
  obtain ⟨e,heq⟩ | ⟨r,p,hr,hp,heq⟩ := s.updateParticipant_cases room i u
  · rw [heq]
    exact .same _
  · rw [heq]
    have hs : RecordStep call name (s.rooms.lookup name)
        ((s.setRoom room (updatedRecord r i p (updatedParticipant p u))).rooms.lookup name) := by
      refine .of_insert rfl ?_ name
      rw [hr]
      exact .updated hp
    split_ifs
    · exact hs
    · exact hs

variable {now : ℤ}

theorem recordStep_removeParticipantWithReason (hnow : call.clock=some now)
    (room i : String) (re : ℕ) (name : String) :
    RecordStep call name (s.rooms.lookup name)
      ((s.removeParticipantWithReason room i re now).2.rooms.lookup name) := by
  obtain ⟨e,heq⟩ | ⟨r,p,hr,hp,heq⟩ := s.removeParticipantWithReason_cases room i re now
  · rw [heq]
    exact .same _
  · rw [heq]
    refine .of_insert rfl ?_ name
    rw [hr]
    exact .dismissed _ (mem_keys_of_lookup hp) hnow

theorem recordStep_joinParticipantWithPermission {r : JoinRequest} (hnow : call.clock=some now)
    (name : String) :
    RecordStep call name (s.rooms.lookup name)
      ((s.joinParticipantWithPermission r now).2.rooms.lookup name) := by
  cases hr : s.rooms.lookup r.room with
  | some rc =>
    rw [joinParticipantWithPermission,ensureRoom_of_lookup hr]
    dsimp only
    split_ifs with hre
    · exact .same _
    · refine .of_insert rfl ?_ name
      rw [hr]
      exact .joined _ (Bool.eq_false_iff.mpr hre)
  | none =>
    rw [joinParticipantWithPermission,ensureRoom,hr]
    dsimp only
    split_ifs with hre
    · refine .of_insert rfl ?_ name
      rw [hr]
      exact .created [] rfl hnow
    · -- The new room is stored first and then replaced by the room with its participant.
      change RecordStep call name _ (((s.rooms.insert r.room _).insert r.room _).lookup name)
      rw [lookup_insert,lookup_insert]
      split_ifs with hn
      · rw [hn,hr]
        exact .founded _ (Bool.eq_false_iff.mpr hre)
      · exact .same _

theorem recordStep_moveParticipant {room i d : String}
    (hc : call = .operation (.moveParticipant room i d now)) (name : String) :
    RecordStep call name (s.rooms.lookup name)
      ((s.moveParticipant room i d now).2.rooms.lookup name) := by
  have hnow : call.clock=some now := by
    rw [hc]
    rfl
  obtain ⟨e,heq⟩ |
    ⟨source,participant,record,hs,hp,-,hr,heq⟩ :=
    s.moveParticipant_cases room i d now
  · rw [heq]
    exact .same _
  · have hi := mem_keys_of_lookup hp
    rw [heq]
    change RecordStep call name _
      (((s.rooms.insert room (moveOut source i now)).insert d _).lookup name)
    change (s.rooms.insert room (moveOut source i now)).lookup d=_ at hr
    rw [lookup_insert] at hr
    rw [lookup_insert,lookup_insert]
    by_cases hd : d=room
    · rw [if_pos hd] at hr
      obtain rfl := Option.some.inj hr
      subst hd
      split_ifs with hn
      · rw [hn,hs]
        exact .movedWithin _ hi
      · exact .same _
    · rw [if_neg hd] at hr
      split_ifs with hn hroom
      · rw [hn,hr]
        exact .movedIn record _ ⟨room,now,fun h => hd h.symm,hc⟩
      · rw [hroom,hs]
        exact .movedOut hi hnow
      · exact .same _

theorem recordStep_createRoom {r : CreateRoomRequest} (hnow : call.clock=some now) (name : String) :
    RecordStep call name (s.rooms.lookup name) ((s.createRoom r now).2.rooms.lookup name) := by
  cases hr : s.rooms.lookup r.name with
  | some rc =>
    rw [createRoom,hr]
    exact .same _
  | none =>
    rw [createRoom,hr]
    refine .of_insert rfl ?_ name
    rw [hr]
    exact .created _ rfl hnow

theorem recordStep_updateRoomMetadata (room m name : String) :
    RecordStep call name (s.rooms.lookup name)
      ((s.updateRoomMetadata room m).2.rooms.lookup name) := by
  cases hr : s.rooms.lookup room with
  | none =>
    rw [updateRoomMetadata,hr]
    exact .same _
  | some r =>
    rw [updateRoomMetadata,hr]
    refine .of_insert rfl ?_ name
    rw [hr]
    exact .relabelled r m r.agentDispatches

theorem recordStep_deleteRoom (room name : String) :
    RecordStep call name (s.rooms.lookup name) ((s.deleteRoom room).2.rooms.lookup name) := by
  cases hr : s.rooms.lookup room with
  | none =>
    rw [deleteRoom,hr]
    exact .same _
  | some r =>
    rw [deleteRoom,hr]
    change RecordStep call name _ ((s.rooms.erase room).lookup name)
    rw [lookup_erase]
    split_ifs with hn
    · rw [hn,hr]
      exact .deleted r
    · exact .same _

theorem recordStep_cleanupExpiredEmptyRooms (ms now : ℤ) (name : String) :
    RecordStep call name (s.rooms.lookup name)
      ((s.cleanupExpiredEmptyRooms ms now).rooms.lookup name) := by
  change RecordStep call name _ ((s.rooms.filter _).lookup name)
  rw [lookup_filter]
  cases s.rooms.lookup name with
  | none => exact .same _
  | some r =>
    rw [Option.filter_some]
    split_ifs
    · exact .same _
    · exact .deleted r

theorem recordStep_createAgentDispatch (r : CreateAgentDispatchRequest) (now : ℤ) (name : String) :
    RecordStep call name (s.rooms.lookup name)
      ((s.createAgentDispatch r now).2.rooms.lookup name) := by
  rw [createAgentDispatch]
  split_ifs
  · exact .same _
  · exact .same _
  · exact .same _
  · dsimp only
    cases hr : s.rooms.lookup r.room with
    | none => exact .same _
    | some rc =>
      refine .of_insert rfl ?_ name
      rw [hr]
      exact .relabelled rc rc.room.metadata _

theorem recordStep_deleteAgentDispatch (room dispatchId : String) (now : ℤ) (name : String) :
    RecordStep call name (s.rooms.lookup name)
      ((s.deleteAgentDispatch room dispatchId now).2.rooms.lookup name) := by
  rw [deleteAgentDispatch]
  split_ifs
  · exact .same _
  · exact .same _
  · cases hr : s.rooms.lookup room with
    | none => exact .same _
    | some r =>
      dsimp only
      split
      · exact .same _
      · refine .of_insert rfl ?_ name
        rw [hr]
        exact .relabelled r r.room.metadata _

/-- The edits of tracks and kinds leave session and permission alone. -/
theorem recordStep_operation {s : RoomStore} {op : RoomOperation}
    (hca : call = .operation op) (hs : call.storesRoomInfo=false) (name : String) :
    RecordStep call name (s.rooms.lookup name) ((s.apply op).rooms.lookup name) := by
  have hc : call.clock=op.clock := by
    rw [hca]
    rfl
  cases op with
  | createRoom r now => exact recordStep_createRoom hc name
  | storeRoomWithInternal room now =>
    rw [hca] at hs
    cases hs
  | updateRoomMetadata room m => exact recordStep_updateRoomMetadata room m name
  | deleteRoom room => exact recordStep_deleteRoom room name
  | cleanupExpiredEmptyRooms age now => exact recordStep_cleanupExpiredEmptyRooms age now name
  | joinParticipantWithPermission r now =>
    exact recordStep_joinParticipantWithPermission hc name
  | removeParticipantWithReason room i re now =>
    exact recordStep_removeParticipantWithReason hc room i re name
  | moveParticipant room i destination now => exact recordStep_moveParticipant hca name
  | getParticipant room i => exact .same _
  | setParticipantTrackMimeType | setParticipantTrackMid | setParticipantTrackSdpCid
  | setParticipantTrackMuted =>
    exact recordStep_editParticipant _ _ (fun _ _ h => .editTrack h) name
  | removeParticipantTrack room i sid =>
    obtain ⟨e,heq⟩ | ⟨rc,p,d,hr,hp,rfl,heq⟩ := s.removeParticipantTrack_cases room i sid
    · rw [RoomStore.apply,heq]
      exact .same _
    · rw [RoomStore.apply,heq]
      refine .of_insert rfl ?_ name
      rw [hr]
      exact .edited hp ⟨rfl,rfl,rfl⟩
  | updateParticipant room i u =>
    exact recordStep_updateParticipant room i u name
  | setMediaTrackSubscribed => exact .of_rooms (s.switches_setMediaTrackSubscribed ..).rooms name
  | setMediaTrackSubscribedByTrackSid =>
    exact .of_rooms (s.switches_setMediaTrackSubscribedByTrackSid ..).rooms name
  | setMediaTrackSubscribedByPublisherSid =>
    exact .of_rooms (s.switches_setMediaTrackSubscribedByPublisherSid ..).rooms name
  | _ =>
    refine recordStep_editParticipant _ _ (fun p d he => ?_) name
    rw [← Except.ok.inj he]
    exact ⟨rfl,rfl,rfl⟩

theorem recordStep_apply (s : RoomStoreInner) (hs : call.storesRoomInfo=false) (name : String) :
    RecordStep call name (s.store.rooms.lookup name) ((s.apply call).store.rooms.lookup name) := by
  cases call with
  | operation op => exact recordStep_operation rfl hs name
  | createAgentDispatch r now => exact recordStep_createAgentDispatch r now name
  | deleteAgentDispatch room dispatchId now =>
    exact recordStep_deleteAgentDispatch room dispatchId now name
  | storeAgentDispatchRecord | deleteAgentDispatchRecord =>
    simp only [RoomStoreInner.apply,RoomStoreInner.storeAgentDispatchRecord,
      RoomStoreInner.deleteAgentDispatchRecord]
    split_ifs <;> exact .same _
  | storeAgentJobRecord | deleteAgentJobRecord =>
    simp only [RoomStoreInner.apply,RoomStoreInner.storeAgentJobRecord,
      RoomStoreInner.deleteAgentJobRecord]
    split
    · exact .same _
    · split_ifs <;> exact .same _
  | tryLockRoom room ms now =>
    rw [RoomStoreInner.apply]
    split
    · exact .same _
    · rw [RoomStoreInner.tryLockRoom]
      split_ifs <;> exact .same _
  | unlockRoom room token =>
    rw [RoomStoreInner.apply,RoomStoreInner.unlockRoom]
    split_ifs <;> exact .same _

end OxideSfu.Rooms
