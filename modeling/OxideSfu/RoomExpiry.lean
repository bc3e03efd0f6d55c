import OxideSfu.RoomOccupancy

/-!
# Rooms that expire and rooms that are deleted

A deletion also takes the lock of the room and the tracks that were switched off in it; the cleanup
takes the room alone, and neither takes the agent records kept under the name. Both leave no trace
exactly when there is nothing beside the room itself.
-/

namespace OxideSfu.Rooms

open FiniteMaps RoomStore RoomStoreInner FiniteMap Finset

/-- Everything that the store keeps under the name of a room. -/
@[ext] structure TablesOfRoom where
  record : Option RoomRecord
  lock : Option RoomLockState
  switchedOff : Finset MediaTrackKey
  dispatchRecords : Option (FiniteMap String AgentDispatchInfo)
  jobRecords : Option (FiniteMap String AgentJob)

namespace RoomStoreInner

def tablesOf (s : RoomStoreInner) (name : String) : TablesOfRoom where
  record := s.store.rooms.lookup name
  lock := s.store.roomLocks.lookup name
  switchedOff := s.store.mediaUnsubscribed.filter (·.room=name)
  dispatchRecords := s.storedAgentDispatchesByRoom.lookup name
  jobRecords := s.storedAgentJobsByRoom.lookup name

/-- The store as it would be had nobody ever used the name, with the same counters. -/
def without (s : RoomStoreInner) (name : String) : RoomStoreInner :=
  {s with
    store := {s.store with
      rooms := s.store.rooms.erase name,roomLocks := s.store.roomLocks.erase name
      mediaUnsubscribed := s.store.mediaUnsubscribed.filter (·.room≠name)}
    storedAgentDispatchesByRoom := s.storedAgentDispatchesByRoom.erase name
    storedAgentJobsByRoom := s.storedAgentJobsByRoom.erase name}

/-- Nothing is kept under the name but the room. -/
def nothingBeside (s : RoomStoreInner) (name : String) : Bool :=
  (s.store.roomLocks.lookup name).isNone &&
    (∀key∈s.store.mediaUnsubscribed,key.room≠name) &&
    (s.storedAgentDispatchesByRoom.lookup name).isNone &&
    (s.storedAgentJobsByRoom.lookup name).isNone

variable {s : RoomStoreInner} {name : String}

theorem nothingBeside_iff :
    s.nothingBeside name ↔
      s.store.roomLocks.lookup name=none ∧
        (∀key∈s.store.mediaUnsubscribed,key.room≠name) ∧
        s.storedAgentDispatchesByRoom.lookup name=none ∧
        s.storedAgentJobsByRoom.lookup name=none := by
  simp only [nothingBeside,Bool.and_eq_true,Option.isNone_iff_eq_none,decide_eq_true_eq,and_assoc]

theorem without_eq_self_iff :
    s.without name=s ↔ s.store.rooms.lookup name=none ∧ s.nothingBeside name := by
  rw [nothingBeside_iff]
  constructor
  · intro h
    have hs := congrArg store h
    refine ⟨?_,?_,?_,?_,?_⟩
    · rw [← congrArg rooms hs]
      simp [without]
    · rw [← congrArg roomLocks hs]
      simp [without]
    · intro key hkey
      rw [← congrArg mediaUnsubscribed hs] at hkey
      exact (mem_filter.mp hkey).2
    · rw [← congrArg storedAgentDispatchesByRoom h]
      simp [without]
    · rw [← congrArg storedAgentJobsByRoom h]
      simp [without]
  · rintro ⟨hr,hl,hk,hd,hj⟩
    rw [without,erase_of_lookup_eq_none hr,
      erase_of_lookup_eq_none hl,filter_true_of_mem hk,
      erase_of_lookup_eq_none hd,erase_of_lookup_eq_none hj]

def cleanedUp (s : RoomStoreInner) (defaultEmptyAgeMs now : ℤ) : RoomStoreInner :=
  s.apply (.operation (.cleanupExpiredEmptyRooms defaultEmptyAgeMs now))

def deleted (s : RoomStoreInner) (name : String) : RoomStoreInner :=
  s.apply (.operation (.deleteRoom name))

variable {r : RoomRecord} {age now : ℤ}

theorem tablesOf_cleanedUp (hr : s.store.rooms.lookup name=some r) (he : keepRoom age now r=false) :
    (s.cleanedUp age now).tablesOf name={s.tablesOf name with record := none} := by
  have hg : (s.cleanedUp age now).store.rooms.lookup name=none := by
    change (s.store.rooms.filter _).lookup name=none
    rw [lookup_filter,hr,Option.filter_some,he]
    rfl
  rw [tablesOf,hg]
  rfl

theorem tablesOf_deleted (hr : s.store.rooms.lookup name=some r) :
    (s.deleted name).tablesOf name =
      {s.tablesOf name with record := none,lock := none,switchedOff := ∅} := by
  have hs : (s.deleted name).store=({s.store with
      rooms := s.store.rooms.erase name
      roomLocks := s.store.roomLocks.erase name} : RoomStore).retainUnsubscribed
        (·.room≠name) := by
    change (s.store.deleteRoom name).2=_
    rw [deleteRoom,hr]
  have hk : (s.deleted name).store.mediaUnsubscribed.filter (·.room=name)=∅ := by
    rw [hs]
    refine filter_eq_empty_iff.mpr ?_
    intro key hkey
    exact of_decide_eq_true (mem_filter.mp hkey).2
  rw [tablesOf,hk,hs]
  ext1
  · exact (lookup_erase _ _ _).trans (if_pos rfl)
  · exact (lookup_erase _ _ _).trans (if_pos rfl)
  · rfl
  · rfl
  · rfl

theorem nothingBeside_eq_tables :
    s.nothingBeside name ↔
      (s.tablesOf name).lock=none ∧ (s.tablesOf name).switchedOff=∅ ∧
        (s.tablesOf name).dispatchRecords=none ∧ (s.tablesOf name).jobRecords=none := by
  have hk : (∀key∈s.store.mediaUnsubscribed,key.room≠name) ↔
      (s.tablesOf name).switchedOff=∅ := filter_eq_empty_iff.symm
  rw [nothingBeside_iff,hk]
  rfl

end RoomStoreInner

/-- The two ways to remove a room lead to the same tables under its name, and what comes later
under this name finds the store as if there had never been a room. -/
structure ExpiryIsDeletion (s : RoomStoreInner) (name : String) (age now : ℤ) : Prop where
  same : (s.cleanedUp age now).tablesOf name=(s.deleted name).tablesOf name
  expired : (s.cleanedUp age now).without name=s.cleanedUp age now
  deleted : (s.deleted name).without name=s.deleted name

/-- For an expired room of any store: cleanup and deletion come to the same and leave nothing
behind exactly when there is nothing beside the room. -/
theorem expiryIsDeletion_iff (s : RoomStoreInner) (name : String) (record : RoomRecord)
    (age now : ℤ) (hrecord : s.store.rooms.lookup name = some record)
    (hexpired : keepRoom age now record = false) :
    ExpiryIsDeletion s name age now ↔ s.nothingBeside name := by
  have hc := tablesOf_cleanedUp hrecord hexpired
  have hd := tablesOf_deleted hrecord
  constructor
  · intro h
    exact (without_eq_self_iff.mp h.expired).2
  · intro h
    obtain ⟨hl,hk,hdi,hj⟩ := nothingBeside_eq_tables.mp h
    refine ⟨?_,?_,?_⟩
    · rw [hc,hd]
      ext1
      · rfl
      · exact hl
      · exact hk
      · rfl
      · rfl
    · refine without_eq_self_iff.mpr ⟨congrArg TablesOfRoom.record hc,h⟩
    · refine without_eq_self_iff.mpr ⟨congrArg TablesOfRoom.record hd,?_⟩
      refine nothingBeside_eq_tables.mpr ?_
      rw [hd]
      exact ⟨rfl,rfl,hdi,hj⟩

def lonelyHall : List RoomCall := [.operation (.createRoom ⟨"hall",0,0,0,"",[]⟩ 0)]

theorem expiryIsDeletion_lonelyHall :
    ((after {} lonelyHall).store.rooms.lookup "hall").map (keepRoom 0 300000) = some false ∧
      ExpiryIsDeletion (after {} lonelyHall) "hall" 0 300000 := by
  have he : ((after {} lonelyHall).store.rooms.lookup "hall").map (keepRoom 0 300000) =
    some false := by
    decide +kernel
  obtain ⟨record,hr,hk⟩ := Option.map_eq_some_iff.mp he
  refine ⟨he,?_⟩
  exact (expiryIsDeletion_iff _ "hall" record 0 300000 hr hk).mpr (by decide +kernel)

/-- A track is switched off in the hall for Bob, and the hall is locked for a while. -/
def markedHall : List RoomCall :=
  lonelyHall++[.operation (.setMediaTrackSubscribed ⟨"hall","alice","TR_1","bob"⟩ false),
    .tryLockRoom "hall" 1000000 0]

def nextHall : List RoomCall :=
  [.operation (.createRoom ⟨"hall",0,0,0,"",[]⟩ 400000),joinCall "hall" "alice" 400000,
    joinCall "hall" "bob" 400000,
    .operation (.addParticipantTrack "hall" "alice" {sid := "TR_1",type := .video})]

def hallAfterCleanup : RoomStoreInner :=
  nextHall.foldl apply ((after {} markedHall).cleanedUp 0 300000)

def hallAfterDeletion : RoomStoreInner :=
  nextHall.foldl apply ((after {} markedHall).deleted "hall")

/-- After the cleanup Bob may not receive the track in the next hall, and nobody can lock it;
after a deletion both is possible. -/
theorem expiry_is_not_deletion_of_markedHall :
    ((after {} markedHall).store.rooms.lookup "hall").map (keepRoom 0 300000) = some false ∧
      hallAfterCleanup.store.canSubscribeToMediaTrack ⟨"hall", "alice", "TR_1", "bob"⟩ = false ∧
      hallAfterDeletion.store.canSubscribeToMediaTrack ⟨"hall", "alice", "TR_1", "bob"⟩ = true ∧
      hallAfterCleanup.lockAvailable "hall" 400000 = false ∧
      hallAfterDeletion.lockAvailable "hall" 400000 ∧
      ¬ ExpiryIsDeletion (after {} markedHall) "hall" 0 300000 := by
  have hl : (after {} markedHall).nothingBeside "hall" = false := by decide +kernel
  have he : ((after {} markedHall).store.rooms.lookup "hall").map (keepRoom 0 300000) =
    some false := by
    decide +kernel
  refine ⟨he,by decide +kernel,by decide +kernel,by decide +kernel,by decide +kernel,?_⟩
  intro h
  have hn := (without_eq_self_iff.mp h.expired).2
  cases hn

end OxideSfu.Rooms
