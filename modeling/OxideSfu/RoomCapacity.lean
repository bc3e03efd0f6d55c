import OxideSfu.RoomOccupancy

/-!
# How many participants a room takes, and what a move does to them

A join is refused by a full room, a move is not: it checks neither the limit of the destination nor
whether the identity is taken there. A room stays within its limit, and a move takes away nobody
else, in the runs whose moves find a free place.
-/

namespace OxideSfu.Rooms

open FiniteMaps StepRuns RoomStore RoomStoreInner Option Finset

def WithinCapacity (record : RoomRecord) : Prop :=
  0<record.room.maxParticipants →
    record.participants.keys.card≤record.room.maxParticipants

def hasPlaceFor (record : RoomRecord) (identity : String) : Bool :=
  identity∉record.participants.keys && !joinRefused record identity

theorem maxParticipants_afterDeparture (r : RoomRecord) (now : ℤ) :
    (afterDeparture r now).room.maxParticipants=r.room.maxParticipants := by
  rw [afterDeparture]
  split_ifs <;> rfl

theorem maxParticipants_updatedRecord (r : RoomRecord) (i : String) (p updated : ParticipantInfo) :
    (updatedRecord r i p updated).room.maxParticipants=r.room.maxParticipants := by
  rw [updatedRecord]
  split_ifs <;> rfl

theorem withinCapacity_emptyRecord (room : Room) (dispatches : List AgentDispatch) (now : ℤ) :
    WithinCapacity (emptyRecord room dispatches now) := by
  intro _
  simp [emptyRecord,FiniteMap.empty]

variable {record record' : RoomRecord} {i : String}

theorem WithinCapacity.mono (h : WithinCapacity record)
    (hmax : record'.room.maxParticipants=record.room.maxParticipants)
    (hk : record'.participants.keys⊆record.participants.keys) : WithinCapacity record' := by
  intro hpos
  rw [hmax] at hpos ⊢
  exact (card_le_card hk).trans (h hpos)

theorem WithinCapacity.enter (h : WithinCapacity record) (hr : joinRefused record i=false)
    (hmax : record'.room.maxParticipants=record.room.maxParticipants)
    (hk : record'.participants.keys=insert i record.participants.keys) :
    WithinCapacity record' := by
  intro hpos
  rw [hmax] at hpos ⊢
  rw [hk]
  by_cases hi : i∈record.participants.keys
  · rw [insert_eq_of_mem hi]
    exact h hpos
  · have hf : record.participants.keys.card<record.room.maxParticipants := by
      simpa [joinRefused,hpos,hi] using hr
    rw [card_insert_of_notMem hi]
    omega

/-- A call that moves somebody to another room finds a place there. -/
def MovesToPlace (call : RoomCall) (name : String) (before : Option RoomRecord) : Prop :=
  ∀identity,call.MovesInto name identity → ∀record,before=some record →
    hasPlaceFor record identity

theorem RecordStep.withinCapacity {call : RoomCall} {name : String}
    {before after : Option RoomRecord} (hs : RecordStep call name before after)
    (h : ∀record,before=some record → WithinCapacity record) (hm : MovesToPlace call name before)
    (hr : after=some record) :
    WithinCapacity record := by
  cases hs with
  | same => exact h record hr
  | created dispatches hco hnow =>
    rw [← some.inj hr]
    exact withinCapacity_emptyRecord _ dispatches _
  | deleted => cases hr
  | relabelled old metadata dispatches =>
    rw [← some.inj hr]
    exact (h old rfl).mono rfl (Finset.Subset.refl _)
  | edited hp hsame =>
    rw [← some.inj hr]
    refine (h _ rfl).mono rfl ?_
    exact insert_subset (FiniteMap.mem_keys_of_lookup hp) (Finset.Subset.refl _)
  | updated hp =>
    rw [← some.inj hr]
    refine (h _ rfl).mono (maxParticipants_updatedRecord _ _ _ _) ?_
    rw [participants_updatedRecord]
    exact insert_subset (FiniteMap.mem_keys_of_lookup hp) (Finset.Subset.refl _)
  | founded participant hre =>
    rw [← some.inj hr]
    exact (withinCapacity_emptyRecord _ [] _).enter hre rfl rfl
  | joined participant hre =>
    rw [← some.inj hr]
    exact (h _ rfl).enter hre rfl rfl
  | dismissed last hi hnow =>
    rw [← some.inj hr]
    refine (h _ rfl).mono (maxParticipants_afterDeparture _ _) ?_
    rw [dismissParticipant,participants_afterDeparture]
    exact erase_subset _ _
  | movedOut hi hnow =>
    rw [← some.inj hr]
    refine (h _ rfl).mono (maxParticipants_afterDeparture _ _) ?_
    rw [moveOut,participants_afterDeparture]
    exact erase_subset _ _
  | @movedIn old identity moved hc =>
    rw [← some.inj hr]
    have hpl := hm identity hc old rfl
    have hre : joinRefused old identity=false := by
      simpa using (Bool.and_eq_true_iff.mp hpl).2
    exact (h old rfl).enter hre rfl rfl
  | movedWithin moved hi =>
    rw [← some.inj hr]
    refine (h _ rfl).mono (maxParticipants_afterDeparture _ _) ?_
    change insert _ (moveOut _ _ _).participants.keys⊆_
    rw [moveOut,participants_afterDeparture]
    exact insert_subset hi (erase_subset _ _)

/-- A move took a participant out of the one room and put it into the other, where nobody was
under this identity, and everybody else stayed where it was. -/
structure Moved (s t : RoomStore) (room identity destination : String)
    (participant : ParticipantInfo) : Prop where
  was : currentParticipant s room identity=some participant
  arrived : currentParticipant t destination identity=some (newVersion participant)
  left : room≠destination → currentParticipant t room identity=none
  fresh : room≠destination → currentParticipant s destination identity=none
  others : ∀r i,¬(r=room ∧ i=identity) → ¬(r=destination ∧ i=identity) →
    currentParticipant t r i=currentParticipant s r i

def Conserves (s : RoomStore) (room identity destination : String) (now : ℤ) : Prop :=
  (∃error,s.moveParticipant room identity destination now=(.error error,s)) ∨
    ∃participant t,
      s.moveParticipant room identity destination now=(.ok (newVersion participant),t) ∧
        Moved s t room identity destination participant

/-- Where everybody is after a move that succeeded. -/
theorem moveParticipant_spec (s : RoomStore) (room identity d : String) (now : ℤ) :
    (∃e,s.moveParticipant room identity d now=(.error e,s)) ∨
      ∃p t,currentParticipant s room identity=some p ∧
        s.moveParticipant room identity d now=(.ok (newVersion p),t) ∧
        ∀r i,currentParticipant t r i =
          if r=d ∧ i=identity then some (newVersion p)
          else if r=room ∧ i=identity then none
          else currentParticipant s r i := by
  obtain ⟨e,heq⟩ |
    ⟨source,p,record,hs,hp,-,hr,heq⟩ :=
    s.moveParticipant_cases room identity d now
  · exact .inl ⟨e,heq⟩
  · refine .inr ⟨p,_,?_,heq,?_⟩
    · rw [currentParticipant_of_lookup hs,hp]
    · have hout : Replaces s (s.setRoom room (moveOut source identity now)) room identity none := by
        refine replaces_setRoom hs ?_
        intro i
        rw [moveOut,participants_afterDeparture]
        exact FiniteMap.lookup_erase _ _ _
      have hin : Replaces (s.setRoom room (moveOut source identity now))
          ((s.setRoom room (moveOut source identity now)).setRoom d
            (moveIn record identity (newVersion p))) d identity
          (some (newVersion p)) :=
        replaces_setRoom hr (fun i => FiniteMap.lookup_insert _ _ _ _)
      intro r i
      have ha := hin r i
      rw [hout r i] at ha
      exact ha

/-- A move keeps everybody if it stays in the room or nobody is under the identity in the
destination. -/
theorem conserves_of_vacant {s : RoomStore} {room identity d : String}
    (h : room=d ∨ currentParticipant s d identity=none) (now : ℤ) :
    Conserves s room identity d now := by
  obtain ⟨e,heq⟩ | ⟨p,t,hwas,heq,ha⟩ := moveParticipant_spec s room identity d now
  · exact .inl ⟨e,heq⟩
  · refine .inr ⟨p,t,heq,hwas,?_,?_,?_,?_⟩
    · rw [ha,if_pos ⟨rfl,rfl⟩]
    · intro hr
      rw [ha,if_neg (fun hb => hr hb.1),if_pos ⟨rfl,rfl⟩]
    · exact fun hr => h.resolve_left hr
    · intro r i hno hn
      rw [ha,if_neg hn,if_neg hno]

/-- The free place of a move, for a call of the run. -/
def movesToFreePlace (s : RoomStoreInner) : RoomCall→Bool
  | .operation (.moveParticipant room identity destination _) =>
    room=destination ||
      (s.store.rooms.lookup destination).all (fun record => hasPlaceFor record identity)
  | _ => true

variable {defaults : RoomDefaults} {calls : List RoomCall} {call : RoomCall} {s : RoomStoreInner}

theorem movesToPlace_of_movesToFreePlace (h : movesToFreePlace s call) (name : String) :
    MovesToPlace call name (s.store.rooms.lookup name) := by
  rintro i ⟨room,now,hroom,rfl⟩ r hr
  simpa [movesToFreePlace,hroom,hr] using h

theorem conserves_of_movesToFreePlace {room i d : String} {now : ℤ}
    (h : movesToFreePlace s (.operation (.moveParticipant room i d now))) :
    Conserves s.store room i d now := by
  refine conserves_of_vacant ?_ now
  rw [movesToFreePlace,Bool.or_eq_true] at h
  refine h.imp of_decide_eq_true ?_
  intro hp
  cases hr : s.store.rooms.lookup d with
  | none =>
    rw [currentParticipant,hr]
    rfl
  | some r =>
    rw [hr,all_some,hasPlaceFor,Bool.and_eq_true] at hp
    rw [currentParticipant_of_lookup hr,FiniteMap.lookup_eq_none_iff]
    exact of_decide_eq_true hp.1

theorem withinCapacity_after (hs : ∀call∈calls,call.storesRoomInfo=false)
    (hm : AtEveryStep (fun e call =>
      movesToFreePlace (after defaults e) call) calls) {name : String}
    {r : RoomRecord}
    (hr : (after defaults calls).store.rooms.lookup name=some r) :
    WithinCapacity r := by
  induction calls using List.reverseRecOn generalizing r with
  | nil => cases hr
  | append_singleton calls call ih =>
    obtain ⟨he,hl⟩ := (atEveryStep_concat _ calls call).mp hm
    have hb : ∀r,(after defaults calls).store.rooms.lookup name=some r → WithinCapacity r :=
      fun _ => ih (fun c hc => hs c (List.mem_append_left _ hc)) he
    rw [after_concat] at hr
    exact (recordStep_apply (after defaults calls) (hs call (by simp)) name).withinCapacity
      hb (movesToPlace_of_movesToFreePlace hl name) hr

/-- In every run whose moves find a free place, every room is within its limit after it, and
every move on the way kept everybody. -/
theorem capacity_and_conservation (defaults : RoomDefaults) (calls : List RoomCall)
    (hstores : ∀call ∈ calls,call.storesRoomInfo = false)
    (hmoves : AtEveryStep (fun earlier call =>
      movesToFreePlace (after defaults earlier) call) calls) :
    (∀name record,(after defaults calls).store.rooms.lookup name = some record →
      0 < record.room.maxParticipants →
      record.participants.keys.card≤record.room.maxParticipants) ∧
    ∀earlier room identity destination now later,
      calls = earlier ++ .operation (.moveParticipant room identity destination now) :: later →
      Conserves (after defaults earlier).store room identity destination now := by
  refine ⟨?_,?_⟩
  · intro name record hr
    exact withinCapacity_after hstores hmoves hr
  · intro earlier room identity destination now later hc
    exact conserves_of_movesToFreePlace (hmoves earlier _ later hc)

def moveToHallForTwo : List RoomCall :=
  [.operation (.createRoom ⟨"hall",0,0,2,"",[]⟩ 0),joinCall "lobby" "alice" 0,
    joinCall "hall" "bob" 0,.operation (.moveParticipant "lobby" "alice" "hall" 10)]

theorem capacity_and_conservation_moveToHallForTwo :
    (∀name record,(after {} moveToHallForTwo).store.rooms.lookup name = some record →
      0 < record.room.maxParticipants →
      record.participants.keys.card≤record.room.maxParticipants) ∧
    ∀earlier room identity destination now later,
      moveToHallForTwo =
        earlier ++ .operation (.moveParticipant room identity destination now) :: later →
      Conserves (after {} earlier).store room identity destination now :=
  capacity_and_conservation {} moveToHallForTwo (by decide) (by decide +kernel)

/-- A hall for one in which Bob is, and an Alice in each of two lobbies. -/
def twoAlices : List RoomCall :=
  [.operation (.createRoom ⟨"hall",0,0,1,"",[]⟩ 0),joinCall "hall" "bob" 0,
    joinCall "lobby" "alice" 0,joinCall "porch" "alice" 0,
    .operation (.moveParticipant "lobby" "alice" "hall" 10)]

/-- The first Alice is moved into a room that is full, and the second one takes its place. -/
theorem move_overfills_and_replaces :
    ((after {} twoAlices).store.rooms.lookup "hall").map
        (fun record => (record.room.maxParticipants,record.participants.keys.card)) =
      some (1,2) ∧
    (currentParticipant (after {} twoAlices).store "hall" "alice").map (·.sid) =
      some "PA_0000000000000002" ∧
    ((after {} twoAlices).store.moveParticipant "porch" "alice" "hall" 20).1.toOption.map
      (·.sid) = some "PA_0000000000000003" ∧
    ¬ Conserves (after {} twoAlices).store "porch" "alice" "hall" 20 := by
  have hwas : (currentParticipant (after {} twoAlices).store "hall" "alice").map (·.sid) =
      some "PA_0000000000000002" := by
    decide +kernel
  have hm : ((after {} twoAlices).store.moveParticipant "porch" "alice" "hall" 20).1.toOption.map
      (·.sid)=some "PA_0000000000000003" := by
    decide +kernel
  refine ⟨by decide +kernel,hwas,hm,?_⟩
  rintro (⟨error,heq⟩ | ⟨participant,t,heq,h⟩)
  · rw [heq] at hm
    cases hm
  · rw [h.fresh (by decide)] at hwas
    cases hwas

end OxideSfu.Rooms
