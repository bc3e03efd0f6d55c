import OxideSfu.RoomRecords
import OxideSfu.StepRuns

/-!
# Who has been in a room, and since when it is empty

A record notes when it became empty and whether it ever had participants. A room has had a
participant when there was one since it was created, and it is empty since the call after which
nobody was in it. A moved participant enters a room without the room remembering it.
-/

namespace OxideSfu.Rooms

open FiniteMaps StepRuns RoomStore RoomStoreInner FiniteMap Option Finset

def visibleIdentities (record : RoomRecord) : Finset String :=
  record.participants.keys.filter (fun identity =>
    (record.participants.lookup identity).any (fun p => !participantIsHidden p))

theorem visibleParticipantCount_eq (r : RoomRecord) :
    visibleParticipantCount r=min (visibleIdentities r).card (2^32-1) := rfl

variable {record : RoomRecord} {p : ParticipantInfo} {i : String} {d : ParticipantInfo}

theorem visibleIdentities_insert (hp : record.participants.lookup i=some p)
    (hh : participantIsHidden d=participantIsHidden p) :
    visibleIdentities {record with participants := record.participants.insert i d} =
      visibleIdentities record := by
  ext other
  rw [visibleIdentities,visibleIdentities,mem_filter]
  by_cases ho : other=i
  · subst ho
    simp [hp,hh,mem_keys_of_lookup hp]
  · simp [ho]

structure Booked (record : RoomRecord) : Prop where
  counted : record.room.numParticipants=visibleParticipantCount record
  emptySince_iff : record.emptySince.isSome ↔ record.participants.keys=∅

theorem booked_admitParticipant (r : RoomRecord) (p : ParticipantInfo) :
    Booked (admitParticipant r p) where
  counted := rfl
  emptySince_iff := by simp [admitParticipant,countVisible]

theorem booked_moveIn (r : RoomRecord) (i : String) (p : ParticipantInfo) :
    Booked (moveIn r i p) where
  counted := rfl
  emptySince_iff := by simp [moveIn,countVisible]

/-- A room that somebody has left, after it had at least this participant. -/
theorem booked_afterDeparture (hs : record.emptySince=none) (now : ℤ) :
    Booked (afterDeparture record now) := by
  by_cases he : record.participants.keys=∅
  · have ha : afterDeparture record now = {countVisible record with emptySince := some now} :=
      if_pos he
    rw [ha]
    exact ⟨rfl,by simpa [countVisible] using he⟩
  · have ha : afterDeparture record now=countVisible record := if_neg he
    rw [ha]
    exact ⟨rfl,by simp [countVisible,hs,he]⟩

theorem Booked.emptySince_eq_none (h : Booked record)
    (hi : i∈record.participants.keys) : record.emptySince=none := by
  rw [← not_isSome_iff_eq_none,h.emptySince_iff]
  exact ne_empty_of_mem hi

/-- A present participant is replaced, and the visible ones are counted or need not be. -/
theorem Booked.insert (h : Booked record) (hp : record.participants.lookup i=some p)
    (hh : participantIsHidden d=participantIsHidden p) :
    Booked {record with participants := record.participants.insert i d} where
  counted := by
    rw [visibleParticipantCount_eq,visibleIdentities_insert hp hh]
    exact h.counted
  emptySince_iff := by
    have hpr := h.emptySince_eq_none (mem_keys_of_lookup hp)
    simp [hpr]

theorem Booked.updatedRecord (h : Booked record) (hp : record.participants.lookup i=some p)
    (updated : ParticipantInfo) : Booked (updatedRecord record i p updated) := by
  rw [RoomStore.updatedRecord]
  split_ifs with hh
  · have hpr := h.emptySince_eq_none (mem_keys_of_lookup hp)
    exact ⟨rfl,by simp [countVisible,hpr]⟩
  · exact h.insert hp (not_ne_iff.mp hh).symm

theorem RecordStep.booked {call : RoomCall} {name : String} {before after : Option RoomRecord}
    (hst : RecordStep call name before after) (h : ∀record,before=some record → Booked record)
    (hr : after=some record) : Booked record := by
  cases hst with
  | same => exact h record hr
  | created dispatches hc hnow =>
    rw [← some.inj hr]
    exact ⟨hc,by simp [emptyRecord,empty]⟩
  | deleted => cases hr
  | relabelled old metadata dispatches =>
    rw [← some.inj hr]
    exact ⟨(h old rfl).counted,(h old rfl).emptySince_iff⟩
  | edited hp hs =>
    rw [← some.inj hr]
    refine (h _ rfl).insert hp ?_
    rw [participantIsHidden,participantIsHidden,hs.permission]
  | updated hp =>
    rw [← some.inj hr]
    exact (h _ rfl).updatedRecord hp _
  | founded participant hre =>
    rw [← some.inj hr]
    exact booked_admitParticipant _ participant
  | joined participant hre =>
    rw [← some.inj hr]
    exact booked_admitParticipant _ participant
  | dismissed last hi hnow =>
    rw [← some.inj hr]
    refine booked_afterDeparture ?_ _
    exact (h _ rfl).emptySince_eq_none hi
  | movedOut hi hnow =>
    rw [← some.inj hr]
    refine booked_afterDeparture ?_ _
    exact (h _ rfl).emptySince_eq_none hi
  | movedIn old moved hca =>
    rw [← some.inj hr]
    exact booked_moveIn old _ moved
  | movedWithin moved hi =>
    rw [← some.inj hr]
    exact booked_moveIn _ _ moved

variable {time now : ℤ} {call : RoomCall} {name : String} {b : Option RoomRecord} {r : RoomRecord}

variable (r)

theorem hadParticipants_updatedRecord (i : String) (p updated : ParticipantInfo) :
    (updatedRecord r i p updated).hadParticipants=r.hadParticipants := by
  rw [updatedRecord]
  split_ifs <;> rfl

theorem emptySince_updatedRecord (i : String) (p updated : ParticipantInfo) :
    (updatedRecord r i p updated).emptySince=r.emptySince := by
  rw [updatedRecord]
  split_ifs <;> rfl

theorem hadParticipants_afterDeparture (now : ℤ) :
    (afterDeparture r now).hadParticipants=r.hadParticipants := by
  rw [afterDeparture]
  split_ifs <;> rfl

variable {r}

/-- A room that somebody has left is empty from then on, or is not empty. -/
theorem emptySince_afterDeparture (hs : r.emptySince=none)
    (h : (afterDeparture r now).emptySince=some time) : time=now := by
  by_cases he : r.participants.keys=∅
  · have ha : afterDeparture r now={countVisible r with emptySince := some now} := if_pos he
    rw [ha] at h
    exact (some.inj h).symm
  · have ha : afterDeparture r now=countVisible r := if_neg he
    rw [ha] at h
    exact absurd (h.symm.trans hs) (some_ne_none time)

/-- The record of a name before a call, if there was one. Nobody is in a room without it
remembering. -/
structure Remembers (before : Option RoomRecord) : Prop where
  booked : ∀record,before=some record → Booked record
  had : ∀record,before=some record → record.participants.keys.Nonempty →
    record.hadParticipants

/-- A call that moves somebody here finds a room that had participants. -/
def MovesWhereSomebodyWas (call : RoomCall) (name : String) (before : Option RoomRecord) : Prop :=
  ∀identity,call.MovesInto name identity → ∀record,before=some record →
    record.hadParticipants

/-- A record remembers participants if it did before, or if there are some now. -/
theorem RecordStep.hadParticipants_iff (hst : RecordStep call name b (some r))
    (h : Remembers b) (hm : MovesWhereSomebodyWas call name b) :
    r.hadParticipants ↔ (∃old,b=some old ∧ old.hadParticipants) ∨ r.participants.keys.Nonempty := by
  cases hst with
  | same =>
    constructor
    · exact fun hhad => .inl ⟨r,rfl,hhad⟩
    · rintro (⟨old,hold,hhad⟩ | hs)
      · rw [some.inj hold]
        exact hhad
      · exact h.had r rfl hs
  | created dispatches hco hnow => simp [emptyRecord,empty]
  | relabelled old m dispatches =>
    have hhad := h.had old rfl
    simpa using hhad
  | edited hp hsame =>
    have hhad := h.had _ rfl ⟨_,mem_keys_of_lookup hp⟩
    simp [hhad]
  | updated hp =>
    have hhad := h.had _ rfl ⟨_,mem_keys_of_lookup hp⟩
    simp [hadParticipants_updatedRecord,hhad]
  | founded | joined =>
    simp [admitParticipant,countVisible]
  | dismissed last hi hnow =>
    have hhad := h.had _ rfl ⟨_,hi⟩
    simp [dismissParticipant,hadParticipants_afterDeparture,hhad]
  | movedOut hi hnow =>
    have hhad := h.had _ rfl ⟨_,hi⟩
    simp [moveOut,hadParticipants_afterDeparture,hhad]
  | movedIn old moved hc =>
    have hhad := hm _ hc old rfl
    simp [moveIn,countVisible,hhad]
  | movedWithin moved hi =>
    have hhad := h.had _ rfl ⟨_,hi⟩
    simp [moveIn,moveOut,countVisible,hadParticipants_afterDeparture,hhad]

/-- The time in a record was there before, or the call has just emptied the room. -/
theorem RecordStep.emptySince (hst : RecordStep call name b (some r))
    (h : ∀old,b=some old → Booked old) (ht : r.emptySince=some time) :
    (∃old,b=some old ∧ old.emptySince=some time) ∨
      call.clock=some time ∧ ∀old,b=some old → old.participants.keys≠∅ := by
  cases hst with
  | same => exact .inl ⟨r,rfl,ht⟩
  | created dispatches hc hnow =>
    refine .inr ⟨hnow.trans ht,?_⟩
    rintro old ⟨⟩
  | relabelled old m dispatches => exact .inl ⟨old,rfl,ht⟩
  | edited hp hsame => exact .inl ⟨_,rfl,ht⟩
  | updated hp =>
    rw [emptySince_updatedRecord] at ht
    exact .inl ⟨_,rfl,ht⟩
  | founded p hr => cases ht
  | joined p hr => cases ht
  | dismissed last hi hnow =>
    have hs := (h _ rfl).emptySince_eq_none hi
    have heq := emptySince_afterDeparture (by exact hs) ht
    refine .inr ⟨heq ▸ hnow,?_⟩
    intro old hold
    rw [← some.inj hold]
    exact ne_empty_of_mem hi
  | movedOut hi hnow =>
    have hs := (h _ rfl).emptySince_eq_none hi
    have heq := emptySince_afterDeparture (by exact hs) ht
    refine .inr ⟨heq ▸ hnow,?_⟩
    intro old hold
    rw [← some.inj hold]
    exact ne_empty_of_mem hi
  | movedIn old moved hca => cases ht
  | movedWithin moved hi => cases ht

def Occupied (s : RoomStoreInner) (name : String) : Prop :=
  ∃record,s.store.rooms.lookup name=some record ∧ record.participants.keys.Nonempty

def Deserted (s : RoomStoreInner) (name : String) : Prop :=
  ∃record,s.store.rooms.lookup name=some record ∧ record.participants.keys=∅

def HasHadParticipant (defaults : RoomDefaults) (calls : List RoomCall) (name : String) : Prop :=
  Since (fun earlier => name∈(after defaults earlier).store.rooms.keys)
    (fun earlier => Occupied (after defaults earlier) name) calls

def EmptySince (defaults : RoomDefaults) (calls : List RoomCall) (name : String) (time : ℤ) :
    Prop :=
  Since (fun earlier => Deserted (after defaults earlier) name)
    (fun earlier => ∃before call,earlier=before++[call] ∧ call.clock=some time ∧
      ¬ Deserted (after defaults before) name) calls

structure Truthful (defaults : RoomDefaults) (calls : List RoomCall) (name : String)
    (record : RoomRecord) : Prop where
  booked : Booked record
  had_iff : record.hadParticipants ↔ HasHadParticipant defaults calls name
  emptySince : ∀time,record.emptySince=some time → EmptySince defaults calls name time

/-- Every move goes to a room that had participants, or stays in the room. -/
def movesToUsedRoom (s : RoomStoreInner) : RoomCall→Bool
  | .operation (.moveParticipant room _ destination _) =>
    room=destination || (s.store.rooms.lookup destination).all (·.hadParticipants)
  | _ => true

variable {defaults : RoomDefaults} {calls : List RoomCall}

theorem movesWhereSomebodyWas_of_movesToUsedRoom {s : RoomStoreInner}
    (h : movesToUsedRoom s call) (name : String) :
    MovesWhereSomebodyWas call name (s.store.rooms.lookup name) := by
  rintro i ⟨room,now,hroom,rfl⟩ r hr
  simpa [movesToUsedRoom,hroom,hr] using h

theorem HasHadParticipant.of_occupied (h : Occupied (after defaults calls) name) :
    HasHadParticipant defaults calls name := by
  obtain ⟨r,hr,hs⟩ := h
  exact .start (mem_keys_of_lookup hr) ⟨r,hr,hs⟩

def AllTruthful (defaults : RoomDefaults) (calls : List RoomCall) : Prop :=
  ∀name record,(after defaults calls).store.rooms.lookup name=some record →
    Truthful defaults calls name record

section

variable (h : AllTruthful defaults calls)

include h

theorem AllTruthful.remembers (name : String) :
    Remembers ((after defaults calls).store.rooms.lookup name) where
  booked record hr := (h name record hr).booked
  had record hr hs := (h name record hr).had_iff.mpr (.of_occupied ⟨record,hr,hs⟩)

theorem AllTruthful.had_iff_concat (hsto : call.storesRoomInfo=false)
    (hm : movesToUsedRoom (after defaults calls) call) {r : RoomRecord}
    (hr : ((after defaults calls).apply call).store.rooms.lookup name=some r) :
    r.hadParticipants ↔ HasHadParticipant defaults (calls++[call]) name := by
  have hst := recordStep_apply (after defaults calls) hsto name
  rw [hr] at hst
  rw [hst.hadParticipants_iff (h.remembers name)
    (movesWhereSomebodyWas_of_movesToUsedRoom hm name),HasHadParticipant,since_concat_iff,
    after_concat]
  constructor
  · rintro (⟨old,hold,hhad⟩ | hs)
    · exact ⟨mem_keys_of_lookup hr,.inr ((h name old hold).had_iff.mp hhad)⟩
    · exact ⟨mem_keys_of_lookup hr,.inl ⟨r,hr,hs⟩⟩
  · rintro ⟨-,⟨found,hf,hs⟩ | hb⟩
    · rw [hr] at hf
      exact .inr (some.inj hf ▸ hs)
    · obtain ⟨old,hold⟩ := isSome_iff_exists.mp ((mem_keys _ _).mp hb.holds)
      exact .inl ⟨old,hold,(h name old hold).had_iff.mpr hb⟩

theorem AllTruthful.emptySince_concat (hst : call.storesRoomInfo=false) {r : RoomRecord}
    (hr : ((after defaults calls).apply call).store.rooms.lookup name=some r)
    (ht : r.emptySince=some time) :
    EmptySince defaults (calls++[call]) name time := by
  have hs := recordStep_apply (after defaults calls) hst name
  rw [hr] at hs
  have hbo := hs.booked (h.remembers name).booked rfl
  have he : r.participants.keys=∅ := hbo.emptySince_iff.mp (by rw [ht]; rfl)
  rw [EmptySince,since_concat_iff,after_concat]
  refine ⟨⟨r,hr,he⟩,?_⟩
  obtain ⟨old,hold,hsame⟩ | ⟨hc,hb⟩ := hs.emptySince (h.remembers name).booked ht
  · exact .inr ((h name old hold).emptySince time hsame)
  · refine .inl ⟨calls,call,rfl,hc,?_⟩
    rintro ⟨old,hold,hn⟩
    exact hb old hold hn

theorem AllTruthful.concat (hs : call.storesRoomInfo=false)
    (hm : movesToUsedRoom (after defaults calls) call) :
    AllTruthful defaults (calls++[call]) := by
  intro name r hr
  rw [after_concat] at hr
  refine ⟨?_,h.had_iff_concat hs hm hr,
    fun time ht => h.emptySince_concat hs hr ht⟩
  exact (recordStep_apply (after defaults calls) hs name).booked (h.remembers name).booked hr

end

theorem allTruthful_after (hs : ∀call∈calls,call.storesRoomInfo=false)
    (hm : AtEveryStep (fun e call =>
      movesToUsedRoom (after defaults e) call) calls) :
    AllTruthful defaults calls := by
  induction calls using List.reverseRecOn with
  | nil =>
    intro name r hr
    cases hr
  | append_singleton calls call ih =>
    obtain ⟨he,hl⟩ := (atEveryStep_concat _ calls call).mp hm
    have hb := ih (fun c hc => hs c (List.mem_append_left _ hc)) he
    exact hb.concat (hs call (by simp)) hl

/-- The first timeout that is set, or else the given age. -/
def firstTimeoutMs (defaultEmptyAgeMs : ℤ) : List ℕ → ℤ
  | [] => defaultEmptyAgeMs
  | seconds::rest =>
    if 0<seconds then (seconds : ℤ)*1000 else firstTimeoutMs defaultEmptyAgeMs rest

theorem roomTimeoutMs_of_had (h : r.hadParticipants) (ms : ℤ) :
    roomTimeoutMs r ms=firstTimeoutMs ms [r.room.departureTimeout,r.room.emptyTimeout] := by
  by_cases hd : 0<r.room.departureTimeout
  · simp [roomTimeoutMs,firstTimeoutMs,h,hd]
  · simp [roomTimeoutMs,firstTimeoutMs,h,hd]

theorem roomTimeoutMs_of_not_had (h : r.hadParticipants=false) (ms : ℤ) :
    roomTimeoutMs r ms=firstTimeoutMs ms [r.room.emptyTimeout] := by
  simp [roomTimeoutMs,firstTimeoutMs,h]

/-- The bookkeeping of the rooms after a run. The number of participants is one of 32 bits, and a
timeout of zero is one that is not set. -/
structure OccupancyExact (defaults : RoomDefaults) (calls : List RoomCall) : Prop where
  counted : ∀name record,(after defaults calls).store.rooms.lookup name=some record →
    record.room.numParticipants=min (visibleIdentities record).card (2^32-1)
  emptySince_iff : ∀name record,(after defaults calls).store.rooms.lookup name=some record →
    (record.emptySince.isSome ↔ record.participants.keys=∅)
  departed : ∀name record age,(after defaults calls).store.rooms.lookup name=some record →
    HasHadParticipant defaults calls name →
    roomTimeoutMs record age =
      firstTimeoutMs age [record.room.departureTimeout,record.room.emptyTimeout]
  unvisited : ∀name record age,(after defaults calls).store.rooms.lookup name=some record →
    ¬ HasHadParticipant defaults calls name →
    roomTimeoutMs record age=firstTimeoutMs age [record.room.emptyTimeout]
  removed : ∀name record age now,
    (after defaults calls).store.rooms.lookup name=some record →
    ((after defaults calls).store.cleanupExpiredEmptyRooms age now).rooms.lookup name=none →
    ∃time,EmptySince defaults calls name time ∧ roomTimeoutMs record age≤now-time

theorem keepRoom_of_removed {s : RoomStore} {name : String} {age : ℤ}
    (hre : s.rooms.lookup name=some r)
    (hr : (s.cleanupExpiredEmptyRooms age now).rooms.lookup name=none) :
    keepRoom age now r=false := by
  change (s.rooms.filter _).lookup name=none at hr
  rw [lookup_filter,hre] at hr
  simpa using hr

theorem emptySince_of_not_keepRoom {age : ℤ} (h : keepRoom age now r=false) :
    ∃time,r.emptySince=some time ∧ roomTimeoutMs r age≤now-time := by
  rw [keepRoom] at h
  split at h
  · cases h
  · next time ht => exact ⟨time,ht,not_lt.mp (of_decide_eq_false h)⟩

/-- The bookkeeping is exact in every run that moves participants only to rooms that had some
before. -/
theorem occupancyExact_of_movesToUsedRooms (defaults : RoomDefaults) (calls : List RoomCall)
    (hstores : ∀call ∈ calls,call.storesRoomInfo = false)
    (hmoves : AtEveryStep (fun earlier call =>
      movesToUsedRoom (after defaults earlier) call) calls) :
    OccupancyExact defaults calls := by
  have h := allTruthful_after hstores hmoves
  refine ⟨?_,?_,?_,?_,?_⟩
  · intro name record hr
    exact (h name record hr).booked.counted
  · intro name record hr
    exact (h name record hr).booked.emptySince_iff
  · intro name record age hr hhad
    exact roomTimeoutMs_of_had ((h name record hr).had_iff.mpr hhad) age
  · intro name record age hr hnot
    refine roomTimeoutMs_of_not_had (Bool.eq_false_iff.mpr ?_) age
    exact fun hhad => hnot ((h name record hr).had_iff.mp hhad)
  · intro name record age now hr hre
    obtain ⟨time,ht,hl⟩ := emptySince_of_not_keepRoom (keepRoom_of_removed hr hre)
    exact ⟨time,(h name record hr).emptySince time ht,hl⟩

def joinCall (room identity : String) (now : ℤ) : RoomCall :=
  .operation (.joinParticipantWithPermission ⟨room,identity,identity,"",.empty,none⟩ now)

def moveToBob : List RoomCall :=
  [joinCall "lobby" "alice" 0,joinCall "hall" "bob" 0,
    .operation (.moveParticipant "lobby" "alice" "hall" 10),
    .operation (.removeParticipantWithReason "hall" "bob" 1 20)]

theorem occupancyExact_moveToBob : OccupancyExact {} moveToBob :=
  occupancyExact_of_movesToUsedRooms {} moveToBob (by decide) (by decide +kernel)

/-- Alice is moved from the lobby to a hall that nobody was in before, and leaves it. -/
def moveToNobody : List RoomCall :=
  [.operation (.createRoom ⟨"hall",0,0,0,"",[]⟩ 0),joinCall "lobby" "alice" 0,
    .operation (.moveParticipant "lobby" "alice" "hall" 10),
    .operation (.removeParticipantWithReason "hall" "alice" 1 20)]

/-- The hall is aged by its empty timeout of five minutes, although Alice was in it. -/
theorem occupancy_inexact_after_moveToNobody :
    HasHadParticipant {} moveToNobody "hall" ∧
      ((after {} moveToNobody).store.rooms.lookup "hall").map
        (fun record => (record.room.departureTimeout,roomTimeoutMs record 0)) =
          some (20,300000) ∧
      ¬ OccupancyExact {} moveToNobody := by
  have hhad : HasHadParticipant {} moveToNobody "hall" := by
    refine ⟨moveToNobody.take 3,moveToNobody.drop 3,rfl,?_,?_⟩
    · refine ⟨_,rfl,"alice",?_⟩
      decide +kernel
    · intro mid hmid
      have hc : mid=[] ∨ mid=moveToNobody.drop 3 := by
        rcases List.prefix_cons_iff.mp hmid with h | ⟨rest,h,hre⟩
        · exact .inl h
        · rw [List.prefix_nil.mp hre] at h
          exact .inr h
      rcases hc with rfl | rfl
      · decide +kernel
      · decide +kernel
  have ht : ((after {} moveToNobody).store.rooms.lookup "hall").map
      (fun record => (record.room.departureTimeout,roomTimeoutMs record 0))=some (20,300000) := by
    decide +kernel
  refine ⟨hhad,ht,?_⟩
  intro he
  obtain ⟨record,hr,hv⟩ := map_eq_some_iff.mp ht
  obtain ⟨hd,hms⟩ := Prod.mk.inj hv
  have ha := he.departed "hall" record 0 hr hhad
  rw [hms,hd] at ha
  revert ha
  simp [firstTimeoutMs]

end OxideSfu.Rooms
