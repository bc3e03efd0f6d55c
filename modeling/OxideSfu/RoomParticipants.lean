import OxideSfu.RoomStore
import Mathlib.Data.String.Basic

/-!
# Who is in a room, call by call

Each call that sessions make replaces the snapshot of one identity in one room, or does nothing.
Edits of tracks and texts leave sid, identity and permission alone, so participants stay stored
under their identities.
-/

namespace OxideSfu.Rooms

open FiniteMaps RoomStore FiniteMap Option Except

variable {s t u : RoomStore} {room identity : String}

def currentParticipant (s : RoomStore) (room identity : String) : Option ParticipantInfo :=
  (s.rooms.lookup room).bind (fun record => record.participants.lookup identity)

def rememberedVersion (s : RoomStore) (room identity : String) : Option ℕ :=
  (s.rooms.lookup room).bind (fun record => record.participantVersions.lookup identity)

theorem currentParticipant_setRoom (s : RoomStore) (name : String) (r : RoomRecord)
    (room i : String) :
    currentParticipant (s.setRoom name r) room i =
      if room=name then r.participants.lookup i
      else currentParticipant s room i := by
  rw [currentParticipant,setRoom,lookup_insert]
  split_ifs <;> rfl

variable {rc : RoomRecord}

theorem currentParticipant_of_lookup (hr : s.rooms.lookup room=some rc) (i : String) :
    currentParticipant s room i=rc.participants.lookup i := by
  rw [currentParticipant,hr]
  rfl

theorem currentParticipant_setRoom_of_same {name : String}
    (hs : ∀i,rc.participants.lookup i=currentParticipant s name i) (room i : String) :
    currentParticipant (s.setRoom name rc) room i=currentParticipant s room i := by
  rw [currentParticipant_setRoom]
  split_ifs with hr
  · rw [hr,hs]
  · rfl

theorem ensureRoom_spec (s : RoomStore) (name : String) (now : ℤ) :
    (∀i,(s.ensureRoom name now).1.participants.lookup i=currentParticipant s name i) ∧
      (∀i,(s.ensureRoom name now).1.participantVersions.lookup i=rememberedVersion s name i) ∧
      ∀room i,currentParticipant (s.ensureRoom name now).2 room i =
        currentParticipant s room i := by
  cases hr : s.rooms.lookup name with
  | some r =>
    rw [ensureRoom_of_lookup hr]
    exact ⟨fun i => (currentParticipant_of_lookup hr i).symm,
      fun i => by rw [rememberedVersion,hr]; rfl,fun _ _ => rfl⟩
  | none =>
    have hn : ∀i,currentParticipant s name i=none := by
      intro i
      rw [currentParticipant,hr]
      rfl
    simp only [ensureRoom,hr]
    refine ⟨fun i => (hn i).symm,fun i => ?_,fun room i => ?_⟩
    · rw [rememberedVersion,hr]
      rfl
    · rw [currentParticipant,lookup_insert]
      split_ifs with hroom
      · rw [hroom,hn]
        rfl
      · rfl

theorem toOption_getParticipant (s : RoomStore) (room i : String) :
    (s.getParticipant room i).toOption =
      (s.rooms.lookup room).bind (fun r => r.participants.lookup i) := by
  rw [getParticipant]
  cases s.rooms.lookup room with
  | none => rfl
  | some r =>
    rw [bind_some]
    cases hp : r.participants.lookup i with
    | none => simp only [hp]; rfl
    | some p => simp only [hp]; rfl

/-- The stores differ in the participant of one identity in one room. -/
def Replaces (s t : RoomStore) (room identity : String) (participant : Option ParticipantInfo) :
    Prop :=
  ∀r i,currentParticipant t r i =
    if r=room ∧ i=identity then participant else currentParticipant s r i

variable {p : Option ParticipantInfo}

theorem Replaces.self (h : Replaces s t room identity p) :
    currentParticipant t room identity=p := by
  rw [h,if_pos ⟨rfl,rfl⟩]

theorem Replaces.other (h : Replaces s t room identity p) {r i : String}
    (ho : ¬(r=room ∧ i=identity)) :
    currentParticipant t r i=currentParticipant s r i := by
  rw [h,if_neg ho]

theorem replaces_refl (s : RoomStore) (room identity : String) :
    Replaces s s room identity (currentParticipant s room identity) := by
  intro r i
  split_ifs with h
  · rw [h.1,h.2]
  · rfl

theorem Replaces.trans {first b : Option ParticipantInfo}
    (hst : Replaces s t room identity first) (htu : Replaces t u room identity b) :
    Replaces s u room identity b := by
  intro r i
  rw [htu]
  split_ifs with h
  · rfl
  · exact hst.other h

theorem replaces_setRoom {record' : RoomRecord}
    (hre : s.rooms.lookup room=some rc)
    (hs : ∀i,record'.participants.lookup i =
      if i=identity then p else rc.participants.lookup i) :
    Replaces s (s.setRoom room record') room identity p := by
  intro r i
  rw [currentParticipant_setRoom]
  by_cases hr : r=room
  · rw [hs,hr,currentParticipant_of_lookup hre]
    simp
  · rw [if_neg hr,if_neg (fun h => hr h.1)]

theorem Replaces.of_rooms (h : Replaces s t room identity p) (hr : u.rooms=t.rooms) :
    Replaces s u room identity p := by
  intro r i
  rw [← h r i,currentParticipant,currentParticipant,hr]

section

variable (s : RoomStore)

theorem removeParticipantWithReason_spec (room identity : String) (re : ℕ) (now : ℤ) :
    (∃e,currentParticipant s room identity=none ∧
      s.removeParticipantWithReason room identity re now=(.error e,s)) ∨
      ∃p t,currentParticipant s room identity=some p ∧
        s.removeParticipantWithReason room identity re now=(.ok (disconnected p re),t) ∧
        Replaces s t room identity none := by
  cases hr : s.rooms.lookup room with
  | none =>
    refine .inl ⟨.roomNotFound,?_,by simp only [removeParticipantWithReason,hr]⟩
    rw [currentParticipant,hr]
    rfl
  | some r =>
    rw [currentParticipant_of_lookup hr]
    cases hp : r.participants.lookup identity with
    | none =>
      exact .inl ⟨.participantNotFound,rfl,by simp only [removeParticipantWithReason,hr,hp]⟩
    | some p =>
      refine .inr ⟨p,_,rfl,by simp only [removeParticipantWithReason,hr,hp]; rfl,?_⟩
      refine Replaces.of_rooms (replaces_setRoom hr ?_) rfl
      intro i
      rw [dismissParticipant,participants_afterDeparture]
      exact lookup_erase _ _ _

theorem editParticipant_spec (room identity : String)
    (edit : ParticipantInfo→Except RoomStoreError ParticipantInfo) :
    (∃e,s.editParticipant room identity edit=(.error e,s)) ∨
      ∃p d t,currentParticipant s room identity=some p ∧
        edit p = .ok d ∧
        s.editParticipant room identity edit=(.ok d,t) ∧
        Replaces s t room identity (some d) := by
  obtain ⟨e,heq⟩ | ⟨r,p,d,hr,hp,he,heq⟩ := s.editParticipant_cases room identity edit
  · exact .inl ⟨e,heq⟩
  · refine .inr ⟨p,d,_,?_,he,heq,?_⟩
    · rw [currentParticipant_of_lookup hr,hp]
    · exact replaces_setRoom hr (fun i => lookup_insert _ _ _ _)

theorem removeParticipantTrack_spec (room identity trackSid : String) :
    (∃e,s.removeParticipantTrack room identity trackSid=(.error e,s)) ∨
      ∃p d t,currentParticipant s room identity=some p ∧
        d=newVersion {p with
          tracks := p.tracks.filter (·.sid≠trackSid)} ∧
        s.removeParticipantTrack room identity trackSid=(.ok d,t) ∧
        Replaces s t room identity (some d) := by
  obtain ⟨e,heq⟩ | ⟨r,p,d,hr,hp,he,heq⟩ := s.removeParticipantTrack_cases room identity trackSid
  · exact .inl ⟨e,heq⟩
  · refine .inr ⟨p,d,_,?_,he,heq,?_⟩
    · rw [currentParticipant_of_lookup hr,hp]
    · refine Replaces.of_rooms (replaces_setRoom hr ?_) rfl
      exact fun i => lookup_insert _ _ _ _

theorem updateParticipant_spec (room identity : String) (u : ParticipantUpdate) :
    (∃e,s.updateParticipant room identity u=(.error e,s)) ∨
      ∃p t,currentParticipant s room identity=some p ∧
        s.updateParticipant room identity u=(.ok (updatedParticipant p u),t) ∧
        Replaces s t room identity (some (updatedParticipant p u)) := by
  obtain ⟨e,heq⟩ | ⟨r,p,hr,hp,heq⟩ := s.updateParticipant_cases room identity u
  · exact .inl ⟨e,heq⟩
  · refine .inr ⟨p,_,?_,heq,?_⟩
    · rw [currentParticipant_of_lookup hr,hp]
    · have hs : Replaces s (s.setRoom room (updatedRecord r identity p
          (updatedParticipant p u))) room identity
          (some (updatedParticipant p u)) := by
        apply replaces_setRoom hr
        intro i
        rw [participants_updatedRecord]
        exact lookup_insert _ _ _ _
      split_ifs
      · exact hs.of_rooms rfl
      · exact hs

/-- A join adds its participant and returns who was there before, or changes nobody. -/
theorem joinParticipantWithPermission_spec (request : JoinRequest) (now : ℤ) :
    (∃e t,s.joinParticipantWithPermission request now=(.error e,t) ∧
        ∀r i,currentParticipant t r i=currentParticipant s r i) ∨
      ∃j t,s.joinParticipantWithPermission request now=(.ok j,t) ∧
        j.participant.identity=request.identity ∧
        j.participant.permission=request.permission ∧
        (∀i,j.existing.lookup i=currentParticipant s request.room i) ∧
        Replaces s t request.room request.identity (some j.participant) := by
  obtain ⟨hp,-,hc⟩ := ensureRoom_spec s request.room now
  rw [joinParticipantWithPermission]
  cases he : s.ensureRoom request.room now with
  | mk rc ensured =>
    rw [he] at hp hc
    dsimp only
    split_ifs
    · exact .inl ⟨.maxParticipantsExceeded,_,rfl,hc⟩
    · refine .inr ⟨_,_,rfl,rfl,rfl,hp,?_⟩
      intro r i
      rw [currentParticipant_setRoom]
      by_cases hr : r=request.room
      · rw [hr,← hp]
        simp only [true_and]
        exact lookup_insert _ _ _ _
      · rw [if_neg hr,if_neg (fun h => hr h.1)]
        exact hc r i

end

/-- The sid of a new participant is made of the next number. -/
theorem sid_of_joinParticipantWithPermission {r : JoinRequest} {now : ℤ} {j : Joined}
    (h : s.joinParticipantWithPermission r now=(.ok j,t)) :
    j.participant.sid = "PA_" ++ hex16 (saturatingSucc 64 s.nextParticipantId) := by
  have hn : (s.ensureRoom r.room now).2.nextParticipantId=s.nextParticipantId := by
    rw [ensureRoom]
    split <;> rfl
  rw [joinParticipantWithPermission] at h
  dsimp only at h
  split_ifs at h
  · cases congrArg Prod.fst h
  · have hj := ok.inj (congrArg Prod.fst h)
    rw [← hj,← hn]
    rfl

variable (p : ParticipantInfo) (update : ParticipantUpdate)

theorem permission_updatedParticipant :
    (updatedParticipant p update).permission=update.permission.or p.permission := by
  have hf : (updateFields p update).permission=update.permission.or p.permission := by
    simp only [updateFields]
    split_ifs with hc
    · obtain ⟨hso,-⟩ : update.permission.isSome ∧ _ := by
        simpa [changesPermission] using hc
      obtain ⟨permission,hp⟩ := isSome_iff_exists.mp hso
      rw [withPermission,hp]
      split_ifs <;> rfl
    · cases hp : update.permission with
      | none => rfl
      | some permission =>
        have hs : p.permission=some permission := by
          simpa [changesPermission,hp] using hc
        exact hs
  rw [updatedParticipant]
  split_ifs
  · exact hf
  · exact hf

theorem names_updatedParticipant :
    (updatedParticipant p update).sid=p.sid ∧
      (updatedParticipant p update).identity=p.identity := by
  have hf : (updateFields p update).sid=p.sid ∧ (updateFields p update).identity=p.identity := by
    simp only [updateFields]
    split_ifs
    · rw [withPermission]
      split_ifs <;> exact ⟨rfl,rfl⟩
    · exact ⟨rfl,rfl⟩
  rw [updatedParticipant]
  split_ifs
  · exact hf
  · exact hf

structure SameSession (participant other : ParticipantInfo) : Prop where
  sid : other.sid=participant.sid
  identity : other.identity=participant.identity
  permission : other.permission=participant.permission

theorem SameSession.refl : SameSession p p := ⟨rfl,rfl,rfl⟩

theorem SameSession.symm {p o : ParticipantInfo} (h : SameSession p o) : SameSession o p :=
  ⟨h.sid.symm,h.identity.symm,h.permission.symm⟩

theorem SameSession.trans {first b third : ParticipantInfo}
    (h : SameSession first b) (h' : SameSession b third) : SameSession first third :=
  ⟨h'.sid.trans h.sid,h'.identity.trans h.identity,h'.permission.trans h.permission⟩

theorem SameSession.editTrack {sid : String} {edit : TrackInfo→Option TrackInfo}
    {p d : ParticipantInfo} (h : editTrack sid edit p = .ok d) :
    SameSession p d := by
  rw [RoomStore.editTrack] at h
  split at h
  · cases h
  · split at h
    · rw [← ok.inj h]
      exact .refl p
    · rw [← ok.inj h]
      exact ⟨rfl,rfl,rfl⟩

variable {r i : String}

theorem currentParticipant_moveOut {c : RoomRecord} (hs : s.rooms.lookup r=some c)
    (now : ℤ) (room identity : String) :
    currentParticipant (s.setRoom r (moveOut c i now)) room identity =
      if room=r ∧ identity=i then none else currentParticipant s room identity := by
  rw [currentParticipant_setRoom,moveOut,participants_afterDeparture,lookup_erase,
    ← currentParticipant_of_lookup hs]
  by_cases hr : room=r
  · subst hr
    by_cases hi : identity=i <;> simp [hi]
  · simp [hr]

theorem currentParticipant_moveIn {d : String} (hre : s.rooms.lookup d=some rc)
    (moved : ParticipantInfo) (room identity : String) :
    currentParticipant (s.setRoom d (moveIn rc i moved)) room identity =
      if room=d ∧ identity=i then some moved
      else currentParticipant s room identity := by
  rw [currentParticipant_setRoom]
  change (if room=d then (rc.participants.insert i moved).lookup identity
    else _)=_
  rw [lookup_insert,← currentParticipant_of_lookup hre]
  by_cases hr : room=d
  · subst hr
    by_cases hi : identity=i <;> simp [hi]
  · simp [hr]

variable (s)

theorem currentParticipant_createRoom (r : CreateRoomRequest) (now : ℤ) (room i : String) :
    currentParticipant (s.createRoom r now).2 room i=currentParticipant s room i := by
  cases hr : s.rooms.lookup r.name with
  | some rc => simp only [createRoom,hr]
  | none =>
    simp only [createRoom,hr]
    rw [currentParticipant,lookup_insert]
    split_ifs with hroom
    · rw [hroom,currentParticipant,hr]
      rfl
    · rfl

theorem currentParticipant_storeRoomWithInternal (info : Room) (now : ℤ) (room i : String) :
    currentParticipant (s.storeRoomWithInternal info now).2 room i =
      currentParticipant s room i := by
  rw [storeRoomWithInternal]
  split_ifs
  · rfl
  · cases hr : s.rooms.lookup info.name with
    | some r =>
      refine currentParticipant_setRoom_of_same (fun i => ?_) room i
      exact (currentParticipant_of_lookup hr i).symm
    | none =>
      refine currentParticipant_setRoom_of_same (fun i => ?_) room i
      rw [currentParticipant,hr]
      rfl

theorem currentParticipant_updateRoomMetadata (name m : String) (room i : String) :
    currentParticipant (s.updateRoomMetadata name m).2 room i=currentParticipant s room i := by
  rw [updateRoomMetadata]
  cases hr : s.rooms.lookup name with
  | none => rfl
  | some r =>
    refine currentParticipant_setRoom_of_same (fun i => ?_) room i
    exact (currentParticipant_of_lookup hr i).symm

variable {s}

theorem currentParticipant_deleteRoom {name : String} (hr : room∈(s.deleteRoom name).2.rooms.keys)
    (i : String) :
    currentParticipant (s.deleteRoom name).2 room i=currentParticipant s room i := by
  rw [deleteRoom] at hr ⊢
  cases hre : s.rooms.lookup name with
  | none => rfl
  | some r =>
    rw [hre] at hr
    have ho : room≠name := (Finset.mem_erase.mp hr).1
    change ((s.rooms.erase name).lookup room).bind _=_
    rw [lookup_erase,if_neg ho]
    rfl

theorem currentParticipant_cleanupExpiredEmptyRooms {ms now : ℤ}
    (hr : room∈(s.cleanupExpiredEmptyRooms ms now).rooms.keys) (i : String) :
    currentParticipant (s.cleanupExpiredEmptyRooms ms now) room i =
      currentParticipant s room i := by
  rw [mem_keys,cleanupExpiredEmptyRooms,lookup_filter] at hr
  rw [currentParticipant,currentParticipant,cleanupExpiredEmptyRooms,lookup_filter]
  cases hre : s.rooms.lookup room with
  | none => rfl
  | some r =>
    rw [hre] at hr
    cases hk : keepRoom ms now r with
    | true => rw [Option.filter_some_pos hk]
    | false => simp [Option.filter,hk] at hr

def RecordKeyed (record : RoomRecord) : Prop :=
  ∀identity participant,record.participants.lookup identity=some participant →
    participant.identity=identity

def Keyed (s : RoomStore) : Prop :=
  ∀room record,s.rooms.lookup room=some record → RecordKeyed record

theorem keyed_iff : Keyed s ↔ ∀room i p,currentParticipant s room i=some p → p.identity=i := by
  constructor
  · intro h room i p hp
    obtain ⟨r,hr,hl⟩ := bind_eq_some_iff.mp hp
    exact h room r hr i p hl
  · intro h room r hr i p hp
    exact h room i p ((currentParticipant_of_lookup hr _).trans hp)

section

variable (h : Keyed s)

include h

theorem Keyed.of_rooms (hs : t.rooms=s.rooms) : Keyed t := by
  intro room r hr
  exact h room r (hs ▸ hr)

theorem Keyed.of_current (hk : ∀room∈t.rooms.keys,∀i,
    currentParticipant t room i=currentParticipant s room i) : Keyed t := by
  rw [keyed_iff]
  intro room i p hp
  obtain ⟨r,hr,-⟩ := bind_eq_some_iff.mp hp
  rw [hk room (mem_keys_of_lookup hr)] at hp
  exact keyed_iff.mp h room i p hp

theorem Keyed.of_replaces {p : Option ParticipantInfo} (hr : Replaces s t room identity p)
    (hi : ∀new,p=some new → new.identity=identity) : Keyed t := by
  rw [keyed_iff]
  intro r i found hf
  rw [hr] at hf
  split_ifs at hf with hs
  · rw [hs.2]
    exact hi found hf
  · exact keyed_iff.mp h r i found hf

theorem Keyed.joinParticipantWithPermission (r : JoinRequest) (now : ℤ) :
    Keyed (s.joinParticipantWithPermission r now).2 := by
  obtain ⟨e,t,heq,hs⟩ | ⟨j,t,heq,hi,-,-,hj⟩ := joinParticipantWithPermission_spec s r now
  · rw [heq]
    exact h.of_current (fun room _ i => hs room i)
  · rw [heq]
    exact h.of_replaces hj (fun new hnew => some.inj hnew ▸ hi)

theorem Keyed.removeParticipantWithReason (room i : String) (re : ℕ)
    (now : ℤ) : Keyed (s.removeParticipantWithReason room i re now).2 := by
  obtain ⟨e,-,heq⟩ | ⟨p,t,-,heq,hr⟩ := removeParticipantWithReason_spec s room i re now
  · rw [heq]
    exact h
  · rw [heq]
    exact h.of_replaces hr (fun _ hnew => nomatch hnew)

theorem Keyed.moveParticipant (room i d : String) (now : ℤ) :
    Keyed (s.moveParticipant room i d now).2 := by
  obtain ⟨e,heq⟩ | ⟨c,p,r,hs,hp,-,hr,heq⟩ := s.moveParticipant_cases room i d now
  · rw [heq]
    exact h
  · rw [heq]
    have hout : Keyed (s.setRoom room (moveOut c i now)) :=
      h.of_replaces (currentParticipant_moveOut hs now) (fun _ hnew => nomatch hnew)
    refine (hout.of_replaces (currentParticipant_moveIn hr _) ?_).of_rooms (by rfl)
    rintro new ⟨⟩
    exact h room c hs i p hp

end

def KeepsIdentity (edit : ParticipantInfo→Except RoomStoreError ParticipantInfo) : Prop :=
  ∀participant edited,edit participant = .ok edited → edited.identity=participant.identity

theorem Keyed.editParticipant (h : Keyed s) (room i : String)
    {edit : ParticipantInfo→Except RoomStoreError ParticipantInfo} (hed : KeepsIdentity edit) :
    Keyed (s.editParticipant room i edit).2 := by
  obtain ⟨e,heq⟩ | ⟨p,d,t,hp,he,heq,hr⟩ := editParticipant_spec s room i edit
  · rw [heq]
    exact h
  · rw [heq]
    refine h.of_replaces hr ?_
    rintro new ⟨⟩
    rw [hed p d he]
    exact keyed_iff.mp h room i p hp

theorem Keyed.updateParticipant (h : Keyed s) (room i : String)
    (u : ParticipantUpdate) : Keyed (s.updateParticipant room i u).2 := by
  obtain ⟨e,heq⟩ | ⟨p,t,hp,heq,hr⟩ := updateParticipant_spec s room i u
  · rw [heq]
    exact h
  · rw [heq]
    refine h.of_replaces hr ?_
    rintro new ⟨⟩
    rw [(names_updatedParticipant p u).2]
    exact keyed_iff.mp h room i p hp

theorem Keyed.apply (h : Keyed s) (op : RoomOperation) : Keyed (s.apply op) := by
  cases op with
  | createRoom r now =>
    exact h.of_current (fun room _ => currentParticipant_createRoom s r now room)
  | storeRoomWithInternal created now =>
    exact h.of_current (fun room _ => currentParticipant_storeRoomWithInternal s created now room)
  | updateRoomMetadata name m =>
    exact h.of_current (fun room _ => currentParticipant_updateRoomMetadata s name m room)
  | deleteRoom name => exact h.of_current (fun _ => currentParticipant_deleteRoom)
  | cleanupExpiredEmptyRooms ms now =>
    exact h.of_current (fun _ => currentParticipant_cleanupExpiredEmptyRooms)
  | joinParticipantWithPermission r now => exact h.joinParticipantWithPermission r now
  | removeParticipantWithReason room i re now =>
    exact h.removeParticipantWithReason room i re now
  | moveParticipant room i d now =>
    exact h.moveParticipant room i d now
  | getParticipant room i => exact h
  | setParticipantTrackMimeType | setParticipantTrackMid | setParticipantTrackSdpCid
  | setParticipantTrackMuted =>
    exact h.editParticipant _ _ (fun _ _ he => (SameSession.editTrack he).identity)
  | removeParticipantTrack room i sid =>
    obtain ⟨e,heq⟩ | ⟨p,ed,t,hp,rfl,heq,hr⟩ := removeParticipantTrack_spec s room i sid
    · rw [RoomStore.apply,heq]
      exact h
    · rw [RoomStore.apply,heq]
      refine h.of_replaces hr ?_
      rintro new ⟨⟩
      exact keyed_iff.mp h room i p hp
  | updateParticipant room i u => exact h.updateParticipant room i u
  | setMediaTrackSubscribed => exact h.of_rooms (s.switches_setMediaTrackSubscribed ..).rooms
  | setMediaTrackSubscribedByTrackSid =>
    exact h.of_rooms (s.switches_setMediaTrackSubscribedByTrackSid ..).rooms
  | setMediaTrackSubscribedByPublisherSid =>
    exact h.of_rooms (s.switches_setMediaTrackSubscribedByPublisherSid ..).rooms
  | _ => exact h.editParticipant _ _ (fun _ _ he => by rw [← ok.inj he]; rfl)

/-- In every room store that can be reached, participants are stored under their identities. -/
theorem keyed_storeAfter (defaults : RoomDefaults) (ops : List RoomOperation) :
    Keyed (storeAfter defaults ops) := by
  induction ops using List.reverseRecOn with
  | nil =>
    intro room r hr
    cases hr
  | append_singleton ops op ih =>
    rw [storeAfter_concat]
    exact ih.apply op

end OxideSfu.Rooms
