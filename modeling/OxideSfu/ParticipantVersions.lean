import OxideSfu.RoomParticipants
import OxideSfu.StepRuns

/-!
# Versions of participant snapshots

Clients drop a snapshot whose version is not newer than the one they have. The version lives in the
participant, and a room remembers one more for the next join of the identity; the snapshots of one
identity in one room are followed from the creation of the room on.
-/

namespace OxideSfu.Rooms

open FiniteMaps RoomStore StepRuns FiniteMap ParticipantInfo List Except

variable {s t : RoomStore}

def returnedTo (addressed : Bool) (result : Except RoomStoreError ParticipantInfo) :
    List ParticipantInfo :=
  if addressed then result.toOption.toList else []

/-- The snapshots of an identity in a room that a call returns. A join also returns those who
were there before, among them the participant that it replaces; a move returns the moved
participant to both rooms. Muting a track returns no participant. -/
def returnedSnapshots (s : RoomStore) (room identity : String) :
    RoomOperation → List ParticipantInfo
  | .joinParticipantWithPermission request now =>
    match (s.joinParticipantWithPermission request now).1 with
    | .error _ => []
    | .ok joined =>
      if request.room=room then
        (joined.existing.lookup identity).toList ++
          (if request.identity=identity then [joined.participant] else [])
      else []
  | .removeParticipantWithReason r i reason now =>
    returnedTo ((r=room ∧ i=identity)) (s.removeParticipantWithReason r i reason now).1
  | .moveParticipant r i destination now =>
    returnedTo (((r=room ∨ destination=room) ∧ i=identity))
      (s.moveParticipant r i destination now).1
  | .getParticipant r i => returnedTo ((r=room ∧ i=identity)) (s.getParticipant r i)
  | .setParticipantKind r i kind kindDetails =>
    returnedTo ((r=room ∧ i=identity)) (s.setParticipantKind r i kind kindDetails).1
  | .addParticipantTrack r i track =>
    returnedTo ((r=room ∧ i=identity)) (s.addParticipantTrack r i track).1
  | .setParticipantTrackMimeType r i trackSid mimeType =>
    returnedTo ((r=room ∧ i=identity))
      (s.setParticipantTrackMimeType r i trackSid mimeType).1
  | .setParticipantTrackMid r i trackSid mid =>
    returnedTo ((r=room ∧ i=identity)) (s.setParticipantTrackMid r i trackSid mid).1
  | .setParticipantTrackSdpCid r i trackSid sdpCid =>
    returnedTo ((r=room ∧ i=identity))
      (s.setParticipantTrackSdpCid r i trackSid sdpCid).1
  | .removeParticipantTrack r i trackSid =>
    returnedTo ((r=room ∧ i=identity)) (s.removeParticipantTrack r i trackSid).1
  | .addParticipantDataTrack r i dataTrack =>
    returnedTo ((r=room ∧ i=identity)) (s.addParticipantDataTrack r i dataTrack).1
  | .removeParticipantDataTrack r i pubHandle =>
    returnedTo ((r=room ∧ i=identity)) (s.removeParticipantDataTrack r i pubHandle).1
  | .updateParticipant r i update =>
    returnedTo ((r=room ∧ i=identity)) (s.updateParticipant r i update).1
  | _ => []

def Newer (earlier later : ParticipantInfo) : Prop :=
  earlier.version≤later.version ∧ (earlier≠later → earlier.version<later.version)

def VersionsGrow (snapshots : List ParticipantInfo) : Prop := snapshots.Pairwise Newer

variable {returned : List ParticipantInfo}

theorem Newer.refl (p : ParticipantInfo) : Newer p p := ⟨Nat.le_refl _,fun h => absurd rfl h⟩

theorem VersionsGrow.sublist {shorter longer : List ParticipantInfo} (h : VersionsGrow longer)
    (hs : shorter.Sublist longer) : VersionsGrow shorter := List.Pairwise.sublist hs h

variable {seen : List ParticipantInfo}

theorem VersionsGrow.repeatLast {last : ParticipantInfo} (h : VersionsGrow (seen++[last])) :
    VersionsGrow (seen++[last,last]) := by
  rw [VersionsGrow,pairwise_append] at h ⊢
  obtain ⟨hs,-,hc⟩ := h
  refine ⟨hs,by simp [Newer.refl],?_⟩
  intro e he l hl
  exact hc e he l (by simpa using hl)

theorem VersionsGrow.renew (h : VersionsGrow seen) {new : ParticipantInfo}
    (hnew : ∀e∈seen,e.version<new.version) :
    VersionsGrow (seen++[new,new]) := by
  rw [VersionsGrow,pairwise_append]
  refine ⟨h,by simp [Newer.refl],?_⟩
  intro e he l hl
  obtain rfl : l=new := by simpa using hl
  exact ⟨(hnew e he).le,fun _ => hnew e he⟩

/-- What a call may do to an identity in a room: leave the participant as it is and show it or
not, or put something newer in its place, which may have been returned after the old one and
may have left the room already. -/
inductive SnapshotStep (seen : List ParticipantInfo) (before after : Option ParticipantInfo)
    (returned : List ParticipantInfo) : Prop
  | keeps (same : after=before) (shown : returned=[] ∨ returned=before.toList)
  | renews (new : ParticipantInfo)
      (newer : ∀earlier∈seen++before.toList,earlier.version<new.version)
      (shown : (returned++after.toList).Sublist (before.toList++[new,new]))

theorem SnapshotStep.grows {b after : Option ParticipantInfo}
    (h : SnapshotStep seen b after returned) (hgrow : VersionsGrow (seen++b.toList)) :
    VersionsGrow (seen++returned++after.toList) := by
  rw [append_assoc]
  rcases h with ⟨rfl,rfl | rfl⟩ | ⟨new,hn,hs⟩
  · exact hgrow
  · cases after with
    | none => exact hgrow
    | some p => exact hgrow.repeatLast
  · refine (hgrow.renew hn).sublist ?_
    rw [append_assoc]
    exact List.Sublist.append_left hs seen

theorem VersionsGrow.lt_saturatingSucc {p : ParticipantInfo}
    (hgrow : VersionsGrow (seen++[p])) (hlimit : p.version<2^32-1) :
    ∀e∈seen++[p],e.version<saturatingSucc 32 p.version := by
  intro e he
  have hle : e.version≤p.version := by
    rcases mem_append.mp he with hs | hl
    · exact ((pairwise_append.mp hgrow).2.2 e hs p (by simp)).1
    · obtain rfl : e=p := by simpa using hl
      exact Nat.le_refl _
  rw [saturatingSucc]
  omega

variable {room identity : String}

theorem SnapshotStep.of_same
    (hc : currentParticipant t room identity=currentParticipant s room identity)
    (hr : returned=[]) :
    SnapshotStep seen (currentParticipant s room identity)
      (currentParticipant t room identity) returned :=
  .keeps hc (.inl hr)

/-- The versions of a record are below their limit, so that they can count up. -/
def recordUnsaturated (record : RoomRecord) : Bool :=
  decide (∀identity∈record.participants.keys,
    (record.participants.lookup identity).all (·.version<2^32-1)) &&
  decide (∀identity∈record.participantVersions.keys,
    (record.participantVersions.lookup identity).all (· < 2^32-1))

def Unsaturated (s : RoomStore) : Prop :=
  ∀room∈s.rooms.keys,(s.rooms.lookup room).all recordUnsaturated
  deriving Decidable

theorem Unsaturated.record (h : Unsaturated s) {r : RoomRecord}
    (hr : s.rooms.lookup room=some r) : recordUnsaturated r := by
  simpa [hr] using h room (mem_keys_of_lookup hr)

theorem Unsaturated.participant (h : Unsaturated s) {p : ParticipantInfo}
    (hp : currentParticipant s room identity=some p) :
    p.version<2^32-1 := by
  obtain ⟨r,hr,hl⟩ := Option.bind_eq_some_iff.mp hp
  have hlimit := h.record hr
  rw [recordUnsaturated,Bool.and_eq_true,decide_eq_true_eq] at hlimit
  simpa [hl] using hlimit.1 identity (mem_keys_of_lookup hl)

theorem Unsaturated.remembered (h : Unsaturated s) {version : ℕ}
    (hv : rememberedVersion s room identity=some version) : version<2^32-1 := by
  obtain ⟨r,hr,hl⟩ := Option.bind_eq_some_iff.mp hv
  have hlimit := h.record hr
  rw [recordUnsaturated,Bool.and_eq_true,decide_eq_true_eq,decide_eq_true_eq] at hlimit
  simpa [hl] using hlimit.2 identity (mem_keys_of_lookup hl)

variable {r i : String} (p : ParticipantInfo) {sid : String}
  (u : ParticipantUpdate) {now : ℤ}

section

variable (hgrow : VersionsGrow (seen ++ (currentParticipant s room identity).toList))
  (hlimit : Unsaturated s)

include hgrow hlimit

theorem SnapshotStep.replaced {p d : ParticipantInfo} (hp : currentParticipant s r i=some p)
    (hre : Replaces s t r i (some d)) (he : d=p ∨ d.version=saturatingSucc 32 p.version)
    (hr : returned=[] ∨ returned=returnedTo ((r=room ∧ i=identity)) (.ok d)) :
    SnapshotStep seen (currentParticipant s room identity)
      (currentParticipant t room identity) returned := by
  by_cases ha : r=room ∧ i=identity
  · obtain ⟨rfl,rfl⟩ := ha
    have hs : returned=[] ∨ returned=[d] := by
      simpa [returnedTo,Except.toOption] using hr
    rw [hre.self,hp]
    rcases he with rfl | hv
    · exact .keeps rfl hs
    · refine .renews d ?_ ?_
      · rw [hp] at hgrow
        rw [hv]
        exact hgrow.lt_saturatingSucc (hlimit.participant hp)
      · rcases hs with rfl | rfl <;> simp
  · refine .of_same (hre.other (ha ∘ And.imp Eq.symm Eq.symm)) ?_
    rcases hr with hr | hr
    · exact hr
    · simpa [returnedTo,ha] using hr

theorem SnapshotStep.editParticipant {edit : ParticipantInfo→Except RoomStoreError ParticipantInfo}
    (hed : ∀p d,edit p = .ok d → d=p ∨ d.version=saturatingSucc 32 p.version) :
    SnapshotStep seen (currentParticipant s room identity)
      (currentParticipant (s.editParticipant r i edit).2 room identity)
      (returnedTo ((r=room ∧ i=identity)) (s.editParticipant r i edit).1) := by
  obtain ⟨e,heq⟩ | ⟨p,d,t,hp,he,heq,hr⟩ := editParticipant_spec s r i edit
  · rw [heq]
    exact .of_same rfl (by simp [returnedTo,Except.toOption])
  · rw [heq]
    exact .replaced hgrow hlimit hp hr (hed p d he) (.inr rfl)

omit hgrow hlimit

theorem editTrack_version {edit : TrackInfo→Option TrackInfo}
    (p d : ParticipantInfo) (he : editTrack sid edit p = .ok d) :
    d=p ∨ d.version=saturatingSucc 32 p.version := by
  rw [editTrack] at he
  split at he
  · cases he
  · split at he
    · exact Or.inl (ok.inj he).symm
    · obtain rfl := ok.inj he
      exact .inr rfl

theorem updatedAttributes_of_unchanged {old changes : FiniteMap String String}
    (h : ∀key∈changes.keys,let value := (changes.lookup key).getD ""
      if value = "" then key∉old.keys else old.lookup key=some value) :
    updatedAttributes old changes=old := by
  ext1 key
  rw [updatedAttributes,lookup_overlay]
  cases hv : changes.lookup key with
  | none => rfl
  | some value =>
    have hkey := h key (mem_keys_of_lookup hv)
    simp only [hv,Option.getD_some] at hkey
    split_ifs at hkey with he
    · simp [he,lookup_eq_none_iff.mpr hkey]
    · simp [he,hkey]

theorem updateTexts_of_unchanged {p : ParticipantInfo} {u : ParticipantUpdate}
    (hm : u.metadata = "" ∨ p.metadata=u.metadata) (hn : u.name = "" ∨ p.name=u.name) :
    updateTexts p u=p := by
  have hm' : (if u.metadata = "" then p.metadata else u.metadata)=p.metadata := by
    split_ifs with he
    · rfl
    · exact (hm.resolve_left he).symm
  have hn' : (if u.name = "" then p.name else u.name)=p.name := by
    split_ifs with he
    · rfl
    · exact (hn.resolve_left he).symm
  rw [updateTexts,hm',hn']

theorem updateFields_of_unchanged {participant : ParticipantInfo} {update : ParticipantUpdate}
    (hp : changesPermission participant update=false) (ht : changesTexts participant update=false) :
    updateFields participant update=participant := by
  simp only [changesTexts,Bool.or_eq_false_iff,Bool.and_eq_false_iff,decide_eq_false_iff_not,
    not_not,not_exists,not_and] at ht
  obtain ⟨⟨hm,hn⟩,ha⟩ := ht
  have ha' : updatedAttributes participant.attributes update.attributes =
    participant.attributes := by
    apply updatedAttributes_of_unchanged
    intro key hkey
    have hk := ha key hkey
    dsimp only
    split_ifs at hk ⊢
    · exact hk
    · exact not_not.mp hk
  simp only [updateFields,hp,Bool.false_eq_true,if_false,ha',updateTexts_of_unchanged hm hn]

theorem withPermission_version (pm : Option ParticipantPermission) :
    (withPermission p pm).version=p.version := by
  rw [withPermission]
  split_ifs <;> rfl

theorem updateFields_version : (updateFields p u).version=p.version := by
  simp only [updateFields]
  split
  · rw [withPermission_version]
    rfl
  · rfl

/-- An update that raises no version changes nothing. -/
theorem updatedParticipant_version :
    updatedParticipant p u=p ∨ (updatedParticipant p u).version=saturatingSucc 32 p.version := by
  rw [updatedParticipant]
  split_ifs with hc
  · right
    change saturatingSucc 32 (updateFields p u).version=_
    rw [updateFields_version]
  · rw [Bool.or_eq_true,not_or,Bool.not_eq_true,Bool.not_eq_true] at hc
    exact .inl (updateFields_of_unchanged hc.1 hc.2)

include hgrow hlimit

theorem SnapshotStep.updateParticipant {u : ParticipantUpdate} :
    SnapshotStep seen (currentParticipant s room identity)
      (currentParticipant (s.updateParticipant r i u).2 room identity)
      (returnedTo ((r=room ∧ i=identity)) (s.updateParticipant r i u).1) := by
  obtain ⟨e,heq⟩ | ⟨p,t,hp,heq,hr⟩ := updateParticipant_spec s r i u
  · rw [heq]
    exact .of_same rfl (by simp [returnedTo,Except.toOption])
  · rw [heq]
    exact .replaced hgrow hlimit hp hr (updatedParticipant_version p u) (.inr rfl)

theorem SnapshotStep.removeParticipantTrack :
    SnapshotStep seen (currentParticipant s room identity)
      (currentParticipant (s.removeParticipantTrack r i sid).2 room identity)
      (returnedTo ((r=room ∧ i=identity)) (s.removeParticipantTrack r i sid).1) := by
  obtain ⟨e,heq⟩ | ⟨p,d,t,hp,rfl,heq,hr⟩ := removeParticipantTrack_spec s r i sid
  · rw [heq]
    exact .of_same rfl (by simp [returnedTo,Except.toOption])
  · rw [heq]
    exact .replaced hgrow hlimit hp hr (.inr rfl) (.inr rfl)

theorem SnapshotStep.setParticipantTrackMuted {muted : Bool} :
    SnapshotStep seen (currentParticipant s room identity)
      (currentParticipant (s.setParticipantTrackMuted r i sid muted).2 room identity) [] := by
  rw [RoomStore.setParticipantTrackMuted]
  obtain ⟨e,heq⟩ | ⟨p,d,t,hp,he,heq,hr⟩ :=
    editParticipant_spec s r i (editTrack sid (fun k =>
      if k.muted=muted then none else some {k with muted}))
  · simp only [heq]
    exact .of_same rfl rfl
  · simp only [heq]
    exact .replaced hgrow hlimit hp hr (editTrack_version p d he) (.inl rfl)

theorem SnapshotStep.removeParticipantWithReason {re : ℕ} :
    SnapshotStep seen (currentParticipant s room identity)
      (currentParticipant (s.removeParticipantWithReason r i re now).2 room identity)
      (returnedTo ((r=room ∧ i=identity)) (s.removeParticipantWithReason r i re now).1) := by
  obtain ⟨e,-,heq⟩ | ⟨p,t,hp,heq,hr⟩ := removeParticipantWithReason_spec s r i re now
  · rw [heq]
    exact .of_same rfl (by simp [returnedTo,Except.toOption])
  · rw [heq]
    by_cases ha : r=room ∧ i=identity
    · obtain ⟨rfl,rfl⟩ := ha
      rw [hp] at hgrow
      rw [hr.self,hp]
      refine .renews (disconnected p re) ?_ (by simp [returnedTo,Except.toOption])
      exact hgrow.lt_saturatingSucc (hlimit.participant hp)
    · exact .of_same (hr.other (ha ∘ And.imp Eq.symm Eq.symm)) (by simp [returnedTo,ha])

end

/-- What the room store has to know for an identity that enters a room: a join finds the version
of every snapshot so far remembered, and a participant that is moved in is at least as new. -/
def RemembersVersions (s : RoomStore) (seen : List ParticipantInfo) (room identity : String) :
    RoomOperation→Prop
  | .joinParticipantWithPermission request _ =>
    request.room=room → request.identity=identity →
      ∀earlier∈seen++(currentParticipant s room identity).toList,
        (rememberedVersion s room identity).any (earlier.version≤·)
  | .moveParticipant r i destination _ =>
    r≠room → destination=room → i=identity →
      ∀earlier∈seen++(currentParticipant s room identity).toList,
        (currentParticipant s r identity).all (fun moved => earlier.version ≤ moved.version)
  | _ => True

instance (s : RoomStore) (seen : List ParticipantInfo) (room identity : String) :
    (operation : RoomOperation)→Decidable (RemembersVersions s seen room identity operation)
  | .joinParticipantWithPermission .. => inferInstanceAs (Decidable (_ → _ → ∀_∈_,_))
  | .moveParticipant .. => inferInstanceAs (Decidable (_ → _ → _ → ∀_∈_,_))
  | .createRoom .. | .storeRoomWithInternal .. | .updateRoomMetadata .. | .deleteRoom ..
  | .cleanupExpiredEmptyRooms .. | .removeParticipantWithReason .. | .getParticipant ..
  | .setParticipantKind .. | .addParticipantTrack .. | .setParticipantTrackMimeType ..
  | .setParticipantTrackMid .. | .setParticipantTrackSdpCid .. | .setParticipantTrackMuted ..
  | .removeParticipantTrack .. | .addParticipantDataTrack .. | .removeParticipantDataTrack ..
  | .updateParticipant .. | .setMediaTrackSubscribed .. | .setMediaTrackSubscribedByTrackSid ..
  | .setMediaTrackSubscribedByPublisherSid .. => isTrue trivial

theorem SnapshotStep.joinParticipantWithPermission {r : JoinRequest} (hlimit : Unsaturated s)
    (hr : RemembersVersions s seen room identity (.joinParticipantWithPermission r now)) :
    SnapshotStep seen (currentParticipant s room identity)
      (currentParticipant (s.joinParticipantWithPermission r now).2 room identity)
      (returnedSnapshots s room identity (.joinParticipantWithPermission r now)) := by
  obtain ⟨hp,hve,hc⟩ := ensureRoom_spec s r.room now
  simp only [returnedSnapshots,RoomStore.joinParticipantWithPermission]
  cases joinRefused (s.ensureRoom r.room now).1 r.identity with
  | true =>
    exact .of_same (hc room identity) rfl
  | false =>
    simp only [Bool.false_eq_true,if_false]
    rw [currentParticipant_setRoom]
    by_cases hroom : r.room=room
    · subst hroom
      have ha : ∀p,p.identity=r.identity →
          (admitParticipant (s.ensureRoom r.room now).1 p).participants.lookup
            identity=if identity=r.identity then some p
              else currentParticipant s r.room identity := by
        intro p hi
        rw [← hp,← hi]
        rfl
      rw [if_pos rfl,if_pos rfl,hp,ha _ rfl]
      by_cases hi : r.identity=identity
      · subst hi
        refine .renews ((s.ensureRoom r.room now).2.newParticipant
          (s.ensureRoom r.room now).1 r now) ?_ (by simp)
        intro e he
        obtain ⟨version,hv,hle⟩ : ∃version,
            rememberedVersion s r.room r.identity=some version ∧ e.version≤version := by
          have hany := hr rfl rfl e he
          cases hv : rememberedVersion s r.room r.identity with
          | none => simp [hv] at hany
          | some version => exact ⟨version,rfl,by simpa [hv] using hany⟩
        have hlt := hlimit.remembered hv
        change _<(((s.ensureRoom r.room now).1.participantVersions.lookup
          r.identity).map (saturatingSucc 32)).getD 0
        rw [hve,hv]
        change _ < min (version+1) _
        omega
      · rw [if_neg hi,if_neg (Ne.symm hi),append_nil]
        exact .keeps rfl (.inr rfl)
    · rw [if_neg hroom,if_neg (Ne.symm hroom)]
      exact .of_same (hc room identity) rfl

theorem SnapshotStep.moveParticipant {d : String}
    (hgrow : VersionsGrow (seen++(currentParticipant s room identity).toList))
    (hlimit : Unsaturated s)
    (hre : RemembersVersions s seen room identity (.moveParticipant r i d now)) :
    SnapshotStep seen (currentParticipant s room identity)
      (currentParticipant (s.moveParticipant r i d now).2 room identity)
      (returnedTo (((r=room ∨ d=room) ∧ i=identity)) (s.moveParticipant r i d now).1) := by
  rcases s.moveParticipant_cases r i d now with ⟨er,heq⟩ | ⟨source,p,record,hs,hp,hde,hrec,heq⟩
  · rw [heq]
    exact .of_same rfl (by simp [returnedTo,Except.toOption])
  · rw [heq]
    change SnapshotStep seen _ (currentParticipant ((s.setRoom r (moveOut source i now)).setRoom
      d (moveIn record i (newVersion p))) room identity) _
    rw [currentParticipant_moveIn hrec,currentParticipant_moveOut hs]
    have ht : currentParticipant s r i=some p := by
      rw [currentParticipant_of_lookup hs,hp]
    by_cases ha : (r=room ∨ d=room) ∧ i=identity
    · obtain ⟨hroom,rfl⟩ := ha
      refine .renews (newVersion p) ?_ ?_
      · by_cases hr : r=room
        · subst hr
          rw [ht] at hgrow ⊢
          exact hgrow.lt_saturatingSucc (hlimit.participant ht)
        · intro e he
          have hle : e.version≤p.version := by
            simpa [ht] using hre hr (hroom.resolve_left hr) rfl e he
          have hlt := hlimit.participant ht
          change _ < min (p.version+1) _
          omega
      · have hret : returnedTo (((r=room ∨ d=room) ∧ i=i)) (.ok (newVersion p))=[newVersion p] := by
          simp [returnedTo,hroom,Except.toOption]
        rw [hret]
        by_cases hd : room=d
        · simp [hd]
        · have hr : room=r := (hroom.resolve_right (Ne.symm hd)).symm
          rw [if_neg (fun h => hd h.1),if_pos ⟨hr,rfl⟩]
          simp
    · have hnot : ∀name,name=r ∨ name=d → ¬(room=name ∧ identity=i) := by
        rintro name hn ⟨rfl,rfl⟩
        exact ha ⟨hn.imp Eq.symm Eq.symm,rfl⟩
      rw [if_neg (hnot d (.inr rfl)),if_neg (hnot r (.inl rfl))]
      exact .keeps rfl (.inl (by simp [returnedTo,ha]))

theorem SnapshotStep.of_rooms (hr : t.rooms=s.rooms) :
    SnapshotStep seen (currentParticipant s room identity) (currentParticipant t room identity)
      [] := by
  refine .of_same ?_ rfl
  rw [currentParticipant,hr]
  rfl

variable (defaults : RoomDefaults) (room identity : String) (operations : List RoomOperation)

end OxideSfu.Rooms
