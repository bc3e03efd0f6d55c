import OxideSfu.RoomStore
import OxideSfu.StepRuns

/-!
# The revision of the subscription answers

Forwarding readers keep the answers of `can_subscribe_to_media_track` for as long as
`media_subscription_revision` shows the same number. A call keeps them right when it leaves
every answer as it was or counts the revision up.
-/

namespace OxideSfu.Rooms

open FiniteMaps RoomStore StepRuns FiniteMap Option

variable {s t : RoomStore}

def subscriberMay (s : RoomStore) (room subscriber : String) : Bool :=
  (s.rooms.lookup room).any (fun record => maySubscribe record subscriber)

theorem canSubscribeToMediaTrack_eq (s : RoomStore) (key : MediaTrackKey) :
    s.canSubscribeToMediaTrack key =
      (subscriberMay s key.room key.subscriber && key∉s.mediaUnsubscribed) := by
  rw [canSubscribeToMediaTrack,subscriberMay]
  cases s.rooms.lookup key.room <;> rfl

/-- From one store to the next either the revision counts up or no answer changes. -/
inductive Counted (s t : RoomStore) : Prop
  | counts (revision : t.mediaSubscriptionRevision=saturatingSucc 64 s.mediaSubscriptionRevision)
  | keeps (revision : t.mediaSubscriptionRevision=s.mediaSubscriptionRevision)
      (answers : ∀key,t.canSubscribeToMediaTrack key=s.canSubscribeToMediaTrack key)

theorem Counted.refl (s : RoomStore) : Counted s s := .keeps rfl (fun _ => rfl)

theorem Counted.of_may (hr : t.mediaSubscriptionRevision=s.mediaSubscriptionRevision)
    (hu : t.mediaUnsubscribed=s.mediaUnsubscribed)
    (hmay : ∀room u,subscriberMay t room u=subscriberMay s room u) :
    Counted s t := by
  refine .keeps hr (fun key => ?_)
  rw [canSubscribeToMediaTrack_eq,canSubscribeToMediaTrack_eq,hu,hmay]

theorem subscriberMay_of_lookup {room : String} {r : RoomRecord} (hr : s.rooms.lookup room=some r)
    (u : String) :
    subscriberMay s room u=maySubscribe r u := by
  rw [subscriberMay,hr]
  rfl

theorem subscriberMay_setRoom (s : RoomStore) (name : String) (r : RoomRecord) (room u : String) :
    subscriberMay (s.setRoom name r) room u =
      if room=name then maySubscribe r u else subscriberMay s room u := by
  rw [subscriberMay,setRoom,lookup_insert]
  split_ifs <;> rfl

variable (r : RoomRecord)

theorem maySubscribe_insert (i u : String) (p : ParticipantInfo) :
    maySubscribe {r with participants := r.participants.insert i p} u =
      if u=i then allowsSubscribe p.permission
      else maySubscribe r u := by
  rw [maySubscribe,lookup_insert]
  split_ifs <;> rfl

theorem maySubscribe_erase (i u : String) :
    maySubscribe {r with participants := r.participants.erase i} u =
      if u=i then true else maySubscribe r u := by
  rw [maySubscribe,lookup_erase]
  split_ifs <;> rfl

@[simp] theorem maySubscribe_afterDeparture (now : ℤ) (u : String) :
    maySubscribe (afterDeparture r now) u=maySubscribe r u := by
  rw [afterDeparture]
  split_ifs <;> rfl

/-- Dropping switched-off tracks counts; when nothing is dropped only permissions matter. -/
theorem Counted.retainUnsubscribed {keeps : MediaTrackKey→Bool}
    (hr : t.mediaSubscriptionRevision=s.mediaSubscriptionRevision)
    (hu : t.mediaUnsubscribed=s.mediaUnsubscribed)
    (h : (∃key∈s.mediaUnsubscribed,keeps key=false) ∨
      ∀room u,subscriberMay t room u=subscriberMay s room u) :
    Counted s (t.retainUnsubscribed keeps) := by
  rcases t.retainUnsubscribed_cases keeps with hc | hs
  · exact .counts (hr ▸ hc)
  · rw [hs]
    rcases h with ⟨key,hkey,hd⟩ | hmay
    · rw [← hu,← hs] at hkey
      simp [RoomStore.retainUnsubscribed,hd] at hkey
    · exact Counted.of_may hr hu hmay

theorem Counted.setSubscribed (s : RoomStore) (keys : Finset MediaTrackKey) (subscribed : Bool) :
    Counted s (s.setSubscribed keys subscribed) := by
  rcases s.setSubscribed_cases keys subscribed with hc | hs
  · exact .counts hc
  · rw [hs]
    exact .refl s

theorem subscriberMay_setRoom_of_same {name : String} {r record' : RoomRecord}
    (hl : s.rooms.lookup name=some r)
    (hmay : ∀u,maySubscribe record' u=maySubscribe r u) (room u : String) :
    subscriberMay (s.setRoom name record') room u=subscriberMay s room u := by
  rw [subscriberMay_setRoom]
  split_ifs with hr
  · rw [hr,subscriberMay_of_lookup hl,hmay]
  · rfl

theorem Counted.setRoom {name : String} {r record' : RoomRecord} (hl : s.rooms.lookup name=some r)
    (hmay : ∀u,maySubscribe record' u=maySubscribe r u) :
    Counted s (s.setRoom name record') :=
  .of_may rfl rfl (subscriberMay_setRoom_of_same hl hmay)

theorem maySubscribe_edited {r : RoomRecord} {i : String} {p d : ParticipantInfo}
    (hp : r.participants.lookup i=some p) (hpe : d.permission=p.permission) (u : String) :
    maySubscribe {r with participants := r.participants.insert i d} u=maySubscribe r u := by
  rw [maySubscribe_insert]
  split_ifs with hs
  · rw [hpe,hs,maySubscribe,hp]
    rfl
  · rfl

theorem Counted.editParticipant (s : RoomStore) (room i : String)
    {edit : ParticipantInfo→Except RoomStoreError ParticipantInfo}
    (hed : ∀p d,edit p = .ok d → d.permission=p.permission) :
    Counted s (s.editParticipant room i edit).2 := by
  rcases s.editParticipant_cases room i edit with ⟨e,heq⟩ | ⟨r,p,d,hr,hp,he,heq⟩
  · rw [heq]
    exact .refl s
  · rw [heq]
    exact Counted.setRoom hr (maySubscribe_edited hp (hed p d he))

theorem editTrack_permission {sid : String} {edit : TrackInfo→Option TrackInfo}
    (p d : ParticipantInfo) (he : editTrack sid edit p = .ok d) :
    d.permission=p.permission := by
  rw [editTrack] at he
  split at he
  · cases he
  · split at he
    · obtain rfl := Except.ok.inj he
      rfl
    · obtain rfl := Except.ok.inj he
      rfl

def ParticipantIn (s : RoomStore) (room identity : String) : Prop :=
  ∃record,s.rooms.lookup room=some record ∧ identity∈record.participants.keys

def Unrestricted (s : RoomStore) (room identity : String) : Prop :=
  ∀record,s.rooms.lookup room=some record → maySubscribe record identity

/-- Somebody in the room has switched off a track of the identity, or the identity one. -/
def HasUnsubscribed (s : RoomStore) (room identity : String) : Prop :=
  ∃key∈s.mediaUnsubscribed,notOfParticipant room identity key=false

/-- The condition under which a call keeps the revision and the answers together. Calls that
switch tracks, edit participants or update permissions always do. -/
def KeepsCount (s : RoomStore) : RoomOperation→Prop
  | .createRoom request _ => request.name∈s.rooms.keys
  | .storeRoomWithInternal room _ => room.name = "" ∨ room.name∈s.rooms.keys
  | .deleteRoom room => room∈s.rooms.keys → ∃key∈s.mediaUnsubscribed,key.room=room
  | .cleanupExpiredEmptyRooms defaultEmptyAgeMs now =>
    ∀room record,s.rooms.lookup room=some record →
      keepRoom defaultEmptyAgeMs now record
  | .joinParticipantWithPermission request _ =>
    ∃record,s.rooms.lookup request.room=some record ∧
      (joinRefused record request.identity ∨
        allowsSubscribe request.permission=maySubscribe record request.identity)
  | .removeParticipantWithReason room identity _ _ =>
    ParticipantIn s room identity →
      Unrestricted s room identity ∨ HasUnsubscribed s room identity
  | .moveParticipant room identity destination _ =>
    ParticipantIn s room identity → destination∈s.rooms.keys →
      room=destination ∨ HasUnsubscribed s room identity ∨
      (Unrestricted s room identity ∧ Unrestricted s destination identity)
  | _ => True

variable {now : ℤ}

theorem Counted.createRoom {r : CreateRoomRequest}
    (h : KeepsCount s (.createRoom r now)) : Counted s (s.createRoom r now).2 := by
  obtain ⟨rc,hr⟩ := isSome_iff_exists.mp ((s.rooms.mem_keys _).mp h)
  rw [RoomStore.createRoom,hr]
  exact .refl s

theorem Counted.storeRoomWithInternal {room : Room}
    (h : KeepsCount s (.storeRoomWithInternal room now)) :
    Counted s (s.storeRoomWithInternal room now).2 := by
  rw [RoomStore.storeRoomWithInternal]
  split_ifs with hn
  · exact .refl s
  · obtain ⟨r,hr⟩ := isSome_iff_exists.mp ((s.rooms.mem_keys _).mp (h.resolve_left hn))
    rw [hr]
    exact Counted.setRoom hr (fun _ => rfl)

theorem Counted.updateRoomMetadata (s : RoomStore) (room m : String) :
    Counted s (s.updateRoomMetadata room m).2 := by
  rw [RoomStore.updateRoomMetadata]
  cases hr : s.rooms.lookup room with
  | none => exact .refl s
  | some r => exact Counted.setRoom hr (fun _ => rfl)

variable (i : String) (p : ParticipantInfo) {room : String}

theorem Counted.deleteRoom (h : KeepsCount s (.deleteRoom room)) :
    Counted s (s.deleteRoom room).2 := by
  rw [RoomStore.deleteRoom]
  cases hr : s.rooms.lookup room with
  | none => exact .refl s
  | some r =>
    obtain ⟨key,hkey,hroom⟩ := h (mem_keys_of_lookup hr)
    exact Counted.retainUnsubscribed rfl rfl (.inl ⟨key,hkey,by simp [hroom]⟩)

theorem Counted.cleanupExpiredEmptyRooms {ms : ℤ}
    (h : KeepsCount s (.cleanupExpiredEmptyRooms ms now)) :
    Counted s (s.cleanupExpiredEmptyRooms ms now) := by
  have hs : (s.rooms.filter (fun _ r => keepRoom ms now r))=s.rooms := by
    ext1 room
    rw [lookup_filter]
    cases hr : s.rooms.lookup room with
    | none => rfl
    | some r => exact filter_some_pos (h room r hr)
  rw [RoomStore.cleanupExpiredEmptyRooms,hs]
  exact .refl s

theorem maySubscribe_admitParticipant (u : String) :
    maySubscribe (admitParticipant r p) u =
      if u=p.identity then allowsSubscribe p.permission
      else maySubscribe r u := by
  rw [← maySubscribe_insert]
  rfl

theorem Counted.joinParticipantWithPermission {r : JoinRequest}
    (h : KeepsCount s (.joinParticipantWithPermission r now)) :
    Counted s (s.joinParticipantWithPermission r now).2 := by
  obtain ⟨rc,hr,ha⟩ := h
  rw [RoomStore.joinParticipantWithPermission,ensureRoom_of_lookup hr]
  cases hre : joinRefused rc r.identity with
  | true =>
    simp only [hre,if_true]
    exact .refl s
  | false =>
    simp only [hre,Bool.false_eq_true,false_or,if_false] at ha ⊢
    refine Counted.of_may rfl rfl (fun room u => ?_)
    rw [subscriberMay_setRoom]
    split_ifs with hroom
    · rw [hroom,subscriberMay_of_lookup hr,maySubscribe_admitParticipant]
      split_ifs with hs
      · have hi : u=r.identity := hs
        rw [hi,← ha]
        rfl
      · rfl
    · rfl

theorem maySubscribe_moveOut (now : ℤ) (u : String) :
    maySubscribe (moveOut r i now) u =
      if u=i then true else maySubscribe r u := by
  rw [moveOut,maySubscribe_afterDeparture,maySubscribe_erase]

theorem maySubscribe_dismissParticipant (last : ParticipantInfo) (now : ℤ) (u : String) :
    maySubscribe (dismissParticipant r i last now) u =
      if u=i then true else maySubscribe r u := by
  rw [dismissParticipant,maySubscribe_afterDeparture,← maySubscribe_erase]
  rfl

theorem maySubscribe_moveIn (u : String) :
    maySubscribe (moveIn r i p) u =
      if u=i then allowsSubscribe p.permission
      else maySubscribe r u := by
  rw [← maySubscribe_insert]
  rfl

theorem Counted.removeParticipantWithReason {i : String} {re : ℕ}
    (h : KeepsCount s (.removeParticipantWithReason room i re now)) :
    Counted s (s.removeParticipantWithReason room i re now).2 := by
  rcases s.removeParticipantWithReason_cases room i re now with ⟨e,heq⟩ | ⟨r,p,hr,hp,heq⟩
  · rw [heq]
    exact .refl s
  · rw [heq]
    refine Counted.retainUnsubscribed rfl rfl ?_
    rcases h ⟨r,hr,mem_keys_of_lookup hp⟩ with hf | hd
    · refine .inr (fun o u => ?_)
      rw [subscriberMay_setRoom]
      split_ifs with ho
      · rw [ho,subscriberMay_of_lookup hr,maySubscribe_dismissParticipant]
        split_ifs with hs
        · rw [hs,hf r hr]
        · rfl
      · rfl
    · exact .inl hd

theorem Counted.moveParticipant {i d : String} (h : KeepsCount s (.moveParticipant room i d now)) :
    Counted s (s.moveParticipant room i d now).2 := by
  rcases s.moveParticipant_cases room i d now with ⟨e,heq⟩ | ⟨c,p,r,hso,hp,hd,hr,heq⟩
  · rw [heq]
    exact .refl s
  · rw [heq]
    refine Counted.retainUnsubscribed rfl rfl ?_
    have hpe : allowsSubscribe (newVersion p).permission=maySubscribe c i := by
      rw [maySubscribe,hp]
      rfl
    rw [RoomStore.setRoom,lookup_insert] at hr
    rcases h ⟨c,hso,mem_keys_of_lookup hp⟩ hd with
      rfl | hdr | ⟨hf,hf'⟩
    · refine .inr (fun o u => ?_)
      rw [if_pos rfl] at hr
      obtain rfl := some.inj hr
      rw [subscriberMay_setRoom,subscriberMay_setRoom]
      split_ifs with ho
      · rw [ho,subscriberMay_of_lookup hso,maySubscribe_moveIn,maySubscribe_moveOut,hpe]
        split_ifs with hs
        · rw [hs]
        · rfl
      · rfl
    · exact .inl hdr
    · have hot : ∀u≠i,maySubscribe r u=subscriberMay s d u := by
        intro u hs
        split_ifs at hr with hroom
        · obtain rfl := some.inj hr
          rw [maySubscribe_moveOut,if_neg hs,hroom,subscriberMay_of_lookup hso]
        · rw [subscriberMay_of_lookup hr]
      have ht : subscriberMay s d i := by
        obtain ⟨there,ht⟩ := isSome_iff_exists.mp ((s.rooms.mem_keys _).mp hd)
        rw [subscriberMay_of_lookup ht,hf' there ht]
      refine .inr (fun o u => ?_)
      rw [subscriberMay_setRoom,subscriberMay_setRoom]
      split_ifs with ho hroom
      · rw [ho,maySubscribe_moveIn,hpe]
        split_ifs with hs
        · rw [hs,ht,hf c hso]
        · exact hot u hs
      · rw [hroom,subscriberMay_of_lookup hso,maySubscribe_moveOut]
        split_ifs with hs
        · rw [hs,hf c hso]
        · rfl
      · rfl

theorem updatedParticipant_permission {p : ParticipantInfo} {u : ParticipantUpdate}
    (h : changesPermission p u=false) :
    (updatedParticipant p u).permission=p.permission := by
  have hf : (updateFields p u).permission=p.permission := by
    simp only [updateFields,h,Bool.false_eq_true,if_false]
    rfl
  rw [updatedParticipant]
  split_ifs
  · exact hf
  · exact hf

theorem maySubscribe_updatedRecord (updated : ParticipantInfo) (u : String) :
    maySubscribe (updatedRecord r i p updated) u =
      if u=i then allowsSubscribe updated.permission
      else maySubscribe r u := by
  rw [← maySubscribe_insert,updatedRecord]
  split_ifs <;> rfl

namespace Counted

theorem updateParticipant (s : RoomStore) (room i : String)
    (u : ParticipantUpdate) : Counted s (s.updateParticipant room i u).2 := by
  rcases s.updateParticipant_cases room i u with ⟨e,heq⟩ | ⟨r,p,hr,hp,heq⟩
  · rw [heq]
    exact .refl s
  · rw [heq]
    cases hc : changesPermission p u with
    | true => exact .counts rfl
    | false =>
      refine setRoom hr (fun subscriber => ?_)
      rw [maySubscribe_updatedRecord,updatedParticipant_permission hc]
      split_ifs with hs
      · rw [hs,maySubscribe,hp]
        rfl
      · rfl

theorem removeParticipantTrack (s : RoomStore) (room i sid : String) :
    Counted s (s.removeParticipantTrack room i sid).2 := by
  rcases s.removeParticipantTrack_cases room i sid with ⟨e,heq⟩ | ⟨r,p,edited,hr,hp,rfl,heq⟩
  · rw [heq]
    exact .refl s
  · rw [heq]
    exact retainUnsubscribed rfl rfl
      (.inr (subscriberMay_setRoom_of_same hr (maySubscribe_edited hp rfl)))

theorem switches {named : MediaTrackKey→Prop} {subscribed : Bool}
    (h : Switches s t named subscribed) : Counted s t := by
  rcases h with rfl | ⟨keys,rfl,-⟩
  · exact .refl t
  · exact .setSubscribed s keys subscribed

theorem apply {op : RoomOperation} (h : KeepsCount s op) : Counted s (s.apply op) := by
  cases op with
  | createRoom r now => exact createRoom h
  | storeRoomWithInternal room now => exact storeRoomWithInternal h
  | updateRoomMetadata room m => exact updateRoomMetadata s room m
  | deleteRoom room => exact deleteRoom h
  | cleanupExpiredEmptyRooms ms now => exact cleanupExpiredEmptyRooms h
  | joinParticipantWithPermission r now => exact joinParticipantWithPermission h
  | removeParticipantWithReason room i re now =>
    exact removeParticipantWithReason h
  | moveParticipant room i d now => exact moveParticipant h
  | getParticipant room i => exact .refl s
  | setParticipantTrackMimeType | setParticipantTrackMid | setParticipantTrackSdpCid
  | setParticipantTrackMuted => exact editParticipant s _ _ editTrack_permission
  | removeParticipantTrack room i sid =>
    exact removeParticipantTrack s room i sid
  | updateParticipant room i u => exact updateParticipant s room i u
  | setMediaTrackSubscribed => exact .switches (s.switches_setMediaTrackSubscribed ..)
  | setMediaTrackSubscribedByTrackSid =>
    exact .switches (s.switches_setMediaTrackSubscribedByTrackSid ..)
  | setMediaTrackSubscribedByPublisherSid =>
    exact .switches (s.switches_setMediaTrackSubscribedByPublisherSid ..)
  | _ =>
    refine editParticipant s _ _ (fun p ed he => ?_)
    obtain rfl := Except.ok.inj he
    rfl

end Counted

/-- The condition on a call, with a revision that can still count up. -/
def CountsAnswers (s : RoomStore) (operation : RoomOperation) : Prop :=
  s.mediaSubscriptionRevision<2^64-1 ∧ KeepsCount s operation

theorem saturatingSucc_of_lt {bits n : ℕ} (h : n<2^bits-1) : saturatingSucc bits n=n+1 := by
  rw [saturatingSucc]
  omega

/-- Along a run the revision never falls, and while it stays no answer changes. -/
theorem revision_run (defaults : RoomDefaults) (ops l : List RoomOperation)
    (hc : AtEveryStep (fun e op =>
      CountsAnswers (storeAfter defaults (ops++e)) op) l) :
    let s := storeAfter defaults ops
    let t := storeAfter defaults (ops++l)
    s.mediaSubscriptionRevision<t.mediaSubscriptionRevision ∨
      (t.mediaSubscriptionRevision=s.mediaSubscriptionRevision ∧
        ∀key,t.canSubscribeToMediaTrack key=s.canSubscribeToMediaTrack key) := by
  induction l using List.reverseRecOn with
  | nil => exact .inr (by simp)
  | append_singleton l op ih =>
    rw [atEveryStep_concat] at hc
    obtain ⟨hl,hu,hk⟩ := hc
    have hs := Counted.apply hk
    simp only [← List.append_assoc,storeAfter_concat]
    rcases hs with hco | ⟨hsame,ha⟩
    · rw [hco,saturatingSucc_of_lt hu]
      rcases ih hl with hle | ⟨he,-⟩
      · exact .inl (by omega)
      · exact .inl (by omega)
    · rcases ih hl with hle | ⟨he,hke⟩
      · exact .inl (by omega)
      · exact .inr ⟨hsame.trans he,fun key => (ha key).trans (hke key)⟩

/-- Between two states of a run in which every call in between meets its condition, an equal
revision means that every answer is the same. -/
theorem canSubscribe_eq_of_revision_eq (defaults : RoomDefaults)
    (operations later : List RoomOperation)
    (hcounts : AtEveryStep (fun earlier operation =>
      CountsAnswers (storeAfter defaults (operations ++ earlier)) operation) later)
    (hrevision : (storeAfter defaults (operations ++ later)).mediaSubscriptionRevision =
      (storeAfter defaults operations).mediaSubscriptionRevision) (key : MediaTrackKey) :
    (storeAfter defaults (operations ++ later)).canSubscribeToMediaTrack key =
      (storeAfter defaults operations).canSubscribeToMediaTrack key := by
  rcases revision_run defaults operations later hcounts with hl | ⟨-,ha⟩
  · omega
  · exact ha key

def joinAs (identity : String) (permission : Option ParticipantPermission) : RoomOperation :=
  .joinParticipantWithPermission ⟨"room",identity,"","",.empty,permission⟩ 0

def listener (canSubscribe : Bool) : ParticipantPermission :=
  ⟨canSubscribe,true,true,false,true,true,true,[]⟩

/-- A participant joins with a permission to subscribe, which it would have had anyway. -/
theorem canSubscribe_eq_after_join :
    (storeAfter {} ([joinAs "alice" none] ++ [joinAs "bob" (some (listener true))])
      ).canSubscribeToMediaTrack ⟨"room", "alice", "TR", "bob"⟩ =
      (storeAfter {} [joinAs "alice" none]).canSubscribeToMediaTrack
        ⟨"room", "alice", "TR", "bob"⟩ := by
  refine canSubscribe_eq_of_revision_eq {} [joinAs "alice" none]
    [joinAs "bob" (some (listener true))] ?_ (by decide +kernel) _
  refine (atEveryStep_concat _ [] _).mpr ⟨atEveryStep_nil _,by decide +kernel,?_⟩
  exact ⟨_,rfl,.inr (by decide +kernel)⟩

/-- A participant joins again, now without the permission to subscribe: the answer changes
and the revision does not. -/
theorem revision_misses_replacing_join :
    let before := storeAfter {} [joinAs "alice" none,joinAs "bob" none]
    let after := storeAfter {}
      ([joinAs "alice" none,joinAs "bob" none]++[joinAs "bob" (some (listener false))])
    after.mediaSubscriptionRevision=before.mediaSubscriptionRevision ∧
      before.canSubscribeToMediaTrack ⟨"room","alice","TR","bob"⟩=true ∧
      after.canSubscribeToMediaTrack ⟨"room","alice","TR","bob"⟩=false := by
  decide +kernel

end OxideSfu.Rooms
