import OxideSfu.MediaNegotiation
import OxideSfu.RoomPublications
import Mathlib.Data.Fintype.EquivFin

/-!
# Explicit unsubscription

A request for a media section, a forwarding entry or a transport could bring back a track that was
unsubscribed. Without such a request it stays away through every handler but the first offer of the
server to a dual-PC subscriber, which attaches every track of the room.
-/

namespace OxideSfu.Signaling

open FiniteMaps Rooms ForwardTracks StepRuns FiniteMap RoomStore SignalState MediaSubscriptionStore
  Iteration Finset Option Prod

variable {T : Type} (st : ForwardTrackStore T)

section

/-- The track is marked subscribed: explicitly or, while it is published, by default in one of
the stores. -/
def SignalState.markedSubscribed (s : SignalState T) (key : MediaTrackKey) : Bool :=
  s.context.mediaSubscriptions.explicitSubscription key=some true ||
    (publishes s.context.rooms key.room key.publisher key.trackSid &&
      (s.context.mediaSubscriptions.isSubscribed key ||
        s.context.rooms.isMediaTrackSubscribed key))

def SignalState.attachedFor (s : SignalState T) (key : MediaTrackKey) : Bool :=
  (s.forwardTracks.tracks.lookup (forwardKey key)).isSome

/-- Nothing is left of a subscription, and nothing will bring it back. -/
structure Unsubscribed (k : MediaTrackKey) (s : SignalState T) : Prop where
  keyed : Keyed s.context.rooms
  marked : publishes s.context.rooms k.room k.publisher k.trackSid →
    s.context.mediaSubscriptions.explicitSubscription k=some false ∧
      k∈s.context.rooms.mediaUnsubscribed
  unmarked : s.context.mediaSubscriptions.explicitSubscription k≠some true
  idle : k∉s.mediaForwarding
  detached : s.forwardTracks.tracks.lookup (forwardKey k)=none
  unrequested : s.pendingMediaSectionRequests.lookup k=none

open Unsubscribed

variable {s : SignalState T} {k key : MediaTrackKey} {subscribed : Bool}

theorem forwardKey_inj : forwardKey k=forwardKey key ↔ k=key := by
  constructor
  · intro h
    cases k
    cases key
    simpa [forwardKey] using h
  · rintro rfl
    rfl

section

variable (h : Unsubscribed k s)

include h

namespace Unsubscribed

theorem markedSubscribed : s.markedSubscribed k=false := by
  rw [SignalState.markedSubscribed,decide_eq_false h.unmarked]
  cases hp : publishes s.context.rooms k.room k.publisher k.trackSid with
  | false => rfl
  | true =>
    obtain ⟨he,hmem⟩ := h.marked hp
    simp [isSubscribed,isSubscribedWithDefault,he,isMediaTrackSubscribed,hmem]

theorem attachedFor : s.attachedFor k=false := by
  rw [SignalState.attachedFor,h.detached]
  rfl

theorem of_same {t : SignalState T} (hc : t.context=s.context)
    (hf : t.mediaForwarding=s.mediaForwarding)
    (hp : t.pendingMediaSectionRequests=s.pendingMediaSectionRequests)
    (ht : t.forwardTracks=s.forwardTracks) : Unsubscribed k t where
  keyed := hc ▸ h.keyed
  marked := hc ▸ h.marked
  unmarked := hc ▸ h.unmarked
  idle := hf ▸ h.idle
  detached := ht ▸ h.detached
  unrequested := hp ▸ h.unrequested

/-- An explicit entry changes, for the better if it is the one of the track. -/
theorem setSubscribed (hkey : subscribed → key≠k) :
    Unsubscribed k (s.setSubscribed key subscribed) := by
  have he :
      (s.setSubscribed key subscribed).context.mediaSubscriptions.explicitSubscription k =
        if k=key then some subscribed
        else s.context.mediaSubscriptions.explicitSubscription k := rfl
  by_cases hk : k=key
  · have hf : subscribed=false := by
      rw [← Bool.not_eq_true]
      exact fun ht => hkey ht hk.symm
    rw [if_pos hk,hf] at he
    refine {h with
      marked := fun hp => ⟨hf ▸ he,(h.marked hp).2⟩,unmarked := ?_}
    rw [hf,he]
    simp
  · rw [if_neg hk] at he
    exact {h with
      marked := fun hp => ⟨he.trans (h.marked hp).1,(h.marked hp).2⟩
      unmarked := he ▸ h.unmarked}

theorem setSubscribed_false (key : MediaTrackKey) : Unsubscribed k (s.setSubscribed key false) :=
  h.setSubscribed (fun ht => absurd ht Bool.false_ne_true)

theorem setSubscribed_of_ne (hkey : key≠k) (subscribed : Bool) :
    Unsubscribed k (s.setSubscribed key subscribed) :=
  h.setSubscribed (fun _ => hkey)

end Unsubscribed

variable {rooms : RoomStore}

namespace Unsubscribed

theorem withRooms (hk : Keyed rooms)
    (hpu : publishes rooms k.room k.publisher k.trackSid →
      publishes s.context.rooms k.room k.publisher k.trackSid)
    (hmem : publishes rooms k.room k.publisher k.trackSid →
      k∈s.context.rooms.mediaUnsubscribed → k∈rooms.mediaUnsubscribed) :
    Unsubscribed k (s.withRooms rooms) where
  keyed := hk
  marked hp := ⟨(h.marked (hpu hp)).1,hmem hp (h.marked (hpu hp)).2⟩
  unmarked := h.unmarked
  idle := h.idle
  detached := h.detached
  unrequested := h.unrequested

theorem switch {named : MediaTrackKey→Prop}
    (hs : RoomStore.Switches s.context.rooms rooms named subscribed)
    (hkey : subscribed → ¬named k) : Unsubscribed k (s.withRooms rooms) :=
  h.withRooms (h.keyed.of_rooms hs.rooms)
    (fun hp => publishes_congr hs.rooms _ _ _ ▸ hp)
    (fun _ hmem => hs.mem_mediaUnsubscribed hkey hmem)

theorem setRoomSubscribed (hkey : subscribed → key≠k) :
    Unsubscribed k (s.setRoomSubscribed key subscribed) :=
  h.switch (switches_setMediaTrackSubscribed s.context.rooms key subscribed)
    (fun hs hk => hkey hs hk.symm)

theorem setRoomSubscribed_false (key : MediaTrackKey) :
    Unsubscribed k (s.setRoomSubscribed key false) :=
  h.setRoomSubscribed (fun ht => absurd ht Bool.false_ne_true)

theorem setRoomSubscribed_of_ne (hkey : key≠k) (subscribed : Bool) :
    Unsubscribed k (s.setRoomSubscribed key subscribed) :=
  h.setRoomSubscribed (fun _ => hkey)

theorem removePreferences (key : MediaTrackKey) :
    Unsubscribed k (s.removePreferences key) := {h with}

theorem insertForwarding (hkey : key≠k) : Unsubscribed k (s.insertForwarding key) :=
  {h with idle := fun hmem => (mem_insert.mp hmem).elim (fun hk => hkey hk.symm) h.idle}

theorem removeForwarding (key : MediaTrackKey) : Unsubscribed k (s.removeForwarding key) :=
  {h with idle := fun hmem => h.idle (mem_of_mem_erase hmem)}

theorem requestSection (hkey : key≠k) (kind : MediaKind) :
    Unsubscribed k (s.requestSection key kind) :=
  {h with unrequested := (if_neg (Ne.symm hkey)).trans h.unrequested}

theorem dropSectionRequest (key : MediaTrackKey) : Unsubscribed k (s.dropSectionRequest key) := by
  refine {h with unrequested := ?_}
  rw [SignalState.dropSectionRequest,lookup_erase,h.unrequested,ite_self]

theorem withForwardTracks {st : ForwardTrackStore T} (hs : st.tracks.lookup (forwardKey k)=none) :
    Unsubscribed k {s with forwardTracks := st} :=
  {h with detached := hs}

theorem attach (hkey : key≠k) (tr : T) : Unsubscribed k (s.attach key tr) :=
  h.withForwardTracks ((if_neg (fun hk => hkey (forwardKey_inj.mp hk).symm)).trans h.detached)

end Unsubscribed

end

theorem tracks_remove (k : ForwardTrackKey) : (st.remove k).tracks=st.tracks.erase k :=
  ForwardTrackStore.bumpRevisionIf_tracks _ _

theorem Unsubscribed.detach (h : Unsubscribed k s) (key : MediaTrackKey) :
    Unsubscribed k (s.detach key) := by
  refine h.withForwardTracks ?_
  rw [tracks_remove,lookup_erase,h.detached,ite_self]

end

section

variable {s t : SignalState T} {world : Surroundings T} {room q trackSid : String}
  {participant : ParticipantInfo} {tr : TrackInfo} (hk : Keyed s.context.rooms)
include hk

theorem publishes_of_mem_participantsOf
    (hmem : participant∈s.participantsOf world room) (ht : tr∈participant.tracks) :
    publishes s.context.rooms room participant.identity tr.sid := by
  rw [participantsOf] at hmem
  cases hr : s.context.rooms.rooms.lookup room with
  | none =>
    rw [hr] at hmem
    cases hmem
  | some record =>
    rw [hr] at hmem
    obtain ⟨⟨identity,found⟩,he,hf⟩ := List.mem_map.mp hmem
    obtain rfl : found=participant := hf
    have hl := mem_entries.mp he
    rw [hk room record hr identity found hl]
    exact publishes_of_mem hr hl ht

theorem publishes_of_mem_tracksOfOthers {identity : String}
    (hmem : (q,tr)∈s.tracksOfOthers world room identity) :
    publishes s.context.rooms room q tr.sid := by
  obtain ⟨participant,hp,ht⟩ := List.mem_flatMap.mp hmem
  obtain ⟨found,hf,heq⟩ := List.mem_map.mp ht
  obtain ⟨rfl,rfl⟩ := mk.inj heq
  exact publishes_of_mem_participantsOf hk (List.mem_of_mem_filter hp) hf

theorem findMediaTrackPublisher_spec
    (hfo : s.findMediaTrackPublisher world room trackSid=some (q,tr)) :
    tr.sid=trackSid ∧ publishes s.context.rooms room q trackSid := by
  obtain ⟨participant,hp,hs⟩ := List.exists_of_findSome?_eq_some hfo
  obtain ⟨found,hf,heq⟩ := map_eq_some_iff.mp hs
  obtain ⟨rfl,rfl⟩ := mk.inj heq
  have hsid : found.sid=trackSid := by simpa using List.find?_some hf
  refine ⟨hsid,?_⟩
  rw [← hsid]
  exact publishes_of_mem_participantsOf hk hp (List.mem_of_find?_eq_some hf)

omit hk

variable (hr : t.context.rooms.rooms=s.context.rooms.rooms)
include hr

theorem participantsOf_congr :
    t.participantsOf world room=s.participantsOf world room := by
  rw [participantsOf,participantsOf,hr]

theorem findMediaTrackPublisher_congr :
    t.findMediaTrackPublisher world room trackSid =
      s.findMediaTrackPublisher world room trackSid := by
  rw [findMediaTrackPublisher,findMediaTrackPublisher,participantsOf_congr hr]

omit hr

variable {k : MediaTrackKey} {limited : Bool}

theorem subscribedByDefault_of_explicit {b : Bool}
    (h : s.context.mediaSubscriptions.explicitSubscription k=some b) :
    s.subscribedByDefault k=b := by
  rw [subscribedByDefault,isSubscribedWithDefault,h]
  rfl

/-- What decides about a subscription request and does not change while requests are served. -/
structure SameRooms (s t : SignalState T) : Prop where
  records : t.context.rooms.rooms=s.context.rooms.rooms
  permissions : t.subscribePermissions=s.subscribePermissions
  mimeTypes : t.participantSubscribeVideoMimeTypes=s.participantSubscribeVideoMimeTypes

theorem SameRooms.refl (s : SignalState T) : SameRooms s s := ⟨rfl,rfl,rfl⟩

theorem sameRooms_ensureForReceiver (v : String × SignalState.MediaForwardingConnectionKind) :
    SameRooms s (s.ensureForReceiver limited world room q tr v).2 := by
  rw [ensureForReceiver]
  split_ifs
  all_goals try exact .refl s
  · exact ⟨rfl,rfl,rfl⟩
  · split
    · exact ⟨rfl,rfl,rfl⟩
    · split <;> exact ⟨rfl,rfl,rfl⟩

theorem SameRooms.trans {t u : SignalState T} (hst : SameRooms s t) (htu : SameRooms t u) :
    SameRooms s u :=
  ⟨htu.records.trans hst.records,htu.permissions.trans hst.permissions,
    htu.mimeTypes.trans hst.mimeTypes⟩

theorem SameRooms.publishes {t : SignalState T} (h : SameRooms s t) (room q sid : String) :
    publishes t.context.rooms room q sid=publishes s.context.rooms room q sid :=
  publishes_congr h.records room q sid

theorem Unsubscribed.ensureForReceiver (h : Unsubscribed k s)
    (v : String × SignalState.MediaForwardingConnectionKind)
    (hp : room=k.room → q=k.publisher → tr.sid=k.trackSid →
      publishes s.context.rooms k.room k.publisher k.trackSid) :
    Unsubscribed k (s.ensureForReceiver limited world room q tr v).2 := by
  by_cases hkey : (⟨room,q,tr.sid,v.1⟩ : MediaTrackKey)=k
  · subst hkey
    have he := (h.marked (hp rfl rfl rfl)).1
    have hs : (s.ensureForReceiver limited world room q tr v).2=s := by
      simp only [ensureForReceiver,subscribedByDefault_of_explicit he,
        he,Bool.not_false,if_true,isNone_some,Bool.false_eq_true,if_false,
        ite_self]
    rw [hs]
    exact h
  · rw [SignalState.ensureForReceiver]
    split_ifs
    · exact h
    · exact h.setSubscribed_false _
    · exact h
    · exact h
    · exact h
    · split
      · exact h.requestSection hkey _
      · split
        · exact h.insertForwarding hkey
        · exact (h.insertForwarding hkey).attach hkey _

theorem sameRooms_ensureForReceivers :
    SameRooms s (s.ensureForReceivers limited world room q tr).2 := by
  rw [ensureForReceivers]
  split_ifs
  · exact .refl s
  · split
    · exact .refl s
    · exact execWhile_invariant _ (SameRooms s) _
        (fun t v _ ht => ht.trans (sameRooms_ensureForReceiver v)) (.refl s)

theorem Unsubscribed.ensureForReceivers (h : Unsubscribed k s)
    (hp : room=k.room → q=k.publisher → tr.sid=k.trackSid →
      publishes s.context.rooms k.room k.publisher k.trackSid) :
    Unsubscribed k (s.ensureForReceivers limited world room q tr).2 := by
  rw [SignalState.ensureForReceivers]
  split_ifs
  · exact h
  · split
    · exact h
    · -- the loop does not touch the rooms, so the track stays published in it
      refine (execWhile_invariant _ (fun t => Unsubscribed k t ∧ SameRooms s t) _
        (fun t v _ ht => ?_) ⟨h,.refl s⟩).1
      refine ⟨ht.1.ensureForReceiver v ?_,ht.2.trans (sameRooms_ensureForReceiver v)⟩
      rw [ht.2.publishes]
      exact hp

theorem Unsubscribed.ensureExistingMediaForwardingForSubscriber (h : Unsubscribed k s)
    (u : String) :
    Unsubscribed k (s.ensureExistingMediaForwardingForSubscriber world room u) := by
  refine (List.foldlRecOn (motive := fun t => Unsubscribed k t ∧ SameRooms s t) _ _
    ⟨h,.refl s⟩ (fun t ht published hmem => ?_)).1
  refine ⟨ht.1.ensureForReceivers (fun hr hpu hsid => ?_),ht.2.trans sameRooms_ensureForReceivers⟩
  have hp := publishes_of_mem_tracksOfOthers h.keyed hmem
  rw [ht.2.publishes,← hr,← hpu,← hsid]
  exact hp

end

section

variable {s : SignalState T} {k : MediaTrackKey} {world : Surroundings T}
  {room u trackSid : String}

theorem Unsubscribed.rejectUnsupported (h : Unsubscribed k s) (key : MediaTrackKey) :
    Unsubscribed k (s.rejectUnsupported key) :=
  ((h.setSubscribed_false key).setRoomSubscribed_false key).detach key

theorem Unsubscribed.unsubscribeFrom (h : Unsubscribed k s) (key : MediaTrackKey) :
    Unsubscribed k (s.unsubscribeFrom key) :=
  ((((h.setSubscribed_false key).removePreferences key).removeForwarding
    key).setRoomSubscribed_false key).detach key

variable (s)

variable (key : MediaTrackKey)

theorem roomRecords_setRoomSubscribed (subscribed : Bool) :
    (s.setRoomSubscribed key subscribed).context.rooms.rooms=s.context.rooms.rooms :=
  (switches_setMediaTrackSubscribed s.context.rooms key subscribed).rooms

theorem sameRooms_setSubscribed (subscribed : Bool) :
    SameRooms s (s.setSubscribed key subscribed) := ⟨rfl,rfl,rfl⟩

theorem sameRooms_unsubscribeFrom :
    SameRooms s (s.unsubscribeFrom key) where
  records := roomRecords_setRoomSubscribed
    (((s.setSubscribed key false).removePreferences key).removeForwarding key) key false
  permissions := rfl
  mimeTypes := rfl

variable {s}

theorem unsubscribed_unsubscribeFrom (hk : Keyed s.context.rooms)
    (hp : publishes s.context.rooms k.room k.publisher k.trackSid)
    (hpe : s.pendingMediaSectionRequests.lookup k=none) :
    Unsubscribed k (s.unsubscribeFrom k) where
  keyed := hk.of_rooms (sameRooms_unsubscribeFrom s k).records
  marked _ := by
    refine ⟨if_pos rfl,?_⟩
    have hroom : k.room∈s.context.rooms.rooms.keys := by
      rw [publishes,toOption_getParticipant] at hp
      rw [mem_keys]
      cases hr : s.context.rooms.rooms.lookup k.room with
      | some r => rfl
      | none =>
        rw [hr] at hp
        cases hp
    have hm : (s.context.rooms.setMediaTrackSubscribed k false).2 =
      s.context.rooms.setSubscribed {k} false := by
      rw [setMediaTrackSubscribed,if_pos hroom]
    change k∈(s.context.rooms.setMediaTrackSubscribed k false).2.mediaUnsubscribed
    rw [hm]
    exact mem_union_right _ (mem_singleton_self k)
  unmarked := by
    have he : (s.unsubscribeFrom k).context.mediaSubscriptions.explicitSubscription k =
      some false := if_pos rfl
    rw [he]
    simp
  idle := notMem_erase k _
  detached := by
    change (s.forwardTracks.remove (forwardKey k)).tracks.lookup (forwardKey k)=none
    rw [tracks_remove]
    exact if_pos rfl
  unrequested := hpe

theorem Unsubscribed.unsubscribeFromTrack (h : Unsubscribed k s) :
    Unsubscribed k (s.unsubscribeFromTrack world room u trackSid) := by
  rw [SignalState.unsubscribeFromTrack]
  split
  · exact h.unsubscribeFrom _
  · refine List.foldlRecOn _ _ h (fun t ht p _ => ?_)
    exact (((ht.setSubscribed_false _).removePreferences _).removeForwarding _).detach _

theorem unsubscribeFromTrack_frame :
    (s.unsubscribeFromTrack world room u trackSid).context.rooms.rooms=s.context.rooms.rooms ∧
      (s.unsubscribeFromTrack world room u trackSid).pendingMediaSectionRequests =
        s.pendingMediaSectionRequests := by
  rw [unsubscribeFromTrack]
  split
  · exact ⟨(sameRooms_unsubscribeFrom s _).records,rfl⟩
  · exact List.foldlRecOn (motive := fun t : SignalState T =>
      t.context.rooms.rooms=s.context.rooms.rooms ∧
        t.pendingMediaSectionRequests=s.pendingMediaSectionRequests) _ _ ⟨rfl,rfl⟩
      (fun t ht p _ => ht)

/-- A request for the track would be served: it is permitted, it finds this publisher, and
the subscriber supports a codec of the track. -/
def SignalState.acceptsSubscription (s : SignalState T) (world : Surroundings T)
    (key : MediaTrackKey) (allowed : Bool) : Bool :=
  (allowed || s.subscribePermissions.canSubscribe ⟨key.room,key.subscriber⟩) &&
    (s.findMediaTrackPublisher world key.room key.trackSid).any (fun found =>
      found.1=key.publisher &&
        s.subscriberSupportsAnyTrackMimeType ⟨key.room,key.subscriber⟩ found.2)

theorem SameRooms.supports {t : SignalState T} (h : SameRooms s t) (u : ParticipantKey)
    (k : TrackInfo) :
    t.subscriberSupportsAnyTrackMimeType u k=s.subscriberSupportsAnyTrackMimeType u k := by
  have hs : t.participantSupportsVideoMimeType u=s.participantSupportsVideoMimeType u := by
    funext mimeType
    simp only [participantSupportsVideoMimeType,h.mimeTypes]
  rw [subscriberSupportsAnyTrackMimeType,hs,subscriberSupportsAnyTrackMimeType]

theorem SameRooms.acceptsSubscription {t : SignalState T} (h : SameRooms s t)
    (key : MediaTrackKey) (allowed : Bool) :
    t.acceptsSubscription world key allowed=s.acceptsSubscription world key allowed := by
  simp only [SignalState.acceptsSubscription,findMediaTrackPublisher_congr h.records, h.supports,
    h.permissions]

/-- The tracks that give way to a new track of the same name. -/
theorem Unsubscribed.priorTracks (h : Unsubscribed k s) (key : MediaTrackKey)
    (priors : List TrackInfo) :
    let t := priors.foldl (fun t prior => t.unsubscribeFrom {key with trackSid := prior.sid}) s
    Unsubscribed k t ∧ SameRooms s t :=
  List.foldlRecOn (motive := fun t => Unsubscribed k t ∧ SameRooms s t) priors _ ⟨h,.refl s⟩
    (fun t ht _ _ => ⟨ht.1.unsubscribeFrom _,ht.2.trans (sameRooms_unsubscribeFrom t _)⟩)

variable {allowed : Bool}

/-- A request that subscribes another track, or is not served, leaves the track alone. -/
theorem Unsubscribed.subscribeToTrack (h : Unsubscribed k s)
    (ho : room=k.room → u=k.subscriber → trackSid=k.trackSid →
      s.acceptsSubscription world k allowed=false) :
    Unsubscribed k (s.subscribeToTrack world room u allowed trackSid) ∧
      SameRooms s (s.subscribeToTrack world room u allowed trackSid) := by
  rw [SignalState.subscribeToTrack]
  split_ifs
  · exact ⟨h,.refl s⟩
  · split
    · exact ⟨h,.refl s⟩
    next q tr hf =>
      obtain ⟨hsid,hp⟩ := findMediaTrackPublisher_spec h.keyed hf
      split_ifs
      · exact ⟨h.rejectUnsupported _,roomRecords_setRoomSubscribed _ _ _,rfl,rfl⟩
      · have hkey : (⟨room,q,trackSid,u⟩ : MediaTrackKey)≠k := by
          rintro rfl
          have hr := ho rfl rfl rfl
          rw [acceptsSubscription] at hr
          cases allowed <;> simp_all
        obtain ⟨hpr,hs⟩ :=
          h.priorTracks ⟨room,q,trackSid,u⟩ (s.priorTracksSameLogicalStream ⟨room,q,trackSid,u⟩ tr)
        refine ⟨(hpr.setSubscribed_of_ne hkey true).ensureForReceivers ?_,?_⟩
        · intro hroom hpu ht
          rw [← hroom,← hpu,← ht,hsid]
          exact (hs.publishes room q trackSid).trans hp
        · have hm := hs.trans (sameRooms_setSubscribed _ ⟨room,q,trackSid,u⟩ true)
          exact hm.trans sameRooms_ensureForReceivers

variable {r : SignalState.UpdateSubscription}

theorem Unsubscribed.handleMediaSubscriptionRequest (h : Unsubscribed k s)
    (ho : r.subscribe → room=k.room → u=k.subscriber →
      k.trackSid∈requestedMediaTrackSids r →
      s.acceptsSubscription world k allowed=false) :
    Unsubscribed k (s.handleMediaSubscriptionRequest world room u r allowed) := by
  rw [SignalState.handleMediaSubscriptionRequest]
  cases hsu : r.subscribe with
  | false => exact List.foldlRecOn _ _ h (fun t ht sid _ => ht.unsubscribeFromTrack)
  | true =>
    refine (List.foldlRecOn (motive := fun t => Unsubscribed k t ∧ SameRooms s t) _ _
      ⟨h,.refl s⟩ (fun t ht sid hmem => ?_)).1
    have hst := ht.1.subscribeToTrack (fun hr hs hsid =>
      (ht.2.acceptsSubscription k allowed).trans (ho hsu hr hs (hsid ▸ hmem)))
    exact ⟨hst.1,ht.2.trans hst.2⟩

/-- A request to unsubscribe reaches the track that it finds. -/
theorem unsubscribed_handleMediaSubscriptionRequest (hk : Keyed s.context.rooms)
    (hs : r.subscribe=false) (hmem : k.trackSid∈requestedMediaTrackSids r)
    (hf : (s.findMediaTrackPublisher world k.room k.trackSid).map fst=some k.publisher)
    (hpe : s.pendingMediaSectionRequests.lookup k=none) :
    Unsubscribed k (s.handleMediaSubscriptionRequest world k.room k.subscriber r allowed) := by
  obtain ⟨b,after,hsp⟩ := List.append_of_mem hmem
  rw [handleMediaSubscriptionRequest,hs,hsp,List.foldl_append,List.foldl_cons]
  -- the tracks before it change neither the rooms nor the pending requests
  have hb := List.foldlRecOn (motive := fun t : SignalState T =>
      t.context.rooms.rooms=s.context.rooms.rooms ∧
        t.pendingMediaSectionRequests=s.pendingMediaSectionRequests)
    b (unsubscribeFromTrack world k.room k.subscriber) ⟨rfl,rfl⟩
    (fun t ht sid _ =>
      ⟨unsubscribeFromTrack_frame.1.trans ht.1,unsubscribeFromTrack_frame.2.trans ht.2⟩)
  refine List.foldlRecOn _ _ ?_ (fun t ht sid _ => ht.unsubscribeFromTrack)
  obtain ⟨⟨q,tr⟩,htr,hp⟩ := map_eq_some_iff.mp hf
  obtain rfl : q=k.publisher := hp
  simp only [Bool.false_eq_true,if_false]
  rw [unsubscribeFromTrack,findMediaTrackPublisher_congr hb.1,htr]
  refine unsubscribed_unsubscribeFrom (hk.of_rooms hb.1) ?_ (hb.2 ▸ hpe)
  rw [publishes_congr hb.1]
  exact (findMediaTrackPublisher_spec hk htr).2

theorem switches_markInRoom {subscribe : Bool} (marked : Bool × SignalState T)
    (mark : Option String × String) :
    ∃rooms,(markInRoom world room u subscribe marked mark).2.2 = marked.2.withRooms rooms ∧
      RoomStore.Switches marked.2.context.rooms rooms (fun key => key.room=room ∧
        key.trackSid=mark.2 ∧ key.subscriber=u) subscribe := by
  obtain ⟨publisherSid,sid⟩ := mark
  cases publisherSid with
  | none =>
    refine ⟨_,?_,switches_setMediaTrackSubscribedByTrackSid marked.2.context.rooms room u sid
      subscribe⟩
    simp only [markInRoom]
    split <;> rfl
  | some publisherSid =>
    refine ⟨_,?_,switches_setMediaTrackSubscribedByPublisherSid marked.2.context.rooms
      room publisherSid sid u subscribe world.firstParticipant⟩
    simp only [markInRoom]
    split <;> rfl

theorem mem_requestedMediaTrackSids {mark : Option String × String} (hmem : mark∈requestedMarks r) :
    mark.2∈requestedMediaTrackSids r := by
  rw [requestedMediaTrackSids,← Multiset.mem_coe,coe_sortedElements,mem_val, List.mem_toFinset,
    List.mem_append]
  rcases List.mem_append.mp hmem with ha | hw
  · obtain ⟨sid,hsid,rfl⟩ := List.mem_map.mp ha
    exact .inl hsid
  · obtain ⟨ks,ht,hm⟩ := List.mem_flatMap.mp hw
    obtain ⟨sid,hsid,rfl⟩ := List.mem_map.mp hm
    exact .inr (List.mem_flatMap.mpr ⟨ks,ht,hsid⟩)

theorem Unsubscribed.markRequested (h : Unsubscribed k s)
    (ho : r.subscribe → ¬(room=k.room ∧ u=k.subscriber ∧ k.trackSid∈requestedMediaTrackSids r)) :
    Unsubscribed k (s.markRequested world room u r).2 := by
  refine execWhile_invariant (markInRoom world room u r.subscribe)
    (fun marked => Unsubscribed k marked.2) _ (fun marked mark hmem ht => ?_) h
  obtain ⟨rooms,heq,hs⟩ := switches_markInRoom marked mark
  rw [heq]
  refine ht.switch hs (fun htr hn => ho htr ⟨hn.1.symm,hn.2.2.symm,?_⟩)
  rw [hn.2.1]
  exact mem_requestedMediaTrackSids hmem

theorem markRequested_frame :
    (s.markRequested world room u r).2.context.rooms.rooms=s.context.rooms.rooms ∧
      (s.markRequested world room u r).2.pendingMediaSectionRequests =
        s.pendingMediaSectionRequests := by
  refine execWhile_invariant (markInRoom world room u r.subscribe)
    (fun marked => marked.2.context.rooms.rooms=s.context.rooms.rooms ∧
      marked.2.pendingMediaSectionRequests=s.pendingMediaSectionRequests) _
    (fun marked mark _ ht => ?_) ⟨rfl,rfl⟩
  obtain ⟨rooms,heq,hs⟩ := switches_markInRoom marked mark
  rw [heq]
  exact ⟨hs.rooms.trans ht.1,ht.2⟩

theorem Unsubscribed.updateSubscriptions (h : Unsubscribed k s)
    (ho : r.subscribe → ¬(room=k.room ∧ u=k.subscriber ∧ k.trackSid∈requestedMediaTrackSids r)) :
    Unsubscribed k (s.updateSubscriptions world room u r) := by
  have hm : Unsubscribed k (s.markRequested world room u r).2 := h.markRequested ho
  rw [SignalState.updateSubscriptions]
  split
  · exact h
  · split
    next t heq =>
      rw [heq] at hm
      exact hm
    next t heq =>
      rw [heq] at hm
      exact hm.handleMediaSubscriptionRequest (fun hsu hr hs hmem =>
        absurd ⟨hr,hs,hmem⟩ (ho hsu))

theorem unsubscribed_updateSubscriptions {p : ParticipantInfo} (hk : Keyed s.context.rooms)
    (hs : r.subscribe=false) (hp : s.context.rooms.getParticipant k.room k.subscriber = .ok p)
    (ha : (s.markRequested world k.room k.subscriber r).1)
    (hmem : k.trackSid∈requestedMediaTrackSids r)
    (hfo : (s.findMediaTrackPublisher world k.room k.trackSid).map fst=some k.publisher)
    (hpe : s.pendingMediaSectionRequests.lookup k=none) :
    Unsubscribed k (s.updateSubscriptions world k.room k.subscriber r) := by
  have hf : (s.markRequested world k.room k.subscriber r).2.context.rooms.rooms =
      s.context.rooms.rooms ∧ _ := markRequested_frame
  rw [updateSubscriptions,hp]
  dsimp only
  split
  next t heq =>
    rw [heq] at ha
    cases ha
  next t heq =>
    rw [heq] at hf
    refine unsubscribed_handleMediaSubscriptionRequest (hk.of_rooms hf.1) hs hmem ?_ (hf.2 ▸ hpe)
    rw [findMediaTrackPublisher_congr hf.1]
    exact hfo

end

section

variable {s : SignalState T} {k : MediaTrackKey} {world : Surroundings T}
  {room publisher trackSid : String}

theorem Unsubscribed.addTrackResponse (h : Unsubscribed k s) {i cid : String}
    {tr : TrackInfo} (ho : ¬(room=k.room ∧ i=k.publisher ∧ tr.sid=k.trackSid)) :
    Unsubscribed k (s.addTrackResponse world room i cid tr) := by
  have hn : ∀cids,Unsubscribed k {s with mediaTrackCids := cids} :=
    fun _ => h.of_same rfl rfl rfl rfl
  refine ensureForReceivers ?_ (fun hr hi hsid =>
    absurd ⟨hr,hi,hsid⟩ ho)
  refine (hn _).withRooms ?_ ?_ ?_
  · exact h.keyed.apply (.addParticipantTrack room i tr)
  · rw [publishes_addParticipantTrack_of_ne _ _ _ _ ho]
    exact id
  · intro _ hmem
    rw [addParticipantTrack,mediaUnsubscribed_editParticipant]
    exact hmem

theorem tracks_removeTrack (k : ForwardTrackReaderKey) :
    (st.removeTrack k).tracks=st.tracks.eraseAll (st.keysOfTrack k) :=
  ForwardTrackStore.bumpRevisionIf_tracks _ _

/-- Nothing is forgotten about a track that goes on, and nothing is left of one that ends. -/
theorem Unsubscribed.unpublishTrack (h : Unsubscribed k s) :
    Unsubscribed k (s.unpublishTrack room publisher trackSid) := by
  rw [SignalState.unpublishTrack,SignalState.removePublishedMediaTrack]
  rcases s.context.rooms.removeParticipantTrack_cases room publisher trackSid with ⟨error,heq⟩ |
    ⟨record,participant,edited,hr,hp,hed,heq⟩
  · rw [heq]
    exact h
  · rw [heq]
    have hk := h.keyed.apply (.removeParticipantTrack room publisher trackSid)
    rw [apply,heq] at hk
    have hpub := publishes_removed hr hp hed
      (t := (s.context.rooms.setRoom room {record with
        participants := record.participants.insert publisher edited}).retainUnsubscribed (fun key =>
          (key.room≠room ∨ key.publisher≠publisher ∨ key.trackSid≠trackSid))) rfl
      k.room k.publisher k.trackSid
    have he : ∀store : MediaSubscriptionStore,
        (store.removeTrack room publisher trackSid).explicitSubscription k =
          (store.explicitSubscription k).filter (fun _ =>
            (k.room≠room ∨ k.publisher≠publisher ∨ k.trackSid≠trackSid)) :=
      fun _ => rfl
    exact {
      keyed := hk
      marked := by
        intro hpu
        obtain ⟨hb,ho⟩ := Bool.and_eq_true_iff.mp (hpub.symm.trans hpu)
        have hke : k.room≠room ∨ k.publisher≠publisher ∨ k.trackSid≠trackSid := by
          simpa [not_and_or] using ho
        obtain ⟨hf,hmem⟩ := h.marked hb
        refine ⟨?_,mem_filter.mpr ⟨hmem,by simpa using hke⟩⟩
        refine (he s.context.mediaSubscriptions).trans ?_
        rw [hf]
        exact filter_some_pos (by simpa using hke)
      unmarked := by
        intro ht
        exact h.unmarked (filter_eq_some_iff.mp ((he s.context.mediaSubscriptions).symm.trans ht)).1
      idle := fun hmem => h.idle (mem_of_mem_filter k hmem)
      detached := by
        change (s.forwardTracks.removeTrack _).tracks.lookup (forwardKey k)=none
        rw [tracks_removeTrack,lookup_eraseAll,h.detached,ite_self]
      unrequested := h.unrequested}

theorem Unsubscribed.forwardPublisherRemoteTrack (h : Unsubscribed k s) :
    Unsubscribed k (s.forwardPublisherRemoteTrack world room publisher trackSid) := by
  rw [SignalState.forwardPublisherRemoteTrack]
  split
  · exact h
  next tr hpu =>
    refine h.ensureForReceivers (fun hr hpub hsid => ?_)
    obtain ⟨p,hp,hf⟩ := bind_eq_some_iff.mp hpu
    rw [← hr,← hpub,← hsid,publishes,hp,any_some,List.any_eq_true]
    exact ⟨tr,List.mem_of_find?_eq_some hf,by simp⟩

variable {key : MediaTrackKey} {subscriber mid : String} [ForwardingTransport T]

theorem Unsubscribed.removeSubscriberMid (h : Unsubscribed k s) :
    Unsubscribed k (s.removeSubscriberMid room subscriber mid) := by
  refine h.withForwardTracks ?_
  rw [ForwardTrackStore.removeSubscriberMid,ForwardTrackStore.bumpRevisionIf_tracks]
  change (s.forwardTracks.tracks.eraseAll _).lookup (forwardKey k)=none
  rw [lookup_eraseAll,h.detached,ite_self]

variable {tg : ForwardTrackKey}

section

variable (h : Unsubscribed k s)

include h

omit [ForwardingTransport T] in
theorem Unsubscribed.mediaKey_ne {tr : T} (ht : s.forwardTracks.tracks.lookup tg = some tr) :
    mediaKey tg ≠ k := by
  rintro rfl
  have hd : s.forwardTracks.tracks.lookup tg = none := h.detached
  rw [hd] at ht
  cases ht

omit [ForwardingTransport T] in
theorem Unsubscribed.reclaimForPublisher {tg : ForwardTrackKey × T}
    (ht : mediaKey tg.1 ≠ k) : Unsubscribed k (s.reclaimForPublisher world tg).2 := by
  have hr := (h.removeForwarding (mediaKey tg.1)).dropSectionRequest (mediaKey tg.1)
  rw [SignalState.reclaimForPublisher]
  split_ifs
  · exact hr
  · split
    · exact hr
    · exact hr.requestSection ht _

theorem Unsubscribed.reclaimSinglePcForwardingOnPublisherMids (publisherMids : Finset String) :
    Unsubscribed k (s.reclaimSinglePcForwardingOnPublisherMids world room subscriber
      publisherMids).2 := by
  refine execWhile_invariant _ (Unsubscribed k) _ (fun t mid _ ht => ?_) h
  refine execWhile_invariant _ (Unsubscribed k) _ (fun u tg hmem hu => ?_) ht.removeSubscriberMid
  obtain ⟨found,-,hf⟩ := List.mem_filterMap.mp hmem
  obtain ⟨tr,htr,rfl⟩ := map_eq_some_iff.mp hf
  exact hu.reclaimForPublisher (ht.mediaKey_ne htr)

omit [ForwardingTransport T] in
theorem Unsubscribed.reclaimForTrack (ht : mediaKey tg ≠ k) :
    Unsubscribed k (s.reclaimForTrack key tg) := by
  have hr := (h.removeForwarding (mediaKey tg)).dropSectionRequest (mediaKey tg)
  have hf := (hr.setSubscribed_false (mediaKey tg)).setRoomSubscribed_false (mediaKey tg)
  rw [SignalState.reclaimForTrack]
  split
  · split_ifs
    · exact hf
    · exact hr.requestSection ht _
  · exact hf

end

variable {a : SignalState.Attaching T}

theorem Unsubscribed.attachToSection (h : Unsubscribed k a.state) (hkey : key≠k)
    {alreadyForwarding hasPendingRequest : Bool} {taken : SignalState.ReceiveSection} :
    Unsubscribed k
      (attachToSection world key alreadyForwarding hasPendingRequest taken a).2.state := by
  have hr := List.foldlRecOn (motive := Unsubscribed k)
    (world.targetOrder.order (a.state.targetsInSection key.room key.subscriber taken.mid))
    (SignalState.reclaimForTrack key)
    (h.removeSubscriberMid : Unsubscribed k
      (a.state.removeSubscriberMid key.room key.subscriber taken.mid))
    (fun t ht tg hmem => by
      have hta := mem_of_mem_filter tg (world.targetOrder.mem_order.mp hmem)
      obtain ⟨tr,htr⟩ := isSome_iff_exists.mp ((mem_keys _ tg).mp hta)
      exact ht.reclaimForTrack (h.mediaKey_ne htr))
  have hm := ((hr.insertForwarding hkey).setSubscribed_of_ne hkey
    true).setRoomSubscribed_of_ne hkey true
  rw [SignalState.attachToSection]
  split_ifs
  · exact hr
  · exact hr.dropSectionRequest key
  · split
    · exact hm
    · exact (hm.attach hkey _).dropSectionRequest key

variable {preferNewest : Bool}

/-- A track is given a section only if it waits for one or already has one. -/
theorem Unsubscribed.attachTrack (h : Unsubscribed k a.state) {q : String} {tr : TrackInfo} :
    Unsubscribed k (attachTrack world room subscriber preferNewest q a tr).2.state := by
  rw [SignalState.attachTrack]
  split_ifs
  · exact h
  · dsimp only
    split
    · exact h
    next i _ =>
      split_ifs with hn
      · exact h
      · split
        · exact h
        · refine attachToSection (a := {a with sections := a.sections.eraseIdx i}) h ?_
          rintro rfl
          refine hn ?_
          rw [h.unrequested,forwardingMidForSubscriberTrack,h.detached,decide_eq_false h.idle]
          rfl

theorem Unsubscribed.attachReceiveSectionForwardingToSinglePc (h : Unsubscribed k s)
    {sections : List SignalState.ReceiveSection} :
    Unsubscribed k (s.attachReceiveSectionForwardingToSinglePc world room subscriber sections
      preferNewest).2.state := by
  rw [SignalState.attachReceiveSectionForwardingToSinglePc]
  split_ifs
  · exact h
  · refine execWhile_invariant _ (fun a : SignalState.Attaching T => Unsubscribed k a.state) _
      (fun a q _ ha => ?_) h
    rw [attachPublisher]
    split_ifs
    · exact ha
    · exact execWhile_invariant _ (fun a : SignalState.Attaching T => Unsubscribed k a.state) _
        (fun b tr _ hb => hb.attachTrack) ha

end

section

variable {s : SignalState T} {k : MediaTrackKey} {world : Surroundings T}
  {room u : String}

/-- Only a track with a transport can be marked subscribed by its codec. -/
theorem Unsubscribed.activateTrack {acc : Finset String × SignalState T} (h : Unsubscribed k acc.2)
    (sid : String) :
    Unsubscribed k (activateTrack world room u acc sid).2 := by
  rw [SignalState.activateTrack]
  dsimp only
  split
  · exact h
  next q tr hf =>
    split
    next payloadType hb =>
      obtain ⟨transport,ht,-⟩ := map_eq_some_iff.mp hb
      exact h.setRoomSubscribed_of_ne (h.mediaKey_ne ht) true
    next hb =>
      split_ifs
      · exact h
      · exact (h.detach _).removeForwarding _
      · exact h.rejectUnsupported _
    all_goals exact h

theorem tracks_activateSubscriberTrackSids (room u : String) (sids : Finset String) :
    (st.activateSubscriberTrackSids room u sids).tracks=st.tracks := by
  rw [ForwardTrackStore.activateSubscriberTrackSids]
  split_ifs
  · rfl
  · exact ForwardTrackStore.bumpRevisionIf_tracks _ _

variable (h : Unsubscribed k s)

include h

theorem Unsubscribed.activateTracksWithCompatibleBindResults (sids : Finset String) :
    Unsubscribed k (s.activateTracksWithCompatibleBindResults world room u sids) := by
  have ha := List.foldlRecOn (motive := fun acc : Finset String × SignalState T =>
      Unsubscribed k acc.2) (world.trackSidOrder.order sids)
    (SignalState.activateTrack world room u) (b := (∅,s)) h
    (fun acc hacc sid _ => hacc.activateTrack sid)
  refine ha.withForwardTracks ?_
  rw [tracks_activateSubscriberTrackSids]
  exact ha.detached

theorem Unsubscribed.rejectUnacceptedVideoTracksFromSubscriberAnswer
    (of : FiniteMap String String) (acceptedMids : Finset String) :
    Unsubscribed k (s.rejectUnacceptedVideoTracksFromSubscriberAnswer world room u of
      acceptedMids) := by
  refine List.foldlRecOn _ _ h (fun t ht e _ => ?_)
  split_ifs
  · exact ht
  · split
    · exact ht
    · split_ifs
      · exact ht
      · exact ht.rejectUnsupported _

theorem Unsubscribed.mergeMimeTypes (p : ParticipantKey) (mimeTypes : Finset String) :
    Unsubscribed k (s.mergeParticipantSubscribeVideoMimeTypes p mimeTypes) := by
  rw [mergeParticipantSubscribeVideoMimeTypes]
  split_ifs
  · exact h
  · exact h.of_same rfl rfl rfl rfl

theorem Unsubscribed.subscriberAnswer [ForwardingTransport T] (an : SignalState.SubscriberAnswer) :
    Unsubscribed k (s.subscriberAnswer world room u an) := by
  rw [SignalState.subscriberAnswer]
  split_ifs
  · exact h
  · refine ensureExistingMediaForwardingForSubscriber ?_ u
    refine activateTracksWithCompatibleBindResults ?_ _
    exact (h.mergeMimeTypes _ _).rejectUnacceptedVideoTracksFromSubscriberAnswer _ _

end

section

variable {s : SignalState T} {k : MediaTrackKey} {world : Surroundings T}
  {room i : String}

section

variable (h : Unsubscribed k s)

include h

/-- The first offer of the server is harmless for other subscribers and for tracks that have
ended. -/
theorem Unsubscribed.createSubscriberOffer
    (ho : ¬(room=k.room ∧ i=k.subscriber ∧
      publishes s.context.rooms k.room k.publisher k.trackSid)) :
    Unsubscribed k (s.createSubscriberOffer world room i) := by
  have ha : Unsubscribed k (s.attachExistingMediaToSubscriberPc world room i).2 := by
    refine execWhile_invariant _ (Unsubscribed k) _ (fun t published hmem ht => ?_) h
    have hkey : (⟨room,published.1,published.2.sid,i⟩ : MediaTrackKey)≠k := by
      rintro rfl
      exact ho ⟨rfl,rfl,publishes_of_mem_tracksOfOthers h.keyed hmem⟩
    dsimp only
    split_ifs
    · exact ht
    · split
      · exact ht.insertForwarding hkey
      · exact (ht.insertForwarding hkey).attach hkey _
  rw [SignalState.createSubscriberOffer]
  split
  next attached t heq =>
    rw [heq] at ha
    split_ifs
    · exact ha.of_same rfl rfl rfl rfl
    · exact ha

variable (offer : SignalState.PublisherOffer)

theorem Unsubscribed.bindSection (e : String × String) :
    Unsubscribed k (s.bindSection room i offer e) := by
  rw [SignalState.bindSection]
  split
  · exact h
  next sid hsid =>
    have hmid : Unseen (editTrack sid (fun tr =>
        if tr.mid=e.1 then none else some {tr with mid := e.1})) :=
      unseen_editTrack (fun _ => ⟨rfl,rfl⟩)
    have hcid : Unseen (editTrack sid (fun tr =>
        if tr.codecs.all (·.sdpCid=e.2) then none
        else some {tr with
          codecs := tr.codecs.map (fun codec => {codec with sdpCid := e.2})})) :=
      unseen_editTrack (fun _ => ⟨rfl,rfl⟩)
    have hn : ∀cids,Unsubscribed k {s with mediaTrackCids := cids} :=
      fun _ => h.of_same rfl rfl rfl rfl
    refine (hn _).withRooms ?_ ?_ ?_
    · exact (h.keyed.apply (.setParticipantTrackMid room i sid e.1)).apply
        (.setParticipantTrackSdpCid room i sid e.2)
    · intro hp
      rw [setParticipantTrackSdpCid,publishes_editParticipant _ _ _ hcid,
        setParticipantTrackMid,publishes_editParticipant _ _ _ hmid] at hp
      exact hp
    · intro _ hmem
      rw [setParticipantTrackSdpCid,mediaUnsubscribed_editParticipant,
        setParticipantTrackMid,mediaUnsubscribed_editParticipant]
      exact hmem

theorem Unsubscribed.reconcilePublisherMediaTracksAfterAnswer
    (midToSdpTrackId : FiniteMap String String) (singlePcMode : Bool) :
    Unsubscribed k (s.reconcilePublisherMediaTracksAfterAnswer world room i offer
      midToSdpTrackId singlePcMode) := by
  have hb := List.foldlRecOn (midToSdpTrackId.entries world.midOrder)
    (SignalState.bindSection room i offer) h (fun t ht e _ => ht.bindSection offer e)
  rw [SignalState.reconcilePublisherMediaTracksAfterAnswer]
  split
  · exact hb
  · exact List.foldlRecOn _ _ hb (fun t ht tr _ => ht.unpublishTrack)

theorem Unsubscribed.completeAnswer (answerMidToTrackId : FiniteMap String String)
    (singlePcMode : Bool) :
    Unsubscribed k (s.completeAnswer world room i offer answerMidToTrackId singlePcMode) := by
  have hc : ∀connections,Unsubscribed k {s with publisherConnections := connections} :=
    fun _ => h.of_same rfl rfl rfl rfl
  refine activateTracksWithCompatibleBindResults ?_ _
  exact (((hc _).reconcilePublisherMediaTracksAfterAnswer offer _
    singlePcMode).ensureExistingMediaForwardingForSubscriber i).of_same rfl rfl rfl rfl

end

variable [ForwardingTransport T]

theorem Unsubscribed.answerSections (h : Unsubscribed k s) (offer : SignalState.PublisherOffer)
    (sdpAnswerMidToTrackId : FiniteMap String String) (singlePcMode : Bool) :
    Unsubscribed k (s.answerSections world room i offer sdpAnswerMidToTrackId singlePcMode) := by
  rw [SignalState.answerSections]
  split
  next publisherMids receiveSections _ =>
    have hr : Unsubscribed k (s.reclaimSinglePcForwardingOnPublisherMids world room i
        publisherMids).2 := h.reclaimSinglePcForwardingOnPublisherMids publisherMids
    split
    next t heq =>
      rw [heq] at hr
      exact hr
    next t heq =>
      rw [heq] at hr
      have ha : Unsubscribed k (t.attachReceiveSectionForwardingToSinglePc world room
          i receiveSections (!offer.usesIceTrickle)).2.state :=
        hr.attachReceiveSectionForwardingToSinglePc
      split
      · exact hr
      · split
        next a heq =>
          rw [heq] at ha
          exact ha
        next a heq =>
          rw [heq] at ha
          split
          · exact ha
          · exact ha.completeAnswer offer _ singlePcMode

theorem Unsubscribed.answerPublisherOffer (h : Unsubscribed k s)
    (offer : SignalState.PublisherOffer) (sdpAnswerMidToTrackId : FiniteMap String String) :
    Unsubscribed k (s.answerPublisherOffer world room i offer sdpAnswerMidToTrackId) := by
  have hr : ∀p singlePcMode,Unsubscribed k (s.rememberOffer p offer singlePcMode) := by
    intro p singlePcMode
    rw [rememberOffer]
    split_ifs
    · exact h.of_same rfl rfl rfl rfl
    · exact h.of_same rfl rfl rfl rfl
  rw [SignalState.answerPublisherOffer]
  split_ifs
  · exact hr _ _
  · exact (hr _ _).answerSections offer sdpAnswerMidToTrackId _

/-- A request, of the subscriber or of the service API, that unsubscribes a published track. -/
def Unsubscribes (k : MediaTrackKey) (s : SignalState T) : SignalEvent T→Prop
  | .subscription world room subscriber request =>
    request.subscribe=false ∧ room=k.room ∧ subscriber=k.subscriber ∧
      k.trackSid∈requestedMediaTrackSids request ∧
      (s.findMediaTrackPublisher world room k.trackSid).map fst=some k.publisher
  | .serviceSubscription world room identity request =>
    request.subscribe=false ∧ room=k.room ∧ identity=k.subscriber ∧
      k.trackSid∈requestedMediaTrackSids request ∧
      (s.findMediaTrackPublisher world room k.trackSid).map fst=some k.publisher ∧
      (s.context.rooms.getParticipant room identity).toOption.isSome ∧
      (s.markRequested world room identity request).1
  | _ => False

/-- A request that subscribes the track again. One of the subscriber can be turned down; the
service API marks the track before anything is checked. -/
def SubscribesAgain (k : MediaTrackKey) (s : SignalState T) : SignalEvent T→Prop
  | .subscription world room subscriber request =>
    request.subscribe ∧ room=k.room ∧ subscriber=k.subscriber ∧
      k.trackSid∈requestedMediaTrackSids request ∧
      s.acceptsSubscription world k false
  | .serviceSubscription _ room identity request =>
    request.subscribe ∧ room=k.room ∧ identity=k.subscriber ∧
      k.trackSid∈requestedMediaTrackSids request
  | _ => False

/-- The server makes no first offer to the subscriber while the track is published, and the sid
of the track is not drawn again. -/
def SparesUnsubscribed (k : MediaTrackKey) (s : SignalState T) : SignalEvent T→Prop
  | .publish _ room identity _ track =>
    ¬(room=k.room ∧ identity=k.publisher ∧ track.sid=k.trackSid)
  | .subscriberOffer _ room identity =>
    ¬(room=k.room ∧ identity=k.subscriber ∧
      publishes s.context.rooms k.room k.publisher k.trackSid)
  | _ => True

variable {event : SignalEvent T}

theorem Unsubscribed.step (h : Unsubscribed k s)
    (ha : ¬SubscribesAgain k s event) (hsp : SparesUnsubscribed k s event) :
    Unsubscribed k (s.step event) := by
  cases event with
  | publish world room i cid tr => exact h.addTrackResponse hsp
  | unpublish room q sid => exact h.unpublishTrack
  | mediaArrives world room q sid => exact h.forwardPublisherRemoteTrack
  | subscription world room u r =>
    refine h.handleMediaSubscriptionRequest (fun hs hr hsu hmem => ?_)
    rw [← Bool.not_eq_true]
    exact fun hac => ha ⟨hs,hr,hsu,hmem,hac⟩
  | serviceSubscription world room i r =>
    exact h.updateSubscriptions (fun hs hn => ha ⟨hs,hn⟩)
  | subscriberOffer world room i => exact h.createSubscriberOffer hsp
  | subscriberAnswer world room i an => exact h.subscriberAnswer an
  | publisherOffer world room i offer sdpAnswerMidToTrackId =>
    exact h.answerPublisherOffer offer sdpAnswerMidToTrackId

theorem unsubscribed_step (hk : Keyed s.context.rooms) (hu : Unsubscribes k s event)
    (hpe : s.pendingMediaSectionRequests.lookup k=none) :
    Unsubscribed k (s.step event) := by
  cases event with
  | subscription world room u r =>
    obtain ⟨hs,rfl,rfl,hmem,hf⟩ := hu
    exact unsubscribed_handleMediaSubscriptionRequest hk hs hmem hf hpe
  | serviceSubscription world room i r =>
    obtain ⟨hs,rfl,rfl,hmem,hf,hp,ha⟩ := hu
    cases hj : s.context.rooms.getParticipant k.room k.subscriber with
    | error e =>
      rw [hj] at hp
      cases hp
    | ok p =>
      exact unsubscribed_updateSubscriptions hk hs hj ha hmem hf hpe
  | publish | unpublish | mediaArrives | subscriberOffer | subscriberAnswer | publisherOffer =>
    exact hu.elim

/-- The rooms that a state knows or an event is about. -/
def knownRooms (s : SignalState T) (event : SignalEvent T) : Finset String :=
  s.context.rooms.rooms.keys ∪
    (s.context.mediaSubscriptions.entries.keys ∪ s.mediaForwarding ∪
      s.pendingMediaSectionRequests.keys).image MediaTrackKey.room ∪
    s.forwardTracks.tracks.keys.image ForwardTrackKey.room ∪ {event.room}

/-- Requests keep participants under their identities. The handlers have been followed for a
track that is unsubscribed, and the tracks of a room that nobody knows are. -/
theorem keyed_step (hke : Keyed s.context.rooms) (e : SignalEvent T) :
    Keyed (s.step e).context.rooms := by
  obtain ⟨room,hr⟩ := Infinite.exists_notMem_finset (knownRooms s e)
  simp only [knownRooms,mem_union,mem_image,mem_singleton,not_or,not_exists,not_and] at hr
  obtain ⟨⟨⟨hroom,hk⟩,ht⟩,he⟩ := hr
  have hn : s.context.rooms.rooms.lookup room=none := lookup_eq_none_iff.mpr hroom
  have hex : s.context.mediaSubscriptions.explicitSubscription ⟨room,"","",""⟩=none :=
    lookup_eq_none_iff.mpr (fun hmem => hk _ (.inl (.inl hmem)) rfl)
  have hu : Unsubscribed ⟨room,"","",""⟩ s := {
    keyed := hke
    marked := by
      intro hp
      rw [publishes,toOption_getParticipant,hn] at hp
      cases hp
    unmarked := by simp [hex]
    idle := fun hmem => hk _ (.inl (.inr hmem)) rfl
    detached := lookup_eq_none_iff.mpr (fun hmem => ht _ hmem rfl)
    unrequested := lookup_eq_none_iff.mpr (fun hmem => hk _ (.inr hmem) rfl)}
  refine (hu.step ?_ ?_).keyed
  · intro ha
    cases e <;> first | exact ha | exact he ha.2.1.symm
  · cases e <;> first | trivial | exact fun hs => he hs.1.symm

def SignalState.after (s : SignalState T) (events : List (SignalEvent T)) : SignalState T :=
  events.foldl step s

theorem after_concat (s : SignalState T) (es : List (SignalEvent T)) (e : SignalEvent T) :
    s.after (es++[e])=(s.after es).step e := by
  rw [after,List.foldl_append]
  rfl

theorem keyed_after (hk : Keyed s.context.rooms) (es : List (SignalEvent T)) :
    Keyed (s.after es).context.rooms := by
  induction es using List.reverseRecOn with
  | nil => exact hk
  | append_singleton es e ih =>
    rw [after_concat]
    exact keyed_step ih e

/-- What holds at the request holds as long as no request subscribes the track again. -/
theorem Unsubscribed.after (h : Unsubscribed k s) (l : List (SignalEvent T))
    (hl : AtEveryStep (fun es e => ¬SubscribesAgain k (s.after es) e ∧
      SparesUnsubscribed k (s.after es) e) l) : Unsubscribed k (s.after l) := by
  refine hl.induction h (fun l e hu he => ?_)
  rw [after_concat]
  exact hu.step he.1 he.2

/-- A subscriber is unsubscribed from a published track for which no media section is
requested. Then the track is neither marked subscribed for it nor attached until a request
subscribes it again, if the server makes no first offer to the subscriber in between. -/
theorem unsubscribe_respected (defaults : RoomDefaults) (operations : List RoomStore.RoomOperation)
    (s : SignalState T) (hrooms : s.context.rooms = RoomStore.storeAfter defaults operations)
    (earlier later : List (SignalEvent T)) (request : SignalEvent T) (k : MediaTrackKey)
    (hrequest : Unsubscribes k (s.after earlier) request)
    (hpending : (s.after earlier).pendingMediaSectionRequests.lookup k = none)
    (hlater : AtEveryStep (fun events event =>
      ¬SubscribesAgain k ((s.after (earlier ++ [request])).after events) event ∧
        SparesUnsubscribed k ((s.after (earlier ++ [request])).after events) event) later) :
    ((s.after (earlier ++ [request])).after later).markedSubscribed k = false ∧
      ((s.after (earlier ++ [request])).after later).attachedFor k = false := by
  have hk : Keyed (s.after earlier).context.rooms :=
    keyed_after (hrooms ▸ keyed_storeAfter defaults operations) earlier
  have hu : Unsubscribed k (s.after (earlier++[request])) := by
    rw [after_concat]
    exact unsubscribed_step hk hrequest hpending
  have hend := hu.after later hlater
  exact ⟨hend.markedSubscribed,hend.attachedFor⟩

end

instance : ForwardingTransport String := ⟨some⟩

def calmWorld : Surroundings String where
  participantOrder := .sorted String
  receiverOrder := .sorted String
  targetOrder := sortedTargets
  midOrder := .sorted String
  trackSidOrder := .sorted String
  firstParticipant := {
    pick := fun found => ((sorted String).order found).head?
    pick_mem := fun _ _ h => (sorted String).mem_order.mp (List.mem_of_head? h)
    pick_isSome := fun found h => by
      obtain ⟨identity,hidentity⟩ := h
      have hmem := (sorted String).mem_order.mpr hidentity
      cases horder : (sorted String).order found with
      | nil => simp [horder] at hmem | cons first rest => rfl}
  addForwardingTrack _ := some "0"
  addForwardingTrackToMid _ mid := some mid
  removesForwardingTrack _ := true
  bindResult _ := .compatible 111
  negotiates _ := true
  setsRemoteDescription := true
  preparesTransceivers := true
  createsDescription := true

/-- Alice and Bob are in a room; Bob may have a connection for publishing and one for
receiving. -/
def aliceAndBob (bobPublishes bobReceives : Bool) : SignalState String where
  context := ⟨.empty,.empty,.empty,.empty,
    storeAfter {} [joinAs "alice" none,joinAs "bob" none],⟨none,none⟩⟩
  subscribePermissions := ⟨.empty⟩
  participantSubscriberPrimary := .empty
  participantSubscribeVideoMimeTypes := .empty
  signalConnections := {⟨"room","alice"⟩,⟨"room","bob"⟩}
  publisherConnections :=
    if bobPublishes then {⟨"room","alice"⟩,⟨"room","bob"⟩} else {⟨"room","alice"⟩}
  subscriberConnections := if bobReceives then {⟨"room","bob"⟩} else ∅
  mediaTrackCids := .empty
  singlePcOfferMediaKinds := .empty
  mediaForwarding := ∅
  pendingMediaSectionRequests := .empty
  forwardTracks := .empty

def alicePublishes : SignalEvent String :=
  .publish calmWorld "room" "alice" "microphone" {sid := "TR_A",type := .audio}

def bobUnsubscribes : SignalEvent String :=
  .subscription calmWorld "room" "bob" ⟨["TR_A"],[],false⟩

def bobOffersSection : SignalEvent String :=
  .publisherOffer calmWorld "room" "bob" {
    sections := [⟨"0",some .audio,.recvonly,false,false⟩],midToTrackId := .empty
    sdpMidToTrackId := .empty,usesIceTrickle := true,videoMimeTypes := ∅} .empty

def aliceToBob : MediaTrackKey := ⟨"room","alice","TR_A","bob"⟩

/-- A dual-PC subscriber unsubscribes, and its next offer leaves it at that. -/
theorem unsubscribe_respected_dualPc :
    let s := (aliceAndBob true true).after ([alicePublishes]++[bobUnsubscribes])
    (s.after [bobOffersSection]).markedSubscribed aliceToBob=false ∧
      (s.after [bobOffersSection]).attachedFor aliceToBob=false :=
  unsubscribe_respected {} [joinAs "alice" none,joinAs "bob" none] (aliceAndBob true true) rfl
    [alicePublishes] [bobOffersSection] bobUnsubscribes aliceToBob
    ⟨rfl,rfl,rfl,by decide +kernel,by decide +kernel⟩ (by decide +kernel)
    ((atEveryStep_concat _ [] bobOffersSection).mpr ⟨atEveryStep_nil _,id,trivial⟩)

/-- Bob waits for a media section when it unsubscribes, and gets the track with the first
section that it offers. -/
theorem pending_section_revives_subscription :
    let s := aliceAndBob true false
    Unsubscribes aliceToBob (s.after [alicePublishes]) bobUnsubscribes ∧
      ¬SubscribesAgain aliceToBob (s.after [alicePublishes,bobUnsubscribes]) bobOffersSection ∧
      (s.after [alicePublishes,bobUnsubscribes]).markedSubscribed aliceToBob=false ∧
      (s.after [alicePublishes,bobUnsubscribes,bobOffersSection]).markedSubscribed aliceToBob =
        true ∧
      (s.after [alicePublishes,bobUnsubscribes,bobOffersSection]).attachedFor aliceToBob =
        true := by
  refine ⟨⟨rfl,rfl,rfl,by decide +kernel,by decide +kernel⟩,id,?_,?_,?_⟩
  · decide +kernel
  · decide +kernel
  · decide +kernel

end OxideSfu.Signaling
