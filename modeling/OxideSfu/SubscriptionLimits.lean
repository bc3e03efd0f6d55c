import OxideSfu.ForwardingDecisions
import OxideSfu.RoomSubscriptions

/-!
# Subscription limits

Every target decides for itself whether its track is among the first `n` of the subscriber's
ranking. Forwarded tracks stay within the limit as long as all decisions in force were made from one
ranking, that is, as every change of the ranking moves one of the counters.
-/

namespace OxideSfu.Signaling

open FiniteMaps Rooms RoomStore StepRuns FiniteMap ForwardingDecisionContext MediaSubscriptionStore
  AutoSubscribePreferenceStore Option List Prod Finset Nat

structure ForwardTarget where
  trackInfo : TrackInfo
  decision : Option CachedForwardingDecision

structure ForwardingState where
  context : ForwardingDecisionContext
  targets : FiniteMap MediaTrackKey ForwardTarget

inductive ForwardingEvent
  | room (operation : RoomOperation)
  | setSubscribed (key : MediaTrackKey) (subscribed : Bool)
  | removeTrackSubscriptions (room publisher trackSid : String)
  | removeParticipantSubscriptions (room identity : String)
  | setAutoSubscribe (participant : ParticipantKey) (enabled : Bool)
  | setAutoSubscribeDataTrack (participant : ParticipantKey) (enabled : Bool)
  | removePreferences (participant : ParticipantKey)
  | scheduleSettings (room identity : String) (request : UpdateTrackSettings)
  | applyPendingSettings (key : TrackSettingsKey) (generation : UInt64)
  | upsertSettings (room identity : String) (request : UpdateTrackSettings)
  | removeSettings (key : TrackSettingsKey)
  | removeParticipantSettings (room identity : String) (iteration : Iteration TrackSettingsKey)
  | setDesiredQuality (key : TrackSettingsKey) (desired : Option VideoQuality)
  | setDesiredTemporalLayer (key : TrackSettingsKey) (desired : Option ℕ)
  | removeAllocation (key : TrackSettingsKey)
  | removeParticipantAllocations (room identity : String) (iteration : Iteration TrackSettingsKey)
  | openTarget (key : MediaTrackKey) (trackInfo : TrackInfo)
  | closeTarget (key : MediaTrackKey)
  | askTarget (key : MediaTrackKey)

def ForwardingDecisionContext.apply (c : ForwardingDecisionContext) :
    ForwardingEvent → ForwardingDecisionContext
  | .room operation => {c with rooms := c.rooms.apply operation}
  | .setSubscribed key subscribed =>
    {c with mediaSubscriptions := c.mediaSubscriptions.setSubscribed key subscribed}
  | .removeTrackSubscriptions room publisher trackSid =>
    {c with mediaSubscriptions := c.mediaSubscriptions.removeTrack room publisher trackSid}
  | .removeParticipantSubscriptions room identity =>
    {c with mediaSubscriptions := c.mediaSubscriptions.removeParticipant room identity}
  | .setAutoSubscribe participant enabled =>
    {c with autoSubscribePreferences :=
        c.autoSubscribePreferences.setAutoSubscribe participant enabled}
  | .setAutoSubscribeDataTrack participant enabled =>
    {c with autoSubscribePreferences :=
        c.autoSubscribePreferences.setAutoSubscribeDataTrack participant enabled}
  | .removePreferences participant =>
    {c with autoSubscribePreferences :=
        c.autoSubscribePreferences.removeParticipant participant}
  | .scheduleSettings room identity request =>
    {c with trackSettings := (c.trackSettings.scheduleFromRequest room identity request).2}
  | .applyPendingSettings key generation =>
    {c with trackSettings := (c.trackSettings.applyPendingForTrack key generation).2}
  | .upsertSettings room identity request =>
    {c with trackSettings := c.trackSettings.upsertFromRequest room identity request}
  | .removeSettings key => {c with trackSettings := c.trackSettings.removeForTrack key}
  | .removeParticipantSettings room identity iteration =>
    {c with trackSettings := c.trackSettings.removeParticipant room identity iteration}
  | .setDesiredQuality key desired =>
    {c with trackAllocations := c.trackAllocations.setDesiredQualityForTrack key desired}
  | .setDesiredTemporalLayer key desired =>
    {c with trackAllocations := c.trackAllocations.setDesiredTemporalLayerForTrack key desired}
  | .removeAllocation key =>
    {c with trackAllocations := c.trackAllocations.removeForTrack key}
  | .removeParticipantAllocations room identity iteration =>
    {c with trackAllocations := c.trackAllocations.removeForParticipant room identity iteration}
  | .openTarget _ _ | .closeTarget _ | .askTarget _ => c

def ForwardTarget.ask (target : ForwardTarget) (c : ForwardingDecisionContext)
    (key : MediaTrackKey) : ForwardTarget :=
  {target with decision := some (cachedForwardingDecisionForTarget target.decision key
      (c.revisions key) c (some target.trackInfo))}

def targetsAfter (s : ForwardingState) : ForwardingEvent → FiniteMap MediaTrackKey ForwardTarget
  | .openTarget key trackInfo => s.targets.insert key ⟨trackInfo,none⟩
  | .closeTarget key => s.targets.erase key
  | .askTarget key =>
    match s.targets.lookup key with
    | some target => s.targets.insert key (target.ask s.context key) | none => s.targets
  | _ => s.targets

def ForwardingState.step (s : ForwardingState) (event : ForwardingEvent) : ForwardingState :=
  ⟨s.context.apply event,targetsAfter s event⟩

def ForwardingState.initial (defaults : RoomDefaults) (limits : SubscriptionLimits) :
    ForwardingState :=
  ⟨⟨.empty,.empty,.empty,.empty,.withDefaults defaults,limits⟩,.empty⟩

def stateAfter (defaults : RoomDefaults) (limits : SubscriptionLimits)
    (events : List ForwardingEvent) : ForwardingState :=
  events.foldl ForwardingState.step (.initial defaults limits)

theorem stateAfter_concat (defaults : RoomDefaults) (limits : SubscriptionLimits)
    (es : List ForwardingEvent) (e : ForwardingEvent) :
    stateAfter defaults limits (es++[e])=(stateAfter defaults limits es).step e := by
  rw [stateAfter,foldl_append]
  rfl

def forwardsNow (c : ForwardingDecisionContext) (key : MediaTrackKey) (type : TrackType)
    (target : ForwardTarget) : Bool :=
  target.trackInfo.type=type && target.decision.any (fun decision =>
    decision.shouldForwardMedia && decision.revisions=c.revisions key)

def forwardedTracks (s : ForwardingState) (room subscriber : String) (type : TrackType) :
    Finset MediaTrackKey :=
  s.targets.keys.filter (fun key => key.room=room ∧ key.subscriber=subscriber ∧
    (s.targets.lookup key).any (forwardsNow s.context key type))

def shown (participant : ParticipantInfo) : String × List (String × TrackType) :=
  (participant.identity,participant.tracks.map (fun track => (track.sid,track.type)))

structure SameView (room : String) (s t : RoomStore) : Prop where
  published : publishedIn t room=publishedIn s room
  may : ∀subscriber,subscriberMay t room subscriber=subscriberMay s room subscriber
  unsubscribed : t.mediaUnsubscribed=s.mediaUnsubscribed

/-- From one store to the next either the revision counts up or it stays, and then rankings in
the room see no difference unless the room was reshaped. -/
inductive RoomStep (room : String) (reshaped : Bool) (s t : RoomStore) : Prop
  | counts (revision : t.mediaSubscriptionRevision=saturatingSucc 64 s.mediaSubscriptionRevision)
  | keeps (revision : t.mediaSubscriptionRevision=s.mediaSubscriptionRevision)
      (view : reshaped=false → SameView room s t)

/-- The calls that change which tracks are published in a room, or who is there to receive
them, without counting the revision up. -/
def reshapes (s : RoomStore) (room : String) : RoomOperation→Bool
  | .createRoom request _ => request.name=room
  | .storeRoomWithInternal created _ => (created.name=room ∧ room∉s.rooms.keys)
  | .deleteRoom deleted => deleted=room
  | .cleanupExpiredEmptyRooms defaultEmptyAgeMs now =>
    (s.rooms.lookup room).any (fun record => !keepRoom defaultEmptyAgeMs now record)
  | .joinParticipantWithPermission request _ => request.room=room
  | .removeParticipantWithReason left _ _ _ => left=room
  | .moveParticipant source _ destination _ => (source=room ∨ destination=room)
  | .addParticipantTrack published _ _ => published=room
  | .removeParticipantTrack published _ _ => published=room | _ => false

variable {room : String} {reshaped : Bool} {s t : RoomStore}

theorem SameView.refl (room : String) (s : RoomStore) : SameView room s s := ⟨rfl,fun _ => rfl,rfl⟩

theorem RoomStep.refl (room : String) (reshaped : Bool) (s : RoomStore) :
    RoomStep room reshaped s s :=
  .keeps rfl (fun _ => .refl room s)

theorem publishedIn_of_lookup {r : RoomRecord} (h : s.rooms.lookup room=some r) :
    publishedIn s room=r.participants.values.map shown := by
  rw [publishedIn,listParticipants,h]
  rfl

theorem SameView.of_lookup (hl : t.rooms.lookup room=s.rooms.lookup room)
    (hu : t.mediaUnsubscribed=s.mediaUnsubscribed) : SameView room s t where
  published := by rw [publishedIn,publishedIn,listParticipants,listParticipants,hl]
  may subscriber := by rw [subscriberMay,subscriberMay,hl]
  unsubscribed := hu

theorem SameView.setRoom_of_ne {name : String} (hn : name≠room) (r : RoomRecord) :
    SameView room s (s.setRoom name r) :=
  .of_lookup (by rw [setRoom,lookup_insert,if_neg hn.symm]) rfl

theorem SameView.setRoom {name : String} {r record' : RoomRecord} (hr : s.rooms.lookup name=some r)
    (hp : record'.participants.values.map shown=r.participants.values.map shown)
    (hmay : ∀u,maySubscribe record' u=maySubscribe r u) :
    SameView room s (s.setRoom name record') := by
  by_cases hn : name=room
  · subst hn
    have hr' : (s.setRoom name record').rooms.lookup name=some record' := by
      rw [setRoom,lookup_insert,if_pos rfl]
    refine ⟨?_,subscriberMay_setRoom_of_same hr hmay name,rfl⟩
    rw [publishedIn_of_lookup hr',publishedIn_of_lookup hr,hp]
  · exact .setRoom_of_ne hn record'

theorem SameView.trans {u : RoomStore} (hst : SameView room s t) (htu : SameView room t u) :
    SameView room s u where
  published := htu.published.trans hst.published
  may subscriber := (htu.may subscriber).trans (hst.may subscriber)
  unsubscribed := htu.unsubscribed.trans hst.unsubscribed

theorem RoomStep.retainUnsubscribed (hr : t.mediaSubscriptionRevision=s.mediaSubscriptionRevision)
    (hv : reshaped=false → SameView room s t) (keeps : MediaTrackKey→Bool) :
    RoomStep room reshaped s (t.retainUnsubscribed keeps) := by
  rcases t.retainUnsubscribed_cases keeps with hc | hs
  · exact .counts (hr ▸ hc)
  · rw [hs]
    exact .keeps hr hv

theorem RoomStep.setSubscribed (s : RoomStore) (keys : Finset MediaTrackKey) (subscribed : Bool) :
    RoomStep room reshaped s (s.setSubscribed keys subscribed) := by
  rcases s.setSubscribed_cases keys subscribed with hc | hs
  · exact .counts hc
  · rw [hs]
    exact .refl room reshaped s

theorem RoomStep.switches {named : MediaTrackKey→Prop} {subscribed : Bool}
    (h : Switches s t named subscribed) : RoomStep room reshaped s t := by
  rcases h with rfl | ⟨keys,rfl,-⟩
  · exact .refl room reshaped t
  · exact .setSubscribed s keys subscribed

/-- An edit that rankings do not see. -/
def Unseen (edit : ParticipantInfo→Except RoomStoreError ParticipantInfo) : Prop :=
  ∀participant edited,edit participant = .ok edited →
    edited.permission=participant.permission ∧ shown edited=shown participant

variable {edit : ParticipantInfo→Except RoomStoreError ParticipantInfo}

variable (s)

variable (name i : String)

theorem SameView.editParticipant (hed : name=room → Unseen edit) :
    SameView room s (s.editParticipant name i edit).2 := by
  rcases s.editParticipant_cases name i edit with ⟨e,heq⟩ | ⟨record,participant,edited,hr,hp,he,heq⟩
  · rw [heq]
    exact .refl room s
  · rw [heq]
    by_cases hn : name=room
    · obtain ⟨hpe,hs⟩ := hed hn participant edited he
      exact SameView.setRoom hr (map_values_insert hp hs) (maySubscribe_edited hp hpe)
    · exact .setRoom_of_ne hn _

theorem editParticipant_revision (edit : ParticipantInfo→Except RoomStoreError ParticipantInfo) :
    (s.editParticipant name i edit).2.mediaSubscriptionRevision=s.mediaSubscriptionRevision := by
  rcases s.editParticipant_cases name i edit with ⟨e,heq⟩ | ⟨record,participant,edited,hr,hp,he,heq⟩
  · rw [heq]
  · rw [heq]
    rfl

theorem RoomStep.editParticipant (he : reshaped=false → name=room → Unseen edit) :
    RoomStep room reshaped s (s.editParticipant name i edit).2 :=
  .keeps (editParticipant_revision s name i edit) (fun hr => .editParticipant s name i (he hr))

variable {s}

theorem map_set_findIdx {f : TrackInfo → String × TrackType} {test : TrackInfo→Bool}
    {k d : TrackInfo} (ks : List TrackInfo) (hf : ks.find? test=some k) (hs : f d=f k) :
    (ks.set (ks.findIdx test) d).map f=ks.map f := by
  induction ks with
  | nil => rfl
  | cons first ks ih =>
    rw [find?_cons] at hf
    rw [findIdx_cons]
    cases ht : test first with
    | true =>
      rw [ht] at hf
      obtain rfl := some.inj hf
      simp [hs]
    | false =>
      rw [ht] at hf
      simp [ih hf]

/-- The edits of a track that leave its sid and type alone. -/
theorem unseen_editTrack {trackSid : String} {unchanged : TrackInfo→Prop} [DecidablePred unchanged]
    {c : TrackInfo → TrackInfo} (hc : ∀k,(c k).sid=k.sid ∧ (c k).type=k.type) :
    Unseen (editTrack trackSid (fun k =>
      if unchanged k then none else some (c k))) := by
  intro p d he
  refine ⟨editTrack_permission p d he,?_⟩
  rw [editTrack] at he
  split at he
  · cases he
  · next k hf =>
    obtain ⟨hsid,ht⟩ := hc k
    split_ifs at he
    · obtain rfl := Except.ok.inj he
      rfl
    · obtain rfl := Except.ok.inj he
      exact congrArg (mk p.identity) (map_set_findIdx p.tracks hf (by rw [hsid,ht]))

theorem shown_updatedParticipant {p : ParticipantInfo} {u : ParticipantUpdate}
    (h : changesPermission p u=false) :
    shown (updatedParticipant p u)=shown p := by
  have hf : shown (updateFields p u)=shown p := by
    simp only [updateFields,h,Bool.false_eq_true,if_false]
    rfl
  rw [updatedParticipant]
  split_ifs
  · exact hf
  · exact hf

variable (s)

theorem RoomStep.updateParticipant (name i : String) (u : ParticipantUpdate) :
    RoomStep room reshaped s (s.updateParticipant name i u).2 := by
  rcases s.updateParticipant_cases name i u with ⟨e,heq⟩ | ⟨record,participant,hr,hp,heq⟩
  · rw [heq]
    exact .refl room reshaped s
  · rw [heq]
    cases hc : changesPermission participant u with
    | true => exact .counts rfl
    | false =>
      refine .keeps rfl (fun _ => SameView.setRoom hr ?_ (fun subscriber => ?_))
      · rw [participants_updatedRecord]
        exact map_values_insert hp (shown_updatedParticipant hc)
      · rw [maySubscribe_updatedRecord,updatedParticipant_permission hc]
        split_ifs with hs
        · rw [hs,maySubscribe,hp]
          rfl
        · rfl

theorem RoomStep.removeParticipantTrack (name i sid : String) :
    RoomStep room (name=room) s (s.removeParticipantTrack name i sid).2 := by
  rcases s.removeParticipantTrack_cases name i sid
    with ⟨e,heq⟩ | ⟨record,participant,edited,-,-,-,heq⟩
  · rw [heq]
    exact .refl room _ s
  · rw [heq]
    refine .retainUnsubscribed ?_ (fun hn => ?_) _
    · rfl
    · exact SameView.setRoom_of_ne (of_decide_eq_false hn) _

namespace RoomStep

theorem createRoom (r : CreateRoomRequest) (now : ℤ) :
    RoomStep room (r.name=room) s (s.createRoom r now).2 := by
  rw [RoomStore.createRoom]
  cases s.rooms.lookup r.name with
  | some rc => exact .refl room _ s
  | none =>
    refine .keeps rfl (fun hn => .of_lookup ?_ rfl)
    exact if_neg (fun hr => of_decide_eq_false hn hr.symm)

theorem storeRoomWithInternal (created : Room) (now : ℤ) :
    RoomStep room ((created.name=room ∧ room∉s.rooms.keys)) s
      (s.storeRoomWithInternal created now).2 := by
  rw [RoomStore.storeRoomWithInternal]
  split_ifs
  · exact .refl room _ s
  · cases hr : s.rooms.lookup created.name with
    | some r => exact .keeps rfl (fun _ => SameView.setRoom hr rfl (fun _ => rfl))
    | none =>
      refine .keeps rfl (fun hn => .setRoom_of_ne (fun hroom => ?_) _)
      rw [hroom] at hr
      exact of_decide_eq_false hn ⟨hroom,lookup_eq_none_iff.mp hr⟩

theorem updateRoomMetadata (name m : String) :
    RoomStep room reshaped s (s.updateRoomMetadata name m).2 := by
  rw [RoomStore.updateRoomMetadata]
  cases hr : s.rooms.lookup name with
  | none => exact .refl room reshaped s
  | some r => exact .keeps rfl (fun _ => SameView.setRoom hr rfl (fun _ => rfl))

theorem deleteRoom (name : String) : RoomStep room (name=room) s (s.deleteRoom name).2 := by
  rw [RoomStore.deleteRoom]
  cases s.rooms.lookup name with
  | none => exact .refl room _ s
  | some r =>
    refine .retainUnsubscribed (by rfl) (fun hn => .of_lookup ?_ (by rfl)) _
    exact if_neg (fun hr => of_decide_eq_false hn hr.symm)

theorem cleanupExpiredEmptyRooms (ms now : ℤ) :
    RoomStep room ((s.rooms.lookup room).any (fun r => !keepRoom ms now r))
      s (s.cleanupExpiredEmptyRooms ms now) := by
  refine .keeps rfl (fun hk => .of_lookup ?_ rfl)
  rw [RoomStore.cleanupExpiredEmptyRooms,lookup_filter]
  cases hr : s.rooms.lookup room with
  | none => rfl
  | some r =>
    rw [hr] at hk
    exact filter_some_pos (by simpa using hk)

theorem joinParticipantWithPermission (r : JoinRequest) (now : ℤ) :
    RoomStep room (decide (r.room=room)) s (s.joinParticipantWithPermission r now).2 := by
  have he : (s.ensureRoom r.room now).2.mediaSubscriptionRevision =
      s.mediaSubscriptionRevision ∧
        (decide (r.room=room)=false → SameView room s (s.ensureRoom r.room now).2) := by
    rw [ensureRoom]
    cases s.rooms.lookup r.room with
    | some rc => exact ⟨rfl,fun _ => .refl room s⟩
    | none =>
      refine ⟨rfl,fun hn => .of_lookup ?_ rfl⟩
      exact if_neg (fun hr => of_decide_eq_false hn hr.symm)
  rw [RoomStore.joinParticipantWithPermission]
  split
  next rc t heq =>
    rw [heq] at he
    split_ifs
    · exact .keeps he.1 he.2
    · refine .keeps he.1 (fun hn => (he.2 hn).trans (.of_lookup ?_ rfl))
      exact if_neg (fun hr => of_decide_eq_false hn hr.symm)

theorem removeParticipantWithReason (name i : String) (re : ℕ) (now : ℤ) :
    RoomStep room (name=room) s (s.removeParticipantWithReason name i re now).2 := by
  rcases s.removeParticipantWithReason_cases name i re now
    with ⟨e,heq⟩ | ⟨record,participant,-,-,heq⟩
  · rw [heq]
    exact .refl room _ s
  · rw [heq]
    refine .retainUnsubscribed (by rfl) (fun hn => ?_) _
    exact .setRoom_of_ne (of_decide_eq_false hn) _

theorem moveParticipant (c i d : String) (now : ℤ) :
    RoomStep room ((c=room ∨ d=room)) s (s.moveParticipant c i d now).2 := by
  rcases s.moveParticipant_cases c i d now with ⟨e,heq⟩ | ⟨left,participant,record,-,-,-,-,heq⟩
  · rw [heq]
    exact .refl room _ s
  · rw [heq]
    refine .retainUnsubscribed (by rfl) (fun hn => ?_) _
    obtain ⟨hs,hd⟩ := not_or.mp (of_decide_eq_false hn)
    exact (SameView.setRoom_of_ne hs _).trans (.setRoom_of_ne hd _)

/-- A call counts the revision up or leaves the view of every room that it does not reshape. -/
theorem apply (op : RoomOperation) (room : String) :
    RoomStep room (reshapes s room op) s (s.apply op) := by
  cases op with
  | createRoom r now => exact createRoom s r now
  | storeRoomWithInternal created now => exact storeRoomWithInternal s created now
  | updateRoomMetadata name m => exact updateRoomMetadata s name m
  | deleteRoom name => exact deleteRoom s name
  | cleanupExpiredEmptyRooms ms now =>
    exact cleanupExpiredEmptyRooms s ms now
  | joinParticipantWithPermission r now =>
    exact joinParticipantWithPermission s r now
  | removeParticipantWithReason name i re now =>
    exact removeParticipantWithReason s name i re now
  | moveParticipant c i d now =>
    exact moveParticipant s c i d now
  | getParticipant name i => exact .refl room _ s
  | addParticipantTrack name i k =>
    exact .editParticipant s name i (fun hn hs =>
      absurd hs (of_decide_eq_false hn))
  | removeParticipantTrack name i sid =>
    exact removeParticipantTrack s name i sid
  | setParticipantTrackMimeType | setParticipantTrackMid | setParticipantTrackSdpCid
  | setParticipantTrackMuted =>
    exact .editParticipant s _ _ (fun _ _ => unseen_editTrack (fun _ => ⟨rfl,rfl⟩))
  | updateParticipant name i u =>
    exact updateParticipant s name i u
  | setMediaTrackSubscribed => exact .switches (s.switches_setMediaTrackSubscribed ..)
  | setMediaTrackSubscribedByTrackSid =>
    exact .switches (s.switches_setMediaTrackSubscribedByTrackSid ..)
  | setMediaTrackSubscribedByPublisherSid =>
    exact .switches (s.switches_setMediaTrackSubscribedByPublisherSid ..)
  | _ =>
    refine .editParticipant s _ _ (fun _ _ p ed he => ?_)
    obtain rfl := Except.ok.inj he
    exact ⟨rfl,rfl⟩

end RoomStep

variable {c c' : ForwardingDecisionContext}

/-- The counters that move when a ranking changes. -/
def ForwardingDecisionRevisions.counters (revisions : ForwardingDecisionRevisions) : ℕ × ℕ × ℕ :=
  (revisions.mediaSubscription.toNat,revisions.autoSubscribe.toNat,
    revisions.roomMediaSubscription)

def ForwardingDecisionContext.counters (c : ForwardingDecisionContext) : ℕ × ℕ × ℕ :=
  (c.mediaSubscriptions.revision.toNat,c.autoSubscribePreferences.revision.toNat,
    c.rooms.mediaSubscriptionRevision)

def CountersBelowMax (c : ForwardingDecisionContext) : Prop :=
  c.counters.1<2^64-1 ∧ c.counters.2.1<2^64-1 ∧ c.counters.2.2<2^64-1
  deriving Decidable

section

variable (he : c'.mediaSubscriptions.entries = c.mediaSubscriptions.entries)

include he

variable (hp : c'.autoSubscribePreferences.autoSubscribe = c.autoSubscribePreferences.autoSubscribe)

include hp

theorem subscribedTo_congr (hv : SameView room c.rooms c'.rooms) (q sid u : String) :
    c'.subscribedTo ⟨room,q,sid,u⟩=c.subscribedTo ⟨room,q,sid,u⟩ := by
  rw [subscribedTo,subscribedTo,
    canSubscribeToMediaTrack_eq,canSubscribeToMediaTrack_eq,hv.may,hv.unsubscribed,
    isSubscribedWithDefault,isSubscribedWithDefault,
    explicitSubscription,explicitSubscription,
    autoSubscribeEnabled,
    autoSubscribeEnabled,he,hp]

theorem rankedTracks_congr (hv : SameView room c.rooms c'.rooms) (u : String) (type : TrackType) :
    c'.rankedTracks room u type=c.rankedTracks room u type := by
  have hc : c'.candidates room u type=c.candidates room u type := by
    rw [candidates,hv.published]
    refine Multiset.filter_congr (fun candidate _ => ?_)
    rw [subscribedTo_congr he hp hv]
  rw [rankedTracks,hc]
  congr 1
  refine Multiset.map_congr rfl (fun candidate _ => ?_)
  rw [isMediaTrackSubscribed,isMediaTrackSubscribed,hv.unsubscribed]

end

/-- From one state of the stores to the next either a counter moves up or all stay, and then
the rankings of the room are the same unless the room was reshaped. -/
inductive ContextStep (room : String) (reshaped : Bool) (c c' : ForwardingDecisionContext) : Prop
  | counts (counters : c.counters<c'.counters)
  | keeps (counters : c'.counters=c.counters)
      (ranking : reshaped=false → ∀subscriber type,
        c'.rankedTracks room subscriber type=c.rankedTracks room subscriber type)

theorem ContextStep.refl (room : String) (reshaped : Bool) (c : ForwardingDecisionContext) :
    ContextStep room reshaped c c :=
  .keeps rfl (fun _ _ _ => rfl)

theorem toNat_succ_of_lt {n : UInt64} (h : n.toNat<2^64-1) : (n+1).toNat=n.toNat+1 := by
  exact mod_eq_of_lt (by simpa using add_lt_of_lt_sub h)

variable (hmax : CountersBelowMax c)
include hmax

theorem ContextStep.roomOperation (op : RoomOperation) :
    ContextStep room (reshapes c.rooms room op) c {c with rooms := c.rooms.apply op} := by
  rcases RoomStep.apply c.rooms op room with hc | ⟨hre,hv⟩
  · have hb : c.rooms.mediaSubscriptionRevision<2^64-1 := hmax.2.2
    rw [saturatingSucc_of_lt hb] at hc
    refine .counts (mk_lt_mk_iff_right.mpr (mk_lt_mk_iff_right.mpr ?_))
    rw [hc]
    exact lt_succ_self _
  · refine .keeps ?_ (fun hr => rankedTracks_congr rfl rfl (hv hr))
    rw [counters,counters,hre]

theorem ContextStep.mediaSubscriptions {next : MediaSubscriptionStore}
    (hn : next.revision=c.mediaSubscriptions.revision+1 ∨ next=c.mediaSubscriptions) :
    ContextStep room reshaped c {c with mediaSubscriptions := next} := by
  rcases hn with hc | hs
  · refine .counts (mk_lt_mk_iff_left.mpr ?_)
    rw [hc,toNat_succ_of_lt hmax.1]
    exact lt_succ_self _
  · rw [hs]
    exact .refl room reshaped c

theorem ContextStep.autoSubscribePreferences {next : AutoSubscribePreferenceStore}
    (hn : next.revision=c.autoSubscribePreferences.revision+1 ∨ next=c.autoSubscribePreferences) :
    ContextStep room reshaped c {c with autoSubscribePreferences := next} := by
  rcases hn with hc | hs
  · refine .counts (mk_lt_mk_iff_right.mpr (mk_lt_mk_iff_left.mpr ?_))
    rw [hc,toNat_succ_of_lt hmax.2.1]
    exact lt_succ_self _
  · rw [hs]
    exact .refl room reshaped c

omit hmax

theorem retain_cases (s : MediaSubscriptionStore) (keeps : MediaTrackKey→Bool) :
    (s.retain keeps).revision=s.revision+1 ∨ s.retain keeps=s := by
  by_cases hc : (s.entries.filter (fun key _ => keeps key)).keys.card=s.entries.keys.card
  · have hs := filter_eq_self_of_card hc
    exact .inr (by simp [retain,hs])
  · exact .inl (by simp [retain,hc])

theorem removeParticipant_cases (s : AutoSubscribePreferenceStore) (p : ParticipantKey) :
    (s.removeParticipant p).revision=s.revision+1 ∨ s.removeParticipant p=s := by
  rw [AutoSubscribePreferenceStore.removeParticipant]
  split_ifs with hp
  · exact .inl rfl
  · rw [Bool.or_eq_true,not_or,not_isSome_iff_eq_none,not_isSome_iff_eq_none] at hp
    refine .inr ?_
    rw [erase_of_lookup_eq_none hp.1,erase_of_lookup_eq_none hp.2]

/-- The calls that may change the ranking of a room without moving a counter. -/
def ForwardingEvent.reshapes (c : ForwardingDecisionContext) (room : String) :
    ForwardingEvent→Bool
  | .room operation => Signaling.reshapes c.rooms room operation | _ => false

theorem ContextStep.apply (hmax : CountersBelowMax c) (e : ForwardingEvent) (room : String) :
    ContextStep room (e.reshapes c room) c (c.apply e) := by
  cases e with
  | room op => exact .roomOperation hmax op
  | setSubscribed key subscribed => exact .mediaSubscriptions hmax (.inl rfl)
  | removeTrackSubscriptions | removeParticipantSubscriptions =>
    exact .mediaSubscriptions hmax (retain_cases _ _)
  | setAutoSubscribe p enabled => exact .autoSubscribePreferences hmax (.inl rfl)
  | setAutoSubscribeDataTrack p enabled =>
    exact .autoSubscribePreferences hmax (.inl rfl)
  | removePreferences p =>
    exact .autoSubscribePreferences hmax (removeParticipant_cases _ p)
  | _ => exact .keeps rfl (fun _ _ _ => rfl)

theorem apply_subscriptionLimits (c : ForwardingDecisionContext) (e : ForwardingEvent) :
    (c.apply e).subscriptionLimits=c.subscriptionLimits := by
  cases e <;> rfl

/-- A decision was not made for later counters than those of now, and a decision made for the
counters of now forwards only tracks within the limit of the ranking of now. -/
structure DecisionSound (c : ForwardingDecisionContext) (key : MediaTrackKey) (type : TrackType)
    (decision : CachedForwardingDecision) : Prop where
  counters_le : decision.revisions.counters≤c.counters
  within : decision.revisions.counters=c.counters → decision.shouldForwardMedia →
    ∀limit,c.subscriptionLimits.forType type=some limit → c.rankedWithin limit key type

def DecisionsSound (s : ForwardingState) : Prop :=
  ∀key target decision,s.targets.lookup key=some target →
    target.decision=some decision → DecisionSound s.context key target.trackInfo.type decision

/-- A target was asked since one of the counters moved last. -/
def askedSince (c : ForwardingDecisionContext) (target : ForwardTarget) : Bool :=
  target.decision.any (·.revisions.counters=c.counters)

/-- The condition on an event: the counters have room, and no room is reshaped in which a
target was asked since one of them moved last. -/
def KeepsRanking (s : ForwardingState) (event : ForwardingEvent) : Prop :=
  CountersBelowMax s.context ∧ ∀key∈s.targets.keys,
    event.reshapes s.context key.room →
      (s.targets.lookup key).any (askedSince s.context)=false
  deriving Decidable

variable {s : ForwardingState} {key : MediaTrackKey} {type : TrackType}
  {decision : CachedForwardingDecision}

/-- A sound decision stays sound when its room is not reshaped, or when it is out of date. -/
theorem DecisionSound.contextStep {reshaped : Bool} (h : DecisionSound c key type decision)
    (hst : ContextStep key.room reshaped c c') (hl : c'.subscriptionLimits=c.subscriptionLimits)
    (ha : reshaped → decision.revisions.counters≠c.counters) :
    DecisionSound c' key type decision := by
  rcases hst with hco | ⟨hs,hra⟩
  · refine ⟨h.counters_le.trans hco.le,fun hc => ?_⟩
    exact absurd hc (h.counters_le.trans_lt hco).ne
  · refine ⟨hs ▸ h.counters_le,fun hc hf l hli => ?_⟩
    rw [hs] at hc
    have hr : reshaped=false := Bool.eq_false_iff.mpr (fun ht => ha ht hc)
    rw [rankedWithin,hra hr]
    exact h.within hc hf l (hl ▸ hli)

theorem DecisionSound.freshDecision (c : ForwardingDecisionContext) (key : MediaTrackKey)
    (trackInfo : TrackInfo) :
    DecisionSound c key trackInfo.type
      (c.freshDecision key (some trackInfo) (c.revisions key)) where
  counters_le := le_refl _
  within _ hf limit hl := by
    have hw := (Bool.and_eq_true_iff.mp hf).2
    rw [subscriberWithinTrackTypeSubscriptionLimit] at hw
    simp only [hl] at hw
    split_ifs at hw
    exact hw

theorem DecisionSound.ask (target : ForwardTarget)
    (h : ∀decision,target.decision=some decision →
      DecisionSound c key target.trackInfo.type decision)
    (ha : (target.ask c key).decision=some decision) :
    DecisionSound c key target.trackInfo.type decision := by
  obtain rfl := some.inj ha
  unfold cachedForwardingDecisionForTarget
  split
  · next kept hk =>
    split_ifs
    · exact h kept hk
    · exact .freshDecision c key target.trackInfo
  · exact .freshDecision c key target.trackInfo

variable {e : ForwardingEvent}

/-- What the targets after an event come from: they were there before, they are new, or they
were asked. -/
theorem targetsAfter_cases {k : ForwardTarget} (h : (targetsAfter s e).lookup key=some k) :
    s.targets.lookup key=some k ∨ k.decision=none ∨
      ∃b,s.targets.lookup key=some b ∧ e = .askTarget key ∧ k=b.ask s.context key := by
  cases e with
  | openTarget opened trackInfo =>
    rw [targetsAfter,lookup_insert] at h
    split_ifs at h
    · obtain rfl := some.inj h
      exact .inr (.inl rfl)
    · exact .inl h
  | closeTarget closed =>
    rw [targetsAfter,lookup_erase] at h
    split_ifs at h
    exact .inl h
  | askTarget asked =>
    rw [targetsAfter] at h
    cases hb : s.targets.lookup asked with
    | none =>
      simp only [hb] at h
      exact .inl h
    | some b =>
      simp only [hb,lookup_insert] at h
      split_ifs at h with hkey
      · obtain rfl := some.inj h
        subst hkey
        exact .inr (.inr ⟨b,hb,rfl,rfl⟩)
      · exact .inl h
  | _ => exact .inl h

theorem DecisionsSound.step (hs : DecisionsSound s) (hk : KeepsRanking s e) :
    DecisionsSound (s.step e) := by
  obtain ⟨hmax,hu⟩ := hk
  intro key k d ht hd
  rcases targetsAfter_cases ht with hb | hnew | ⟨b,hb,rfl,rfl⟩
  · refine (hs key k d hb hd).contextStep
      (ContextStep.apply hmax e key.room) (apply_subscriptionLimits s.context e) ?_
    intro hr hc
    have hnot := hu key (mem_keys_of_lookup hb) hr
    rw [hb] at hnot
    simp [askedSince,hd,hc] at hnot
  · rw [hnew] at hd
    cases hd
  · exact DecisionSound.ask b (fun kept hke => hs key b kept hb hke) hd

theorem decisionsSound_stateAfter (defaults : RoomDefaults) (limits : SubscriptionLimits)
    (es : List ForwardingEvent)
    (hk : AtEveryStep (fun ea e =>
      KeepsRanking (stateAfter defaults limits ea) e) es) :
    DecisionsSound (stateAfter defaults limits es) := by
  induction es using reverseRecOn with
  | nil =>
    intro key k d ht
    cases ht
  | append_singleton es e ih =>
    rw [atEveryStep_concat] at hk
    rw [stateAfter_concat]
    exact (ih hk.1).step hk.2

theorem stateAfter_subscriptionLimits (defaults : RoomDefaults) (limits : SubscriptionLimits)
    (es : List ForwardingEvent) :
    (stateAfter defaults limits es).context.subscriptionLimits=limits := by
  induction es using reverseRecOn with
  | nil => rfl
  | append_singleton es e ih =>
    rw [stateAfter_concat,ForwardingState.step,apply_subscriptionLimits,ih]

theorem forwardedTracks_ranked (hs : DecisionsSound s) {room u : String} {l : ℕ}
    (hl : s.context.subscriptionLimits.forType type=some l)
    (hkey : key∈forwardedTracks s room u type) :
    (key.publisher,key.trackSid) ∈
      ((s.context.rankedTracks room u type).take l).map (fun ranked =>
        ofLex (ofLex ranked).2) := by
  rw [forwardedTracks,Finset.mem_filter] at hkey
  obtain ⟨hmem,rfl,rfl,hf⟩ := hkey
  cases ht : s.targets.lookup key with
  | none => simp [ht] at hf
  | some k =>
    rw [ht,any_some,forwardsNow,Bool.and_eq_true,decide_eq_true_eq] at hf
    obtain ⟨rfl,hd⟩ := hf
    cases hk : k.decision with
    | none => simp [hk] at hd
    | some d =>
      rw [hk,any_some,Bool.and_eq_true,decide_eq_true_eq] at hd
      have hw := (hs key k d ht hk).within (by rw [hd.2]; rfl) hd.1 l hl
      rw [rankedWithin,List.any_eq_true] at hw
      obtain ⟨ranked,hr,he⟩ := hw
      exact List.mem_map.mpr ⟨ranked,hr,of_decide_eq_true he⟩

/-- In every run that reshapes no room in which a target was asked since a counter moved last,
no subscriber is sent more tracks of a type than the limit of the type. -/
theorem card_forwardedTracks_le (defaults : RoomDefaults) (limits : SubscriptionLimits)
    (events : List ForwardingEvent)
    (hkeeps : AtEveryStep (fun earlier event =>
      KeepsRanking (stateAfter defaults limits earlier) event) events)
    (room subscriber : String) (type : TrackType) (limit : ℕ)
    (hlimit : limits.forType type = some limit) :
    (forwardedTracks (stateAfter defaults limits events) room subscriber type).card≤limit := by
  have hs := decisionsSound_stateAfter defaults limits events hkeeps
  rw [← stateAfter_subscriptionLimits defaults limits events] at hlimit
  let ranking := (((stateAfter defaults limits events).context.rankedTracks room subscriber
    type).take limit).map (fun ranked => ofLex (ofLex ranked).2)
  have hin : Set.MapsTo (fun key : MediaTrackKey => (key.publisher,key.trackSid))
      (forwardedTracks (stateAfter defaults limits events) room subscriber type)
      ranking.toFinset := by
    intro key hkey
    exact mem_toFinset.mpr (forwardedTracks_ranked hs hlimit hkey)
  -- Within one room and for one subscriber, publisher and sid are the whole key.
  have hi : Set.InjOn (fun key : MediaTrackKey => (key.publisher,key.trackSid))
      (forwardedTracks (stateAfter defaults limits events) room subscriber type) := by
    intro key hkey key' hk' heq
    obtain ⟨-,hr,hsu,-⟩ := mem_filter.mp hkey
    obtain ⟨-,hr',hs',-⟩ := mem_filter.mp hk'
    cases key
    cases key'
    simp_all
  calc (forwardedTracks (stateAfter defaults limits events) room subscriber type).card
      ≤ ranking.toFinset.card := card_le_card_of_injOn _ hin hi
    _≤ranking.length := toFinset_card_le ranking
    _≤limit := by
      rw [length_map]
      exact length_take_le _ _

def enters (identity : String) : ForwardingEvent :=
  .room (.joinParticipantWithPermission ⟨"room",identity,"","",.empty,none⟩ 0)

def publishesAudio (identity trackSid : String) : ForwardingEvent :=
  .room (.addParticipantTrack "room" identity {sid := trackSid,type := .audio})

def sentToCarol (publisher trackSid : String) : MediaTrackKey :=
  ⟨"room",publisher,trackSid,"carol"⟩

def opensAudio (publisher trackSid : String) : ForwardingEvent :=
  .openTarget (sentToCarol publisher trackSid) {sid := trackSid,type := .audio}

def publishThenAsk : List ForwardingEvent :=
  [enters "alice",enters "bob",enters "carol",publishesAudio "bob" "TB",
    publishesAudio "alice" "TA",opensAudio "bob" "TB",opensAudio "alice" "TA",
    .askTarget (sentToCarol "bob" "TB"),.askTarget (sentToCarol "alice" "TA"),
    .setSubscribed (sentToCarol "alice" "TA") false,.askTarget (sentToCarol "bob" "TB"),
    .setSubscribed (sentToCarol "alice" "TA") true,.askTarget (sentToCarol "alice" "TA")]

theorem card_forwardedTracks_le_publishThenAsk :
    (forwardedTracks (stateAfter {} ⟨some 1,none⟩ publishThenAsk) "room" "carol" .audio).card≤1 :=
  card_forwardedTracks_le {} ⟨some 1,none⟩ publishThenAsk
    (by decide +kernel) "room" "carol" .audio 1 rfl

/-- A second track is published after the first was asked for. It ranks higher and is
forwarded, and the kept decision of the first goes on forwarding. -/
theorem publish_exceeds_limit :
    forwardedTracks (stateAfter {} ⟨some 1,none⟩
      [enters "alice",enters "bob",enters "carol",publishesAudio "bob" "TB",
        opensAudio "bob" "TB",.askTarget (sentToCarol "bob" "TB"),publishesAudio "alice" "TA",
        opensAudio "alice" "TA",.askTarget (sentToCarol "alice" "TA")]) "room" "carol" .audio =
      {sentToCarol "alice" "TA",sentToCarol "bob" "TB"} := by
  decide +kernel

end OxideSfu.Signaling
