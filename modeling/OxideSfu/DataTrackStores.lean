import OxideSfu.Numerals
import OxideSfu.RoomParticipants
import OxideSfu.SubscriptionStores

/-!
# Data tracks and their subscriptions

A participant publishes data tracks under handles of its choice (`stores/data_tracks.rs`), and a
subscriber gets a handle for every track (`stores/data_subscriptions.rs`). Subscriptions are found
by the sid, which is made of clock and handle; packets are routed by publisher and handle.
-/

namespace OxideSfu.Signaling

open FiniteMaps Rooms RoomStore Numerals FiniteMap List Option

/-- The clock in milliseconds since 1970; before that it is zero, and an `i64` holds it. -/
def currentUnixMillis (clock : ℤ) : ℕ := min clock.toNat (2^63-1)

def dataTrackSid (clock : ℤ) (pubHandle : ℕ) : String :=
  "DTR_" ++ hex16 (currentUnixMillis clock)++String.ofList (padded 4 pubHandle)

theorem hex16_eq (n : ℕ) : hex16 n=String.ofList (padded 16 n) := rfl

theorem dataTrackSid_inj {clock clock' : ℤ} {n pubHandle' : ℕ}
    (h : dataTrackSid clock n=dataTrackSid clock' pubHandle') :
    currentUnixMillis clock=currentUnixMillis clock' ∧ n=pubHandle' := by
  have hf : ∀clock,currentUnixMillis clock<16^16 := by
    intro clock
    have hle : currentUnixMillis clock≤2^63-1 := Nat.min_le_right _ _
    omega
  have hd : padded 16 (currentUnixMillis clock)++padded 4 n =
      padded 16 (currentUnixMillis clock')++padded 4 pubHandle' := by
    have hl := congrArg String.toList h
    simp only [dataTrackSid,hex16_eq,String.toList_append,String.toList_ofList,append_assoc] at hl
    exact append_cancel_left hl
  exact padded_append_padded_inj (by decide) (hf clock) (hf clock') hd

def firstInOrder (iteration : Iteration String) : FirstFound where
  pick found := (iteration.order found).head?
  pick_mem found identity h := iteration.mem_order.mp (mem_of_head? h)
  pick_isSome found h := by
    obtain ⟨identity,hmem⟩ := h
    rw [isSome_head?]
    exact ne_nil_of_mem (iteration.mem_order.mpr hmem)

structure PublishDataTrackRequest where
  pubHandle : ℕ
  name : String

inductive DataTrackPublishError | duplicateHandle | duplicateName

structure DataTrackStore where
  tracks : FiniteMap ParticipantKey (List DataTrackInfo)

variable {key : ParticipantKey}

namespace DataTrackStore

def empty : DataTrackStore := ⟨.empty⟩

def tracksOf (s : DataTrackStore) (key : ParticipantKey) : List DataTrackInfo :=
  (s.tracks.lookup key).getD []

def publish (s : DataTrackStore) (key : ParticipantKey) (request : PublishDataTrackRequest)
    (clock : ℤ) : Except DataTrackPublishError DataTrackInfo × DataTrackStore :=
  let participantTracks := s.tracksOf key
  if participantTracks.any (·.pubHandle=request.pubHandle) then (.error .duplicateHandle,s)
  else if participantTracks.any (·.name=request.name) then (.error .duplicateName,s)
  else
    let info : DataTrackInfo :=
      ⟨request.pubHandle,dataTrackSid clock request.pubHandle,request.name⟩
    (.ok info,⟨s.tracks.insert key (participantTracks++[info])⟩)

def unpublish (s : DataTrackStore) (key : ParticipantKey) (pubHandle : ℕ) :
    Option DataTrackInfo × DataTrackStore :=
  match (s.tracksOf key).find? (·.pubHandle=pubHandle) with
  | none => (none,s)
  | some info => (some info,⟨s.tracks.insert key ((s.tracksOf key).eraseP (·.pubHandle=pubHandle))⟩)

def publishers (s : DataTrackStore) (room trackSid : String) : Finset String :=
  (s.tracks.keys.filter (fun key =>
    key.room=room ∧ (s.tracksOf key).any (·.sid=trackSid))).image (·.identity)

/-- One of the publishers and its first track with the sid. Which publisher is found first is left
open. -/
def findBySid (s : DataTrackStore) (room trackSid : String) (first : FirstFound) :
    Option (String × DataTrackInfo) :=
  (first.pick (s.publishers room trackSid)).bind (fun identity =>
    ((s.tracksOf ⟨room,identity⟩).find? (·.sid=trackSid)).map (Prod.mk identity))

def removeParticipant (s : DataTrackStore) (key : ParticipantKey) : DataTrackStore :=
  ⟨s.tracks.erase key⟩

def Publishes (s : DataTrackStore) (key : ParticipantKey) (trackSid : String) : Prop :=
  ∃track∈s.tracksOf key,track.sid=trackSid
  deriving Decidable

variable {s : DataTrackStore} {trackSid : String}

theorem any_sid_iff : (s.tracksOf key).any (·.sid=trackSid) ↔ s.Publishes key trackSid := by
  simp [Publishes]

theorem publish_cases (s : DataTrackStore) (key : ParticipantKey) (r : PublishDataTrackRequest)
    (clock : ℤ) :
    (∃e,s.publish key r clock=(.error e,s)) ∨
      (∀k∈s.tracksOf key,k.pubHandle≠r.pubHandle) ∧
        s.publish key r clock =
          (.ok ⟨r.pubHandle,dataTrackSid clock r.pubHandle,r.name⟩,
            ⟨s.tracks.insert key
              (s.tracksOf key ++ [⟨r.pubHandle,dataTrackSid clock r.pubHandle,r.name⟩])⟩) := by
  rw [publish]
  split_ifs with hh hn
  · exact .inl ⟨_,rfl⟩
  · exact .inl ⟨_,rfl⟩
  · refine .inr ⟨?_,rfl⟩
    simpa using hh

theorem unpublish_cases (s : DataTrackStore) (key : ParticipantKey) (n : ℕ) :
    ((∀k∈s.tracksOf key,k.pubHandle≠n) ∧ s.unpublish key n=(none,s)) ∨
      ∃info∈s.tracksOf key,info.pubHandle=n ∧
        s.unpublish key n =
          (some info,⟨s.tracks.insert key ((s.tracksOf key).eraseP (·.pubHandle=n))⟩) := by
  rw [unpublish]
  cases hf : (s.tracksOf key).find? (·.pubHandle=n) with
  | none => exact .inl ⟨by simpa using hf,rfl⟩
  | some info =>
    refine .inr ⟨info,mem_of_find?_eq_some hf,?_,rfl⟩
    simpa using find?_some hf

theorem tracksOf_insert (ks : FiniteMap ParticipantKey (List DataTrackInfo))
    (key key' : ParticipantKey) (list : List DataTrackInfo) :
    tracksOf ⟨ks.insert key list⟩ key'=if key'=key then list else tracksOf ⟨ks⟩ key' := by
  rw [tracksOf,lookup_insert]
  split_ifs <;> rfl

theorem tracksOf_removeParticipant (s : DataTrackStore) (key key' : ParticipantKey) :
    (s.removeParticipant key).tracksOf key'=if key'=key then [] else s.tracksOf key' := by
  rw [tracksOf,removeParticipant,lookup_erase]
  split_ifs <;> rfl

theorem mem_keys_of_publishes (h : s.Publishes key trackSid) : key∈s.tracks.keys := by
  obtain ⟨k,ht,-⟩ := h
  rw [tracksOf] at ht
  cases hl : s.tracks.lookup key with
  | none =>
    rw [hl] at ht
    cases ht
  | some list => exact mem_keys_of_lookup hl

theorem mem_publishers {room q : String} :
    q∈s.publishers room trackSid ↔ s.Publishes ⟨room,q⟩ trackSid := by
  rw [publishers,Finset.mem_image]
  constructor
  · rintro ⟨key,hkey,rfl⟩
    obtain ⟨-,rfl,hany⟩ := Finset.mem_filter.mp hkey
    exact any_sid_iff.mp hany
  · intro h
    refine ⟨⟨room,q⟩,?_,rfl⟩
    rw [Finset.mem_filter]
    exact ⟨mem_keys_of_publishes h,rfl,any_sid_iff.mpr h⟩

theorem findBySid_some {room q : String} {first : FirstFound}
    {k : DataTrackInfo} (h : s.findBySid room trackSid first=some (q,k)) :
    k∈s.tracksOf ⟨room,q⟩ ∧ k.sid=trackSid := by
  obtain ⟨i,-,hfo⟩ := bind_eq_some_iff.mp h
  obtain ⟨found,hf,heq⟩ := map_eq_some_iff.mp hfo
  obtain ⟨rfl,rfl⟩ := Prod.mk.inj heq
  exact ⟨mem_of_find?_eq_some hf,by simpa using find?_some hf⟩

theorem findBySid_isSome_iff (s : DataTrackStore) (room sid : String) (first : FirstFound) :
    (s.findBySid room sid first).isSome ↔ ∃q,s.Publishes ⟨room,q⟩ sid := by
  constructor
  · intro h
    obtain ⟨⟨q,k⟩,hf⟩ := isSome_iff_exists.mp h
    obtain ⟨ht,hsid⟩ := findBySid_some hf
    exact ⟨q,k,ht,hsid⟩
  · rintro ⟨q,hpu⟩
    obtain ⟨picked,hp⟩ := isSome_iff_exists.mp (first.pick_isSome _ ⟨q,mem_publishers.mpr hpu⟩)
    have hany := any_sid_iff.mpr (mem_publishers.mp (first.pick_mem _ picked hp))
    rw [findBySid,hp]
    simpa using hany

end DataTrackStore

structure DataTrackSubscriptionKey where
  (room subscriber trackSid : String)
  deriving DecidableEq

structure DataTrackSubscriptionOptions where
  targetFps : Option ℕ := none

structure DataTrackSubscription where
  (publisherIdentity publisherSid trackSid : String)
  (pubHandle subHandle : ℕ)
  options : Option DataTrackSubscriptionOptions

structure DataSubscriptionUpdate where
  trackSid : String
  subscribe : Bool
  options : Option DataTrackSubscriptionOptions := none

structure PublishedDataTrack where
  (publisherIdentity publisherSid trackSid : String)

structure DataTrackSubscriptionStore where
  subscriptions : FiniteMap DataTrackSubscriptionKey DataTrackSubscription
  nextHandle : ℕ

namespace DataTrackSubscriptionStore

def empty : DataTrackSubscriptionStore := ⟨.empty,0⟩

/-- The counter goes up even when it has no handle left to give. -/
def allocateHandle (s : DataTrackSubscriptionStore) : Option ℕ × DataTrackSubscriptionStore :=
  let next := saturatingSucc 32 s.nextHandle
  (if next=0 ∨ next > 65535 then none else some next,{s with nextHandle := next})

def participantSid (rooms : RoomStore) (key : ParticipantKey) : String :=
  (((rooms.getParticipant key.room key.identity).toOption).map (·.sid)).getD ""

def applyUpdate (key : ParticipantKey) (dataTracks : DataTrackStore) (rooms : RoomStore)
    (first : FirstFound) (s : DataTrackSubscriptionStore) (update : DataSubscriptionUpdate) :
    DataTrackSubscriptionStore :=
  let entry : DataTrackSubscriptionKey := ⟨key.room,key.identity,update.trackSid⟩
  if !update.subscribe then {s with subscriptions := s.subscriptions.erase entry}
  else
    match s.subscriptions.lookup entry with
    | some subscription =>
      {s with
        subscriptions := s.subscriptions.insert entry
          {subscription with options := update.options}}
    | none =>
      match dataTracks.findBySid key.room update.trackSid first with
      | none => s
      | some (publisher,track) =>
        match s.allocateHandle with
        | (none,s) => s
        | (some subHandle,s) =>
          {s with
            subscriptions := s.subscriptions.insert entry {
              publisherIdentity := publisher,publisherSid :=
                participantSid rooms ⟨key.room,publisher⟩
              trackSid := update.trackSid,pubHandle := track.pubHandle
              subHandle
              options := update.options}}

def update (s : DataTrackSubscriptionStore) (key : ParticipantKey)
    (updates : List DataSubscriptionUpdate) (dataTracks : DataTrackStore) (rooms : RoomStore)
    (first : FirstFound) : DataTrackSubscriptionStore :=
  updates.foldl (applyUpdate key dataTracks rooms first) s

def handlesForSubscriber (s : DataTrackSubscriptionStore) (key : ParticipantKey)
    (iteration : Iteration DataTrackSubscriptionKey) : FiniteMap ℕ PublishedDataTrack :=
  ((s.subscriptions.entries iteration).filter (fun entry =>
      entry.1.room=key.room ∧ entry.1.subscriber=key.identity)).foldl
    (fun handles entry => handles.insert entry.2.subHandle
      ⟨entry.2.publisherIdentity,entry.2.publisherSid,entry.2.trackSid⟩) .empty

/-- The subscribers of a packet with their handles, in no particular order. -/
def subscribersForPacketWithPublisherSid (s : DataTrackSubscriptionStore) (key : ParticipantKey)
    (publisherSid : String) (pubHandle : ℕ) : Multiset (String × ℕ) :=
  s.subscriptions.keys.val.filterMap (fun entry =>
    (s.subscriptions.lookup entry).bind (fun subscription =>
      if entry.room=key.room ∧ subscription.publisherIdentity=key.identity ∧
          subscription.publisherSid=publisherSid ∧ subscription.pubHandle=pubHandle then
        some (entry.subscriber,subscription.subHandle)
      else none))

def removePublishedTrack (s : DataTrackSubscriptionStore) (key : ParticipantKey)
    (pubHandle : ℕ) : DataTrackSubscriptionStore :=
  {s with
    subscriptions := s.subscriptions.filter (fun entry subscription =>
      entry.room≠key.room ∨ subscription.publisherIdentity≠key.identity ∨
        subscription.pubHandle≠pubHandle)}

def removeParticipant (s : DataTrackSubscriptionStore) (key : ParticipantKey) :
    DataTrackSubscriptionStore :=
  {s with
    subscriptions := s.subscriptions.filter (fun entry subscription =>
      entry.room≠key.room ∨
        (entry.subscriber≠key.identity ∧ subscription.publisherIdentity≠key.identity))}

variable {s : DataTrackSubscriptionStore}

theorem allocateHandle_of_lt (h : s.nextHandle<65535) :
    s.allocateHandle=(some (s.nextHandle+1),{s with nextHandle := s.nextHandle+1}) := by
  have hn : saturatingSucc 32 s.nextHandle=s.nextHandle+1 := by
    rw [saturatingSucc]
    omega
  have hf : ¬(s.nextHandle+1=0 ∨ s.nextHandle+1 > 65535) := by omega
  rw [allocateHandle,hn]
  exact congrArg (·,_) (if_neg hf)

theorem allocateHandle_of_le (h : 65535 ≤ s.nextHandle) :
    s.allocateHandle=(none,{s with nextHandle := saturatingSucc 32 s.nextHandle}) := by
  have he : saturatingSucc 32 s.nextHandle > 65535 := by
    rw [saturatingSucc]
    omega
  exact congrArg (·,_) (if_pos (.inr he))

/-- What one entry of a request does to the subscriptions. -/
inductive Updated (key : ParticipantKey) (dataTracks : DataTrackStore) (rooms : RoomStore)
    (s : DataTrackSubscriptionStore) (update : DataSubscriptionUpdate) :
    DataTrackSubscriptionStore→Prop
  | unsubscribed (hasked : update.subscribe=false) :
      Updated key dataTracks rooms s update
        {s with subscriptions := s.subscriptions.erase ⟨key.room,key.identity,update.trackSid⟩}
  | known (hasked : update.subscribe) (subscription : DataTrackSubscription)
      (hknown : s.subscriptions.lookup ⟨key.room,key.identity,update.trackSid⟩ =
        some subscription) :
      Updated key dataTracks rooms s update
        {s with
          subscriptions := s.subscriptions.insert ⟨key.room,key.identity,update.trackSid⟩
            {subscription with options := update.options}}
  | unpublished (hasked : update.subscribe)
      (hnew : s.subscriptions.lookup ⟨key.room,key.identity,update.trackSid⟩=none)
      (hnobody : ¬ ∃publisher,dataTracks.Publishes ⟨key.room,publisher⟩ update.trackSid) :
      Updated key dataTracks rooms s update s
  | exhausted (hasked : update.subscribe)
      (hnew : s.subscriptions.lookup ⟨key.room,key.identity,update.trackSid⟩=none)
      (hpublished : ∃publisher,dataTracks.Publishes ⟨key.room,publisher⟩ update.trackSid)
      (hhandles : 65535 ≤ s.nextHandle) :
      Updated key dataTracks rooms s update {s with nextHandle := saturatingSucc 32 s.nextHandle}
  | opened (hasked : update.subscribe)
      (hnew : s.subscriptions.lookup ⟨key.room,key.identity,update.trackSid⟩=none)
      (publisher : String) (track : DataTrackInfo)
      (htrack : track∈dataTracks.tracksOf ⟨key.room,publisher⟩)
      (hsid : track.sid=update.trackSid) (hhandles : s.nextHandle<65535) :
      Updated key dataTracks rooms s update
        { subscriptions := s.subscriptions.insert ⟨key.room,key.identity,update.trackSid⟩ {
            publisherIdentity := publisher,publisherSid := participantSid rooms ⟨key.room,publisher⟩
            trackSid := update.trackSid,pubHandle := track.pubHandle,subHandle := s.nextHandle+1
            options := update.options}
          nextHandle := s.nextHandle+1}

theorem updated_applyUpdate (key : ParticipantKey) (dataTracks : DataTrackStore) (rooms : RoomStore)
    (first : FirstFound) (s : DataTrackSubscriptionStore) (u : DataSubscriptionUpdate) :
    Updated key dataTracks rooms s u (applyUpdate key dataTracks rooms first s u) := by
  rw [applyUpdate]
  by_cases ha : u.subscribe
  · rw [if_neg (by simp [ha])]
    cases hl : s.subscriptions.lookup ⟨key.room,key.identity,u.trackSid⟩ with
    | some b => exact .known ha b hl
    | none =>
      have hiff := dataTracks.findBySid_isSome_iff key.room u.trackSid first
      cases hf : dataTracks.findBySid key.room u.trackSid first with
      | none =>
        rw [hf] at hiff
        exact .unpublished ha hl (fun h => by cases hiff.mpr h)
      | some found =>
        obtain ⟨q,k⟩ := found
        obtain ⟨ht,hsid⟩ := DataTrackStore.findBySid_some hf
        by_cases hh : s.nextHandle<65535
        · rw [allocateHandle_of_lt hh]
          exact .opened ha hl q k ht hsid hh
        · rw [allocateHandle_of_le (Nat.not_lt.mp hh)]
          exact .exhausted ha hl ⟨q,k,ht,hsid⟩ (Nat.not_lt.mp hh)
  · have ha : u.subscribe=false := by simpa using ha
    rw [if_pos (by simp [ha])]
    exact .unsubscribed ha

theorem mem_subscribersForPacketWithPublisherSid {publisherSid u : String} {n subHandle : ℕ} :
    (u,subHandle)∈s.subscribersForPacketWithPublisherSid key publisherSid n ↔
      ∃sid b,
        s.subscriptions.lookup ⟨key.room,u,sid⟩=some b ∧
        b.publisherIdentity=key.identity ∧
        b.publisherSid=publisherSid ∧ b.pubHandle=n ∧
        b.subHandle=subHandle := by
  rw [subscribersForPacketWithPublisherSid,Multiset.mem_filterMap]
  constructor
  · rintro ⟨⟨room,subscriber',sid⟩,-,he⟩
    obtain ⟨b,hl,hif⟩ := bind_eq_some_iff.mp he
    split_ifs at hif with hm
    obtain ⟨rfl,hp,hsid,hh⟩ := hm
    obtain ⟨rfl,rfl⟩ := Prod.mk.inj (some.inj hif)
    exact ⟨sid,b,hl,hp,hsid,hh,rfl⟩
  · rintro ⟨sid,b,hl,hp,hsid,hh,rfl⟩
    refine ⟨_,mem_keys_of_lookup hl,?_⟩
    rw [hl,bind_some,if_pos ⟨rfl,hp,hsid,hh⟩]

def HandlesDistinct (s : DataTrackSubscriptionStore) : Prop :=
  ∀entry entry' subscription subscription',
    s.subscriptions.lookup entry=some subscription →
    s.subscriptions.lookup entry'=some subscription' →
    subscription.subHandle=subscription'.subHandle → entry=entry'

/-- The table of a subscriber, whatever the order in which it was collected. -/
theorem lookup_handlesForSubscriber (hd : s.HandlesDistinct) (key : ParticipantKey)
    (it : Iteration DataTrackSubscriptionKey) {subHandle : ℕ} {published : PublishedDataTrack} :
    (s.handlesForSubscriber key it).lookup subHandle=some published ↔
      ∃sid b,
        s.subscriptions.lookup ⟨key.room,key.identity,sid⟩=some b ∧
        b.subHandle=subHandle ∧
        published=⟨b.publisherIdentity,b.publisherSid,b.trackSid⟩ := by
  rw [handlesForSubscriber,lookup_foldl_insert]
  · constructor
    · rintro ⟨⟨⟨room,u,sid⟩,b⟩,hmem,hh,hp⟩
      obtain ⟨he,hw⟩ := mem_filter.mp hmem
      obtain ⟨rfl,rfl⟩ : room=key.room ∧ u=key.identity := by simpa using hw
      exact ⟨sid,b,mem_entries.mp he,hh,hp.symm⟩
    · rintro ⟨sid,b,hl,hh,hp⟩
      refine ⟨(⟨key.room,key.identity,sid⟩,b),?_,hh,hp.symm⟩
      exact mem_filter.mpr ⟨mem_entries.mpr hl,by simp⟩
  · rintro ⟨e,b⟩ hmem ⟨entry',subscription'⟩ hm' hh
    have hl := mem_entries.mp (mem_filter.mp hmem).1
    have hl' := mem_entries.mp (mem_filter.mp hm').1
    obtain rfl := hd e entry' b subscription' hl hl' hh
    obtain rfl : b=subscription' := some.inj (hl.symm.trans hl')
    rfl

end DataTrackSubscriptionStore

structure DataTrackStores where
  rooms : RoomStore
  dataTracks : DataTrackStore
  subscriptions : DataTrackSubscriptionStore

/-- The calls that the handlers make. Removing a participant clears it from all three stores, and a
track that is unpublished takes its subscriptions along. -/
inductive DataTrackCall
  | join (request : JoinRequest) (now : ℤ)
  | publish (key : ParticipantKey) (request : PublishDataTrackRequest) (clock : ℤ)
  | unpublish (key : ParticipantKey) (pubHandle : ℕ)
  | update (key : ParticipantKey) (updates : List DataSubscriptionUpdate) (first : FirstFound)
  | remove (key : ParticipantKey) (reason : ℕ) (now : ℤ)

namespace DataTrackStores

def initial (defaults : RoomDefaults) : DataTrackStores :=
  ⟨.withDefaults defaults,.empty,.empty⟩

def unpublish (s : DataTrackStores) (key : ParticipantKey) (pubHandle : ℕ) : DataTrackStores :=
  match s.dataTracks.unpublish key pubHandle with
  | (none,_) => s
  | (some _,dataTracks) =>
    {s with
      dataTracks
      subscriptions := s.subscriptions.removePublishedTrack key pubHandle}

def update (s : DataTrackStores) (key : ParticipantKey) (updates : List DataSubscriptionUpdate)
    (first : FirstFound) : DataTrackStores :=
  {s with subscriptions := s.subscriptions.update key updates s.dataTracks s.rooms first}

def apply (s : DataTrackStores) : DataTrackCall → DataTrackStores
  | .join request now => {s with rooms := (s.rooms.joinParticipantWithPermission request now).2}
  | .publish key request clock =>
    {s with dataTracks := (s.dataTracks.publish key request clock).2}
  | .unpublish key pubHandle => s.unpublish key pubHandle
  | .update key updates first => s.update key updates first
  | .remove key reason now => {
      rooms := (s.rooms.removeParticipantWithReason key.room key.identity reason now).2
      dataTracks := s.dataTracks.removeParticipant key
      subscriptions := s.subscriptions.removeParticipant key}

def run (s : DataTrackStores) (calls : List DataTrackCall) : DataTrackStores := calls.foldl apply s

variable (s : DataTrackStores)

theorem run_cons (call : DataTrackCall) (calls : List DataTrackCall) :
    s.run (call::calls)=(s.apply call).run calls := rfl

@[simp] theorem run_concat (calls : List DataTrackCall) (call : DataTrackCall) :
    s.run (calls++[call])=(s.run calls).apply call :=
  foldl_append

/-- Where a packet of a publisher with a handle is sent: to the subscriptions that were made of this
handle and of the session that the publisher has now. -/
def routes (s : DataTrackStores) (key : ParticipantKey) (pubHandle : ℕ) : Multiset (String × ℕ) :=
  let publisherSid := DataTrackSubscriptionStore.participantSid s.rooms key
  if publisherSid = "" then 0
  else s.subscriptions.subscribersForPacketWithPublisherSid key publisherSid pubHandle

end DataTrackStores

end OxideSfu.Signaling
