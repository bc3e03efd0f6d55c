import OxideSfu.DataTrackStores
import OxideSfu.StepRuns

/-!
# Where data-track packets go

A run of calls says what every subscriber has asked for, and packets go there as long as sids tell
the tracks of a room apart, that is, unless two participants publish under one handle in the same
millisecond, and as long as there are handles left.
-/

namespace OxideSfu.Signaling

open FiniteMaps Rooms RoomStore StepRuns DataTrackSubscriptionStore FiniteMap DataTrackStore
  DataTrackStores List Option Nat

def wantedAfterUpdate (key : ParticipantKey) (wanted : Finset DataTrackSubscriptionKey)
    (update : DataSubscriptionUpdate) : Finset DataTrackSubscriptionKey :=
  if update.subscribe then insert ⟨key.room,key.identity,update.trackSid⟩ wanted
  else wanted.erase ⟨key.room,key.identity,update.trackSid⟩

/-- Which subscriptions the last updates have asked for. What was said of a sid before the track was
published is not about the track, and a participant that is removed has asked for nothing. -/
def wantedStep (s : DataTrackStores) (wanted : Finset DataTrackSubscriptionKey) :
    DataTrackCall → Finset DataTrackSubscriptionKey
  | .publish key request clock =>
    match (s.dataTracks.publish key request clock).1 with
    | .error _ => wanted
    | .ok info => wanted.filter (fun entry => ¬(entry.room=key.room ∧ entry.trackSid=info.sid))
  | .update key updates _ => updates.foldl (wantedAfterUpdate key) wanted
  | .remove key _ _ =>
    wanted.filter (fun entry => ¬(entry.room=key.room ∧ entry.subscriber=key.identity))
  | .join _ _ => wanted | .unpublish _ _ => wanted

def wantedFrom (s : DataTrackStores) (wanted : Finset DataTrackSubscriptionKey) :
    List DataTrackCall → Finset DataTrackSubscriptionKey
  | [] => wanted | call::calls => wantedFrom (s.apply call) (wantedStep s wanted call) calls

def wantedAfter (defaults : RoomDefaults) (calls : List DataTrackCall) :
    Finset DataTrackSubscriptionKey :=
  wantedFrom (.initial defaults) ∅ calls

theorem wantedFrom_concat (s : DataTrackStores) (wanted : Finset DataTrackSubscriptionKey)
    (calls : List DataTrackCall) (call : DataTrackCall) :
    wantedFrom s wanted (calls++[call]) =
      wantedStep (s.run calls) (wantedFrom s wanted calls) call := by
  induction calls generalizing s wanted with
  | nil => rfl
  | cons first calls ih => exact ih (s.apply first) (wantedStep s wanted first)

structure Publication where
  key : ParticipantKey
  (pubHandle millis : ℕ)

def publications (calls : List DataTrackCall) : List Publication :=
  calls.filterMap (fun call =>
    match call with
    | .publish key request clock => some ⟨key,request.pubHandle,currentUnixMillis clock⟩
    | _ => none)

/-- No two participants of a room publish under the same handle in the same millisecond. -/
def DistinctPublications (calls : List DataTrackCall) : Prop :=
  ∀publication∈publications calls,∀other∈publications calls,
    publication.key.room=other.key.room → publication.pubHandle=other.pubHandle →
      publication.millis=other.millis → publication.key=other.key
  deriving Decidable

/-- Who joins is not in the room yet, who publishes is in the room, and there are handles left for
the entries of an update. -/
def CallAllowed (s : DataTrackStores) : DataTrackCall→Prop
  | .join request _ => (currentParticipant s.rooms request.room request.identity).isSome=false
  | .publish key _ _ => (currentParticipant s.rooms key.room key.identity).isSome
  | .update _ updates _ => s.subscriptions.nextHandle+updates.length≤65535
  | .unpublish _ _ => True | .remove _ _ _ => True

instance (s : DataTrackStores) : (call : DataTrackCall)→Decidable (CallAllowed s call)
  | .join _ _ => inferInstanceAs (Decidable (_=false))
  | .publish _ _ _ => inferInstanceAs (Decidable (_=true))
  | .update _ _ _ => inferInstanceAs (Decidable (_≤65535))
  | .unpublish .. | .remove .. => isTrue trivial

variable {clock : ℤ} {key : ParticipantKey}

theorem mem_publications {calls : List DataTrackCall}
    {r : PublishDataTrackRequest} (h : .publish key r clock∈calls) :
    ⟨key,r.pubHandle,currentUnixMillis clock⟩∈publications calls :=
  mem_filterMap.mpr ⟨_,h,rfl⟩

theorem DistinctPublications.of_append {calls l : List DataTrackCall}
    (h : DistinctPublications (calls++l)) : DistinctPublications calls := by
  have hsub : ∀publication∈publications calls,publication∈publications (calls++l) := by
    intro publication hmem
    rw [publications,filterMap_append]
    exact mem_append_left _ hmem
  intro publication hmem o ho
  exact h publication (hsub publication hmem) o (hsub o ho)

variable {k : DataTrackInfo} {publisher : String}

/-- What holds of the live tracks after a run: each comes from a call to publish, the handles of a
participant differ, and whoever has a track is in the room. -/
structure TracksTraced (calls : List DataTrackCall) (s : DataTrackStores) : Prop where
  origin : ∀key,∀track∈s.dataTracks.tracksOf key,∃request clock,
    .publish key request clock∈calls ∧ track.sid=dataTrackSid clock request.pubHandle ∧
      track.pubHandle=request.pubHandle
  handles : ∀key,((s.dataTracks.tracksOf key).map (·.pubHandle)).Nodup
  present : ∀key,∀track∈s.dataTracks.tracksOf key,
    (currentParticipant s.rooms key.room key.identity).isSome
  named : ∀room identity participant,
    currentParticipant s.rooms room identity=some participant → participant.sid ≠ ""

variable {calls : List DataTrackCall} {s : DataTrackStores} {room : String} {track' : DataTrackInfo}

theorem TracksTraced.eq_of_handle (h : TracksTraced calls s) (ht : k∈s.dataTracks.tracksOf key)
    (ht' : track'∈s.dataTracks.tracksOf key) (hh : k.pubHandle=track'.pubHandle) :
    k=track' :=
  inj_on_of_nodup_map (h.handles key) ht ht' hh

theorem TracksTraced.eq_of_sid (h : TracksTraced calls s) (hd : DistinctPublications calls)
    {publisher' : String} (ht : k∈s.dataTracks.tracksOf ⟨room,publisher⟩)
    (ht' : track'∈s.dataTracks.tracksOf ⟨room,publisher'⟩) (hsid : k.sid=track'.sid) :
    publisher=publisher' ∧ k=track' := by
  obtain ⟨request,clock,hc,ho,hha⟩ := h.origin _ k ht
  obtain ⟨request',clock',hc',ho',hh'⟩ := h.origin _ track' ht'
  rw [ho,ho'] at hsid
  obtain ⟨hm,hh⟩ := dataTrackSid_inj hsid
  have hk := hd _ (mem_publications hc) _ (mem_publications hc') rfl hh hm
  obtain rfl : publisher=publisher' := congrArg ParticipantKey.identity hk
  exact ⟨rfl,h.eq_of_handle ht ht' (by rw [hha,hh',hh])⟩

def Live (dataTracks : DataTrackStore) (room trackSid : String) : Prop :=
  ∃publisher,dataTracks.Publishes ⟨room,publisher⟩ trackSid

theorem tracksTraced_initial (defaults : RoomDefaults) : TracksTraced [] (.initial defaults) where
  origin _ _ h := by cases h
  handles _ := nodup_nil
  present _ _ h := by cases h
  named _ _ _ h := by cases h

section

variable (h : TracksTraced calls s)

include h

namespace TracksTraced

theorem of_same_tracks {t : DataTrackStores}
    (hd : t.dataTracks=s.dataTracks)
    (hp : ∀r i,(currentParticipant s.rooms r i).isSome → (currentParticipant t.rooms r i).isSome)
    (hn : ∀r i p,currentParticipant t.rooms r i=some p →
      p.sid ≠ "") (call : DataTrackCall) : TracksTraced (calls++[call]) t where
  origin key k ht := by
    rw [hd] at ht
    obtain ⟨request,clock,hc,ho⟩ := h.origin key k ht
    exact ⟨request,clock,mem_append_left _ hc,ho⟩
  handles key := by
    rw [hd]
    exact h.handles key
  present key k ht := by
    rw [hd] at ht
    exact hp _ _ (h.present key k ht)
  named := hn

theorem join (request : JoinRequest) (now : ℤ) :
    TracksTraced (calls++[.join request now]) (s.apply (.join request now)) := by
  obtain ⟨e,t,heq,hs⟩ | ⟨j,t,heq,-,-,-,hr⟩ := joinParticipantWithPermission_spec s.rooms request now
  · refine h.of_same_tracks (t := s.apply (.join request now)) rfl ?_ ?_ _
    · intro r i
      rw [DataTrackStores.apply,heq,hs]
      exact id
    · intro r i p hp
      rw [DataTrackStores.apply,heq,hs] at hp
      exact h.named r i p hp
  · refine h.of_same_tracks (t := s.apply (.join request now)) rfl ?_ ?_ _
    · intro r i hb
      rw [DataTrackStores.apply,heq,hr r i]
      split_ifs
      · rfl
      · exact hb
    · intro r i p hp
      rw [DataTrackStores.apply,heq,hr r i] at hp
      split_ifs at hp
      · rw [← some.inj hp,sid_of_joinParticipantWithPermission heq]
        exact fun he => by simpa using congrArg String.toList he
      · exact h.named r i p hp

theorem update (key : ParticipantKey) (us : List DataSubscriptionUpdate) (first : FirstFound) :
    TracksTraced (calls++[.update key us first]) (s.apply (.update key us first)) :=
  h.of_same_tracks (t := s.apply (.update key us first)) rfl (fun _ _ => id) h.named _

/-- A call that is accepted adds a track with a sid that no live track of the room has. -/
theorem publish (hp : (currentParticipant s.rooms key.room key.identity).isSome)
    (r : PublishDataTrackRequest) (clock : ℤ) :
    TracksTraced (calls++[.publish key r clock]) (s.apply (.publish key r clock)) := by
  obtain ⟨e,heq⟩ | ⟨hnew,heq⟩ := s.dataTracks.publish_cases key r clock
  · apply h.of_same_tracks
    · rw [DataTrackStores.apply,heq]
    · exact fun _ _ => id
    · exact h.named
  · rw [DataTrackStores.apply,heq]
    constructor
    · intro key' k ht
      rw [tracksOf_insert] at ht
      split_ifs at ht with hkey
      · obtain hold | ha := mem_append.mp ht
        · obtain ⟨request',clock',hc,ho⟩ := h.origin key k hold
          exact ⟨request',clock',mem_append_left _ (hkey ▸ hc),ho⟩
        · rw [mem_singleton.mp ha,hkey]
          exact ⟨r,clock,by simp,rfl,rfl⟩
      · obtain ⟨request',clock',hc,ho⟩ := h.origin key' k ht
        exact ⟨request',clock',mem_append_left _ hc,ho⟩
    · intro key'
      rw [tracksOf_insert]
      split_ifs
      · rw [map_append,map_singleton,← concat_eq_append,nodup_concat]
        refine ⟨?_,h.handles key⟩
        intro hmem
        obtain ⟨k,ht,hh⟩ := mem_map.mp hmem
        exact hnew k ht hh
      · exact h.handles key'
    · intro key' k ht
      rw [tracksOf_insert] at ht
      split_ifs at ht with hkey
      · rw [hkey]
        exact hp
      · exact h.present key' k ht
    · exact h.named

theorem of_fewer_tracks {t : DataTrackStores}
    (hf : ∀key,(t.dataTracks.tracksOf key).Sublist (s.dataTracks.tracksOf key))
    (hp : ∀key,∀k∈t.dataTracks.tracksOf key,
      currentParticipant t.rooms key.room key.identity =
        currentParticipant s.rooms key.room key.identity)
    (hn : ∀r i p,currentParticipant t.rooms r i=some p →
      p.sid ≠ "") (call : DataTrackCall) : TracksTraced (calls++[call]) t where
  origin key k ht := by
    obtain ⟨request,clock,hc,ho⟩ := h.origin key k ((hf key).subset ht)
    exact ⟨request,clock,mem_append_left _ hc,ho⟩
  handles key := (h.handles key).sublist ((hf key).map _)
  present key k ht := by
    rw [hp key k ht]
    exact h.present key k ((hf key).subset ht)
  named := hn

theorem unpublish (key : ParticipantKey) (n : ℕ) :
    TracksTraced (calls++[.unpublish key n]) (s.apply (.unpublish key n)) := by
  rw [DataTrackStores.apply,DataTrackStores.unpublish]
  obtain ⟨-,heq⟩ | ⟨info,-,-,heq⟩ := s.dataTracks.unpublish_cases key n
  · rw [heq]
    exact h.of_same_tracks rfl (fun _ _ => id) h.named _
  · rw [heq]
    apply h.of_fewer_tracks
    · intro key'
      rw [tracksOf_insert]
      split_ifs with hkey
      · rw [hkey]
        exact eraseP_sublist
      · exact List.Sublist.refl _
    · exact fun _ _ _ => rfl
    · exact h.named

end TracksTraced

end

theorem currentParticipant_removeParticipant (rooms : RoomStore) (key : ParticipantKey)
    (re : ℕ) (now : ℤ) (r i : String) :
    currentParticipant (rooms.removeParticipantWithReason key.room key.identity re now).2 r i =
      if r=key.room ∧ i=key.identity then none else currentParticipant rooms r i := by
  obtain ⟨e,hn,heq⟩ | ⟨p,t,-,heq,hr⟩ :=
    removeParticipantWithReason_spec rooms key.room key.identity re now
  · rw [heq]
    split_ifs with hkey
    · rw [hkey.1,hkey.2,hn]
    · rfl
  · rw [heq]
    exact hr r i

theorem TracksTraced.remove (h : TracksTraced calls s) (key : ParticipantKey) (re : ℕ) (now : ℤ) :
    TracksTraced (calls++[.remove key re now]) (s.apply (.remove key re now)) := by
  apply h.of_fewer_tracks
  · intro key'
    rw [DataTrackStores.apply,tracksOf_removeParticipant]
    split_ifs
    · exact nil_sublist _
    · exact List.Sublist.refl _
  · intro key' k ht
    rw [DataTrackStores.apply,tracksOf_removeParticipant] at ht
    split_ifs at ht with hkey
    · cases ht
    · rw [DataTrackStores.apply,currentParticipant_removeParticipant,if_neg]
      rintro ⟨hr,hi⟩
      exact hkey (by cases key; cases key'; simp_all)
  · intro r i p hp
    rw [DataTrackStores.apply,currentParticipant_removeParticipant] at hp
    split_ifs at hp
    exact h.named r i p hp

/-- Every subscription is of a live track, under the name of its publisher's present session and a
handle of its own; and the subscriptions are those that were asked for. -/
structure SubscriptionsExact (dataTracks : DataTrackStore) (rooms : RoomStore)
    (s : DataTrackSubscriptionStore) (wanted : Finset DataTrackSubscriptionKey) : Prop where
  trackSid : ∀entry subscription,s.subscriptions.lookup entry=some subscription →
    subscription.trackSid=entry.trackSid
  live : ∀entry subscription,s.subscriptions.lookup entry=some subscription →
    ∃track∈dataTracks.tracksOf ⟨entry.room,subscription.publisherIdentity⟩,
      track.sid=entry.trackSid ∧ track.pubHandle=subscription.pubHandle
  publisherSid : ∀entry subscription,s.subscriptions.lookup entry=some subscription →
    subscription.publisherSid=participantSid rooms ⟨entry.room,subscription.publisherIdentity⟩
  numbered : ∀entry subscription,s.subscriptions.lookup entry=some subscription →
    subscription.subHandle ≤ s.nextHandle
  distinct : s.HandlesDistinct
  answered : ∀entry,(s.subscriptions.lookup entry).isSome ↔
    entry∈wanted ∧ Live dataTracks entry.room entry.trackSid

variable {dataTracks dataTracks' : DataTrackStore} {rooms rooms' : RoomStore}
  {s t : DataTrackSubscriptionStore} {wanted wanted' : Finset DataTrackSubscriptionKey}
  {item : DataSubscriptionUpdate} {e : DataTrackSubscriptionKey} {sb : DataTrackSubscription}

section

variable (h : SubscriptionsExact dataTracks rooms s wanted)

include h

namespace SubscriptionsExact

theorem liveEntry (he : s.subscriptions.lookup e=some sb) : Live dataTracks e.room e.trackSid := by
  obtain ⟨k,ht,hsid,-⟩ := h.live e sb he
  exact ⟨sb.publisherIdentity,k,ht,hsid⟩

/-- Calls that only remove subscriptions; `answered` is left to be shown. -/
theorem of_fewer
    (hf : ∀e b,t.subscriptions.lookup e=some b → s.subscriptions.lookup e=some b)
      (hn : t.nextHandle=s.nextHandle)
    (hl : ∀e b,t.subscriptions.lookup e=some b →
      ∀k∈dataTracks.tracksOf ⟨e.room,b.publisherIdentity⟩,
        k.sid=e.trackSid → k.pubHandle=b.pubHandle →
        k∈dataTracks'.tracksOf ⟨e.room,b.publisherIdentity⟩)
    (hr : ∀e b,t.subscriptions.lookup e=some b →
      participantSid rooms' ⟨e.room,b.publisherIdentity⟩ =
        participantSid rooms ⟨e.room,b.publisherIdentity⟩)
    (ha : ∀e,(t.subscriptions.lookup e).isSome ↔ e∈wanted' ∧ Live dataTracks' e.room e.trackSid) :
    SubscriptionsExact dataTracks' rooms' t wanted' where
  trackSid e b he := h.trackSid e b (hf _ _ he)
  live e b he := by
    obtain ⟨k,ht,hsid,hh⟩ := h.live e b (hf _ _ he)
    exact ⟨k,hl e b he k ht hsid hh,hsid,hh⟩
  publisherSid e b he := by
    rw [hr e b he]
    exact h.publisherSid e b (hf _ _ he)
  numbered e b he := by
    rw [hn]
    exact h.numbered e b (hf _ _ he)
  distinct e entry' b subscription' he he' :=
    h.distinct e entry' b subscription' (hf _ _ he) (hf _ _ he')
  answered := ha

theorem unsubscribed (e : DataTrackSubscriptionKey) :
    SubscriptionsExact dataTracks rooms {s with subscriptions := s.subscriptions.erase e}
      (wanted.erase e) := by
  have hf : ∀o b,(s.subscriptions.erase e).lookup o = some b → s.subscriptions.lookup o=some b := by
    intro o b ho
    exact (lookup_of_erase ho).2
  refine h.of_fewer hf rfl (fun _ _ _ _ ht _ _ => ht) (fun _ _ _ => rfl) ?_
  intro o
  rw [lookup_erase]
  split_ifs with ho
  · simp [ho]
  · rw [h.answered]
    simp [ho]

theorem known (hk : s.subscriptions.lookup e=some sb)
    (options : Option DataTrackSubscriptionOptions) :
    SubscriptionsExact dataTracks rooms
      {s with subscriptions := s.subscriptions.insert e {sb with options}}
      (insert e wanted) := by
  -- Every entry is the one that was there, but for its options.
  have hs : ∀o found,(s.subscriptions.insert e {sb with options}).lookup
      o=some found → ∃b,s.subscriptions.lookup o=some b ∧
        found={b with options := found.options} := by
    intro o found hf
    rw [lookup_insert] at hf
    split_ifs at hf with ho
    · refine ⟨sb,ho ▸ hk,?_⟩
      rw [← some.inj hf]
    · exact ⟨found,hf,rfl⟩
  constructor
  · intro o found hf
    obtain ⟨b,hb,heq⟩ := hs o found hf
    rw [heq]
    exact h.trackSid o b hb
  · intro o found hf
    obtain ⟨b,hb,heq⟩ := hs o found hf
    rw [heq]
    exact h.live o b hb
  · intro o found hf
    obtain ⟨b,hb,heq⟩ := hs o found hf
    rw [heq]
    exact h.publisherSid o b hb
  · intro o found hf
    obtain ⟨b,hb,heq⟩ := hs o found hf
    rw [heq]
    exact h.numbered o b hb
  · intro o other' found found' hf hf' hh
    obtain ⟨b,hb,heq⟩ := hs o found hf
    obtain ⟨before',hb',heq'⟩ := hs other' found' hf'
    rw [heq,heq'] at hh
    exact h.distinct o other' b before' hb hb' hh
  · intro o
    rw [lookup_insert]
    split_ifs with ho
    · simp [ho,h.liveEntry hk]
    · rw [h.answered]
      simp [ho]

theorem unpublished (hn : ¬ Live dataTracks e.room e.trackSid) :
    SubscriptionsExact dataTracks rooms s (insert e wanted) := by
  refine h.of_fewer (fun _ _ => id) rfl (fun _ _ _ _ ht _ _ => ht) (fun _ _ _ => rfl) ?_
  intro o
  rw [h.answered,Finset.mem_insert]
  constructor
  · exact fun ho => ⟨.inr ho.1,ho.2⟩
  · rintro ⟨rfl | hw,hl⟩
    · exact absurd hl hn
    · exact ⟨hw,hl⟩

theorem opened (ht : k∈dataTracks.tracksOf ⟨e.room,publisher⟩)
    (hsid : k.sid=e.trackSid) (options : Option DataTrackSubscriptionOptions) :
    SubscriptionsExact dataTracks rooms
      { subscriptions := s.subscriptions.insert e {
          publisherIdentity := publisher,publisherSid := participantSid rooms ⟨e.room,publisher⟩
          trackSid := e.trackSid,pubHandle := k.pubHandle,subHandle := s.nextHandle+1
          options}
        nextHandle := s.nextHandle+1} (insert e wanted) := by
  constructor
  · intro o found hf
    obtain ⟨rfl,rfl⟩ | ⟨-,hf⟩ := lookup_of_insert hf
    · rfl
    · exact h.trackSid o found hf
  · intro o found hf
    obtain ⟨rfl,rfl⟩ | ⟨-,hf⟩ := lookup_of_insert hf
    · exact ⟨k,ht,hsid,rfl⟩
    · exact h.live o found hf
  · intro o found hf
    obtain ⟨rfl,rfl⟩ | ⟨-,hf⟩ := lookup_of_insert hf
    · rfl
    · exact h.publisherSid o found hf
  · intro o found hf
    obtain ⟨rfl,rfl⟩ | ⟨-,hf⟩ := lookup_of_insert hf
    · exact le_refl _
    · exact le_succ_of_le (h.numbered o found hf)
  · -- The new handle is above all that were given before.
    intro o other' found found' hf hf' hh
    obtain ⟨rfl,rfl⟩ | ⟨-,hf⟩ := lookup_of_insert hf
    · obtain ⟨rfl,-⟩ | ⟨-,hf'⟩ := lookup_of_insert hf'
      · rfl
      · have hle := h.numbered other' found' hf'
        dsimp only at hh
        omega
    · obtain ⟨-,rfl⟩ | ⟨-,hf'⟩ := lookup_of_insert hf'
      · have hle := h.numbered o found hf
        dsimp only at hh
        omega
      · exact h.distinct o other' found found' hf hf' hh
  · intro o
    rw [lookup_insert]
    split_ifs with ho
    · have hl : Live dataTracks e.room e.trackSid := ⟨publisher,k,ht,hsid⟩
      simp [ho,hl]
    · rw [h.answered]
      simp [ho]

theorem updated (hu : Updated key dataTracks rooms s item t) (hh : s.nextHandle<65535) :
    SubscriptionsExact dataTracks rooms t (wantedAfterUpdate key wanted item) ∧
      t.nextHandle ≤ s.nextHandle+1 := by
  rw [wantedAfterUpdate]
  cases hu with
  | unsubscribed ha =>
    rw [ha]
    exact ⟨h.unsubscribed _,le_succ _⟩
  | known ha b hk =>
    rw [ha]
    exact ⟨h.known hk _,le_succ _⟩
  | unpublished ha hnew hn =>
    rw [ha]
    exact ⟨h.unpublished hn,le_succ _⟩
  | exhausted ha hnew hp he => exact absurd hh (not_lt.mpr he)
  | opened ha hnew q k ht hsid _ =>
    rw [ha]
    exact ⟨h.opened ht hsid _,le_refl _⟩

theorem update (key : ParticipantKey) (first : FirstFound)
    (us : List DataSubscriptionUpdate) (hh : s.nextHandle+us.length≤65535) :
    SubscriptionsExact dataTracks rooms (s.update key us dataTracks rooms first)
      (us.foldl (wantedAfterUpdate key) wanted) := by
  induction us generalizing s wanted with
  | nil => exact h
  | cons item us ih =>
    rw [length_cons] at hh
    obtain ⟨hs,hn⟩ := h.updated (updated_applyUpdate key dataTracks rooms first s item) (by omega)
    exact ih hs (by omega)

end SubscriptionsExact

end

structure Routed (calls : List DataTrackCall) (s : DataTrackStores)
    (wanted : Finset DataTrackSubscriptionKey) : Prop where
  tracks : TracksTraced calls s
  subscriptions : SubscriptionsExact s.dataTracks s.rooms s.subscriptions wanted

variable {s : DataTrackStores} {bs : DataTrackSubscriptionStore} {r : PublishDataTrackRequest}
  (dataTracks : DataTrackStore)

theorem participantSid_congr {st store' : RoomStore}
    (h : currentParticipant store' key.room key.identity =
      currentParticipant st key.room key.identity) :
    participantSid store' key=participantSid st key := by
  rw [participantSid,participantSid,toOption_getParticipant,toOption_getParticipant]
  exact congrArg (fun p : Option ParticipantInfo => (p.map (·.sid)).getD "") h

theorem subscriptionsExact_join (h : Routed calls s wanted) {r : JoinRequest}
    (ha : (currentParticipant s.rooms r.room r.identity).isSome=false) (now : ℤ) :
    SubscriptionsExact s.dataTracks
      (s.rooms.joinParticipantWithPermission r now).2 s.subscriptions wanted := by
  refine h.subscriptions.of_fewer (fun _ _ => id) rfl
    (fun _ _ _ _ ht _ _ => ht) ?_ h.subscriptions.answered
  intro e b he
  obtain ⟨k,ht,-,-⟩ := h.subscriptions.live e b he
  have hp := h.tracks.present _ k ht
  -- The publisher is in the room, so it is not the one that joins.
  have ho : ¬(e.room=r.room ∧ b.publisherIdentity=r.identity) := by
    rintro ⟨hroom,hi⟩
    rw [hroom,hi,ha] at hp
    cases hp
  apply participantSid_congr
  obtain ⟨er,t,heq,hs⟩ | ⟨j,t,heq,-,-,-,hr⟩ := joinParticipantWithPermission_spec s.rooms r now
  · rw [heq]
    exact hs e.room b.publisherIdentity
  · rw [heq]
    exact hr.other ho

/-- Nobody has the sid of a new track: another participant has not published in that millisecond
under that handle, and the participant itself has no track under the handle. -/
theorem not_live_of_new (h : Routed calls s wanted)
    (hd : DistinctPublications (calls++[.publish key r clock]))
    (hnew : ∀k∈s.dataTracks.tracksOf key,k.pubHandle≠r.pubHandle) :
    ¬ Live s.dataTracks key.room (dataTrackSid clock r.pubHandle) := by
  rintro ⟨q,k,ht,hsid⟩
  obtain ⟨request',clock',hc,ho,hha⟩ := h.tracks.origin _ k ht
  rw [ho] at hsid
  obtain ⟨hm,hh⟩ := dataTrackSid_inj hsid
  have hk : ⟨key.room,q⟩=key :=
    hd _ (mem_publications (mem_append_left _ hc)) _
      (mem_publications (mem_append_right _ (mem_singleton_self _))) rfl hh
      hm
  rw [← hk] at hnew
  exact hnew k ht (hha.trans hh)

theorem live_append_iff {info : DataTrackInfo} {room trackSid : String}
    (ho : ¬(room=key.room ∧ trackSid=info.sid)) :
    Live ⟨dataTracks.tracks.insert key (dataTracks.tracksOf key++[info])⟩ room trackSid ↔
      Live dataTracks room trackSid := by
  refine exists_congr (fun q => ?_)
  rw [DataTrackStore.Publishes,tracksOf_insert]
  split_ifs with hkey
  · rw [hkey]
    constructor
    · rintro ⟨k,ht,hsid⟩
      obtain hold | ha := mem_append.mp ht
      · exact ⟨k,hold,hsid⟩
      · rw [mem_singleton.mp ha] at hsid
        exact absurd ⟨congrArg ParticipantKey.room hkey,hsid.symm⟩ ho
    · rintro ⟨k,ht,hsid⟩
      exact ⟨k,mem_append_left _ ht,hsid⟩
  · rfl

theorem subscriptionsExact_publish (h : Routed calls s wanted)
    (hd : DistinctPublications (calls++[.publish key r clock])) :
    SubscriptionsExact (s.apply (.publish key r clock)).dataTracks s.rooms s.subscriptions
      (wantedStep s wanted (.publish key r clock)) := by
  rw [DataTrackStores.apply,wantedStep]
  obtain ⟨er,heq⟩ | ⟨hnew,heq⟩ := s.dataTracks.publish_cases key r clock
  · rw [heq]
    exact h.subscriptions
  rw [heq]
  have hf := not_live_of_new h hd hnew
  refine h.subscriptions.of_fewer (fun _ _ => id) rfl ?_ (fun _ _ _ => rfl) ?_
  · intro e b he k ht _ _
    rw [tracksOf_insert]
    split_ifs with hkey
    · exact mem_append_left _ (hkey ▸ ht)
    · exact ht
  · intro e
    rw [Finset.mem_filter]
    by_cases he : e.room=key.room ∧ e.trackSid=dataTrackSid clock r.pubHandle
    · have hn : ¬(s.subscriptions.subscriptions.lookup e).isSome := by
        intro hs
        obtain ⟨b,hlo⟩ := isSome_iff_exists.mp hs
        have hl := h.subscriptions.liveEntry hlo
        rw [he.1,he.2] at hl
        exact hf hl
      exact ⟨fun hs => absurd hs hn,fun hw => absurd he hw.1.2⟩
    · rw [h.subscriptions.answered,live_append_iff s.dataTracks he]
      simp [he]

variable {b : DataTrackSubscription}

section

variable {info : DataTrackInfo} (h : Routed calls s wanted)

include h

theorem sid_ne_of_mem_eraseP (hd : DistinctPublications calls) (hi : info∈s.dataTracks.tracksOf key)
    (ht : k∈(s.dataTracks.tracksOf key).eraseP (·.pubHandle=info.pubHandle)) :
    k.sid≠info.sid := by
  intro hsid
  obtain ⟨-,rfl⟩ := h.tracks.eq_of_sid hd (mem_of_mem_eraseP ht) hi hsid
  obtain ⟨rm,b,after,-,hr,hl,he⟩ := exists_of_eraseP (p := (·.pubHandle=k.pubHandle)) hi (by simp)
  have hn := h.tracks.handles key
  rw [hl,map_append,map_cons,nodup_middle,nodup_cons,← map_append] at hn
  rw [he] at ht
  have hh : rm.pubHandle=k.pubHandle := by simpa using hr
  exact hn.1 (mem_map.mpr ⟨k,ht,hh.symm⟩)

theorem mem_eraseP_of_sid_ne (hi : info∈s.dataTracks.tracksOf key)
    (ht : k∈s.dataTracks.tracksOf key) (hsid : k.sid≠info.sid) :
    k∈(s.dataTracks.tracksOf key).eraseP (·.pubHandle=info.pubHandle) := by
  refine (mem_eraseP_of_neg ?_).mpr ht
  have ho : k.pubHandle≠info.pubHandle := by
    intro hs
    exact hsid (congrArg (·.sid) (h.tracks.eq_of_handle ht hi hs))
  simpa using ho

theorem live_eraseP_iff (hd : DistinctPublications calls)
    (hi : info∈s.dataTracks.tracksOf key) (room trackSid : String) :
    Live ⟨s.dataTracks.tracks.insert key
        ((s.dataTracks.tracksOf key).eraseP (·.pubHandle=info.pubHandle))⟩ room trackSid ↔
      ¬(room=key.room ∧ trackSid=info.sid) ∧ Live s.dataTracks room trackSid := by
  constructor
  · rintro ⟨q,k,ht,hsid⟩
    rw [tracksOf_insert] at ht
    split_ifs at ht with hkey
    · have ho := sid_ne_of_mem_eraseP h hd hi ht
      refine ⟨fun hr => ho (hsid.trans hr.2),q,k,?_,hsid⟩
      rw [hkey]
      exact mem_of_mem_eraseP ht
    · refine ⟨?_,q,k,ht,hsid⟩
      rintro ⟨rfl,rfl⟩
      obtain ⟨hp,-⟩ := h.tracks.eq_of_sid hd ht hi hsid
      exact hkey (by rw [hp])
  · rintro ⟨ho,q,k,ht,hsid⟩
    refine ⟨q,k,?_,hsid⟩
    rw [tracksOf_insert]
    split_ifs with hkey
    · rw [hkey] at ht
      refine mem_eraseP_of_sid_ne h hi ht (fun hs => ho ?_)
      exact ⟨congrArg ParticipantKey.room hkey,hsid.symm.trans hs⟩
    · exact ht

theorem removed_iff (hd : DistinctPublications calls) (hi : info∈s.dataTracks.tracksOf key)
    (hen : s.subscriptions.subscriptions.lookup e=some b) :
    (e.room=key.room ∧ b.publisherIdentity=key.identity ∧ b.pubHandle=info.pubHandle) ↔
      e.room=key.room ∧ e.trackSid=info.sid := by
  obtain ⟨k,ht,hsid,hh⟩ := h.subscriptions.live e b hen
  constructor
  · rintro ⟨hr,hp,hs⟩
    rw [hr,hp] at ht
    have htr := h.tracks.eq_of_handle ht hi (hh.trans hs)
    exact ⟨hr,by rw [← hsid,htr]⟩
  · rintro ⟨hr,he⟩
    rw [hr] at ht
    obtain ⟨hp,rfl⟩ := h.tracks.eq_of_sid hd ht hi (hsid.trans he)
    exact ⟨hr,hp,hh.symm⟩

end

theorem answered_filter {dataTracks dataTracks' : DataTrackStore} {rooms : RoomStore}
    {wanted' : Finset DataTrackSubscriptionKey}
    (h : SubscriptionsExact dataTracks rooms bs wanted)
    {keeps : DataTrackSubscriptionKey → DataTrackSubscription→Bool}
    (hke : ∀b,bs.subscriptions.lookup e=some b →
      (keeps e b ↔ e∈wanted' ∧ Live dataTracks' e.room e.trackSid))
    (hf : e∈wanted' ∧ Live dataTracks' e.room e.trackSid → e∈wanted ∧
      Live dataTracks e.room e.trackSid) :
    ((bs.subscriptions.filter keeps).lookup e).isSome ↔ e∈wanted' ∧
      Live dataTracks' e.room e.trackSid := by
  have ha := h.answered e
  rw [lookup_filter]
  cases hl : bs.subscriptions.lookup e with
  | none =>
    rw [hl] at ha
    constructor
    · intro hs
      cases hs
    · intro hb
      cases ha.mpr (hf hb)
  | some b =>
    rw [← hke b hl,filter_some]
    split_ifs with hk
    · simp [hk]
    · simp [hk]

theorem subscriptionsExact_unpublish (h : Routed calls s wanted)
    (hd : DistinctPublications calls) (key : ParticipantKey) (n : ℕ) :
    SubscriptionsExact (s.unpublish key n).dataTracks s.rooms
      (s.unpublish key n).subscriptions wanted := by
  rw [DataTrackStores.unpublish]
  obtain ⟨-,heq⟩ | ⟨info,hi,rfl,heq⟩ := s.dataTracks.unpublish_cases key n
  · rw [heq]
    exact h.subscriptions
  rw [heq]
  have hk : ∀{e b},
      s.subscriptions.subscriptions.lookup e=some b →
      (decide (e.room≠key.room ∨ b.publisherIdentity≠key.identity ∨ b.pubHandle≠info.pubHandle) ↔
        ¬(e.room=key.room ∧ e.trackSid=info.sid)) := by
    intro e b he
    rw [decide_eq_true_iff,← removed_iff h hd hi he,not_and_or,not_and_or]
  refine h.subscriptions.of_fewer ?_ rfl ?_ (fun _ _ _ => rfl) ?_
  · intro e b he
    exact (filter_eq_some_iff.mp he).1
  · intro e b he k ht hsid _
    obtain ⟨hlo,hke⟩ := filter_eq_some_iff.mp he
    have ho := (hk hlo).mp hke
    rw [tracksOf_insert]
    split_ifs with hkey
    · rw [hkey] at ht
      refine mem_eraseP_of_sid_ne h hi ht (fun hs => ho ?_)
      exact ⟨congrArg ParticipantKey.room hkey,hsid.symm.trans hs⟩
    · exact ht
  · intro e
    have hl := live_eraseP_iff h hd hi e.room e.trackSid
    refine answered_filter h.subscriptions ?_ ?_
    · intro b he
      have hb := (h.subscriptions.answered e).mp (by rw [he]; rfl)
      rw [hk he,hl]
      simp [hb]
    · rintro ⟨hw,ha⟩
      exact ⟨hw,(hl.mp ha).2⟩

theorem live_removeParticipant_iff (key : ParticipantKey) (room sid : String) :
    Live (dataTracks.removeParticipant key) room sid ↔
      ∃q,¬(room=key.room ∧ q=key.identity) ∧ dataTracks.Publishes ⟨room,q⟩ sid := by
  refine exists_congr (fun q => ?_)
  have hkey : (⟨room,q⟩ : ParticipantKey)=key ↔ room=key.room ∧ q=key.identity := by
    cases key
    simp
  rw [DataTrackStore.Publishes,tracksOf_removeParticipant,if_congr hkey rfl rfl]
  split_ifs with hs
  · simp [hs]
  · simp only [hs,not_false_eq_true,true_and]
    rfl

theorem publisher_of_removeParticipant
    (h : (bs.removeParticipant key).subscriptions.lookup e=some b) :
    bs.subscriptions.lookup e=some b ∧ ¬(e.room=key.room ∧ b.publisherIdentity=key.identity) := by
  obtain ⟨hl,hk⟩ := filter_eq_some_iff.mp h
  refine ⟨hl,?_⟩
  rintro ⟨hr,hi⟩
  simp [hr,hi] at hk

theorem subscriptionsExact_remove (h : Routed calls s wanted)
    (hd : DistinctPublications calls) (key : ParticipantKey) (re : ℕ) (now : ℤ) :
    SubscriptionsExact (s.dataTracks.removeParticipant key)
      (s.rooms.removeParticipantWithReason key.room key.identity re now).2
      (s.subscriptions.removeParticipant key) (wantedStep s wanted (.remove key re now)) := by
  refine h.subscriptions.of_fewer (fun _ _ he => (publisher_of_removeParticipant he).1) rfl ?_ ?_ ?_
  · intro e b he k ht _ _
    rw [tracksOf_removeParticipant,if_neg]
    · exact ht
    · rintro rfl
      exact (publisher_of_removeParticipant he).2 ⟨rfl,rfl⟩
  · intro e b he
    have ho := currentParticipant_removeParticipant s.rooms key re now e.room b.publisherIdentity
    rw [if_neg (publisher_of_removeParticipant he).2] at ho
    exact participantSid_congr ho
  · intro e
    rw [wantedStep]
    refine answered_filter h.subscriptions ?_ ?_
    · intro b he
      have hb := (h.subscriptions.answered e).mp (by rw [he]; rfl)
      obtain ⟨k,ht,hsid,-⟩ := h.subscriptions.live e b he
      -- The publisher of the subscription is the only one of its sid.
      have hp : (∃q,¬(e.room=key.room ∧ q=key.identity) ∧
          s.dataTracks.Publishes ⟨e.room,q⟩ e.trackSid) ↔
          ¬(e.room=key.room ∧ b.publisherIdentity=key.identity) := by
        constructor
        · rintro ⟨q,ho,track',ht',hs'⟩
          obtain ⟨rfl,-⟩ := h.tracks.eq_of_sid hd ht ht' (hsid.trans hs'.symm)
          exact ho
        · exact fun ho => ⟨_,ho,k,ht,hsid⟩
      rw [live_removeParticipant_iff,hp,Finset.mem_filter]
      simp only [hb.1,true_and]
      by_cases hr : e.room=key.room <;> simp [hr]
    · rintro ⟨hw,ha⟩
      obtain ⟨q,-,hpu⟩ := (live_removeParticipant_iff s.dataTracks key e.room e.trackSid).mp ha
      exact ⟨(Finset.mem_filter.mp hw).1,q,hpu⟩

theorem Routed.step (h : Routed calls s wanted) {call : DataTrackCall}
    (hd : DistinctPublications (calls++[call])) (ha : CallAllowed s call) :
    Routed (calls++[call]) (s.apply call) (wantedStep s wanted call) := by
  have hb := hd.of_append
  cases call with
  | join r now => exact ⟨h.tracks.join r now,subscriptionsExact_join h ha now⟩
  | publish key r clock =>
    exact ⟨h.tracks.publish ha r clock,subscriptionsExact_publish h hd⟩
  | unpublish key n =>
    refine ⟨h.tracks.unpublish key n,?_⟩
    have hr : (s.unpublish key n).rooms=s.rooms := by
      rw [DataTrackStores.unpublish]
      split <;> rfl
    rw [DataTrackStores.apply,hr]
    exact subscriptionsExact_unpublish h hb key n
  | update key us first =>
    exact ⟨h.tracks.update key us first,h.subscriptions.update key first us ha⟩
  | remove key re now =>
    exact ⟨h.tracks.remove key re now,subscriptionsExact_remove h hb key re now⟩

theorem routed_run (defaults : RoomDefaults) {calls : List DataTrackCall}
    (hd : DistinctPublications calls)
    (ha : AtEveryStep (fun ea call =>
      CallAllowed ((initial defaults).run ea) call) calls) :
    Routed calls ((initial defaults).run calls) (wantedAfter defaults calls) := by
  induction calls using reverseRecOn with
  | nil =>
    refine ⟨tracksTraced_initial defaults,?_⟩
    constructor
    · intro e b he
      cases he
    · intro e b he
      cases he
    · intro e b he
      cases he
    · intro e b he
      cases he
    · intro e entry' b subscription' he
      cases he
    · intro e
      constructor
      · intro hs
        cases hs
      · rintro ⟨hw,-⟩
        cases hw
  | append_singleton calls call ih =>
    obtain ⟨hb,hc⟩ := (atEveryStep_concat _ calls call).mp ha
    rw [run_concat,wantedAfter,wantedFrom_concat]
    exact (ih hd.of_append hb).step hd hc

/-- The sids of live tracks differ, so do the handles of a subscriber, and a packet goes to those
who have asked for its track, each under the handle that its table has for the track. -/
structure RoutingExact (s : DataTrackStores) (wanted : Finset DataTrackSubscriptionKey)
    (room : String) : Prop where
  sidsDiffer : ∀publisher,((s.dataTracks.tracksOf ⟨room,publisher⟩).map (·.sid)).Nodup
  publishersDiffer : ∀publisher publisher' trackSid,
    s.dataTracks.Publishes ⟨room,publisher⟩ trackSid →
    s.dataTracks.Publishes ⟨room,publisher'⟩ trackSid → publisher=publisher'
  handlesDiffer : ∀subscriber trackSid trackSid' subscription subscription',
    s.subscriptions.subscriptions.lookup ⟨room,subscriber,trackSid⟩=some subscription →
    s.subscriptions.subscriptions.lookup ⟨room,subscriber,trackSid'⟩=some subscription' →
    subscription.subHandle=subscription'.subHandle → trackSid=trackSid'
  reached_iff : ∀publisher pubHandle subscriber,
    (∃subHandle,(subscriber,subHandle)∈s.routes ⟨room,publisher⟩ pubHandle) ↔
      ∃track∈s.dataTracks.tracksOf ⟨room,publisher⟩,track.pubHandle=pubHandle ∧
        ⟨room,subscriber,track.sid⟩∈wanted
  route_iff : ∀publisher pubHandle subscriber subHandle
    (iteration : Iteration DataTrackSubscriptionKey),
    (subscriber,subHandle)∈s.routes ⟨room,publisher⟩ pubHandle ↔
      ∃track∈s.dataTracks.tracksOf ⟨room,publisher⟩,track.pubHandle=pubHandle ∧
        ⟨room,subscriber,track.sid⟩∈wanted ∧
        (s.subscriptions.handlesForSubscriber ⟨room,subscriber⟩ iteration).lookup subHandle =
          some ⟨publisher,participantSid s.rooms ⟨room,publisher⟩,track.sid⟩

theorem TracksTraced.participantSid_ne (h : TracksTraced calls s)
    (ht : k∈s.dataTracks.tracksOf key) :
    participantSid s.rooms key ≠ "" := by
  obtain ⟨p,hp⟩ := isSome_iff_exists.mp (h.present key k ht)
  rw [participantSid,toOption_getParticipant]
  change ((currentParticipant s.rooms key.room key.identity).map _).getD "" ≠ ""
  rw [hp]
  exact h.named _ _ p hp

/-- A packet is routed by the subscriptions to the track that has its handle. -/
theorem Routed.mem_routes_iff (h : Routed calls s wanted) (hd : DistinctPublications calls)
    {u : String} {n subHandle : ℕ} :
    (u,subHandle)∈s.routes ⟨room,publisher⟩ n ↔
      ∃k∈s.dataTracks.tracksOf ⟨room,publisher⟩,k.pubHandle=n ∧
        ∃b,s.subscriptions.subscriptions.lookup ⟨room,u,k.sid⟩=some b ∧ b.subHandle=subHandle := by
  rw [routes]
  constructor
  · intro hmem
    split_ifs at hmem
    · cases Multiset.notMem_zero _ hmem
    · obtain ⟨trackSid,b,hl,hp,-,hh,hsub⟩ := mem_subscribersForPacketWithPublisherSid.mp hmem
      obtain ⟨k,ht,rfl,htr⟩ := h.subscriptions.live _ b hl
      rw [hp] at ht
      exact ⟨k,ht,htr.trans hh,b,hl,hsub⟩
  · rintro ⟨k,ht,rfl,b,hl,rfl⟩
    obtain ⟨track',ht',hsid,hh⟩ := h.subscriptions.live _ b hl
    obtain ⟨hp,rfl⟩ := h.tracks.eq_of_sid hd ht' ht hsid
    have hs := h.subscriptions.publisherSid _ b hl
    rw [hp] at hs
    rw [if_neg (h.tracks.participantSid_ne ht),mem_subscribersForPacketWithPublisherSid]
    exact ⟨track'.sid,b,hl,hp,hs,hh.symm,rfl⟩

theorem Routed.routingExact (h : Routed calls s wanted) (hd : DistinctPublications calls)
    (room : String) : RoutingExact s wanted room where
  sidsDiffer publisher := by
    refine List.Nodup.map_on ?_ (List.Nodup.of_map _ (h.tracks.handles _))
    intro k ht track' ht' hsid
    exact (h.tracks.eq_of_sid hd ht ht' hsid).2
  publishersDiffer publisher publisher' trackSid hpub hp' := by
    obtain ⟨k,ht,hsid⟩ := hpub
    obtain ⟨track',ht',hs'⟩ := hp'
    exact (h.tracks.eq_of_sid hd ht ht' (hsid.trans hs'.symm)).1
  handlesDiffer subscriber trackSid trackSid' b subscription' he he' hh :=
    congrArg DataTrackSubscriptionKey.trackSid
      (h.subscriptions.distinct _ _ b subscription' he he' hh)
  reached_iff publisher pubHandle subscriber := by
    constructor
    · rintro ⟨subHandle,hmem⟩
      obtain ⟨k,ht,hh,b,hl,-⟩ := (h.mem_routes_iff hd).mp hmem
      refine ⟨k,ht,hh,?_⟩
      exact ((h.subscriptions.answered _).mp (by rw [hl]; rfl)).1
    · rintro ⟨k,ht,hh,hw⟩
      have hli : Live s.dataTracks room k.sid := ⟨publisher,k,ht,rfl⟩
      obtain ⟨b,hl⟩ := isSome_iff_exists.mp ((h.subscriptions.answered _).mpr ⟨hw,hli⟩)
      refine ⟨b.subHandle,(h.mem_routes_iff hd).mpr ?_⟩
      exact ⟨k,ht,hh,b,hl,rfl⟩
  route_iff publisher pubHandle subscriber subHandle iteration := by
    rw [h.mem_routes_iff hd]
    refine exists_congr (fun k => and_congr_right (fun ht => and_congr_right (fun _ => ?_)))
    rw [lookup_handlesForSubscriber h.subscriptions.distinct]
    constructor
    · rintro ⟨b,hl,hh⟩
      obtain ⟨track',ht',hsid,-⟩ := h.subscriptions.live _ b hl
      obtain ⟨hp,-⟩ := h.tracks.eq_of_sid hd ht' ht hsid
      have hs := h.subscriptions.publisherSid _ b hl
      have htr := h.subscriptions.trackSid _ b hl
      rw [hp] at hs
      refine ⟨((h.subscriptions.answered _).mp (by rw [hl]; rfl)).1,k.sid,b,hl,hh,?_⟩
      rw [hp,hs,htr]
    · rintro ⟨-,trackSid,b,hl,hh,hpu⟩
      have htr := h.subscriptions.trackSid _ b hl
      have hsame : k.sid=trackSid := (congrArg PublishedDataTrack.trackSid hpu).trans htr
      exact ⟨b,hsame ▸ hl,hh⟩

/-- Routing is exact after every run in which no two participants of a room publish under the same
handle in the same millisecond, publishers are in the room, and handles do not run out. -/
theorem routing_exact (defaults : RoomDefaults) (calls : List DataTrackCall)
    (hdistinct : DistinctPublications calls)
    (hallowed : AtEveryStep (fun earlier call =>
      CallAllowed ((initial defaults).run earlier) call) calls) (room : String) :
    RoutingExact ((initial defaults).run calls) (wantedAfter defaults calls) room :=
  (routed_run defaults hdistinct hallowed).routingExact hdistinct room

def joinCallOf (identity : String) : DataTrackCall :=
  .join ⟨"room",identity,identity,"",.empty,none⟩ 0

/-- Alice and Bob publish under the same handle, Bob at a given time, and Carol subscribes to
Alice's track. -/
def twoPublishers (clock : ℤ) : List DataTrackCall :=
  [joinCallOf "alice",joinCallOf "bob",joinCallOf "carol",
    .publish ⟨"room","alice"⟩ ⟨7,"telemetry"⟩ 5,.publish ⟨"room","bob"⟩ ⟨7,"telemetry"⟩ clock,
    .update ⟨"room","carol"⟩ [⟨"DTR_00000000000000050007",true,none⟩]
      (firstInOrder (.sorted String))]

theorem routing_exact_of_two_publishers :
    RoutingExact ((initial {}).run (twoPublishers 6))
      (wantedAfter {} (twoPublishers 6)) "room" :=
  routing_exact {} (twoPublishers 6) (by decide +kernel) (by decide +kernel) "room"

/-- When Alice and Bob publish in the same millisecond, their tracks have one sid. Carol has asked
for this sid, and packets of Bob do not reach it. -/
theorem routing_confuses_publishers :
    (⟨"room", "carol", "DTR_00000000000000050007"⟩ : DataTrackSubscriptionKey) ∈
        wantedAfter {} (twoPublishers 5) ∧
      ((initial {}).run (twoPublishers 5)).dataTracks.Publishes ⟨"room", "alice"⟩
        "DTR_00000000000000050007" ∧
      ((initial {}).run (twoPublishers 5)).dataTracks.Publishes ⟨"room", "bob"⟩
        "DTR_00000000000000050007" ∧
      ((initial {}).run (twoPublishers 5)).routes ⟨"room", "bob"⟩ 7 = 0 := by
  decide +kernel

end OxideSfu.Signaling
