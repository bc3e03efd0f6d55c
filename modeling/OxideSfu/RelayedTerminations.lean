import OxideSfu.ParticipantDepartures
import OxideSfu.RoomSubscriptions

/-!
# A relayed session ends

When the socket of a relayed participant closes, the owner of the room executes a termination
(`execute_termination` in `relay_worker.rs`): the participant goes out of the room, and the
permission stores are told what its last snapshot says. No other store is touched.
-/

namespace OxideSfu.Signaling

open FiniteMaps StepRuns Rooms RoomStore ForwardTracks ForwardTrackStore SignalState FiniteMap
  DataSessionState NodeState NegotiationStores Iteration Finset Option
  SubscriberOfferNegotiationStore

variable {T : Type} {key : ParticipantKey}

namespace NegotiationStores

structure Grows (n m : NegotiationStores) : Prop where
  offers : ∀subscriber entry,n.offers.entries.lookup subscriber=some entry →
    ∃later,m.offers.entries.lookup subscriber=some later ∧
      (entry.pending → later.pending)
  negotiating : n.sections.negotiatingSubscribers⊆m.sections.negotiatingSubscribers
  coalesced : n.sections.coalescedRenegotiations⊆m.sections.coalescedRenegotiations

/-- Asking the subscriber to renegotiate after the targets that were left over changes nothing: it
cannot be asked, or it was asked already and again, or no offer can be created. -/
def Undisturbed (n : NegotiationStores) (world : Departure T) (subscriber : ParticipantKey) :
    Option MediaForwardingConnectionKind→Prop
  | none => True
  | some .singlePcPublisher => subscriber∈n.sections.negotiatingSubscribers ∧
      subscriber∈n.sections.coalescedRenegotiations
  | some .dualPcSubscriber =>
    match n.offers.entries.lookup subscriber with
    | some entry => entry.pending
    | none => world.createOffer .orphanedAudio subscriber=none ∧
        world.createOffer .orphanedVideo subscriber=none

theorem Grows.refl (n : NegotiationStores) : n.Grows n :=
  ⟨fun _ e hl => ⟨e,hl,id⟩,Finset.Subset.refl _,Finset.Subset.refl _⟩

theorem Grows.trans {n m l : NegotiationStores} (h : n.Grows m) (h' : m.Grows l) : n.Grows l where
  offers subscriber entry hlo := by
    obtain ⟨later,hla,hp⟩ := h.offers subscriber entry hlo
    obtain ⟨latest,hl,hp'⟩ := h'.offers subscriber later hla
    exact ⟨latest,hl,hp' ∘ hp⟩
  negotiating := h.negotiating.trans h'.negotiating
  coalesced := h.coalesced.trans h'.coalesced

variable (n : NegotiationStores) (subscriber : ParticipantKey)
  (created : Option (FiniteMap String String))

/-- A request is noted with the offer that is there, fails, or makes an offer. -/
theorem signalServerOffer_cases :
    (∃entry,n.offers.entries.lookup subscriber=some entry ∧
      n.signalServerOffer subscriber created =
        {n with offers := ⟨n.offers.entries.insert subscriber entry.setPending⟩}) ∨
    (n.offers.entries.lookup subscriber=none ∧ created=none ∧
      n.signalServerOffer subscriber created=n) ∨
    ∃midTrackIds id,n.offers.entries.lookup subscriber=none ∧ created=some midTrackIds ∧
      n.signalServerOffer subscriber created =
        {n with
          offerIds := ⟨n.offerIds.ids.insert subscriber id⟩
          offers := ⟨n.offers.entries.insert subscriber (.inFlight id false)⟩
          : NegotiationStores}.rememberOfferMidTrackIds subscriber id midTrackIds := by
  rw [signalServerOffer,requestOffer]
  cases hen : n.offers.entries.lookup subscriber with
  | some entry => exact .inl ⟨entry,rfl,rfl⟩
  | none =>
    cases created with
    | none =>
      refine .inr (.inl ⟨rfl,rfl,?_⟩)
      have he : (n.offers.entries.insert subscriber (.creating false)).erase subscriber =
        n.offers.entries := by
        ext1 other
        rw [lookup_erase,lookup_insert]
        split_ifs with hot
        · rw [hot,hen]
        · rfl
      simp [abortOfferCreation, SubscriberOfferNegotiationState.isCreating,he]
    | some midTrackIds =>
      refine .inr (.inr ⟨midTrackIds,(n.offerIds.nextOfferId subscriber).1,rfl,rfl,?_⟩)
      have ho : ∀id,markOfferInFlight
          ⟨n.offers.entries.insert subscriber (.creating false)⟩ subscriber id =
            ⟨n.offers.entries.insert subscriber (.inFlight id false)⟩ := by
        intro id
        refine congrArg SubscriberOfferNegotiationStore.mk (ext (fun other => ?_))
        simp only [lookup_insert,if_true]
        split_ifs <;> rfl
      dsimp only
      rw [ho]
      rfl

theorem grows_insert_offer {e : SubscriberOfferNegotiationState}
    (hp : ∀b,n.offers.entries.lookup subscriber=some b →
      b.pending → e.pending) (offerIds : SubscriberOfferIdStore)
    (offerMidTrackIds : FiniteMap (ParticipantKey × UInt32) (FiniteMap String String)) :
    n.Grows ⟨offerIds,⟨n.offers.entries.insert subscriber e⟩,offerMidTrackIds,n.sections⟩ where
  offers other b hl := by
    by_cases ho : other=subscriber
    · refine ⟨e,by rw [lookup_insert,if_pos ho],hp b ?_⟩
      rw [← ho,hl]
    · exact ⟨b,by rw [lookup_insert,if_neg ho,hl],id⟩
  negotiating := Finset.Subset.refl _
  coalesced := Finset.Subset.refl _

theorem grows_signalServerOffer : n.Grows (n.signalServerOffer subscriber created) := by
  obtain ⟨entry,he,heq⟩ | ⟨-,-,heq⟩ | ⟨midTrackIds,id,he,-,heq⟩ :=
    n.signalServerOffer_cases subscriber created
  · rw [heq]
    exact n.grows_insert_offer subscriber (fun _ _ _ => pending_setPending entry) _ _
  · rw [heq]
    exact .refl n
  · rw [heq]
    refine n.grows_insert_offer subscriber (fun before hb => ?_) _ _
    rw [he] at hb
    cases hb

theorem grows_renegotiate (world : Departure T) (as : List OfferAttempt)
    (kind : Option MediaForwardingConnectionKind) :
    n.Grows (n.renegotiate world as subscriber kind) := by
  rcases kind with _ | _ | _
  · exact .refl n
  · induction as generalizing n with
    | nil => exact .refl n
    | cons a as ih =>
      exact (n.grows_signalServerOffer subscriber _).trans (ih _)
  · rw [renegotiate,requestRenegotiationIfIdle]
    refine ⟨fun _ e hl => ⟨e,hl,id⟩,?_,?_⟩
    · split_ifs
      · exact Finset.Subset.refl _
      · exact subset_insert _ _
    · split_ifs
      · exact subset_insert _ _
      · exact Finset.Subset.refl _

variable {n} {subscriber} {world : Departure T} {kind : Option MediaForwardingConnectionKind}

theorem Undisturbed.renegotiate (h : n.Undisturbed world subscriber kind) :
    n.renegotiate world [.orphanedAudio,.orphanedVideo] subscriber kind=n := by
  rcases kind with _ | _ | _
  · rfl
  · have hq : ∀attempt∈[OfferAttempt.orphanedAudio,.orphanedVideo],
        n.signalServerOffer subscriber (world.createOffer attempt subscriber)=n := by
      intro attempt ha
      rw [Undisturbed] at h
      obtain ⟨entry,he,heq⟩ | ⟨-,-,heq⟩ | ⟨midTrackIds,id,he,hc,-⟩ :=
        n.signalServerOffer_cases subscriber (world.createOffer attempt subscriber)
      · rw [he] at h
        have hs : entry.setPending=entry := by
          cases entry <;> cases h <;> rfl
        have hi : n.offers.entries.insert subscriber entry.setPending=n.offers.entries := by
          ext1 other
          rw [lookup_insert,hs]
          split_ifs with ho
          · rw [ho,he]
          · rfl
        rw [heq,hi]
      · exact heq
      · rw [he] at h
        obtain rfl | rfl : attempt = .orphanedAudio ∨ attempt = .orphanedVideo := by
          simpa using ha
        · rw [h.1] at hc
          cases hc
        · rw [h.2] at hc
          cases hc
    rw [renegotiate,List.foldl_cons,List.foldl_cons,List.foldl_nil,hq _ (by simp),hq _ (by simp)]
  · obtain ⟨hn,hco⟩ := h
    rw [renegotiate,requestRenegotiationIfIdle,if_pos hn,
      PendingMediaSectionRequestStore.recordCoalesced,insert_eq_of_mem hco]

theorem undisturbed_of_grows
    (h : (n.renegotiate world [.orphanedAudio,.orphanedVideo] subscriber kind).Grows n) :
    n.Undisturbed world subscriber kind := by
  rcases kind with _ | _ | _
  · trivial
  · rw [renegotiate,List.foldl_cons,List.foldl_cons] at h
    rw [Undisturbed]
    obtain ⟨entry,he,heq⟩ | ⟨he,hc,heq⟩ | ⟨midTrackIds,id,he,-,heq⟩ :=
      n.signalServerOffer_cases subscriber (world.createOffer .orphanedAudio subscriber)
    · rw [he]
      -- The first request is noted, and what the second one does leaves the note.
      obtain ⟨later,hl,hp⟩ := ((grows_signalServerOffer _ _ _).trans h).offers
        subscriber entry.setPending (by rw [heq,lookup_insert,if_pos rfl])
      rw [he] at hl
      rw [some.inj hl]
      exact hp (pending_setPending entry)
    · rw [heq] at h
      rw [he]
      refine ⟨hc,?_⟩
      obtain ⟨entry,hs,-⟩ | ⟨-,hc,-⟩ | ⟨midTrackIds,id,-,-,heq⟩ :=
        n.signalServerOffer_cases subscriber (world.createOffer .orphanedVideo subscriber)
      · rw [he] at hs
        cases hs
      · exact hc
      · obtain ⟨later,hl,-⟩ :=
          h.offers subscriber (.inFlight id false) (by rw [heq]; exact if_pos rfl)
        rw [he] at hl
        cases hl
    · obtain ⟨later,hl,-⟩ := ((grows_signalServerOffer _ _ _).trans h).offers subscriber
        (.inFlight id false) (by rw [heq]; exact if_pos rfl)
      rw [he] at hl
      cases hl
  · rw [renegotiate,requestRenegotiationIfIdle] at h
    have hn : subscriber∈n.sections.negotiatingSubscribers := by
      by_contra hi
      refine hi (h.negotiating ?_)
      rw [if_neg hi]
      exact mem_insert_self _ _
    refine ⟨hn,h.coalesced ?_⟩
    rw [if_pos hn]
    exact mem_insert_self _ _

theorem leavesTraces_renegotiate (world : Departure T)
    (kind : ParticipantKey→Option MediaForwardingConnectionKind) :
    LeavesTraces id Grows (fun n u => n.Undisturbed world u (kind u))
      (fun n u => n.renegotiate world [.orphanedAudio,.orphanedVideo] u (kind u)) where
  refl := Grows.refl
  trans _ _ _ := Grows.trans
  grows_step n u := n.grows_renegotiate u world _ _
  quiet_of_view n u t hg hs := by
    obtain rfl : t=n := hs
    exact undisturbed_of_grows hg
  view_step _ _ h := h.renegotiate
  quiet_step _ _ _ h := by rw [h.renegotiate]

theorem Forgets.signalServerOffer (h : n.Forgets key) (ho : subscriber≠key)
    (created : Option (FiniteMap String String)) :
    (n.signalServerOffer subscriber created).Forgets key := by
  have hi : ∀keys : Finset ParticipantKey,Unnamed key keys → Unnamed key (insert subscriber keys) :=
    fun keys hke => forall_mem_insert _ _ _ |>.mpr ⟨ho,hke⟩
  obtain ⟨entry,-,heq⟩ | ⟨-,-,heq⟩ | ⟨midTrackIds,id,-,-,heq⟩ :=
    n.signalServerOffer_cases subscriber created
  · rw [heq]
    exact {h with offers := hi _ h.offers}
  · rw [heq]
    exact h
  · rw [heq]
    refine {h with
      offerIds := hi _ h.offerIds,offers := hi _ h.offers,offerMidTrackIds := ?_}
    rw [rememberOfferMidTrackIds]
    split_ifs
    · exact fun k hk => h.offerMidTrackIds k (mem_of_mem_erase hk)
    · exact forall_mem_insert _ _ _ |>.mpr ⟨ho,h.offerMidTrackIds⟩

theorem Forgets.renegotiate (h : n.Forgets key) (ho : subscriber≠key) (world : Departure T)
    (as : List OfferAttempt) (kind : Option MediaForwardingConnectionKind) :
    (n.renegotiate world as subscriber kind).Forgets key := by
  rcases kind with _ | _ | _
  · exact h
  · induction as generalizing n with
    | nil => exact h
    | cons a as ih => exact ih (h.signalServerOffer ho _)
  · rw [NegotiationStores.renegotiate,requestRenegotiationIfIdle]
    split_ifs
    · exact {h with coalesced := forall_mem_insert _ _ _ |>.mpr ⟨ho,h.coalesced⟩}
    · exact {h with negotiating := forall_mem_insert _ _ _ |>.mpr ⟨ho,h.negotiating⟩}

end NegotiationStores

/-- Two room stores with the same records that differ in the marks of one participant's tracks. -/
structure SameBeside (key : ParticipantKey) (r r' : RoomStore) : Prop where
  rooms : r'.rooms=r.rooms
  marks : ∀k : MediaTrackKey,¬ Names k key →
    (k∈r'.mediaUnsubscribed ↔ k∈r.mediaUnsubscribed)

theorem SameBeside.refl (r : RoomStore) : SameBeside key r r := ⟨rfl,fun _ _ => Iff.rfl⟩

variable {k : MediaTrackKey}

theorem SameBeside.setMediaTrackSubscribed {r r' : RoomStore} (h : SameBeside key r r')
    (hk : Names k key) :
    SameBeside key r (r'.setMediaTrackSubscribed k false).2 := by
  rw [RoomStore.setMediaTrackSubscribed]
  split_ifs
  · refine ⟨h.rooms,fun k' hk' => ?_⟩
    have hne : k'≠k := fun heq => hk' (heq ▸ hk)
    simp [RoomStore.setSubscribed,hne,h.marks k' hk']
  · exact h

variable {f : ForwardTrackStore T}

theorem forwardTracks_remove (hin : Indexed f)
    (h : ForwardTracks.Forgets f key.room key.identity) (hk : Names k key) :
    f.remove (forwardKey k)=f := by
  have hi : (forwardKey k).Involves key.room key.identity := hk
  have ha : f.active.erase (forwardKey k)=f.active :=
    erase_eq_of_notMem (fun hmem => h.active _ hmem hi)
  have hind : removeFromGroup ForwardTrackKey.readerKey f.activeByTrack (forwardKey k) =
    f.activeByTrack := by
    rw [hin.grouped,removeFromGroup_groupBy,ha]
  simp only [ForwardTrackStore.remove,setActiveIndexForKey,Bool.false_eq_true,if_false,ha,
    hind,h.tracks _ hi,h.incarnations _ hi,isSome_none,Bool.or_self,
    bumpRevisionIf,erase_of_lookup_eq_none (h.tracks _ hi),
    erase_of_lookup_eq_none (h.incarnations _ hi)]

theorem forwardTracks_removeAllForPublisher (hi : Indexed f)
    (h : ForwardTracks.Forgets f key.room key.identity) :
    f.tracks.keys.filter (fun k => k.room=key.room ∧ k.publisher=key.identity)=∅ ∧
      f.removeAllForPublisher key.room key.identity=f := by
  have hn : f.tracks.keys.filter (fun k => k.room=key.room ∧ k.publisher=key.identity)=∅ := by
    refine Finset.filter_eq_empty_iff.mpr (fun k hk hp => ?_)
    exact lookup_eq_none_iff.mp (h.tracks k ⟨hp.1,.inl hp.2⟩) hk
  have ha : f.active.filter (fun k => ¬(k.room=key.room ∧ k.publisher=key.identity))=f.active :=
    Finset.filter_eq_self.mpr (fun k hk hp =>
      h.active k hk ⟨hp.1,.inl hp.2⟩)
  have hs : f.started.filter (fun k _ =>
      !(k.room=key.room ∧ k.publisher=key.identity))=f.started := by
    refine filter_eq_self (fun k lease hk => ?_)
    rw [Bool.not_eq_true',decide_eq_false_iff_not]
    intro hp
    rw [h.readers k hp] at hk
    cases hk
  refine ⟨hn,?_⟩
  simp only [removeAllForPublisher,hn,setActiveIndexForKeys,Bool.false_eq_true,if_false,
    bumpRevisionIf,Finset.not_nonempty_empty,decide_false,rebuildActiveIndexFromActiveSet,
    ha,hs,indexOfActive_eq,← hi.grouped]
  rfl

namespace NodeState

variable {s : NodeState T} (world : Departure T) {r : RoomStore} {u : ParticipantKey}

theorem giveUpTrack_of_forgets (hf : s.Forgets key) (hi : Indexed s.media.forwardTracks)
    (hr : SameBeside key s.rooms r) (hk : Names k key) (hp : k.publisher=key.identity) :
    ∃r',SameBeside key s.rooms r' ∧ giveUpTrack world (∅,s.withRooms r) k=(∅,s.withRooms r') := by
  refine ⟨(r.setMediaTrackSubscribed k false).2,hr.setMediaTrackSubscribed hk,?_⟩
  have hfo : (s.withRooms r).removeForwarding k =
    s.withRooms (r.setMediaTrackSubscribed k false).2 := by
    simp only [removeForwarding,withRooms,erase_eq_of_notMem (fun hmem =>
      hf.media.mediaForwarding k hmem hk)]
    rfl
  have hpa : (⟨k.room,k.publisher,k.subscriber⟩ : ActivePair)∉s.media.activePairs :=
    fun hmem => hf.media.activePairs _ hmem ⟨hk.1,.inl hp⟩
  have hc : ∀r,(s.withRooms r).clearPublisherSubscriptionActiveIfNoRemainingTracks k =
    s.withRooms r := by
    intro r
    rw [clearPublisherSubscriptionActiveIfNoRemainingTracks]
    split_ifs
    · rfl
    · simp only [withRooms,erase_eq_of_notMem hpa]
  have ht : s.media.forwardTracks.tracks.lookup (forwardKey k)=none :=
    hf.media.forwardTracks.tracks _ hk
  have hre := forwardTracks_remove hi hf.media.forwardTracks hk
  simp only [giveUpTrack,removeSubscriberMediaForwardingForTrack,hfo,hc]
  simp only [withRooms,ht,any_none,Bool.false_eq_true,if_false,hre]

theorem foldl_giveUpTrack_of_forgets (hf : s.Forgets key) (hi : Indexed s.media.forwardTracks)
    (keys : List MediaTrackKey) (hke : ∀k∈keys,k.room=key.room ∧ k.publisher=key.identity)
    (hr : SameBeside key s.rooms r) :
    ∃r',SameBeside key s.rooms r' ∧
      keys.foldl (giveUpTrack world) (∅,s.withRooms r)=(∅,s.withRooms r') := by
  induction keys generalizing r with
  | nil => exact ⟨r,hr,rfl⟩
  | cons k keys ih =>
    obtain ⟨hk,hke⟩ := List.forall_mem_cons.mp hke
    obtain ⟨r',hr',heq⟩ := giveUpTrack_of_forgets world hf hi hr ⟨hk.1,.inl hk.2⟩ hk.2
    rw [List.foldl_cons,heq]
    exact ih hke hr'

def renegotiated (s : NodeState T) (world : Departure T) (key : ParticipantKey) (sid : String) :
    NegotiationStores :=
  ((world.renegotiationOrder.order ((s.stillSending world key sid).map (·.identity)).toFinset).map
      (ParticipantKey.mk key.room)).foldl
    (fun n subscriber => n.renegotiate world [.orphanedAudio,.orphanedVideo] subscriber
      (s.negotiable subscriber)) s.negotiation

theorem renegotiateAll_eq (s : NodeState T) (as : List OfferAttempt) (room : String)
    (identities : List String) :
    identities.foldl (fun s i => s.renegotiate world as ⟨room,i⟩) s =
      {s with
        negotiation := (identities.map (ParticipantKey.mk room)).foldl
          (fun n u => n.renegotiate world as u (s.negotiable u))
          s.negotiation} := by
  induction identities generalizing s with
  | nil => rfl
  | cons i identities ih =>
    rw [List.foldl_cons,ih]
    rfl

theorem mem_asked_iff {sid : String} :
    u∈(world.renegotiationOrder.order
        ((s.stillSending world key sid).map (·.identity)).toFinset).map
          (ParticipantKey.mk key.room) ↔
      u∈s.stillSending world key sid := by
  have hr : ∀o∈s.stillSending world key sid,o.room=key.room := by
    intro o ho
    rw [stillSending] at ho
    split_ifs at ho
    · cases ho
    · obtain ⟨p,-,rfl⟩ := List.mem_map.mp (List.mem_of_mem_filter ho)
      rfl
  simp only [List.mem_map,mem_order,List.mem_toFinset]
  constructor
  · rintro ⟨i,⟨o,ho,rfl⟩,rfl⟩
    rw [← hr o ho]
    exact ho
  · intro hs
    refine ⟨u.identity,⟨u,hs,rfl⟩,?_⟩
    rw [← hr u hs]

theorem renegotiated_eq_iff (s : NodeState T) (sid : String) :
    s.renegotiated world key sid=s.negotiation ↔
      ∀u∈s.stillSending world key sid,s.negotiation.Undisturbed world u (s.negotiable u) := by
  refine ((leavesTraces_renegotiate world s.negotiable).view_foldl_iff _ _).trans ?_
  simp only [mem_asked_iff]

theorem ne_of_mem_stillSending {sid : String} (h : u∈s.stillSending world key sid) : u≠key := by
  rw [stillSending] at h
  split_ifs at h
  · cases h
  · obtain ⟨p,hmem,rfl⟩ := List.mem_map.mp (List.mem_of_mem_filter h)
    intro heq
    have ho := List.of_mem_filter hmem
    rw [decide_eq_true_eq] at ho
    exact ho (congrArg ParticipantKey.identity heq)

theorem forgets_renegotiated (hf : s.negotiation.Forgets key) (sid : String) :
    (s.renegotiated world key sid).Forgets key := by
  have ho : ∀asked : List ParticipantKey,(∀u∈asked,u≠key) →
      ∀n : NegotiationStores,n.Forgets key → (asked.foldl (fun n u =>
        n.renegotiate world [.orphanedAudio,.orphanedVideo] u (s.negotiable u)) n).Forgets key := by
    intro asked ha
    induction asked with
    | nil => exact fun n hn => hn
    | cons u asked ih =>
      obtain ⟨hne,ha⟩ := List.forall_mem_cons.mp ha
      exact fun n hn => ih ha _ (hn.renegotiate hne world _ _)
  exact ho _ (fun u hmem => ne_of_mem_stillSending world ((mem_asked_iff world).mp hmem))
    _ hf

section

variable (hr : SameBeside key s.rooms r)

include hr

theorem listParticipants_withRooms (room : String) (orders : Iteration String) :
    (s.withRooms r).data.listParticipants room orders=s.data.listParticipants room orders := by
  have hl : (s.withRooms r).data.sessions.rooms.rooms=s.data.sessions.rooms.rooms := hr.rooms
  rw [DataSessionState.listParticipants,hl,DataSessionState.listParticipants]

theorem stillSending_withRooms (sid : String) :
    (s.withRooms r).stillSending world key sid=s.stillSending world key sid := by
  rw [stillSending,othersOf,othersBeside,listParticipants_withRooms hr]
  rfl

theorem settledBeside_withRooms_iff :
    (s.withRooms r).data.SettledBeside key world.orders ↔
      s.data.SettledBeside key world.orders := by
  have hw : (s.withRooms r).data.wantedBy world.orders=s.data.wantedBy world.orders := by
    funext u
    rw [wantedBy,reconcilingUpdates,listParticipants_withRooms hr]
    rfl
  rw [DataSessionState.SettledBeside,DataSessionState.SettledBeside,othersBeside,
    othersBeside,listParticipants_withRooms hr,hw]
  rfl

end

/-- A leave of a participant that no store knows: the others are asked to renegotiate and
reconciled, and the participant goes out of the room. -/
theorem leave_of_forgets {p : ParticipantInfo} (hf : s.Forgets key)
    (hi : Indexed s.media.forwardTracks) (hp : s.getParticipant key=some p) (now : ℤ) :
    ∃r,SameBeside key s.rooms r ∧ s.leave world key now =
      { data := (s.withRooms r).data.cleanupParticipantRuntimeState key world.orders now
        subscriberConnections := s.subscriberConnections,negotiation :=
          s.renegotiated world key p.sid
        media := {s.media with forwardTracks := s.media.forwardTracks.bumpRevision}
        client := s.client} := by
  have hco := hf.data.signalConnections.erase
  have hch := erase_eq_of_notMem hf.client.dataChannels.notMem
  have hs : s.leave world key now=s.cleanupParticipantRuntimeState world key now := by
    rw [leave,hco,hch]
    rfl
  have hke : ∀k∈s.departingKeys world key,k.room=key.room ∧ k.publisher=key.identity := by
    intro k hk
    obtain ⟨o,-,hk⟩ := List.mem_flatMap.mp hk
    obtain ⟨tr,-,rfl⟩ := List.mem_map.mp hk
    exact ⟨rfl,rfl⟩
  obtain ⟨r,hr,hg⟩ := foldl_giveUpTrack_of_forgets world hf hi _ hke (.refl _)
  obtain ⟨hn,hall⟩ := forwardTracks_removeAllForPublisher hi hf.media.forwardTracks
  have ho : (s.withRooms r).removeOrphanedForwardTracksForDepartingPublisher world key
      p.sid={s.withRooms r with negotiation := s.renegotiated world key p.sid} := by
    have hm : (s.withRooms r).media=s.media := rfl
    rw [removeOrphanedForwardTracksForDepartingPublisher,hm,hn,hall,order_empty,List.foldl_nil]
    dsimp only
    rw [renegotiateAll,renegotiateAll_eq,renegotiated,← stillSending_withRooms world hr]
    rfl
  have hc : (s.withRooms r).renegotiateAll world [.consolidated] key.room ∅ = s.withRooms r := by
    rw [renegotiateAll,order_empty]
    rfl
  have hg : (s.departingKeys world key).foldl (giveUpTrack world) (∅,s)=(∅,s.withRooms r) := hg
  refine ⟨r,hr,?_⟩
  simp only [hs,cleanupParticipantRuntimeState,hp,hg,hc,
    map_some,getD_some,ho,
    (forgets_renegotiated world hf.negotiation _).removeParticipant]
  simp only [withRooms,hf.media.removeParticipant hi,hf.client.removeParticipant,
    erase_eq_of_notMem hf.subscriberConnections.notMem]

end NodeState

/-- The stores hold the same entries. Revisions and other counters, which only count changes, are
left out. -/
structure SameEntries (s t : NodeState T) : Prop where
  rooms : t.rooms.rooms=s.rooms.rooms
  marks : t.rooms.mediaUnsubscribed=s.rooms.mediaUnsubscribed
  permissions : t.data.sessions.permissions=s.data.sessions.permissions
  authContexts : t.data.sessions.participantAuthContexts=s.data.sessions.participantAuthContexts
  signalConnections : t.data.sessions.signalConnections=s.data.sessions.signalConnections
  peerConnections : t.data.sessions.peerConnections=s.data.sessions.peerConnections
  subscriberConnections : t.subscriberConnections=s.subscriberConnections
  dataTracks : t.data.dataTracks=s.data.dataTracks
  subscriptions : t.data.subscriptions.subscriptions=s.data.subscriptions.subscriptions
  autoSubscribe :
    t.data.autoSubscribePreferences.autoSubscribe=s.data.autoSubscribePreferences.autoSubscribe
  autoSubscribeDataTrack : t.data.autoSubscribePreferences.autoSubscribeDataTrack =
    s.data.autoSubscribePreferences.autoSubscribeDataTrack
  negotiation : t.negotiation=s.negotiation
  settings : t.media.trackSettings.settings=s.media.trackSettings.settings
  pendingSettings : t.media.trackSettings.pending=s.media.trackSettings.pending
  mediaForwarding : t.media.mediaForwarding=s.media.mediaForwarding
  mediaSubscriptions : t.media.mediaSubscriptions.entries=s.media.mediaSubscriptions.entries
  activePairs : t.media.activePairs=s.media.activePairs
  mediaTrackCids : t.media.mediaTrackCids=s.media.mediaTrackCids
  pendingRemoteTracks : t.media.pendingRemoteTracks=s.media.pendingRemoteTracks
  singlePcOfferMediaKinds : t.media.singlePcOfferMediaKinds=s.media.singlePcOfferMediaKinds
  targets : t.media.forwardTracks.tracks=s.media.forwardTracks.tracks
  incarnations :
    t.media.forwardTracks.targetIncarnations=s.media.forwardTracks.targetIncarnations
  active : t.media.forwardTracks.active=s.media.forwardTracks.active
  index : t.media.forwardTracks.activeByTrack=s.media.forwardTracks.activeByTrack
  readers : t.media.forwardTracks.started=s.media.forwardTracks.started
  client : t.client=s.client

/-- `execute_termination`. An executor that was made without the signaling state has the room store
only. -/
def NodeState.executeTermination (s : NodeState T) (hasSignalState : Bool) (key : ParticipantKey)
    (sid : String) (now : ℤ) : NodeState T :=
  if hasSignalState then
    {s with data := s.data.withSessions (s.data.sessions.executeTermination key sid now)}
  else if (s.getParticipant key).map (·.sid)≠some sid then s
  else s.withRooms (s.rooms.removeParticipantWithReason key.room key.identity clientInitiated now).2

/-- A termination leaves in the stores what a leave would, and nothing of the participant. -/
def NodeState.TerminatesLikeLeave (s : NodeState T) (hasSignalState : Bool) (world : Departure T)
    (key : ParticipantKey) (sid : String) (now : ℤ) : Prop :=
  SameEntries (s.leave world key now) (s.executeTermination hasSignalState key sid now) ∧
    (s.executeTermination hasSignalState key sid now).Forgets key

/-- Nothing is there that a leave would have to clear, in the stores or with the others. -/
structure NodeState.NothingToClear (s : NodeState T) (world : Departure T) (key : ParticipantKey)
    (sid : String) : Prop where
  forgets : s.Forgets key
  undisturbed : ∀subscriber∈s.stillSending world key sid,
    s.negotiation.Undisturbed world subscriber (s.negotiable subscriber)
  settled : s.data.SettledBeside key world.orders

def terminatedPermissions (hasSignalState : Bool) (key : ParticipantKey)
    (permissions : PermissionStores) (permission : Option ParticipantPermission) :
    PermissionStores :=
  match hasSignalState,permission with
  | true, some permission => permissions.grant key (permissionRights permission)
  | _, _ => permissions

variable {s : NodeState T} {participant : ParticipantInfo}

theorem removeParticipant_of_present {r : RoomStore} {rc : RoomRecord}
    (hr : r.rooms.lookup key.room=some rc)
    (hp : rc.participants.lookup key.identity=some participant) (re : ℕ) (now : ℤ) :
    r.removeParticipantWithReason key.room key.identity re now =
      (.ok (disconnected participant re),
        (r.setRoom key.room (dismissParticipant rc key.identity
          (disconnected participant re) now)).retainUnsubscribed
            (notOfParticipant key.room key.identity)) := by
  simp only [removeParticipantWithReason,hr,hp]

theorem sendRefreshToken_eq (s : SessionState) (room : String) (p : ParticipantInfo) :
    ∃refreshTokens,s.sendRefreshToken room p={s with refreshTokens} := by
  rw [SessionState.sendRefreshToken,SessionState.issueRefreshToken]
  split_ifs
  · cases s.participantAuthContexts.lookup ⟨room,p.identity⟩ with
    | none => exact ⟨_,rfl⟩
    | some auth => exact ⟨_,rfl⟩
  · exact ⟨_,rfl⟩

theorem applyServiceParticipantUpdate_eq (s : SessionState) {snapshot : ParticipantInfo}
    (hi : snapshot.identity=key.identity) :
    ∃updates refreshTokens,s.applyServiceParticipantUpdate key.room snapshot =
      {s with
        permissions := terminatedPermissions true key s.permissions snapshot.permission
        updates
        refreshTokens} := by
  rw [SessionState.applyServiceParticipantUpdate,hi]
  obtain ⟨refreshTokens,ht⟩ := sendRefreshToken_eq
    (s.enforcePermission ⟨key.room,key.identity⟩ snapshot.permission) key.room snapshot
  rw [ht]
  cases snapshot.permission with
  | none => exact ⟨_,_,rfl⟩
  | some permission => exact ⟨_,_,rfl⟩

theorem sessions_executeTermination {s : SessionState} (hk : Keyed s.rooms)
    (hpr : s.getParticipant key=some participant) (now : ℤ) :
    ∃updates refreshTokens,s.executeTermination key participant.sid now =
      {s with
        rooms := (s.rooms.removeParticipantWithReason key.room key.identity clientInitiated now).2
        permissions := terminatedPermissions true key s.permissions participant.permission
        updates
        refreshTokens} := by
  have hf : participantOf s key=some participant := by rw [← getParticipant_eq,hpr]
  obtain ⟨record,hr,hp⟩ := bind_eq_some_iff.mp hf
  have hsid : (s.getParticipant key).map (·.sid)=some participant.sid := by rw [hpr]; rfl
  rw [SessionState.executeTermination,if_neg (not_not.mpr hsid),removeParticipant_of_present hr hp]
  have hi : participant.identity=key.identity := identity_of_keyed hk hf
  exact applyServiceParticipantUpdate_eq _ hi

theorem executeTermination_eq (hk : Keyed s.rooms)
    (hp : s.getParticipant key=some participant) (hasSignalState : Bool) (now : ℤ) :
    ∃updates refreshTokens,s.executeTermination hasSignalState key participant.sid now =
      {s with
        data := s.data.withSessions {s.data.sessions with
          rooms := (s.rooms.removeParticipantWithReason key.room key.identity clientInitiated now).2
          permissions := terminatedPermissions hasSignalState key s.data.sessions.permissions
            participant.permission
          updates
          refreshTokens}} := by
  have hsid : (s.getParticipant key).map (·.sid)=some participant.sid := by rw [hp]; rfl
  rw [executeTermination]
  cases hasSignalState with
  | false =>
    rw [if_neg (not_not.mpr hsid)]
    exact ⟨_,_,rfl⟩
  | true =>
    obtain ⟨updates,refreshTokens,heq⟩ := sessions_executeTermination hk hp now
    rw [heq]
    exact ⟨updates,refreshTokens,rfl⟩

/-- Where nothing is known of a participant, its cleanup concerns the room and the others. -/
theorem DataSessionState.Forgets.cleanup {d : DataSessionState} (h : d.Forgets key)
    (orders : MapOrders) (now : ℤ) :
    ∃updates,d.cleanupParticipantRuntimeState key orders now =
      {d with
        subscriptions := (d.reconcileOthers key orders).subscriptions
        sessions := {d.sessions with
          rooms := (d.sessions.rooms.removeParticipantWithReason key.room key.identity
            clientInitiated now).2
          updates}} := by
  have hd : d.dataTracks.removeParticipant key=d.dataTracks := by
    rw [DataTrackStore.removeParticipant,h.dataTracks.erase]
  have hsu : d.subscriptions.removeParticipant key=d.subscriptions := by
    have hk : d.subscriptions.subscriptions.filter (fun entry subscription =>
        entry.room≠key.room ∨ (entry.subscriber≠key.identity ∧
          subscription.publisherIdentity≠key.identity))=d.subscriptions.subscriptions := by
      refine filter_eq_self (fun entry subscription hl => ?_)
      have ho := h.subscriptions entry subscription hl
      rw [not_and_or,not_or] at ho
      exact decide_eq_true ho
    rw [DataTrackSubscriptionStore.removeParticipant,hk]
  have hp : d.autoSubscribePreferences.removeParticipant key=d.autoSubscribePreferences := by
    simp only [AutoSubscribePreferenceStore.removeParticipant,h.autoSubscribe.erase,
      h.autoSubscribeDataTrack.erase,h.autoSubscribe.lookup,h.autoSubscribeDataTrack.lookup,
      isSome_none,Bool.or_self,Bool.false_eq_true,if_false]
  have hs : ∃updates,d.sessions.cleanupParticipantRuntimeState key now =
      {d.sessions with
        rooms := (d.sessions.rooms.removeParticipantWithReason key.room key.identity
          clientInitiated now).2
        updates} := by
    simp only [SessionState.cleanupParticipantRuntimeState,h.permissions.removeParticipant,
      erase_eq_of_notMem h.peerConnections.notMem,h.authContexts.erase]
    cases d.sessions.rooms.removeParticipantWithReason key.room key.identity clientInitiated
      now with
    | mk removed rooms =>
      cases removed with
      | error error => exact ⟨_,rfl⟩
      | ok participant => exact ⟨_,rfl⟩
  obtain ⟨updates,hs⟩ := hs
  refine ⟨updates,?_⟩
  rw [cleanupParticipantRuntimeState,hd,hsu,reconcileOthers_eq,hs,hp]

/-- Removing the participant makes up for the difference between the room stores. -/
theorem SameBeside.removeParticipant {r r' : RoomStore} (h : SameBeside key r r')
    (hpr : currentParticipant r key.room key.identity=some participant) (re : ℕ) (now : ℤ) :
    (r'.removeParticipantWithReason key.room key.identity re now).2.rooms =
        (r.removeParticipantWithReason key.room key.identity re now).2.rooms ∧
      (r'.removeParticipantWithReason key.room key.identity re now).2.mediaUnsubscribed =
        (r.removeParticipantWithReason key.room key.identity re now).2.mediaUnsubscribed := by
  obtain ⟨rc,hr,hp⟩ := bind_eq_some_iff.mp hpr
  rw [removeParticipant_of_present hr hp,removeParticipant_of_present (by rw [h.rooms,hr]) hp]
  constructor
  · exact congrArg (insert · _ _) h.rooms
  · ext k
    change k∈r'.mediaUnsubscribed.filter _ ↔ k∈r.mediaUnsubscribed.filter _
    rw [mem_filter,mem_filter,notOfParticipant_eq_true_iff]
    exact and_congr_left (h.marks k)

theorem forgets_executeTermination_iff (hk : Keyed s.rooms)
    (hp : s.getParticipant key=some participant) (hasSignalState : Bool) (now : ℤ) :
    (s.executeTermination hasSignalState key participant.sid now).Forgets key ↔
      (hasSignalState → participant.permission=none) ∧ s.Forgets key := by
  obtain ⟨updates,refreshTokens,heq⟩ := executeTermination_eq hk hp hasSignalState now
  rw [heq]
  cases hasSignalState with
  | false =>
    constructor
    · intro h
      exact ⟨fun hf => absurd hf Bool.false_ne_true,{h with data := {h.data with}}⟩
    · rintro ⟨-,h⟩
      exact {h with data := {h.data with}}
  | true =>
    cases participant.permission with
    | none =>
      constructor
      · intro h
        exact ⟨fun _ => rfl,{h with data := {h.data with}}⟩
      · rintro ⟨-,h⟩
        exact {h with data := {h.data with}}
    | some permission =>
      constructor
      · intro h
        exact absurd rfl (h.data.permissions.subscribe key (mem_insert_self _ _))
      · rintro ⟨h,-⟩
        cases h rfl

/-- A termination leaves what a leave would, and nothing of the participant, exactly when it writes
no permission and a leave has nothing to clear. -/
theorem terminatesLikeLeave_iff [ForwardingTransport T] {defaults : RoomDefaults}
    {operations : List RoomOperation} {calls : List (StoreOperation T)}
    (hrooms : s.rooms = RoomStore.storeAfter defaults operations)
    (htargets : s.media.forwardTracks = ForwardTracks.storeAfter calls)
    (hpresent : s.getParticipant key = some participant) (hasSignalState : Bool)
    (world : Departure T) (now : ℤ) :
    s.TerminatesLikeLeave hasSignalState world key participant.sid now ↔
      (hasSignalState → participant.permission = none) ∧
        s.NothingToClear world key participant.sid := by
  have hk : Keyed s.rooms := hrooms ▸ keyed_storeAfter defaults operations
  have hi : Indexed s.media.forwardTracks := htargets ▸ indexed_storeAfter calls
  rw [NodeState.TerminatesLikeLeave,forgets_executeTermination_iff hk hpresent]
  obtain ⟨updates,refreshTokens,heq⟩ := executeTermination_eq hk hpresent hasSignalState now
  have hse : ∀r,SameBeside key s.rooms r →
      (((s.withRooms r).data.reconcileOthers key world.orders).subscriptions.subscriptions =
        s.data.subscriptions.subscriptions ↔ s.data.SettledBeside key world.orders) := by
    intro r hr
    rw [← settledBeside_withRooms_iff world hr]
    exact subscriptions_reconcileOthers_iff _ _ _
  constructor
  · rintro ⟨hsame,hp,hf⟩
    obtain ⟨r,hr,hl⟩ := leave_of_forgets world hf hi hpresent now
    obtain ⟨updates',hd⟩ :=
      @DataSessionState.Forgets.cleanup key (s.withRooms r).data {hf.data with} world.orders now
    rw [hl,heq] at hsame
    refine ⟨hp,hf,?_,?_⟩
    · exact (renegotiated_eq_iff world s participant.sid).mp hsame.negotiation.symm
    · rw [← hse r hr]
      have hs := hsame.subscriptions
      rw [hd] at hs
      exact hs.symm
  · rintro ⟨hp,hf,hu,hset⟩
    obtain ⟨r,hr,hl⟩ := leave_of_forgets world hf hi hpresent now
    obtain ⟨updates',hd⟩ :=
      @DataSessionState.Forgets.cleanup key (s.withRooms r).data {hf.data with} world.orders now
    refine ⟨?_,hp,hf⟩
    have hpe : terminatedPermissions hasSignalState key s.data.sessions.permissions
        participant.permission=s.data.sessions.permissions := by
      cases hasSignalState with
      | false => rfl
      | true =>
        rw [hp rfl]
        rfl
    have hfo : participantOf s.data.sessions key=some participant := by
      rw [← getParticipant_eq]
      exact hpresent
    obtain ⟨hrooms,hm⟩ := hr.removeParticipant hfo clientInitiated now
    have hn := (renegotiated_eq_iff world s participant.sid).mpr hu
    rw [hl,heq,hd,hpe,hn]
    constructor
    case rooms => exact hrooms.symm
    case marks => exact hm.symm
    case subscriptions => exact ((hse r hr).mpr hset).symm
    all_goals rfl

def quietDeparture : Departure (Option String) where
  orders := .sorted
  targetOrder := sortedTargets
  renegotiationOrder := .sorted String
  settingsOrder := @sorted TrackSettingsKey (LinearOrder.lift' (fun key =>
    toLex (key.room,toLex (key.identity,key.trackSid)))
      (fun a b h => by cases a; cases b; simp_all))
  removesForwardingTrack _ := true
  removedForPublisher _ _ := 0
  createOffer _ _ := some .empty

/-- Bob shows Carol his camera and she follows his data track; of Alice, who was here before, the
node has only the record in the room. -/
def aliceWithoutSignals : NodeState (Option String) :=
  let positions : DataTrackInfo := ⟨7, "DTR_1", "positions"⟩
  let s : NodeState (Option String) := (NodeState.initial {} true).withRooms
    (RoomStore.storeAfter {} [joinAs "alice" none, joinAs "bob" none, joinAs "carol" none,
      .addParticipantDataTrack "room" "bob" positions])
  let bob : ParticipantKey := ⟨"room", "bob"⟩
  let carol : ParticipantKey := ⟨"room", "carol"⟩
  { data := {
      sessions := {s.data.sessions with
        permissions := s.data.sessions.permissions.grant bob (permissionRights (listener true))
        signalConnections := (FiniteMap.empty.insert bob 0).insert carol 1
        peerConnections := {bob, carol}}
      dataTracks := ⟨FiniteMap.empty.insert bob [positions]⟩
      subscriptions := ⟨FiniteMap.empty.insert ⟨"room", "carol", "DTR_1"⟩
        ⟨"bob", "PA_0000000000000002", "DTR_1", 7, 1, none⟩, 1⟩
      autoSubscribePreferences := s.data.autoSubscribePreferences}
    subscriberConnections := {carol}
    negotiation := s.negotiation
    media := {s.media with
      mediaForwarding := {⟨"room", "bob", "TR_camera", "carol"⟩}
      activePairs := {⟨"room", "bob", "carol"⟩}
      forwardTracks := ForwardTracks.storeAfter
        [.insert ⟨"room", "bob", "TR_camera", "carol"⟩ (some "video") true,
          .removeParticipant "room" "alice"]}
    client := {s.client with dataChannels := {bob, carol}}}

theorem forgets_aliceWithoutSignals : aliceWithoutSignals.Forgets alice where
  data := by
    have hs : ∀entry∈aliceWithoutSignals.data.subscriptions.subscriptions.keys,
        ∀subscription∈aliceWithoutSignals.data.subscriptions.subscriptions.lookup entry,
          ¬(entry.room="room" ∧ (entry.subscriber="alice" ∨
            subscription.publisherIdentity="alice")) := by
      decide +kernel
    refine ⟨⟨?_,?_,?_,?_⟩,?_,?_,?_,?_,
      fun entry _ hl => hs entry (mem_keys_of_lookup hl) _ hl,?_,?_⟩
    all_goals decide +kernel
  subscriberConnections := by decide +kernel
  negotiation := by constructor <;> decide +kernel
  media := by
    have ht : ∀target∈aliceWithoutSignals.media.forwardTracks.targetIncarnations.keys,
        ¬ target.Involves "room" "alice" := by
      decide +kernel
    have hi := indexed_storeAfter
      [.insert ⟨"room", "bob", "TR_camera", "carol"⟩ (some "video") true]
    refine ⟨?_,?_,?_,?_,?_,?_,?_,?_,hi.forgets_removeParticipant (fun target hk =>
      lookup_eq_none_iff.mpr (fun hmem => ht target hmem hk))⟩
    all_goals decide +kernel
  client := by constructor <;> decide +kernel

theorem settledBeside_aliceWithoutSignals :
    aliceWithoutSignals.data.SettledBeside alice quietDeparture.orders := by
  have h : ∀subscriber∈aliceWithoutSignals.data.othersBeside alice quietDeparture.orders,
      ∀wanted∈aliceWithoutSignals.data.wantedBy quietDeparture.orders subscriber,
        (aliceWithoutSignals.data.subscriptions.subscriptions.lookup
          ⟨wanted.1.room,wanted.1.identity,wanted.2⟩).any (·.options=none) := by
    decide +kernel
  intro subscriber hs wanted hw
  obtain ⟨subscription,hl,ho⟩ := (Option.any_eq_true _ _).mp (h subscriber hs wanted hw)
  rw [DataTrackSubscriptionStore.Settled,hl]
  exact of_decide_eq_true ho

theorem terminatesLikeLeave_without_signals :
    ∃participant,aliceWithoutSignals.getParticipant alice = some participant ∧
      aliceWithoutSignals.TerminatesLikeLeave false quietDeparture alice participant.sid 0 := by
  obtain ⟨participant,hp⟩ :
      ∃participant,aliceWithoutSignals.getParticipant alice=some participant :=
    isSome_iff_exists.mp (by decide +kernel)
  refine ⟨participant,hp,(terminatesLikeLeave_iff rfl rfl hp false quietDeparture 0).mpr
    ⟨fun hf => absurd hf Bool.false_ne_true,forgets_aliceWithoutSignals,?_,
      settledBeside_aliceWithoutSignals⟩⟩
  intro subscriber hs
  rw [stillSending] at hs
  split_ifs at hs
  · cases hs
  · simp [quietDeparture] at hs

def aliceRelayed : NodeState (Option String) :=
  {NodeState.initial {} true with
    data := withSessions (.initial {} true)
      ((SessionState.initial {} true).executeJoin (.ofJoin (aliceToken []) {}) 0).2}

/-- Alice's token lets her subscribe, and the stores still say so when she is gone. -/
theorem termination_keeps_permissions :
    let sid := "PA_0000000000000001"
    (aliceRelayed.getParticipant alice).map (·.sid)=some sid ∧
      (aliceRelayed.executeTermination true alice sid 0).getParticipant alice=none ∧
      alice∈(aliceRelayed.executeTermination true alice sid 0
        ).data.sessions.permissions.subscribe.canSubscribeData.keys ∧
      ¬ aliceRelayed.TerminatesLikeLeave true quietDeparture alice sid 0 := by
  have hk : alice∈(aliceRelayed.executeTermination true alice "PA_0000000000000001" 0
      ).data.sessions.permissions.subscribe.canSubscribeData.keys := by
    decide +kernel
  refine ⟨by decide +kernel,by decide +kernel,hk,fun hl => ?_⟩
  exact hl.2.data.permissions.subscribe alice hk rfl

end OxideSfu.Signaling
