import OxideSfu.SubscriptionLimits

/-!
# Who keeps a place when a track is published

The ranking of `subscriber_within_track_type_subscription_limit` (`router/session.rs`) puts tracks
that are forwarded now first, but only among tracks that the room store does not show as switched
off, which are no candidates. So publisher and sid alone decide.
-/

namespace OxideSfu.Signaling

open FiniteMaps Rooms RoomStore FiniteMap ForwardingDecisionContext Multiset

variable {c : ForwardingDecisionContext} {room u : String} {type : TrackType}

theorem isMediaTrackSubscribed_of_mem_candidates {x : String × String}
    (h : x∈c.candidates room u type) :
    c.rooms.isMediaTrackSubscribed ⟨room,x.1,x.2,u⟩=true := by
  have hs := (mem_filter.mp h).2
  rw [subscribedTo,canSubscribeToMediaTrack_eq,Bool.and_eq_true,Bool.and_eq_true] at hs
  exact hs.2.2

def rankedBefore (c : ForwardingDecisionContext) (key : MediaTrackKey) (type : TrackType) : ℕ :=
  (c.candidates key.room key.subscriber type).countP
    (fun x => toLex x<toLex (key.publisher,key.trackSid))

theorem rankedWithin_iff {key : MediaTrackKey} {l : ℕ} :
    c.rankedWithin l key type ↔
      (key.publisher,key.trackSid)∈c.candidates key.room key.subscriber type ∧
        rankedBefore c key type<l := by
  have hr : c.rankedTracks key.room key.subscriber type=sortedElements (·≤·)
      ((c.candidates key.room key.subscriber type).map (fun x => toLex (false,toLex x))) := by
    refine congrArg _ (map_congr rfl fun x hx => ?_)
    rw [isMediaTrackSubscribed_of_mem_candidates hx]
    rfl
  have hi : Function.Injective (fun x : String × String => toLex (false,toLex x)) :=
    fun _ _ h => (Prod.mk.inj h).2
  have hm : c.rankedWithin l key type ↔ toLex (false,toLex (key.publisher,key.trackSid)) ∈
      (c.rankedTracks key.room key.subscriber type).take l := by
    rw [rankedWithin,List.any_eq_true]
    constructor
    · rintro ⟨y,hy,he⟩
      rw [hr] at hy ⊢
      obtain ⟨x,-,rfl⟩ := mem_map.mp (mem_take_sortedElements.mp hy).1
      exact of_decide_eq_true he ▸ hy
    · exact fun h => ⟨_,h,decide_eq_true rfl⟩
  rw [hm,hr,mem_take_sortedElements,mem_map_of_injective hi,countP_map,rankedBefore,
    countP_eq_card_filter]
  simp only [Prod.Lex.toLex_lt_toLex,lt_self_iff_false,false_or,true_and]

theorem offered_append {ps : Multiset (String × List (String × TrackType))} {i sid : String}
    {ks : List (String × TrackType)} {f : String × String→Bool} :
    let offered (ps : Multiset (String × List (String × TrackType))) :=
      ((ps.filter (·.1≠u)).bind (fun p => ((p.2.filter (fun k =>
        k.1 ≠ "" ∧ k.2=type)).map (fun k => (p.1,k.1)) : List (String × String)))).filter
          (fun x => f x)
    offered ((i,ks++[(sid,type)]) ::ₘ ps)=offered ((i,ks) ::ₘ ps) +
      if i≠u ∧ sid ≠ "" ∧ f (i,sid) then {(i,sid)} else 0 := by
  intro offered
  by_cases hu : i=u
  · simp [offered,hu]
  · have hf : (([(sid,type)].filter (fun k => k.1 ≠ "" ∧ k.2=type)).map
        (fun k => (i,k.1)) : Multiset (String × String)).filter (fun x => f x) =
          if i≠u ∧ sid ≠ "" ∧ f (i,sid) then {(i,sid)} else 0 := by
      by_cases hn : sid = ""
      · simp [hn]
      · by_cases hc : f (i,sid)
        · simp [hn,hc,hu]
        · simp [hn,hc]
    have hc : ∀ks,((i,ks) ::ₘ ps).filter (·.1≠u) =
        (i,ks) ::ₘ ps.filter (·.1≠u) := fun ks => filter_cons_of_pos _ hu
    simp only [offered]
    rw [← hf,hc,hc,cons_bind,cons_bind,filter_add,filter_add,
      List.filter_append,List.map_append,← coe_add,filter_add,add_right_comm]

/-- A track published by somebody becomes a candidate if the subscriber may have it. -/
theorem candidates_addParticipantTrack {o i : String} {t : TrackInfo}
    (h : (c.rooms.addParticipantTrack room o t).1.toOption.map (·.identity)=some i) :
    (c.apply (.room (.addParticipantTrack room o t))).candidates room u t.type =
      c.candidates room u t.type+if i≠u ∧ t.sid ≠ "" ∧
        c.subscribedTo ⟨room,i,t.sid,u⟩=true then {(i,t.sid)} else 0 := by
  obtain ⟨e,he⟩ | ⟨r,p,d,hr,hp,hd,he⟩ := c.rooms.editParticipant_cases room o
    (fun p => .ok (newVersion {p with tracks := p.tracks++[t]}))
  · rw [addParticipantTrack,he] at h
    cases h
  · have ha : c.rooms.apply (.addParticipantTrack room o t)=c.rooms.setRoom room {r with
        participants := r.participants.insert o d} := congrArg Prod.snd he
    have hd := Except.ok.inj hd
    obtain rfl : p.identity=i := by
      rw [addParticipantTrack,he] at h
      have hdi : d.identity=p.identity := hd ▸ rfl
      exact hdi.symm.trans (Option.some.inj h)
    have hsd : shown d=(p.identity,(shown p).2++[(t.sid,t.type)]) := by
      rw [← hd]
      simp [shown,newVersion]
    have hs : ∀k,(c.apply (.room (.addParticipantTrack room o t))).subscribedTo k =
      c.subscribedTo k := by
      intro k
      rw [subscribedTo,subscribedTo,canSubscribeToMediaTrack_eq,canSubscribeToMediaTrack_eq,
        ForwardingDecisionContext.apply,ha,
        subscriberMay_setRoom_of_same hr (maySubscribe_edited hp (hd ▸ rfl))]
      rfl
    have hl : (c.rooms.setRoom room {r with
        participants := r.participants.insert o d}).rooms.lookup room=some _ := if_pos rfl
    obtain ⟨vs,hv,hi⟩ := values_insert hp d
    simp only [candidates,hs]
    rw [ForwardingDecisionContext.apply,ha,publishedIn_of_lookup hl,publishedIn_of_lookup hr,hv,hi,
      map_cons,map_cons,hsd]
    exact offered_append

variable {key : MediaTrackKey} {track t : TrackInfo} {o i : String}

/-- A track keeps its place when somebody publishes another one if that is not for the subscriber,
ranks behind it or finds a free place. -/
theorem stays_within_limit_iff (hw : c.subscriberWithinTrackTypeSubscriptionLimit key (some track))
    (ht : t.type = track.type)
    (hi : (c.rooms.addParticipantTrack key.room o t).1.toOption.map (·.identity) = some i) :
    (c.apply (.room (.addParticipantTrack key.room o t))).subscriberWithinTrackTypeSubscriptionLimit
      key (some track) ↔
      (i ≠ key.subscriber ∧ t.sid ≠ "" ∧
        c.subscribedTo ⟨key.room,i,t.sid,key.subscriber⟩ = true ∧
        toLex (i,t.sid) < toLex (key.publisher,key.trackSid) →
        ∀limit,c.subscriptionLimits.forType track.type = some limit →
          rankedBefore c key track.type + 1 < limit) := by
  have hc := candidates_addParticipantTrack (u := key.subscriber) hi
  rw [ht] at hc
  rw [subscriberWithinTrackTypeSubscriptionLimit] at hw ⊢
  rw [apply_subscriptionLimits]
  cases hl : c.subscriptionLimits.forType track.type with
  | none => simp
  | some l =>
    rw [hl] at hw
    dsimp only at hw ⊢
    split_ifs at hw ⊢
    rw [rankedWithin_iff] at hw ⊢
    rw [rankedBefore,hc]
    rw [rankedBefore] at hw ⊢
    by_cases hn : i≠key.subscriber ∧ t.sid ≠ "" ∧
      c.subscribedTo ⟨key.room,i,t.sid,key.subscriber⟩=true
    · by_cases hb : toLex (i,t.sid)<toLex (key.publisher,key.trackSid)
      · simp [hn,hb,hw.1,← cons_zero]
      · simp [hn,hb,hw.1,hw.2,← cons_zero]
    · rw [if_neg hn]
      exact iff_of_true (by simpa using hw) fun h => absurd ⟨h.1,h.2.1,h.2.2.1⟩ hn

/-- bob publishes after alice and ranks behind. -/
theorem alice_keeps_place :
    let c := (stateAfter {} ⟨some 1,none⟩
      [enters "alice",enters "bob",enters "carol",publishesAudio "alice" "TA"]).context
    (c.apply (publishesAudio "bob" "TB")).subscriberWithinTrackTypeSubscriptionLimit
      (sentToCarol "alice" "TA") (some {sid := "TA",type := .audio}) :=
  (@stays_within_limit_iff _ (sentToCarol "alice" "TA") {sid := "TA",type := .audio}
    {sid := "TB",type := .audio} "bob" "bob" (by decide +kernel) rfl (by decide +kernel)).mpr
      fun h => absurd h.2.2.2 (by decide +kernel)

/-- alice publishes after bob and takes the only place. -/
theorem newcomer_displaces_bob :
    let c := (stateAfter {} ⟨some 1,none⟩
      [enters "alice",enters "bob",enters "carol",publishesAudio "bob" "TB"]).context
    let bobs (c : ForwardingDecisionContext) := c.subscriberWithinTrackTypeSubscriptionLimit
      (sentToCarol "bob" "TB") (some {sid := "TB",type := .audio})
    bobs c ∧ bobs (c.apply (publishesAudio "alice" "TA"))=false := by
  decide +kernel

end OxideSfu.Signaling
