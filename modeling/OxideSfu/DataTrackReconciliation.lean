import OxideSfu.DataTrackSessions

/-!
# Where data track subscriptions come from

A subscription is opened by a request of the subscriber or by a reconciliation: of all others when
somebody publishes or is cleaned up, of a participant whose session opens, or by a task of its own.
Without the right to subscribe nothing is opened.
-/

namespace OxideSfu.Signaling

open FiniteMaps Rooms RoomStore FiniteMap SessionState DataTrackSubscriptionKey DataSessionState
  DataTrackSubscriptionStore List

variable {e : DataTrackSubscriptionKey}

def DataTrackSubscriptionKey.owner (entry : DataTrackSubscriptionKey) : ParticipantKey :=
  ⟨entry.room,entry.subscriber⟩

def DataTrackSubscriptionStore.Has (s : DataTrackSubscriptionStore)
    (entry : DataTrackSubscriptionKey) : Prop :=
  (s.subscriptions.lookup entry).isSome
  deriving Decidable

def Opens (s t : DataTrackSubscriptionStore) (P : DataTrackSubscriptionKey→Prop) : Prop :=
  ∀entry,t.Has entry → s.Has entry ∨ P entry

variable {s t u : DataTrackSubscriptionStore} {P Q : DataTrackSubscriptionKey→Prop}

theorem Opens.refl (s : DataTrackSubscriptionStore) (P : DataTrackSubscriptionKey→Prop) :
    Opens s s P :=
  fun _ => .inl

theorem Opens.trans (h : Opens s t P) (h' : Opens t u P) : Opens s u P := by
  intro e hhas
  obtain hhas | hnew := h' e hhas
  · exact h e hhas
  · exact .inr hnew

theorem Opens.mono (h : Opens s t P) (himp : ∀e,P e → Q e) : Opens s t Q :=
  fun e hhas => (h e hhas).imp_right (himp e)

section

variable (s : DataTrackSubscriptionStore)

theorem opens_filter (keeps : DataTrackSubscriptionKey → DataTrackSubscription→Bool)
    (P : DataTrackSubscriptionKey→Prop) :
    Opens s {s with subscriptions := s.subscriptions.filter keeps} P := by
  intro e hhas
  left
  simp only [DataTrackSubscriptionStore.Has,lookup_filter,Option.isSome_filter] at hhas
  exact Option.isSome_of_any hhas

theorem not_has_removeParticipant : ¬(s.removeParticipant e.owner).Has e := by
  simp [DataTrackSubscriptionStore.Has,removeParticipant,owner,lookup_filter]

end

def AsksFor (updates : List DataSubscriptionUpdate) (trackSid : String) : Prop :=
  ∃update∈updates,update.subscribe ∧ update.trackSid=trackSid
  deriving Decidable

variable (key : ParticipantKey) (dataTracks : DataTrackStore) (rooms : RoomStore)
  (first : FirstFound)

/-- One entry of a request opens at most the subscription that it asks for, and closes the one that
it gives up. -/
theorem has_applyUpdate {u : DataSubscriptionUpdate}
    (h : (s.applyUpdate key dataTracks rooms first u).Has e) :
    if e=⟨key.room,key.identity,u.trackSid⟩ then u.subscribe
    else s.Has e := by
  have hu := s.updated_applyUpdate key dataTracks rooms first u
  generalize s.applyUpdate key dataTracks rooms first u=t at h hu
  split_ifs with he
  · cases hu with
    | unsubscribed => simp [DataTrackSubscriptionStore.Has,he] at h
    | known ha => exact ha
    | unpublished ha => exact ha
    | exhausted ha => exact ha
    | opened ha => exact ha
  · cases hu with
    | unsubscribed | known | opened => simpa [DataTrackSubscriptionStore.Has,he] using h
    | unpublished => exact h
    | exhausted => exact h

theorem opens_update (s : DataTrackSubscriptionStore) (us : List DataSubscriptionUpdate) :
    Opens s (s.update key us dataTracks rooms first) (fun e =>
      e.owner=key ∧ AsksFor us e.trackSid) := by
  intro e hhas
  rw [update] at hhas
  induction us using reverseRecOn with
  | nil => exact .inl hhas
  | append_singleton us u ih =>
    rw [foldl_append] at hhas
    have hb := has_applyUpdate key dataTracks rooms first hhas
    split_ifs at hb with he
    · subst he
      exact .inr ⟨rfl,u,by simp,hb,rfl⟩
    · refine (ih hb).imp_right ?_
      rintro ⟨ho,ea,hmem,ha⟩
      exact ⟨ho,ea,mem_append_left _ hmem,ha⟩

/-- The last entry of the request for the track gives it up. -/
def GivesUp (updates : List DataSubscriptionUpdate) (trackSid : String) : Prop :=
  ∃before update after,updates=before++update::after ∧ update.trackSid=trackSid ∧
    update.subscribe=false ∧ ∀later∈after,later.trackSid≠trackSid

variable {us : List DataSubscriptionUpdate} {sid : String}

theorem GivesUp.filter (h : GivesUp us sid) : GivesUp (us.filter (fun u => !u.subscribe)) sid := by
  obtain ⟨b,u,after,rfl,hsid,hg,hl⟩ := h
  refine ⟨b.filter (fun u => !u.subscribe),u,after.filter (fun u => !u.subscribe),?_,hsid,hg,?_⟩
  · rw [filter_append,filter_cons,if_pos (by simp [hg])]
  · exact fun l hmem => hl l (mem_of_mem_filter hmem)

theorem not_has_update (h : GivesUp us sid) (s : DataTrackSubscriptionStore) :
    ¬(s.update key us dataTracks rooms first).Has ⟨key.room,key.identity,sid⟩ := by
  obtain ⟨b,u,after,rfl,rfl,hg,hl⟩ := h
  rw [update,foldl_append]
  intro hhas
  -- What comes after the entry concerns other tracks.
  obtain hhas | ⟨-,l,hmem,-,hsid⟩ := opens_update key dataTracks rooms first _ after _ hhas
  · have ha := has_applyUpdate key dataTracks rooms first hhas
    rw [if_pos rfl,hg] at ha
    cases ha
  · exact hl l hmem hsid

namespace DataSessionState

variable (s : DataSessionState) (key : ParticipantKey) (orders : MapOrders)

theorem opens_updateDataSubscription (us : List DataSubscriptionUpdate) :
    Opens s.subscriptions (s.updateDataSubscription key us orders).subscriptions
      (fun e => e.owner=key ∧ s.canSubscribe key ∧ AsksFor us e.trackSid) := by
  rw [updateDataSubscription]
  cases s.canSubscribe key with
  | true =>
    refine (opens_update key s.dataTracks s.sessions.rooms orders.publisher s.subscriptions
      us).mono ?_
    exact fun e ⟨ho,hask⟩ => ⟨ho,rfl,hask⟩
  | false =>
    refine (opens_update key s.dataTracks s.sessions.rooms orders.publisher s.subscriptions
      (us.filter (fun u => !u.subscribe))).mono ?_
    rintro e ⟨-,u,hmem,ha,-⟩
    have hg := of_mem_filter hmem
    simp [ha] at hg

theorem opens_reconcile :
    Opens s.subscriptions (s.reconcileSubscriberDataTrackSubscriptions key orders).subscriptions
      (fun e => e.owner=key ∧ s.autoSubscribes key) := by
  rw [reconcileSubscriberDataTrackSubscriptions]
  dsimp only
  split_ifs with hoff hn
  · exact .refl _ _
  · exact .refl _ _
  · refine (s.opens_updateDataSubscription key orders _).mono ?_
    rintro e ⟨ho,-⟩
    refine ⟨ho,?_⟩
    simpa [autoSubscribes] using hoff

def AutoSubscribesBeside (s : DataSessionState) (key subscriber : ParticipantKey) : Prop :=
  subscriber.room=key.room ∧ subscriber≠key ∧ (s.sessions.getParticipant subscriber).isSome ∧
    s.autoSubscribes subscriber
  deriving Decidable

theorem opens_foldl_reconcile (us : List ParticipantInfo) (room : String) :
    Opens s.subscriptions (us.foldl (fun s u =>
        s.reconcileSubscriberDataTrackSubscriptions ⟨room,u.identity⟩ orders) s).subscriptions
      (fun e => e.room=room ∧ s.autoSubscribes e.owner ∧ ∃u∈us,u.identity=e.subscriber) := by
  induction us generalizing s with
  | nil => exact .refl _ _
  | cons u us ih =>
    refine Opens.trans ((s.opens_reconcile ⟨room,u.identity⟩ orders).mono ?_)
      ((ih (s.reconcileSubscriberDataTrackSubscriptions ⟨room,u.identity⟩ orders)).mono ?_)
    · rintro e ⟨ho,ha⟩
      obtain ⟨hr,hs⟩ := ParticipantKey.mk.inj ho
      exact ⟨hr,ho ▸ ha,u,mem_cons_self,hs.symm⟩
    · rintro e ⟨hr,ha,o,hmem,hi⟩
      rw [autoSubscribes,canSubscribe,sessions_reconcile,preferences_reconcile] at ha
      exact ⟨hr,ha,o,mem_cons_of_mem _ hmem,hi⟩

theorem getParticipant_of_listed {s : DataSessionState} (hkeyed : Keyed s.sessions.rooms)
    {room : String}
    {orders : Iteration String} {p : ParticipantInfo} (h : p∈s.listParticipants room orders) :
    (s.sessions.getParticipant ⟨room,p.identity⟩).isSome := by
  rw [listParticipants] at h
  rw [getParticipant_eq,participantOf,currentParticipant]
  cases hr : s.sessions.rooms.rooms.lookup room with
  | none => simp [hr] at h
  | some r =>
    rw [hr] at h
    obtain ⟨⟨i,listed⟩,hmem,rfl⟩ := mem_map.mp h
    have hl := mem_entries.mp hmem
    obtain rfl := hkeyed room r hr i listed hl
    simp [hl]

theorem opens_reconcileOthers (hkeyed : Keyed s.sessions.rooms) :
    Opens s.subscriptions (s.reconcileOthers key orders).subscriptions
      (fun e => s.AutoSubscribesBeside key e.owner) := by
  refine (s.opens_foldl_reconcile orders _ key.room).mono ?_
  rintro e ⟨hr,ha,u,hmem,hi⟩
  obtain ⟨hl,ho⟩ := mem_filter.mp hmem
  have hin := getParticipant_of_listed hkeyed hl
  rw [hi,← hr] at hin
  refine ⟨hr,?_,hin,ha⟩
  rintro rfl
  simp [hi,owner] at ho

variable (now : ℤ) (hkeyed : Keyed s.sessions.rooms)
include hkeyed

theorem opens_cleanup :
    Opens s.subscriptions (s.cleanupParticipantRuntimeState key orders now).subscriptions
      (fun e => s.AutoSubscribesBeside key e.owner) :=
  (opens_filter s.subscriptions _ _).trans
    (opens_reconcileOthers {s with
      dataTracks := s.dataTracks.removeParticipant key
      subscriptions := s.subscriptions.removeParticipant key} key orders hkeyed)

theorem not_has_cleanup (e : DataTrackSubscriptionKey) :
    ¬(s.cleanupParticipantRuntimeState e.owner orders now).subscriptions.Has e := by
  intro hhas
  obtain hhas | ⟨-,ho,-⟩ := opens_reconcileOthers {s with
      dataTracks := s.dataTracks.removeParticipant e.owner
      subscriptions := s.subscriptions.removeParticipant e.owner} e.owner orders hkeyed
    e hhas
  · exact not_has_removeParticipant s.subscriptions hhas
  · exact ho rfl

theorem opens_disconnect :
    Opens s.subscriptions (s.disconnectParticipantFromService key orders now).subscriptions
      (fun e => s.AutoSubscribesBeside key e.owner) := by
  rw [disconnectParticipantFromService]
  cases s.sessions.getParticipant key with
  | none => exact .refl _ _
  | some p => exact s.opens_cleanup key orders now hkeyed

omit hkeyed

/-- A session that opens may get its tracks at once, if it asks for them and may subscribe. -/
theorem opens_answerJoin (sessions : SessionState) (st : JoinSettings) :
    Opens s.subscriptions (s.answerJoin key sessions st orders).subscriptions
      (fun e => e.owner=key ∧ st.autoSubscribeDataTrack ∧
        st.createsSubscriberOffer=false ∧ sessions.nextChannel≠s.sessions.nextChannel ∧
        sessions.permissions.subscribe.canSubscribe key) := by
  rw [answerJoin]
  split_ifs with hc
  · exact .refl _ _
  · rw [startSession]
    cases st.createsSubscriberOffer with
    | true => exact .refl _ _
    | false =>
      intro e hhas
      refine (opens_reconcile _ key orders e hhas).imp_right ?_
      rintro ⟨ho,hau⟩
      obtain ⟨he,ha⟩ : st.autoSubscribeDataTrack ∧
        sessions.permissions.subscribe.canSubscribe key := by
        simpa [autoSubscribes,AutoSubscribePreferenceStore.autoSubscribeDataTrackEnabled,
          AutoSubscribePreferenceStore.setAutoSubscribeDataTrack,canSubscribe,withSessions]
          using hau
      exact ⟨ho,he,rfl,hc,ha⟩

end DataSessionState

variable {auth : AuthContext} {d : Bool}

/-- A reconnect that opens a session hands the rights of its token to the stores. -/
theorem canSubscribe_reconnect {s : SessionState} {r : SignalJoinRequest}
    (h : (s.reconnect auth r d).nextChannel≠s.nextChannel) :
    (s.reconnect auth r d).permissions.subscribe.canSubscribe auth.key =
      auth.claims.video.canSubscribe := by
  obtain hs | ⟨-,-,he⟩ := effect_reconnect s auth r d
  · exact absurd (congrArg nextChannel hs) h
  · rw [he.permissions,PermissionStores.canSubscribe_grant,if_pos rfl]
    rfl

theorem completeJoin_opens (s : SessionState) (auth : AuthContext) (j : Joined) (d : Bool) :
    (s.completeJoin auth j d).nextChannel=s.nextChannel ∨
      (s.completeJoin auth j d).permissions =
        s.permissions.grant auth.key auth.claims.video.rights := by
  generalize ht : s.completeJoin auth j d=t
  rw [completeJoin] at ht
  cases d with
  | false => exact .inl (ht ▸ rfl)
  | true =>
    simp only [Bool.not_true,Bool.false_eq_true,if_false] at ht
    split at ht
    · exact .inl (ht ▸ rfl)
    · exact .inr (ht ▸ rfl)

theorem canSubscribe_enterRoom {s : SessionState} {r : SignalJoinRequest} {now : ℤ}
    (h : (enterRoom s auth r d now).nextChannel≠s.nextChannel) :
    (enterRoom s auth r d now).permissions.subscribe.canSubscribe auth.key =
      auth.claims.video.canSubscribe := by
  rw [enterRoom] at h ⊢
  split_ifs at h ⊢
  · exact absurd rfl h
  · cases hj : s.rooms.joinParticipantWithPermission (joinCall auth r) now with
    | mk re st =>
      rw [hj] at h
      cases re with
      | error e => exact absurd rfl h
      | ok j =>
        obtain hc | hp := completeJoin_opens (s.withRooms st) auth j d
        · exact absurd hc h
        · rw [hp,PermissionStores.canSubscribe_grant,if_pos rfl]
          rfl

/-- Whoever it is that publishes or is cleaned up, so that everybody else in its room is
reconciled. -/
def othersReconciledBy (s : SessionState) : DataTrackEvent→Option ParticipantKey
  | .publish key _ _ _ => some key
  | .session (.join auth request _ _) _ _ => if request.reconnect then none else some auth.key
  | .session (.close channel _ _) _ _ => s.sockets.lookup channel
  | .session (.graceExpired key _ _) _ _ => some key | .session (.leave key _) _ _ => some key
  | .session (.disconnect key _) _ _ => some key | _ => none

def ReconcilesOwn (s : DataSessionState) (subscriber : ParticipantKey) : DataTrackEvent→Prop
  | .reconcile key _ => key=subscriber ∧ s.autoSubscribes subscriber
  | .session (.join auth _ _ _) settings _ =>
    auth.key=subscriber ∧ settings.autoSubscribeDataTrack ∧
      settings.createsSubscriberOffer=false ∧ auth.claims.video.canSubscribe
  | _ => False

def Reconciles (s : DataSessionState) (subscriber : ParticipantKey) (event : DataTrackEvent) :
    Prop :=
  (∃key∈othersReconciledBy s.sessions event,s.AutoSubscribesBeside key subscriber) ∨
    ReconcilesOwn s subscriber event

def AsksForTrack (entry : DataTrackSubscriptionKey) : DataTrackEvent→Prop
  | .update key updates _ => key=entry.owner ∧ AsksFor updates entry.trackSid | _ => False

/-- What opens a subscription in an event. -/
inductive Source (s : DataSessionState) (event : DataTrackEvent)
    (entry : DataTrackSubscriptionKey) : Prop
  | asked (hasks : AsksForTrack entry event) (hallowed : s.canSubscribe entry.owner)
  | beside (key : ParticipantKey) (hkey : key∈othersReconciledBy s.sessions event)
      (hbeside : s.AutoSubscribesBeside key entry.owner)
  | own (hown : ReconcilesOwn s entry.owner event)
      (hallowed : (s.step event).canSubscribe entry.owner)

variable {s : DataSessionState} {sessions : SessionState} {r : SignalJoinRequest}

theorem keyed_applyRoomConfig (hkeyed : Keyed sessions.rooms) (auth : AuthContext) (now : ℤ) :
    Keyed (sessions.applyRoomConfigOnFirstRoomCreation auth now).rooms :=
  (effect_applyRoomConfig sessions auth now auth.key (fun _ => True)).keyed hkeyed

theorem DataSessionState.AutoSubscribesBeside.of_same {t : DataSessionState}
    {key u : ParticipantKey}
    (h : t.AutoSubscribesBeside key u) (hpr : t.autoSubscribePreferences=s.autoSubscribePreferences)
    (hpe : t.sessions.permissions=s.sessions.permissions)
    (hp : participantOf t.sessions u=participantOf s.sessions u) :
    s.AutoSubscribesBeside key u := by
  obtain ⟨hr,ho,hi,ha⟩ := h
  refine ⟨hr,ho,?_,?_⟩
  · rwa [getParticipant_eq,← hp,← getParticipant_eq]
  · rwa [autoSubscribes,canSubscribe,← hpe,← hpr]

theorem opens_cleanup_of_unaffected (hkeyed : Keyed s.sessions.rooms)
    (hs : Unaffected s.sessions sessions) (key : ParticipantKey) (orders : MapOrders) (now : ℤ) :
    Opens s.subscriptions
      ((s.withSessions sessions).cleanupParticipantRuntimeState key orders now).subscriptions
      (fun e => s.AutoSubscribesBeside key e.owner) := by
  have hk' : Keyed (s.withSessions sessions).sessions.rooms := by
    rw [withSessions,hs.rooms]
    exact hkeyed
  refine ((s.withSessions sessions).opens_cleanup key orders now hk').mono ?_
  intro e hb
  refine hb.of_same rfl hs.permissions ?_
  rw [participantOf,participantOf,withSessions,hs.rooms]

def DataSessionState.vacate (s : DataSessionState) (auth : AuthContext) (orders : MapOrders)
    (now : ℤ) : DataSessionState :=
  (s.withSessions (s.sessions.applyRoomConfigOnFirstRoomCreation auth
    now)).disconnectParticipantFromService auth.key orders now

theorem step_freshJoin (s : DataSessionState) (hp : auth.ensureJoinPermission)
    (hf : r.reconnect=false)
    (settings : JoinSettings) (orders : MapOrders) (delivered : Bool) (now : ℤ) :
    s.step (.session (.join auth r delivered now) settings orders) =
      (s.vacate auth orders now).answerJoin auth.key
        (enterRoom (s.vacate auth orders now).sessions auth r delivered now) settings
        orders := by
  simp [DataSessionState.step,DataSessionState.sessionStep,DataSessionState.runJoinSocket,
    DataSessionState.vacate,hp,hf]

/-- The last part of a join opens subscriptions for the sake of the joiner only. -/
theorem source_of_answered {st : JoinSettings} {orders : MapOrders} {now : ℤ}
    (hs : (s.step (.session (.join auth r d now) st orders)).sessions=sessions)
    (ht : sessions.permissions.subscribe.canSubscribe auth.key=auth.claims.video.canSubscribe)
    (h : e.owner=auth.key ∧ st.autoSubscribeDataTrack ∧
      st.createsSubscriberOffer=false ∧
      sessions.permissions.subscribe.canSubscribe auth.key) :
    Source s (.session (.join auth r d now) st orders) e := by
  obtain ⟨ho,hau,hof,ha⟩ := h
  refine .own ⟨ho.symm,hau,hof,ht.symm.trans ha⟩ ?_
  rw [canSubscribe,hs,ho]
  exact ha

section

variable (hkeyed : Keyed s.sessions.rooms)

include hkeyed

theorem opens_runJoinSocket (auth : AuthContext) (r : SignalJoinRequest)
    (st : JoinSettings) (orders : MapOrders) (d : Bool) (now : ℤ) :
    Opens s.subscriptions
      (s.step (.session (.join auth r d now) st orders)).subscriptions
      (Source s (.session (.join auth r d now) st orders)) := by
  by_cases hp : auth.ensureJoinPermission
  · cases hr : r.reconnect with
    | true =>
      have hst : s.step (.session (.join auth r d now) st orders) =
          s.answerJoin auth.key (s.sessions.reconnect auth r d) st orders := by
        simp [DataSessionState.step,DataSessionState.sessionStep,
          DataSessionState.runJoinSocket,hp,hr]
      have hs := congrArg sessions hst
      rw [sessions_answerJoin] at hs
      rw [hst]
      refine (s.opens_answerJoin auth.key orders _ st).mono ?_
      rintro e ⟨how,hau,hof,ho,ha⟩
      exact source_of_answered hs (canSubscribe_reconnect ho) ⟨how,hau,hof,ha⟩
    | false =>
      have hst := step_freshJoin s hp hr st orders d now
      have hs := congrArg sessions hst
      rw [sessions_answerJoin] at hs
      rw [hst]
      have hv : Opens s.subscriptions (s.vacate auth orders now).subscriptions
          (Source s (.session (.join auth r d now) st orders)) := by
        refine (opens_disconnect _ auth.key orders now
          (keyed_applyRoomConfig hkeyed auth now)).mono ?_
        intro e hb
        have hc := effect_applyRoomConfig s.sessions auth now e.owner (fun _ => True)
        refine .beside auth.key ?_ (hb.of_same rfl hc.permissions hc.self)
        rw [othersReconciledBy,hr]
        rfl
      refine hv.trans ((opens_answerJoin _ auth.key orders _ st).mono ?_)
      rintro e ⟨how,hau,hof,ho,ha⟩
      exact source_of_answered hs (canSubscribe_enterRoom ho) ⟨how,hau,hof,ha⟩
  · rw [DataSessionState.step,DataSessionState.sessionStep,DataSessionState.runJoinSocket,
      if_pos (by simp [hp])]
    exact .refl _ _

theorem opens_closeSocket (c : ℕ) (ex : Bool) (st : JoinSettings) (orders : MapOrders) (now : ℤ) :
    Opens s.subscriptions
      (s.step (.session (.close c ex now) st orders)).subscriptions
      (Source s (.session (.close c ex now) st orders)) := by
  rw [DataSessionState.step,DataSessionState.sessionStep,DataSessionState.closeSocket]
  cases hs : s.sessions.sockets.lookup c with
  | none => exact .refl _ _
  | some key =>
    dsimp only [withSessions]
    rw [DataSessionState.cleanupIfActiveSession]
    split_ifs
    · exact .refl _ _
    · refine Opens.mono (opens_cleanup_of_unaffected hkeyed ?_ key orders now)
        fun e => .beside key hs
      exact ⟨rfl,rfl,rfl,rfl,rfl⟩
    · exact .refl _ _

theorem opens_graceExpired (key : ParticipantKey) (sid : String) (st : JoinSettings)
    (orders : MapOrders) (now : ℤ) :
    Opens s.subscriptions
      (s.step (.session (.graceExpired key sid now) st orders)).subscriptions
      (Source s (.session (.graceExpired key sid now) st orders)) := by
  rw [DataSessionState.step,DataSessionState.sessionStep,DataSessionState.graceExpired]
  by_cases ha : (key,sid)∉s.sessions.graceTimers
  · rw [if_pos ha]
    exact .refl _ _
  rw [if_neg ha]
  dsimp only
  split_ifs
  · exact .refl _ _
  · refine Opens.mono (opens_cleanup_of_unaffected hkeyed ?_ key orders now)
      fun e => .beside key rfl
    exact ⟨rfl,rfl,rfl,rfl,rfl⟩
  · exact .refl _ _

theorem opens_publishDataTrack (key : ParticipantKey) (r : PublishDataTrackRequest) (clock : ℤ)
    (orders : MapOrders) :
    Opens s.subscriptions (s.step (.publish key r clock orders)).subscriptions
      (Source s (.publish key r clock orders)) := by
  rw [DataSessionState.step,DataSessionState.publishDataTrack]
  split_ifs
  · exact .refl _ _
  · exact .refl _ _
  · exact .refl _ _
  split
  · exact .refl _ _
  · exact .refl _ _
  · next info dataTracks hp =>
    dsimp only
    split
    · exact .refl _ _
    · next p st ha =>
      obtain ⟨er,heq⟩ | ⟨found,d,store',-,-,heq,hr⟩ :=
        editParticipant_spec s.sessions.rooms key.room key.identity (fun p =>
          .ok (newVersion {p with dataTracks := p.dataTracks++[info]}))
      · cases ha.symm.trans heq
      · cases ha.symm.trans heq
        have hs := hkeyed.apply (.addParticipantDataTrack key.room key.identity info)
        rw [apply,ha] at hs
        refine (opens_reconcileOthers _ key orders hs).mono ?_
        intro e hb
        refine .beside key rfl (hb.of_same rfl rfl (hr.other ?_))
        rintro ⟨hroom,hi⟩
        exact hb.2.1 (by rw [owner] at hroom hi ⊢; simp_all)

theorem opens_step (e : DataTrackEvent) :
    Opens s.subscriptions (s.step e).subscriptions (Source s e) := by
  cases e with
  | session e st orders =>
    cases e with
    | join auth r d now =>
      exact opens_runJoinSocket hkeyed auth r st orders d now
    | close c ex now =>
      exact opens_closeSocket hkeyed c ex st orders now
    | graceExpired key sid now =>
      exact opens_graceExpired hkeyed key sid st orders now
    | leave key now =>
      exact (s.opens_cleanup key orders now hkeyed).mono fun en => .beside key rfl
    | disconnect key now =>
      exact (s.opens_disconnect key orders now hkeyed).mono fun en => .beside key rfl
    | _ => exact .refl _ _
  | publish key r clock orders => exact opens_publishDataTrack hkeyed key r clock orders
  | unpublish key n =>
    rw [DataSessionState.step,DataSessionState.unpublishDataTrack]
    split
    · exact .refl _ _
    · dsimp only
      split
      · exact opens_filter s.subscriptions _ _
      · exact opens_filter s.subscriptions _ _
  | update key us orders =>
    refine (s.opens_updateDataSubscription key orders us).mono ?_
    rintro en ⟨ho,hal,hask⟩
    exact .asked ⟨ho.symm,hask⟩ (ho ▸ hal)
  | reconcile key orders =>
    refine (s.opens_reconcile key orders).mono ?_
    rintro en ⟨ho,ha⟩
    refine .own ⟨ho.symm,ho ▸ ha⟩ ?_
    rw [DataSessionState.canSubscribe,DataSessionState.step,DataSessionState.sessions_reconcile]
    rw [← ho,autoSubscribes,Bool.and_eq_true] at ha
    exact ha.2

end

variable (s)

theorem sessions_publishDataTrack (key : ParticipantKey)
    (r : PublishDataTrackRequest) (clock : ℤ) (orders : MapOrders) :
    (s.publishDataTrack key r clock orders).2.sessions.permissions=s.sessions.permissions ∧
      (Keyed s.sessions.rooms →
        Keyed (s.publishDataTrack key r clock orders).2.sessions.rooms) := by
  rw [publishDataTrack]
  split_ifs
  · exact ⟨rfl,id⟩
  · exact ⟨rfl,id⟩
  · exact ⟨rfl,id⟩
  split
  · exact ⟨rfl,id⟩
  · exact ⟨rfl,id⟩
  · next info dataTracks hp =>
    have hkeyed := fun h : Keyed s.sessions.rooms =>
      h.apply (.addParticipantDataTrack key.room key.identity info)
    rw [apply] at hkeyed
    dsimp only
    split
    · next st ha =>
      rw [ha] at hkeyed
      exact ⟨rfl,hkeyed⟩
    · next p st ha =>
      rw [ha] at hkeyed
      rw [sessions_reconcileOthers]
      exact ⟨rfl,hkeyed⟩

theorem sessions_unpublishDataTrack (key : ParticipantKey) (n : ℕ) :
    (s.unpublishDataTrack key n).2.sessions.permissions=s.sessions.permissions ∧
      (Keyed s.sessions.rooms → Keyed (s.unpublishDataTrack key n).2.sessions.rooms) := by
  have hkeyed := fun h : Keyed s.sessions.rooms =>
    h.apply (.removeParticipantDataTrack key.room key.identity n)
  rw [apply] at hkeyed
  rw [unpublishDataTrack]
  split
  · exact ⟨rfl,id⟩
  · dsimp only
    split
    · next st hr =>
      rw [hr] at hkeyed
      exact ⟨rfl,hkeyed⟩
    · next p st hr =>
      rw [hr] at hkeyed
      exact ⟨rfl,hkeyed⟩

variable {s}

theorem keyed_dataSessionStep (hkeyed : Keyed s.sessions.rooms) (e : DataTrackEvent) :
    Keyed (s.step e).sessions.rooms := by
  cases e with
  | session e st orders =>
    rw [DataSessionState.step,DataSessionState.sessions_sessionStep]
    exact keyed_sessionStep hkeyed e
  | publish key r clock orders =>
    exact (sessions_publishDataTrack s key r clock orders).2 hkeyed
  | unpublish key n => exact (sessions_unpublishDataTrack s key n).2 hkeyed
  | update key us orders => exact hkeyed
  | reconcile key orders =>
    rw [DataSessionState.step,DataSessionState.sessions_reconcile]
    exact hkeyed

theorem keyed_dataSessionRun (hkeyed : Keyed s.sessions.rooms) (es : List DataTrackEvent) :
    Keyed (s.run es).sessions.rooms := by
  refine foldlRecOn (motive := fun s => Keyed s.sessions.rooms) es step hkeyed ?_
  exact fun t ht e _ => keyed_dataSessionStep ht e

end OxideSfu.Signaling
