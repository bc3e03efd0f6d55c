import OxideSfu.ParticipantSessions

/-!
# What a session event does

Every handler concerns one participant: what it leaves of that participant in the room store and in
the permission stores, and which snapshots of it went into refresh tokens and updates. The
invariants of whole runs are read off these effects.
-/

namespace OxideSfu.Signaling

open FiniteMaps Rooms RoomStore SessionState List Except

variable {o : ParticipantKey}

def participantOf (s : SessionState) (key : ParticipantKey) : Option ParticipantInfo :=
  currentParticipant s.rooms key.room key.identity

def IssuedFor (key : ParticipantKey) (shown : ParticipantInfo→Prop)
    (issued : ParticipantKey × Claims) : Prop :=
  issued.1=key ∧ ∃auth snapshot,shown snapshot ∧
    issued.2=refreshClaims auth key.room snapshot

/-- A join response of the local node lists participants that are in the room and not hidden. -/
def ListsVisible (s : SessionState) (key : ParticipantKey) (response : JoinResponse) : Prop :=
  response.key=key ∧ (response.relayed=false → ∀identity other,
    response.otherParticipants.lookup identity=some other →
      identity≠key.identity ∧ participantIsHidden other=false ∧
        currentParticipant s.rooms key.room identity=some other)

/-- From `s` to `t` only the participant of the key has changed, to the one given; the stores are
as given, and tokens and updates are about snapshots that satisfy `shown`. -/
structure Effect (key : ParticipantKey) (shown : ParticipantInfo→Prop) (s t : SessionState)
    (participant : Option ParticipantInfo) (permissions : PermissionStores) : Prop where
  participants : Replaces s.rooms t.rooms key.room key.identity participant
  permissions : t.permissions=permissions
  keyed : Keyed s.rooms → Keyed t.rooms
  tokens : ∃new,t.refreshTokens=s.refreshTokens++new ∧
    ∀issued∈new,IssuedFor key shown issued
  delivered : Delivers s.updates t.updates
    (fun delivery => ∃snapshot,shown snapshot ∧ Announces key.room snapshot delivery)
  responses : ∃new,t.joinResponses=s.joinResponses++new ∧
    ∀response∈new,ListsVisible s key response

variable {key : ParticipantKey} {shown shown' : ParticipantInfo→Prop} {s t u : SessionState}
  {participant participant' : Option ParticipantInfo} {permissions permissions' : PermissionStores}

section

variable (h : Effect key shown s t participant permissions)

include h

theorem Effect.self : participantOf t key=participant := h.participants.self

theorem Effect.other (ho : o≠key) : participantOf t o=participantOf s o := by
  apply h.participants.other
  rintro ⟨hr,hi⟩
  obtain ⟨room,i⟩ := o
  exact ho (by simp_all)

theorem Effect.trans (h' : Effect key shown t u participant' permissions') :
    Effect key shown s u participant' permissions' where
  participants := h.participants.trans h'.participants
  permissions := h'.permissions
  keyed hk := h'.keyed (h.keyed hk)
  tokens := by
    obtain ⟨new,heq,hnew⟩ := h.tokens
    obtain ⟨new',heq',hn'⟩ := h'.tokens
    refine ⟨new++new',by rw [heq',heq,append_assoc],?_⟩
    intro issued hmem
    exact (mem_append.mp hmem).elim (hnew issued) (hn' issued)
  delivered := h.delivered.trans h'.delivered
  responses := by
    obtain ⟨new,heq,hnew⟩ := h.responses
    obtain ⟨new',heq',hn'⟩ := h'.responses
    refine ⟨new++new',by rw [heq',heq,append_assoc],?_⟩
    intro r hmem
    obtain hmem | hmem := mem_append.mp hmem
    · exact hnew r hmem
    · obtain ⟨hkey,hl⟩ := hn' r hmem
      refine ⟨hkey,fun hlo i o ho => ?_⟩
      obtain ⟨hne,hv,hc⟩ := hl hlo i o ho
      exact ⟨hne,hv,(h.participants.other (fun h => hne h.2)) ▸ hc⟩

theorem Effect.mono (himp : ∀n,shown n → shown' n) :
    Effect key shown' s t participant permissions where
  participants := h.participants
  permissions := h.permissions
  keyed := h.keyed
  tokens := by
    obtain ⟨new,heq,hnew⟩ := h.tokens
    refine ⟨new,heq,fun issued hmem => ?_⟩
    obtain ⟨hkey,auth,n,hs,hc⟩ := hnew issued hmem
    exact ⟨hkey,auth,n,himp n hs,hc⟩
  delivered := h.delivered.mono fun d ⟨n,hs,ha⟩ =>
    ⟨n,himp n hs,ha⟩
  responses := h.responses

theorem Effect.answer {r : JoinResponse} (hl : ListsVisible s key r) :
    Effect key shown s {t with joinResponses := t.joinResponses++[r]} participant permissions := by
  refine ⟨h.participants,h.permissions,h.keyed,h.tokens,h.delivered,?_⟩
  obtain ⟨new,heq,hnew⟩ := h.responses
  refine ⟨new++[r],by rw [heq,append_assoc],?_⟩
  intro response' hmem
  obtain hmem | hmem := mem_append.mp hmem
  · exact hnew response' hmem
  · rw [mem_singleton.mp hmem]
    exact hl

end

theorem effect_of_silent (hroom : Replaces s.rooms t.rooms key.room key.identity participant)
    (hk : Keyed s.rooms → Keyed t.rooms)
    (hd : Delivers s.updates t.updates (fun d => ∃n,shown n ∧ Announces key.room n d))
    (ht : t.refreshTokens=s.refreshTokens) (hr : t.joinResponses=s.joinResponses) :
    Effect key shown s t participant t.permissions where
  participants := hroom
  permissions := rfl
  keyed := hk
  tokens := ⟨[],by rw [ht,append_nil],fun _ hmem => by cases hmem⟩
  delivered := hd
  responses := ⟨[],by rw [hr,append_nil],fun _ hmem => by cases hmem⟩

structure Unaffected (s t : SessionState) : Prop where
  rooms : t.rooms=s.rooms
  permissions : t.permissions=s.permissions
  tokens : t.refreshTokens=s.refreshTokens
  delivered : t.updates.delivered=s.updates.delivered
  responses : t.joinResponses=s.joinResponses

theorem Unaffected.effect (h : Unaffected s t) (key : ParticipantKey)
    (shown : ParticipantInfo→Prop) :
    Effect key shown s t (participantOf s key) s.permissions := by
  rw [← h.permissions]
  refine effect_of_silent ?_ ?_ (.of_same h.delivered) h.tokens h.responses
  · exact (replaces_refl s.rooms key.room key.identity).of_rooms (by rw [h.rooms])
  · rw [h.rooms]
    exact id

theorem effect_refl (s : SessionState) (key : ParticipantKey) (shown : ParticipantInfo→Prop) :
    Effect key shown s s (participantOf s key) s.permissions :=
  Unaffected.effect ⟨rfl,rfl,rfl,rfl,rfl⟩ key shown

variable {rooms : RoomStore} {key : ParticipantKey} {shown : ParticipantInfo→Prop}
  (s : SessionState) {n : ParticipantInfo}

theorem effect_withRooms {p : Option ParticipantInfo}
    (hr : Replaces s.rooms rooms key.room key.identity p) (hk : Keyed s.rooms → Keyed rooms) :
    Effect key shown s (s.withRooms rooms) p s.permissions :=
  effect_of_silent hr hk (.of_same rfl) rfl rfl

theorem effect_broadcastUpdate (hs : shown n) :
    Effect key shown s (s.broadcastUpdate key.room n) (participantOf s key) s.permissions := by
  refine effect_of_silent (replaces_refl s.rooms key.room key.identity) id ?_ rfl rfl
  exact (delivers_broadcastUpdate s.updates key.room n).mono (fun d h => ⟨n,hs,h⟩)

theorem effect_issueRefreshToken (hsh : shown n) (hi : n.identity=key.identity) :
    Effect key shown s (s.issueRefreshToken key.room n) (participantOf s key) s.permissions := by
  rw [issueRefreshToken]
  split
  · exact effect_refl s key shown
  · next auth _ =>
    have hs := effect_refl s key shown
    refine ⟨hs.participants,rfl,hs.keyed,⟨_,rfl,?_⟩,hs.delivered,hs.responses⟩
    intro issued hmem
    rw [mem_singleton.mp hmem]
    refine ⟨?_,auth,n,hsh,rfl⟩
    rw [hi]

theorem effect_sendRefreshToken (hs : shown n) (hi : n.identity=key.identity) :
    Effect key shown s (s.sendRefreshToken key.room n) (participantOf s key) s.permissions := by
  rw [sendRefreshToken]
  split_ifs
  · exact effect_issueRefreshToken s hs hi
  · exact effect_refl s key shown

def grantPermission (permissions : PermissionStores) (key : ParticipantKey)
    (permission : Option ParticipantPermission) : PermissionStores :=
  match permission with
  | none => permissions | some permission => permissions.grant key (permissionRights permission)

theorem sameRights_grantPermission (ps : PermissionStores) (pm : Option ParticipantPermission)
    (ho : o≠key) :
    PermissionStores.SameRights o ps (grantPermission ps key pm) := by
  cases pm with
  | none => exact .refl _ _
  | some pm => exact PermissionStores.sameRights_grant _ _ ho

theorem effect_enforcePermission (pm : Option ParticipantPermission) :
    Effect key shown s (s.enforcePermission key pm) (participantOf s key)
      (grantPermission s.permissions key pm) := by
  cases pm with
  | none => exact effect_refl s key shown
  | some pm =>
    exact effect_of_silent (replaces_refl s.rooms key.room key.identity) id (.of_same rfl) rfl rfl

theorem Effect.andThen {s t u : SessionState} {p : Option ParticipantInfo} {ps : PermissionStores}
    (h : Effect key shown s t p ps)
    (h' : Effect key shown t u (participantOf t key) t.permissions) :
    Effect key shown s u p ps := by
  rw [h.self,h.permissions] at h'
  exact h.trans h'

theorem effect_applyServiceParticipantUpdate (hs : shown n) (hi : n.identity=key.identity) :
    Effect key shown s (s.applyServiceParticipantUpdate key.room n) (participantOf s key)
      (grantPermission s.permissions key n.permission) := by
  have hkey : (⟨key.room,n.identity⟩ : ParticipantKey)=key := by
    rw [hi]
  rw [applyServiceParticipantUpdate,hkey]
  exact ((effect_enforcePermission s n.permission).andThen
    (effect_sendRefreshToken _ hs hi)).andThen (effect_broadcastUpdate _ hs)

variable {p : ParticipantInfo} {key : ParticipantKey} {s t u : SessionState}

theorem getParticipant_eq (s : SessionState) (key : ParticipantKey) :
    s.getParticipant key=participantOf s key :=
  toOption_getParticipant s.rooms key.room key.identity

theorem identity_of_keyed (hk : Keyed s.rooms) (h : participantOf s key=some p) :
    p.identity=key.identity :=
  keyed_iff.mp hk key.room key.identity p h

def Current (s : SessionState) (key : ParticipantKey) (snapshot : ParticipantInfo) : Prop :=
  ∃participant,participantOf s key=some participant ∧ SameSession participant snapshot

def Goodbye (s : SessionState) (key : ParticipantKey) (snapshot : ParticipantInfo) : Prop :=
  snapshot.state = .disconnected ∧ Current s key snapshot

/-- The participant is who it was and may do what it might, also by the stores. -/
def Kept (key : ParticipantKey) (s t : SessionState) : Prop :=
  ∃participant,Option.Rel SameSession (participantOf s key) participant ∧
    Effect key (Current s key) s t participant s.permissions

theorem sameParticipant_refl (p : Option ParticipantInfo) : Option.Rel SameSession p p := by
  cases p with
  | none => exact .none
  | some p => exact .some (.refl p)

theorem sameParticipant_trans {first b third : Option ParticipantInfo}
    (h : Option.Rel SameSession first b) (h' : Option.Rel SameSession b third) :
    Option.Rel SameSession first third := by
  cases h with
  | none => exact h'
  | some hs =>
    cases h' with
    | some hs' => exact .some (hs.trans hs')

theorem Unaffected.kept (h : Unaffected s t) (key : ParticipantKey) : Kept key s t :=
  ⟨participantOf s key,sameParticipant_refl _,h.effect key _⟩

theorem Kept.andThen (h : Kept key s t) (hs : Unaffected t u) : Kept key s u := by
  obtain ⟨p,hrel,he⟩ := h
  exact ⟨p,hrel,he.andThen (hs.effect key _)⟩

theorem kept_refl (s : SessionState) (key : ParticipantKey) : Kept key s s :=
  Unaffected.kept ⟨rfl,rfl,rfl,rfl,rfl⟩ key

theorem exists_of_sameParticipant {b : Option ParticipantInfo}
    (h : Option.Rel SameSession b (some p)) :
    ∃e,b=some e ∧ SameSession e p := by
  cases h with
  | some hs => exact ⟨_,rfl,hs⟩

theorem Kept.current (h : Kept key s t) {n : ParticipantInfo} (hc : Current t key n) :
    Current s key n := by
  obtain ⟨participant',hrel,hef⟩ := h
  obtain ⟨p,hp,hsame⟩ := hc
  rw [hef.self] at hp
  rw [hp] at hrel
  obtain ⟨e,he,hs⟩ := exists_of_sameParticipant hrel
  exact ⟨e,he,hs.trans hsame⟩

theorem Kept.trans (h : Kept key s t) (h' : Kept key t u) : Kept key s u := by
  have hc : ∀n,Current t key n → Current s key n :=
    fun _ hs => h.current hs
  obtain ⟨first,hrel,he⟩ := h
  obtain ⟨b,hr',he'⟩ := h'
  rw [he.self] at hr'
  rw [he.permissions] at he'
  exact ⟨b,sameParticipant_trans hrel hr',he.trans (he'.mono hc)⟩

theorem kept_of_edit {d : ParticipantInfo} (hp : participantOf s key=some p) (hs : SameSession p d)
    (hr : Replaces s.rooms rooms key.room key.identity (some d))
    (hk : Keyed s.rooms → Keyed rooms) :
    Kept key s ((s.withRooms rooms).broadcastUpdate key.room d) := by
  refine ⟨some d,?_,?_⟩
  · rw [hp]
    exact .some hs
  · exact (effect_withRooms s hr hk).andThen (effect_broadcastUpdate _ ⟨p,hp,hs⟩)

variable (s)

theorem kept_unpublishTrack (key : ParticipantKey) (k : TrackInfo) :
    Kept key s (unpublishTrack key s k) := by
  have hk := fun h : Keyed s.rooms =>
    h.apply (.removeParticipantTrack key.room key.identity k.sid)
  rw [unpublishTrack]
  obtain ⟨e,heq⟩ | ⟨p,d,rooms,hp,he,heq,hr⟩ :=
    removeParticipantTrack_spec s.rooms key.room key.identity k.sid
  · rw [heq]
    exact kept_refl _ key
  · have hre : Keyed s.rooms → Keyed rooms := fun h => by simpa [apply,heq] using hk h
    rw [heq]
    subst he
    exact kept_of_edit hp ⟨rfl,rfl,rfl⟩ hr hre

theorem kept_unpublishTracks (key : ParticipantKey) :
    Kept key s (s.unpublishParticipantTracksForReconnectGrace key) := by
  refine foldlRecOn (motive := Kept key s) _ _ (kept_refl _ key) ?_
  intro t ht k _
  exact ht.trans (kept_unpublishTrack t key k)

theorem kept_changeTracks (key : ParticipantKey) (tracks : List TrackInfo)
    (dataTracks : List DataTrackInfo) (counts : Bool) :
    Kept key s (s.changeTracks key tracks dataTracks counts) := by
  have hi : KeepsIdentity (fun participant : ParticipantInfo =>
      .ok (if counts then newVersion {participant with tracks,dataTracks}
        else {participant with tracks,dataTracks})) := by
    intro participant edited he
    rw [← ok.inj he]
    split_ifs <;> rfl
  have hk := fun h : Keyed s.rooms => h.editParticipant key.room key.identity hi
  rw [changeTracks]
  obtain ⟨error,heq⟩ | ⟨participant,edited,rooms,hp,he,heq,hr⟩ :=
    editParticipant_spec s.rooms key.room key.identity (fun participant =>
      .ok (if counts then newVersion {participant with tracks,dataTracks}
        else {participant with tracks,dataTracks}))
  · rw [heq]
    exact kept_refl _ key
  · have hs : SameSession participant edited := by
      rw [← ok.inj he]
      split_ifs <;> exact ⟨rfl,rfl,rfl⟩
    rw [heq] at hk ⊢
    exact kept_of_edit hp hs hr hk

variable {s}

theorem sameSession_disconnected (p : ParticipantInfo) (re : ℕ) :
    SameSession p (disconnected p re) := ⟨rfl,rfl,rfl⟩

variable (s)

theorem effect_cleanup (key : ParticipantKey) (now : ℤ) :
    Effect key (Goodbye s key) s (s.cleanupParticipantRuntimeState key now) none
      (s.permissions.removeParticipant key) := by
  have hk := fun h : Keyed s.rooms =>
    h.removeParticipantWithReason key.room key.identity clientInitiated now
  rw [cleanupParticipantRuntimeState]
  obtain ⟨e,hn,heq⟩ | ⟨p,rooms,hp,heq,hroom⟩ :=
    removeParticipantWithReason_spec s.rooms key.room key.identity clientInitiated now
  · rw [heq,← hn]
    exact effect_of_silent (replaces_refl s.rooms key.room key.identity) id (.of_same rfl) rfl rfl
  · rw [heq] at hk ⊢
    have hs : Goodbye s key (disconnected p clientInitiated) :=
      ⟨rfl,p,hp,sameSession_disconnected p clientInitiated⟩
    have hr : Effect key (Goodbye s key) s
        (({s with
          permissions := s.permissions.removeParticipant key
          peerConnections := s.peerConnections.erase key
          participantAuthContexts := s.participantAuthContexts.erase key} :
            SessionState).withRooms rooms) none (s.permissions.removeParticipant key) :=
      effect_of_silent hroom hk (.of_same rfl) rfl rfl
    exact hr.andThen (effect_broadcastUpdate _ hs)

theorem effect_disconnect (key : ParticipantKey) (now : ℤ) :
    ∃permissions,(permissions=s.permissions ∨ permissions=s.permissions.removeParticipant key) ∧
      Effect key (Goodbye s key) s
        (s.disconnectParticipantFromService key now) none permissions := by
  rw [disconnectParticipantFromService,getParticipant_eq]
  cases hp : participantOf s key with
  | none =>
    have hs := effect_refl s key (Goodbye s key)
    rw [hp] at hs
    exact ⟨_,.inl rfl,hs⟩
  | some participant => exact ⟨_,.inr rfl,effect_cleanup s key now⟩

variable {key : ParticipantKey} {shown : ParticipantInfo→Prop} (s : SessionState)
  (auth : AuthContext) (request : SignalJoinRequest) (d : Bool) (now : ℤ)

theorem effect_openSession {us : ParticipantUpdateHub}
    (hu : Delivers s.updates us (fun d =>
      ∃n,shown n ∧ Announces auth.key.room n d)) :
    Effect auth.key shown s (s.openSession auth us) (participantOf s auth.key)
      (s.permissions.grant auth.key auth.claims.video.rights) :=
  effect_of_silent (replaces_refl s.rooms auth.key.room auth.key.identity) id hu rfl rfl

/-- The participant is still there with the sid of the request, and its transports are alive. -/
def Resumes (s : SessionState) (auth : AuthContext) (request : SignalJoinRequest) : Prop :=
  (s.getParticipant auth.key).map (·.sid)=some request.participantSid ∧
    auth.key∈s.peerConnections
  deriving Decidable

/-- A reconnect that is accepted hands the rights of its token to the stores and changes nothing
else. -/
theorem effect_reconnect :
    s.reconnect auth request d=s ∨
      (d ∧ Resumes s auth request ∧
        Effect auth.key (fun _ => False) s (s.reconnect auth request d)
          (participantOf s auth.key) (s.permissions.grant auth.key auth.claims.video.rights)) := by
  rw [reconnect]
  by_cases hsid : (s.getParticipant auth.key).map (·.sid)≠some request.participantSid
  · rw [if_pos hsid]
    exact .inl rfl
  rw [if_neg hsid]
  by_cases ht : auth.key∉s.peerConnections
  · rw [if_pos ht]
    exact .inl rfl
  rw [if_neg ht]
  cases d with
  | false => exact .inl rfl
  | true =>
    exact .inr ⟨rfl,⟨not_not.mp hsid,not_not.mp ht⟩,effect_openSession s auth (.of_same rfl)⟩

theorem setParticipantKind_spec (s : RoomStore) (room i : String) (kind : ℕ)
    (kindDetails : List ℕ) (hp : currentParticipant s room i=some p) :
    ∃r t kinded,s.setParticipantKind room i kind kindDetails=(r,t) ∧
      SameSession p kinded ∧ SameSession p (r.toOption.getD p) ∧
      Replaces s t room i (some kinded) := by
  obtain ⟨e,heq⟩ | ⟨b,d,t,hb,he,heq,hr⟩ :=
    editParticipant_spec s room i (fun p =>
      .ok (newVersion {p with kind,kindDetails}))
  · refine ⟨_,_,p,heq,.refl p,.refl p,?_⟩
    rw [← hp]
    exact replaces_refl s room i
  · obtain rfl : p=b := Option.some.inj (hp.symm.trans hb)
    have hs : SameSession p d := by
      rw [← ok.inj he]
      exact ⟨rfl,rfl,rfl⟩
    exact ⟨_,t,d,heq,hs,hs,hr⟩

theorem keyed_setParticipantKind {s : RoomStore} (h : Keyed s) (room i : String) (kind : ℕ)
    (kindDetails : List ℕ) : Keyed (s.setParticipantKind room i kind kindDetails).2 :=
  h.apply (.setParticipantKind room i kind kindDetails)

/-- The response to a local join lists those who are not hidden. -/
theorem listsVisible_filtered {s : SessionState} {auth : AuthContext} {j : Joined}
    (p : ParticipantInfo)
    (he : ∀i o,j.existing.lookup i=some o →
      i≠auth.key.identity ∧ currentParticipant s.rooms auth.key.room i=some o) :
    ListsVisible s auth.key
      ⟨auth.key,false,p,j.existing.filter (fun _ o => !participantIsHidden o)⟩ := by
  refine ⟨rfl,fun _ i o ho => ?_⟩
  rw [FiniteMap.lookup_filter,Option.filter_eq_some_iff] at ho
  obtain ⟨hne,hc⟩ := he i o ho.1
  exact ⟨hne,by simpa using ho.2,hc⟩

theorem effect_openJoined (hp : participantOf s auth.key=some p) :
    Effect auth.key (SameSession p) s
      (s.openSession auth
        (s.updates.registerAndBroadcastJoin auth.key.room p (s.nextReceiver auth.key))) (some p)
      (s.permissions.grant auth.key auth.claims.video.rights) := by
  rw [← hp]
  apply effect_openSession
  exact (delivers_registerAndBroadcastJoin s.updates auth.key.room p
    (s.nextReceiver auth.key)).mono (fun d h => ⟨p,.refl p,h⟩)

/-- A participant that has joined keeps its session; its stores are filled if the response could
be sent. -/
theorem effect_completeJoin (j : Joined) (d : Bool)
    (hp : participantOf s auth.key=some j.participant)
    (he : ∀i o,j.existing.lookup i=some o →
      i≠auth.key.identity ∧ currentParticipant s.rooms auth.key.room i=some o) :
    ∃p,SameSession j.participant p ∧
      Effect auth.key (SameSession j.participant) s (s.completeJoin auth j d)
        (some p)
        (if d then s.permissions.grant auth.key auth.claims.video.rights
          else s.permissions) := by
  have hk := fun h : Keyed s.rooms => keyed_setParticipantKind h auth.key.room
    auth.key.identity auth.claims.kind auth.claims.kindDetails
  obtain ⟨r,rooms,kinded,heq,hsame,-,hr⟩ := setParticipantKind_spec s.rooms
    auth.key.room auth.key.identity auth.claims.kind auth.claims.kindDetails hp
  rw [completeJoin,heq]
  rw [heq] at hk
  refine ⟨kinded,hsame,?_⟩
  have hl := listsVisible_filtered (r.toOption.getD j.participant) he
  have ha : Effect auth.key (SameSession j.participant) s _ (some kinded)
      s.permissions := (effect_withRooms s hr hk).answer hl
  cases d with
  | false => exact ha
  | true =>
    have ho := (effect_openJoined _ auth ha.self).mono (fun _ hs => hsame.trans hs)
    simp only [Bool.not_true,Bool.false_eq_true,if_false,if_true]
    rw [getParticipant_eq,participantOf]
    rw [hr.self]
    exact ha.trans ho

theorem effect_applyRoomConfig (key : ParticipantKey) (shown : ParticipantInfo→Prop) :
    Effect key shown s (s.applyRoomConfigOnFirstRoomCreation auth now)
      (participantOf s key) s.permissions := by
  rw [applyRoomConfigOnFirstRoomCreation]
  split
  · next config _ _ =>
    apply effect_withRooms s
    · intro r i
      rw [currentParticipant_createRoom]
      exact replaces_refl s.rooms key.room key.identity r i
    · exact fun h => h.apply (.createRoom {config with name := auth.key.room} now)
  · exact effect_refl s key shown

/-- The stores forget the participant, or keep what they have if it was not there. -/
def MayForget (key : ParticipantKey) (permissions permissions' : PermissionStores) : Prop :=
  permissions'=permissions ∨ permissions'=permissions.removeParticipant key

def vacate (s : SessionState) (auth : AuthContext) (now : ℤ) : SessionState :=
  (s.applyRoomConfigOnFirstRoomCreation auth now).disconnectParticipantFromService auth.key now

theorem nextChannel_vacate : (vacate s auth now).nextChannel=s.nextChannel := by
  have hc : (s.applyRoomConfigOnFirstRoomCreation auth now).nextChannel=s.nextChannel := by
    rw [applyRoomConfigOnFirstRoomCreation]
    split <;> rfl
  rw [← hc,vacate,disconnectParticipantFromService]
  split
  · rfl
  · rw [cleanupParticipantRuntimeState]
    split <;> rfl

theorem effect_vacate :
    ∃ps,MayForget auth.key s.permissions ps ∧
      Effect auth.key (Goodbye s auth.key) s (vacate s auth now) none ps := by
  have hc := effect_applyRoomConfig s auth now auth.key (Goodbye s auth.key)
  obtain ⟨ps,hp,hl⟩ :=
    effect_disconnect (s.applyRoomConfigOnFirstRoomCreation auth now) auth.key now
  rw [hc.permissions] at hp
  refine ⟨ps,hp,hc.trans (hl.mono ?_)⟩
  rintro n ⟨hs,p,hpa,hsame⟩
  exact ⟨hs,p,hc.self.symm.trans hpa,hsame⟩

def enterRoom (s : SessionState) (auth : AuthContext) (request : SignalJoinRequest)
    (delivered : Bool) (now : ℤ) : SessionState :=
  if !s.roomAutoCreateOnJoin ∧ auth.key.room∉s.rooms.rooms.keys then s
  else
    match s.rooms.joinParticipantWithPermission (joinCall auth request) now with
    | (.error _,store) => s.withRooms store
    | (.ok joined,store) => (s.withRooms store).completeJoin auth joined delivered

theorem freshJoin_eq :
    s.freshJoin auth request d now=enterRoom (vacate s auth now) auth request d now := rfl

theorem effect_enterRoom (hn : participantOf s auth.key=none) :
    ((enterRoom s auth request d now).nextChannel=s.nextChannel ∧
        Effect auth.key shown s (enterRoom s auth request d now) none s.permissions) ∨
      ∃p,p.permission=some auth.claims.video.permission ∧
        p.sid = "PA_" ++ hex16 (saturatingSucc 64 s.rooms.nextParticipantId) ∧
        Effect auth.key (SameSession p) s (enterRoom s auth request d now)
          (some p)
          (if d then s.permissions.grant auth.key auth.claims.video.rights
            else s.permissions) := by
  have hk := fun h : Keyed s.rooms =>
    h.joinParticipantWithPermission (joinCall auth request) now
  rw [enterRoom]
  by_cases hr : !s.roomAutoCreateOnJoin ∧ auth.key.room∉s.rooms.rooms.keys
  · rw [if_pos hr]
    have hs := effect_refl s auth.key shown
    rw [hn] at hs
    exact .inl ⟨rfl,hs⟩
  rw [if_neg hr]
  obtain ⟨e,rooms,heq,hs⟩ |
    ⟨joined,rooms,heq,-,hp,he,hroom⟩ :=
    joinParticipantWithPermission_spec s.rooms (joinCall auth request) now
  · rw [heq] at hk ⊢
    refine .inl ⟨rfl,effect_withRooms s ?_ hk⟩
    intro r i
    rw [hs,← hn]
    exact replaces_refl s.rooms auth.key.room auth.key.identity r i
  · rw [heq] at hk ⊢
    -- Nobody has the identity when the join starts, so whoever is listed is somebody else.
    have ho : ∀identity o,joined.existing.lookup identity=some o →
        identity≠auth.key.identity ∧ currentParticipant rooms auth.key.room identity=some o := by
      intro identity o hot
      have hc : currentParticipant s.rooms auth.key.room identity=some o :=
        (he identity).symm.trans hot
      have hne : identity≠auth.key.identity := by
        rintro rfl
        exact absurd (hn.symm.trans hc) (by simp)
      exact ⟨hne,(hroom.other (fun h => hne h.2)).trans hc⟩
    obtain ⟨p,hs,hco⟩ := effect_completeJoin (s.withRooms rooms) auth joined d hroom.self ho
    refine .inr ⟨p,hs.permission.trans hp,
      hs.sid.trans (sid_of_joinParticipantWithPermission heq),?_⟩
    have hsh : ∀n,SameSession joined.participant n → SameSession p n :=
      fun n h => hs.symm.trans h
    exact (effect_withRooms s hroom hk).trans (hco.mono hsh)

/-- A fresh join that is refused leaves nobody. One that is accepted leaves a participant with
the permission of the token, and the rights of the token in the stores if its response could be
sent. -/
theorem effect_freshJoin :
    ∃ps,MayForget auth.key s.permissions ps ∧
      (((s.freshJoin auth request d now).nextChannel=s.nextChannel ∧
          Effect auth.key (Goodbye s auth.key) s (s.freshJoin auth request d now) none ps) ∨
        ∃p,p.permission=some auth.claims.video.permission ∧
          Effect auth.key (fun n => Goodbye s auth.key n ∨ SameSession p n) s
            (s.freshJoin auth request d now)
            (some p)
            (if d then ps.grant auth.key auth.claims.video.rights
              else ps)) := by
  obtain ⟨ps,hp,hv⟩ := effect_vacate s auth now
  refine ⟨ps,hp,?_⟩
  rw [← nextChannel_vacate s auth now]
  obtain ⟨hc,hr⟩ | ⟨p,hpe,-,hj⟩ := effect_enterRoom (vacate s auth now) auth request d now hv.self
  · rw [hv.permissions] at hr
    exact .inl ⟨hc,hv.trans hr⟩
  · rw [hv.permissions] at hj
    exact .inr ⟨p,hpe,(hv.mono fun _ => .inl).trans (hj.mono fun _ => .inr)⟩

def Left (key : ParticipantKey) (s t : SessionState) : Prop :=
  ∃permissions,MayForget key s.permissions permissions ∧
    Effect key (Goodbye s key) s t none permissions

variable {key : ParticipantKey} {s t u : SessionState}

theorem left_cleanup (s : SessionState) (key : ParticipantKey) (now : ℤ) :
    Left key s (s.cleanupParticipantRuntimeState key now) :=
  ⟨_,.inr rfl,effect_cleanup s key now⟩

theorem Unaffected.left (h : Unaffected s t) (hl : Left key t u) : Left key s u := by
  obtain ⟨ps,hf,he⟩ := hl
  rw [h.permissions] at hf
  refine ⟨ps,hf,(h.effect key _).trans (he.mono ?_)⟩
  rintro n ⟨hs,p,hp,hsame⟩
  rw [participantOf,h.rooms] at hp
  exact ⟨hs,p,hp,hsame⟩

theorem Left.andThen (h : Left key s t) (hs : Unaffected t u) : Left key s u := by
  obtain ⟨ps,hf,he⟩ := h
  exact ⟨ps,hf,he.andThen (hs.effect key _)⟩

variable (s)

theorem cleanupIfActiveSession_cases (key : ParticipantKey) (c : ℕ) (ex : Bool) (now : ℤ) :
    Kept key s (s.cleanupIfActiveSession key c ex now) ∨
      Left key s (s.cleanupIfActiveSession key c ex now) := by
  rw [cleanupIfActiveSession]
  by_cases ha : s.signalConnections.lookup key≠some c
  · rw [if_pos ha]
    exact .inl (kept_refl s key)
  have hs : Unaffected s {s with signalConnections := s.signalConnections.erase key} :=
    ⟨rfl,rfl,rfl,rfl,rfl⟩
  have hu := (hs.kept key).trans (kept_unpublishTracks _ key)
  dsimp only
  split_ifs
  · exact .inr (hs.left (left_cleanup _ key now))
  · refine .inl ?_
    split
    · exact hu
    · split_ifs
      · exact hu
      · exact hu.andThen ⟨rfl,rfl,rfl,rfl,rfl⟩

theorem closeSocket_cases (c : ℕ) (ex : Bool) (now : ℤ) :
    ∃key,Kept key s (s.closeSocket c ex now) ∨ Left key s (s.closeSocket c ex now) := by
  rw [closeSocket]
  split
  · exact ⟨⟨"",""⟩,.inl (kept_refl s _)⟩
  · next key _ =>
    refine ⟨key,?_⟩
    obtain hk | hl := cleanupIfActiveSession_cases s key c ex now
    · exact .inl (hk.andThen ⟨rfl,rfl,rfl,rfl,rfl⟩)
    · exact .inr (hl.andThen ⟨rfl,rfl,rfl,rfl,rfl⟩)

theorem graceExpired_cases (key : ParticipantKey) (sid : String) (now : ℤ) :
    Kept key s (s.graceExpired key sid now) ∨ Left key s (s.graceExpired key sid now) := by
  rw [graceExpired]
  have hs : Unaffected s {s with graceTimers := s.graceTimers.erase (key,sid)} :=
    ⟨rfl,rfl,rfl,rfl,rfl⟩
  by_cases hw : (key,sid)∉s.graceTimers
  · rw [if_pos hw]
    exact .inl (kept_refl s key)
  rw [if_neg hw]
  dsimp only
  split_ifs
  · exact .inl (hs.kept key)
  · exact .inr (hs.left (left_cleanup _ key now))
  · exact .inl (hs.kept key)

variable {s}

/-- The stores follow the permission that an update by the service leaves. -/
theorem effect_updateParticipantFromService (hk : Keyed s.rooms) (key : ParticipantKey)
    (u : ParticipantUpdate) :
    Kept key s (s.updateParticipantFromService key u) ∨
      ∃p,participantOf s key=some p ∧
        Effect key (SameSession (updatedParticipant p u)) s
          (s.updateParticipantFromService key u)
          (some (updatedParticipant p u))
          (grantPermission s.permissions key (updatedParticipant p u).permission) := by
  have hke := hk.updateParticipant key.room key.identity u
  rw [updateParticipantFromService]
  obtain ⟨e,heq⟩ | ⟨p,rooms,hp,heq,hr⟩ := updateParticipant_spec s.rooms key.room key.identity u
  · rw [heq]
    exact .inl (kept_refl _ key)
  · rw [heq] at hke ⊢
    refine .inr ⟨p,hp,?_⟩
    have hi : (updatedParticipant p u).identity=key.identity :=
      (names_updatedParticipant p u).2.trans (identity_of_keyed hk hp)
    have hsh := SameSession.refl (updatedParticipant p u)
    have ha := effect_applyServiceParticipantUpdate (s.withRooms rooms) hsh hi
    have hs : participantOf (s.withRooms rooms) key=_ := hr.self
    rw [hs] at ha
    exact (effect_withRooms s hr (fun _ => hke)).trans ha

/-- A mute keeps the participant, and the stores are told its permission again. -/
theorem effect_muteTrackFromService (hke : Keyed s.rooms) (key : ParticipantKey) (sid : String)
    (muted : Bool) :
    Kept key s (s.muteTrackFromService key sid muted) ∨
      ∃p d,participantOf s key=some p ∧
        SameSession p d ∧
        Effect key (Current s key) s (s.muteTrackFromService key sid muted) (some d)
          (grantPermission s.permissions key p.permission) := by
  have hk := hke.apply (.setParticipantTrackMuted key.room key.identity sid muted)
  rw [RoomStore.apply,setParticipantTrackMuted] at hk
  rw [muteTrackFromService,setParticipantTrackMuted]
  obtain ⟨e,heq⟩ | ⟨p,d,rooms,hp,he,heq,hr⟩ :=
    editParticipant_spec s.rooms key.room key.identity (editTrack sid (fun k =>
      if k.muted=muted then none else some {k with muted}))
  · rw [heq]
    exact .inl (kept_refl _ key)
  · rw [heq] at hk ⊢
    have hsame := SameSession.editTrack he
    have hc : Current s key d := ⟨p,hp,hsame⟩
    have hs : Effect key (Current s key) s (s.withRooms rooms) (some d) s.permissions :=
      effect_withRooms s hr (fun _ => hk)
    dsimp only
    generalize Except.bind _ _=result
    cases result with
    | error e =>
      refine .inl ⟨some d,?_,hs⟩
      rw [participantOf,hp]
      exact .some hsame
    | ok k =>
      dsimp only
      rw [getParticipant_eq,hs.self]
      refine .inr ⟨p,d,hp,hsame,?_⟩
      have hi := hsame.identity.trans (identity_of_keyed hke hp)
      have ha := effect_applyServiceParticipantUpdate (s.withRooms rooms) hc hi
      rw [hs.self,hsame.permission] at ha
      exact hs.trans ha

theorem kept_updateMetadata (hk : Keyed s.rooms) (key : ParticipantKey)
    (m name : String) (attributes : FiniteMap String String) :
    Kept key s (s.updateMetadata key m name attributes) := by
  have hke := hk.updateParticipant key.room key.identity ⟨m,name,none,attributes⟩
  rw [updateMetadata]
  split_ifs
  · obtain ⟨e,heq⟩ | ⟨p,rooms,hp,heq,hr⟩ :=
      updateParticipant_spec s.rooms key.room key.identity ⟨m,name,none,attributes⟩
    · rw [heq]
      exact kept_refl _ key
    · rw [heq] at hke ⊢
      have hs : SameSession p (updatedParticipant p ⟨m,name,none,attributes⟩) :=
        ⟨(names_updatedParticipant _ _).1,(names_updatedParticipant _ _).2,
          permission_updatedParticipant _ _⟩
      have hi := hs.identity.trans (identity_of_keyed hk hp)
      have hc : Current s key _ := ⟨p,hp,hs⟩
      refine ⟨_,?_,((effect_withRooms s hr (fun _ => hke)).andThen
        (effect_issueRefreshToken _ hc hi)).andThen (effect_broadcastUpdate _ hc)⟩
      rw [participantOf,hp]
      exact .some hs
  · exact kept_refl _ key

def relayedPermissions (permissions : PermissionStores) (intent : NonLocalRelayJoinIntent) :
    PermissionStores :=
  (permissions.grant intent.key (permissionRights intent.requestedPermission)).grant intent.key
    (permissionRights intent.requestedPermission)

/-- A relayed join that is refused leaves the stores alone. One that is accepted stores and
enforces the requested permission. -/
def RelayOutcome (s : SessionState) (intent : NonLocalRelayJoinIntent) (accepted : Bool)
    (joined : ParticipantInfo) (permissions : PermissionStores) : Prop :=
  (accepted=false ∧ permissions=s.permissions) ∨
    (accepted ∧ joined.permission=some intent.requestedPermission ∧
      permissions=relayedPermissions s.permissions intent)

def answerRelayedJoin (s : SessionState) (intent : NonLocalRelayJoinIntent)
    (updated : ParticipantInfo) (others : FiniteMap String ParticipantInfo) : SessionState :=
  let (kinded,store) :=
    s.rooms.setParticipantKind intent.room intent.identity intent.kind intent.kindDetails
  let participant := kinded.toOption.getD updated
  let s := {s with
    rooms := store
    participantAuthContexts :=
      s.participantAuthContexts.insert intent.key (intent.authContext participant)}
  let s := s.applyServiceParticipantUpdate intent.room participant
  let response : JoinResponse := {
    key := intent.key,relayed := true,participant,otherParticipants := others}
  {s with joinResponses := s.joinResponses++[response]}

variable {updated : ParticipantInfo}

theorem effect_answerRelayedJoin (hke : Keyed s.rooms) (it : NonLocalRelayJoinIntent)
    (others : FiniteMap String ParticipantInfo) (hu : participantOf s it.key=some updated) :
    ∃j,SameSession updated j ∧
      Effect it.key (SameSession updated) s (answerRelayedJoin s it updated others)
        (some j) (grantPermission s.permissions it.key updated.permission) := by
  have hk := keyed_setParticipantKind hke it.room it.identity it.kind it.kindDetails
  obtain ⟨r,rooms,j,heq,hsame,hs,hroom⟩ :=
    setParticipantKind_spec s.rooms it.room it.identity it.kind it.kindDetails hu
  rw [answerRelayedJoin]
  dsimp only
  rw [heq] at hk ⊢
  refine ⟨j,hsame,?_⟩
  generalize r.toOption.getD updated=participant at hs ⊢
  have hi := hs.identity.trans (identity_of_keyed hke hu)
  generalize hr : ({s with
    rooms
    participantAuthContexts :=
      s.participantAuthContexts.insert it.key (it.authContext participant)} : SessionState)=t
  have hst : Effect it.key (SameSession updated) s t (some j) s.permissions := by
    subst hr
    exact effect_of_silent hroom (fun _ => hk) (.of_same rfl) rfl rfl
  have ha := effect_applyServiceParticipantUpdate t hs hi
  rw [hst.self,hst.permissions,hs.permission] at ha
  exact (hst.trans ha).answer ⟨rfl,fun hl => by cases hl⟩

def relayedUpdate (intent : NonLocalRelayJoinIntent) : ParticipantUpdate :=
  ⟨"","",some intent.requestedPermission,.empty⟩

variable {it : NonLocalRelayJoinIntent}

theorem completeRelayedJoin_of_updated
    (h : s.rooms.updateParticipant it.room it.identity (relayedUpdate it) =
      (.ok updated,rooms)) (others : FiniteMap String ParticipantInfo) :
    s.completeRelayedJoin it others =
      (true,answerRelayedJoin ((s.withRooms rooms).applyServiceParticipantUpdate it.room
        updated) it updated others) := by
  rw [relayedUpdate] at h
  rw [completeRelayedJoin,h]
  rfl

theorem completeRelayedJoin_of_error {e : RoomStoreError}
    (h : s.rooms.updateParticipant it.room it.identity (relayedUpdate it) =
      (.error e,s.rooms)) (others : FiniteMap String ParticipantInfo) :
    s.completeRelayedJoin it others=(false,s) := by
  rw [relayedUpdate] at h
  rw [completeRelayedJoin,h]
  rfl

theorem effect_completeRelayedJoin (hk : Keyed s.rooms) (it : NonLocalRelayJoinIntent)
    (others : FiniteMap String ParticipantInfo) (hpa : participantOf s it.key=some p) :
    ∃j ps,Effect it.key (SameSession j) s (s.completeRelayedJoin it others).2 (some j) ps ∧
      RelayOutcome s it (s.completeRelayedJoin it others).1 j ps := by
  have hu := hk.updateParticipant it.room it.identity (relayedUpdate it)
  obtain ⟨e,heq⟩ | ⟨b,rooms,hb,heq,hr⟩ :=
    updateParticipant_spec s.rooms it.room it.identity (relayedUpdate it)
  · rw [completeRelayedJoin_of_error heq]
    have hs := effect_refl s it.key (SameSession p)
    rw [hpa] at hs
    exact ⟨p,s.permissions,hs,.inl ⟨rfl,rfl⟩⟩
  -- The permission is stored and enforced, then the kind is set and the permission enforced again.
  rw [completeRelayedJoin_of_updated heq]
  rw [heq] at hu
  have hpr : participantOf s it.key=some b := hb
  have hi := (names_updatedParticipant b (relayedUpdate it)).2.trans (identity_of_keyed hk hpr)
  have hp : (updatedParticipant b (relayedUpdate it)).permission=some it.requestedPermission :=
    permission_updatedParticipant b (relayedUpdate it)
  generalize updatedParticipant b (relayedUpdate it)=updated at *
  have hst : Effect it.key (SameSession updated) s (s.withRooms rooms)
    (some updated) s.permissions :=
    effect_withRooms s hr (fun _ => hu)
  have hap := effect_applyServiceParticipantUpdate (s.withRooms rooms) (SameSession.refl updated) hi
  rw [hst.self] at hap
  have hf := hst.trans hap
  obtain ⟨j,hs,ha⟩ := effect_answerRelayedJoin (hf.keyed hk) it others hf.self
  rw [hf.permissions,hp] at ha
  refine ⟨j,_,(hf.trans ha).mono (fun _ h => hs.symm.trans h),.inr ?_⟩
  exact ⟨rfl,hs.permission.trans hp,rfl⟩

/-- A relayed join changes nobody, or leaves the participant that it made or resumed. -/
theorem effect_executeJoin (hk : Keyed s.rooms) (it : NonLocalRelayJoinIntent) (now : ℤ) :
    (Kept it.key s (s.executeJoin it now).2 ∧ (s.executeJoin it now).1=false) ∨
      ∃j ps,Effect it.key (SameSession j) s (s.executeJoin it now).2 (some j) ps ∧
        RelayOutcome s it (s.executeJoin it now).1 j ps := by
  have hj := hk.joinParticipantWithPermission
    ⟨it.room,it.identity, it.name,it.metadata,it.attributes,none⟩ now
  rw [executeJoin]
  cases it.requestedParticipantSid with
  | some requestedSid =>
    cases hre : s.rooms.rooms.lookup it.room with
    | none => exact .inl ⟨kept_refl s _,rfl⟩
    | some rc =>
      cases hf : rc.participants.lookup it.identity with
      | none =>
        simp only [hf]
        exact .inl ⟨kept_refl s _,trivial⟩
      | some p =>
        simp only [hf]
        split_ifs
        · have hp : participantOf s it.key=some p :=
            (currentParticipant_of_lookup hre it.identity).trans hf
          exact .inr (effect_completeRelayedJoin hk it _ hp)
        · exact .inl ⟨kept_refl s _,rfl⟩
  | none =>
    obtain ⟨e,rooms,heq,hsame⟩ | ⟨j,rooms,heq,-,-,-,hr⟩ :=
      joinParticipantWithPermission_spec s.rooms
        ⟨it.room,it.identity,it.name, it.metadata,it.attributes,none⟩ now
    · rw [heq] at hj ⊢
      refine .inl ⟨⟨_,sameParticipant_refl _,effect_withRooms s ?_ (fun _ => hj)⟩,rfl⟩
      intro r i
      rw [hsame]
      exact replaces_refl s.rooms it.room it.identity r i
    · rw [heq] at hj ⊢
      have hs : participantOf (s.withRooms rooms) it.key=some j.participant := hr.self
      obtain ⟨p,ps,hc,ho⟩ := effect_completeRelayedJoin (s := s.withRooms rooms) hj it j.existing hs
      refine .inr ⟨p,ps,?_,ho⟩
      exact (effect_withRooms s hr (fun _ => hj)).trans hc

theorem kept_connectRelayed (s : SessionState) (key : ParticipantKey) :
    Kept key s (s.connectRelayed key) := by
  rw [connectRelayed]
  split_ifs
  · exact kept_refl s key
  have hc : Unaffected s {s with
      signalConnections := s.signalConnections.insert key s.nextChannel
      nextChannel := s.nextChannel+1} := ⟨rfl,rfl,rfl,rfl,rfl⟩
  dsimp only
  split
  · exact hc.kept key
  · next p hf =>
    have hp : participantOf s key=some p := (getParticipant_eq s key).symm.trans hf
    have hcu : Current s key p := ⟨p,hp,.refl p⟩
    have ha := (delivers_registerAndBroadcastJoin s.updates key.room p
      ⟨s.nextChannel,key⟩).mono (fun d h =>
        (⟨p,hcu,h⟩ : ∃n,Current s key n ∧ Announces key.room n d))
    exact ⟨participantOf s key,sameParticipant_refl _,
      effect_of_silent (replaces_refl s.rooms key.room key.identity) id ha rfl rfl⟩

/-- The end of a relayed session takes the participant out of the room but not out of the
stores. -/
theorem effect_executeTermination (hk : Keyed s.rooms) (key : ParticipantKey) (sid : String)
    (now : ℤ) :
    Kept key s (s.executeTermination key sid now) ∨
      ∃p,participantOf s key=some p ∧
        Effect key (Goodbye s key) s (s.executeTermination key sid now) none
          (grantPermission s.permissions key p.permission) := by
  have hr := hk.removeParticipantWithReason key.room key.identity clientInitiated now
  rw [executeTermination]
  split_ifs
  · exact .inl (kept_refl s key)
  · obtain ⟨e,-,heq⟩ | ⟨p,rooms,hp,heq,hroom⟩ :=
      removeParticipantWithReason_spec s.rooms key.room key.identity clientInitiated now
    · rw [heq]
      exact .inl (kept_refl _ key)
    · rw [heq] at hr ⊢
      have hs := sameSession_disconnected p clientInitiated
      have hg : Goodbye s key (disconnected p clientInitiated) := ⟨rfl,p,hp,hs⟩
      have hi := hs.identity.trans (identity_of_keyed hk hp)
      have ha := effect_applyServiceParticipantUpdate (s.withRooms rooms) hg hi
      have hgo : participantOf (s.withRooms rooms) key=none := hroom.self
      rw [hgo] at ha
      exact .inr ⟨p,hp,(effect_withRooms s hroom (fun _ => hr)).trans ha⟩

end OxideSfu.Signaling
