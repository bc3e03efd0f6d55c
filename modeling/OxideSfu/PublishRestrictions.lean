import OxideSfu.SessionOutcomes
import OxideSfu.StepRuns

/-!
# Restrictions of the sources that may be published

The names of the sources in a token become numbers in the room store and names again in the
permission store and in refresh tokens, and an empty list is no restriction. A restriction survives
if one of its names is known to the join.
-/

namespace OxideSfu.Signaling

open Rooms RoomStore SessionState PermissionStores StepRuns List Option

def NamesKnownSource (names : List String) : Prop :=
  ∃name∈names,(sourceNumber name).isSome

/-- Names that a list allows, where the case of letters does not count. -/
def AllowedBy (allowed names : List String) : Prop :=
  ∀name∈names,toAsciiLowercase name∈allowed.map toAsciiLowercase

/-- Names that a list allows, and that are not lost in the room store. -/
def Restricted (allowed names : List String) : Prop :=
  NamesKnownSource names ∧ AllowedBy allowed names

variable {allowed names : List String}

theorem restricted_self (h : NamesKnownSource allowed) : Restricted allowed allowed :=
  ⟨h,fun _ hmem => mem_map_of_mem hmem⟩

theorem Restricted.ne_nil (h : Restricted allowed names) : names≠[] := by
  rintro rfl
  obtain ⟨⟨name,hmem,-⟩,-⟩ := h
  cases hmem

/-- Names that have gone through the room store are restricted as before. -/
theorem Restricted.stored (h : Restricted allowed names) :
    Restricted allowed ((names.filterMap sourceNumber).map sourceName) := by
  obtain ⟨⟨name,hmem,hk⟩,ha⟩ := h
  constructor
  · obtain ⟨n,hn⟩ := isSome_iff_exists.mp hk
    refine ⟨sourceName n,?_,?_⟩
    · exact mem_map_of_mem (mem_filterMap.mpr ⟨name,hmem,hn⟩)
    · rw [(sourceNumber_sourceName hn).1]
      rfl
  · intro st hst
    obtain ⟨n,hmem,rfl⟩ := mem_map.mp hst
    obtain ⟨c,hs,hn⟩ := mem_filterMap.mp hmem
    rw [(sourceNumber_sourceName hn).2,sourceName_of_sourceNumber hn]
    exact ha c hs

def StoreRestricted (allowed : List String) (key : ParticipantKey)
    (permissions : PermissionStores) : Prop :=
  permissions.publish.canPublishMedia key →
    ∃sources,permissions.publish.sourcesAllowed.lookup key=some sources ∧ sources≠∅ ∧
      ∀name∈sources,name∈allowed.map toAsciiLowercase

variable {key : ParticipantKey} {permissions permissions' : PermissionStores}

theorem storeRestricted_grant (ps : PermissionStores) {rights : Rights}
    (h : Restricted allowed rights.publishSources) :
    StoreRestricted allowed key (ps.grant key rights) := by
  intro _
  refine ⟨(rights.publishSources.map toAsciiLowercase).toFinset,?_,?_,?_⟩
  · rw [sourcesAllowed_grant,if_pos rfl,if_neg h.ne_nil]
  · simpa using h.ne_nil
  · intro name hn
    obtain ⟨c,hs,rfl⟩ := mem_map.mp (mem_toFinset.mp hn)
    exact h.2 c hs

section

variable (h : StoreRestricted allowed key permissions)

include h

namespace StoreRestricted

theorem of_sameRights (hs : SameRights key permissions permissions') :
    StoreRestricted allowed key permissions' := by
  intro hm
  rw [hs.media] at hm
  rw [hs.sources]
  exact h hm

theorem of_mayForget (hf : MayForget key permissions permissions') :
    StoreRestricted allowed key permissions' := by
  obtain rfl | rfl := hf
  · exact h
  · intro hm
    simp [removeParticipant,PublishPermissionStore.removeParticipant,
      PublishPermissionStore.canPublishMedia] at hm

theorem grantPermission {pm : Option ParticipantPermission}
    (hr : ∀granted∈pm,Restricted allowed (granted.canPublishSources.map sourceName)) :
    StoreRestricted allowed key (grantPermission permissions key pm) := by
  cases pm with
  | none => exact h
  | some granted => exact storeRestricted_grant permissions (hr granted rfl)

theorem allowed_of_canPublishSource {c : String} (hs : permissions.publish.canPublishSource key c) :
    toAsciiLowercase c∈allowed.map toAsciiLowercase := by
  rw [PublishPermissionStore.canPublishSource] at hs
  split_ifs at hs with hm
  obtain ⟨sources,hl,hne,ha⟩ := h (by simpa using hm)
  rw [hl] at hs
  simp only [hne,if_false,decide_eq_true_eq] at hs
  exact ha _ hs

end StoreRestricted

end

def SnapshotRestricted (allowed : List String) (snapshot : ParticipantInfo) : Prop :=
  ∃permission,snapshot.permission=some permission ∧
    Restricted allowed (permission.canPublishSources.map sourceName)

/-- The restriction in the room, in the stores and in the tokens issued after the first ones. -/
structure SessionRestricted (allowed : List String) (key : ParticipantKey) (issued : ℕ)
    (s : SessionState) : Prop where
  participant : ∀participant,participantOf s key=some participant →
    SnapshotRestricted allowed participant
  store : StoreRestricted allowed key s.permissions
  tokens : ∀claims,(key,claims)∈s.refreshTokens.drop issued →
    Restricted allowed claims.video.canPublishSources
  counted : issued ≤ s.refreshTokens.length

/-- A call of the service leaves what the participant may publish as it is. -/
def KeepsPublishPermission (s : SessionState) (key : ParticipantKey) (update : ParticipantUpdate) :
    Prop :=
  match update.permission,(participantOf s key).bind (·.permission) with
  | some permission, some current =>
    permission.canPublish=current.canPublish ∧
      permission.canPublishSources=current.canPublishSources
  | _, _ => True

/-- The participant of a token comes back only with this token or with one that was issued since,
to this node, and no call of the service changes what it may publish. -/
def KeepsRestriction (auth : AuthContext) (issued : ℕ) (s : SessionState) : SessionEvent→Prop
  | .join rejoin _ _ _ => rejoin.key=auth.key →
    rejoin.claims=auth.claims ∨ (auth.key,rejoin.claims)∈s.refreshTokens.drop issued
  | .updateParticipant key update => key=auth.key → KeepsPublishPermission s key update
  | .relayJoin intent _ => intent.key≠auth.key | _ => True

variable {issued : ℕ} {s : SessionState} {participant : ParticipantInfo} {auth : AuthContext}
  {n : ParticipantInfo}

theorem SnapshotRestricted.of_same (h : SnapshotRestricted allowed participant)
    (hs : SameSession participant n) :
    SnapshotRestricted allowed n := by
  obtain ⟨pm,hp,hr⟩ := h
  exact ⟨pm,hs.permission.trans hp,hr⟩

theorem SnapshotRestricted.granted (h : SnapshotRestricted allowed participant) :
    ∀granted∈participant.permission,Restricted allowed
      (granted.canPublishSources.map sourceName) := by
  obtain ⟨permission,hp,hr⟩ := h
  intro granted hg
  rw [hp] at hg
  exact some.inj hg ▸ hr

theorem SnapshotRestricted.refreshClaims (h : SnapshotRestricted allowed n) (auth : AuthContext)
    (room : String) :
    Restricted allowed (refreshClaims auth room n).video.canPublishSources := by
  obtain ⟨pm,hp,hr⟩ := h
  rw [Signaling.refreshClaims,hp]
  exact hr

theorem snapshotRestricted_joined {video : VideoGrants}
    (hp : participant.permission=some video.permission)
    (h : Restricted allowed video.canPublishSources) : SnapshotRestricted allowed participant :=
  ⟨video.permission,hp,h.stored⟩

theorem snapshotRestricted_updated {u : ParticipantUpdate}
    (hpa : participantOf s key=some participant)
    (h : SnapshotRestricted allowed participant) (hk : KeepsPublishPermission s key u) :
    SnapshotRestricted allowed (updatedParticipant participant u) := by
  obtain ⟨c,hc,hr⟩ := h
  have hu := permission_updatedParticipant participant u
  rw [KeepsPublishPermission,hpa,bind_some,hc] at hk
  cases hp : u.permission with
  | none =>
    rw [hp] at hu
    exact ⟨c,hu.trans hc,hr⟩
  | some pm =>
    rw [hp] at hu hk
    refine ⟨pm,hu,?_⟩
    rw [hk.2]
    exact hr

theorem SessionRestricted.current (h : SessionRestricted allowed key issued s)
    (hc : Current s key n) :
    SnapshotRestricted allowed n := by
  obtain ⟨p,hp,hs⟩ := hc
  exact (h.participant p hp).of_same hs

/-- What an event leaves of the participant and shows of it is restricted. -/
structure OutcomeRestricted (allowed : List String) (key : ParticipantKey)
    (shown : ParticipantInfo→Prop) (participant : Option ParticipantInfo)
    (permissions : PermissionStores) : Prop where
  participant : ∀left∈participant,SnapshotRestricted allowed left
  store : StoreRestricted allowed key permissions
  shown : ∀snapshot,shown snapshot → SnapshotRestricted allowed snapshot

/-- The tokens with which the participant may come back. -/
theorem SessionRestricted.rejoin {rejoin : AuthContext}
    (h : SessionRestricted auth.claims.video.canPublishSources auth.key issued s)
    (hk : NamesKnownSource auth.claims.video.canPublishSources)
    (hc : rejoin.claims=auth.claims ∨ (auth.key,rejoin.claims)∈s.refreshTokens.drop issued) :
    Restricted auth.claims.video.canPublishSources rejoin.claims.video.canPublishSources := by
  obtain hs | hi := hc
  · rw [hs]
    exact restricted_self hk
  · exact h.tokens _ hi

variable {shown : ParticipantInfo→Prop} {e : SessionEvent}

theorem SessionRestricted.outcome {participant : Option ParticipantInfo}
    {permissions : PermissionStores}
    (h : SessionRestricted auth.claims.video.canPublishSources auth.key issued s)
    (hkn : NamesKnownSource auth.claims.video.canPublishSources)
    (hk : KeepsRestriction auth issued s e) (ho : Outcome s e key shown participant permissions)
    (hkey : key=auth.key) :
    OutcomeRestricted auth.claims.video.canPublishSources auth.key shown participant
      permissions := by
  cases ho with
  | kept _ _ hsame =>
    subst hkey
    refine ⟨fun left hl => ?_,h.store,fun snapshot => h.current⟩
    rw [mem_def.mp hl] at hsame
    obtain ⟨earlier,he,hse⟩ := exists_of_sameParticipant hsame
    exact (h.participant earlier he).of_same hse
  | left _ _ hf =>
    subst hkey
    exact ⟨fun left hl => (by cases hl),h.store.of_mayForget hf,
      fun snapshot hg => h.current hg.2⟩
  | resumed rejoin request now hre hres =>
    have hr := h.rejoin hkn (hk hkey)
    rw [hkey]
    exact ⟨h.participant,storeRestricted_grant _ hr,fun _ hfa => hfa.elim⟩
  | @joined rejoin request delivered now joined _ hre hf hpe =>
    -- The room gets the known names of the token, the store gets all of them.
    have hr := h.rejoin hkn (hk hkey)
    rw [hkey] at hf ⊢
    have hs := snapshotRestricted_joined hpe hr
    refine ⟨fun left hl => some.inj hl ▸ hs,?_,?_⟩
    · cases delivered with
      | false => exact h.store.of_mayForget hf
      | true => exact storeRestricted_grant _ hr
    · rintro snapshot (hg | hsame)
      · exact h.current hg.2
      · exact hs.of_same hsame
  | updated _ update hp =>
    subst hkey
    have hs := snapshotRestricted_updated hp (h.participant _ hp) (hk rfl)
    exact ⟨fun left hl => some.inj hl ▸ hs, h.store.grantPermission hs.granted,
      fun snapshot hsame => hs.of_same hsame⟩
  | muted _ trackSid muted hp hsame =>
    subst hkey
    have hs := h.participant _ hp
    exact ⟨fun left hl => some.inj hl ▸ hs.of_same hsame, h.store.grantPermission hs.granted,
      fun snapshot => h.current⟩
  | relayed intent now ho => exact absurd hkey hk
  | terminated _ sid now hp =>
    subst hkey
    exact ⟨fun left hl => (by cases hl),
      h.store.grantPermission (h.participant _ hp).granted,
      fun snapshot hg => h.current hg.2⟩

/-- The tokens of the participant after an event: those from before and those for the snapshots
that the event shows. -/
theorem SessionRestricted.tokens_step {t : SessionState} {key' : ParticipantKey}
    {p : Option ParticipantInfo} {ps : PermissionStores}
    (h : SessionRestricted allowed key issued s) (he : Effect key' shown s t p ps)
    (hsh : key'=key → ∀n,shown n → SnapshotRestricted allowed n) :
    (∀claims,(key,claims)∈t.refreshTokens.drop issued →
      Restricted allowed claims.video.canPublishSources) ∧
      issued≤t.refreshTokens.length := by
  obtain ⟨new,ht,hnew⟩ := he.tokens
  rw [ht,drop_append_of_le_length h.counted,length_append]
  refine ⟨?_,h.counted.trans (Nat.le_add_right _ _)⟩
  intro claims hmem
  obtain hold | hi := mem_append.mp hmem
  · exact h.tokens claims hold
  · obtain ⟨hkey,auth,n,hs,hc⟩ := hnew _ hi
    dsimp only at hkey hc
    rw [hc]
    exact (hsh hkey.symm n hs).refreshClaims auth key'.room

theorem SessionRestricted.step
    (h : SessionRestricted auth.claims.video.canPublishSources auth.key issued s)
    (hke : Keyed s.rooms) (hkn : NamesKnownSource auth.claims.video.canPublishSources)
    (hk : KeepsRestriction auth issued s e) :
    SessionRestricted auth.claims.video.canPublishSources auth.key issued (s.step e) := by
  obtain ⟨key,shown,p,ps,ho,he⟩ := step_hasOutcome hke e
  have hr := h.outcome hkn hk ho
  obtain ⟨ht,hc⟩ := h.tokens_step he (fun hkey => (hr hkey).shown)
  -- An event about somebody else leaves the participant and its entries in the stores alone.
  by_cases hkey : key=auth.key
  · refine ⟨?_,?_,ht,hc⟩
    · intro left hl
      rw [← hkey,he.self] at hl
      exact (hr hkey).participant left hl
    · rw [he.permissions]
      exact (hr hkey).store
  · have hot : auth.key≠key := fun heq => hkey heq.symm
    refine ⟨?_,?_,ht,hc⟩
    · rw [he.other hot]
      exact h.participant
    · rw [he.permissions]
      exact h.store.of_sameRights (ho.sameRights hot)

/-- What a token with a list of sources promises while its participant is there. -/
structure RestrictionHolds (allowed : List String) (key : ParticipantKey)
    (joined s : SessionState) : Prop where
  publishes : ∀source,s.permissions.publish.canPublishSource key source →
    toAsciiLowercase source∈allowed.map toAsciiLowercase
  tokens : ∀claims,(key,claims)∈s.refreshTokens.drop joined.refreshTokens.length →
    claims.video.canPublishSources≠[] ∧ AllowedBy allowed claims.video.canPublishSources

theorem sessionRestricted_joined {s : SessionState} {auth : AuthContext}
    {r : SignalJoinRequest} {now : ℤ} (ho : OpensSession s auth r now)
    (hre : r.reconnect=false) (hk : NamesKnownSource auth.claims.video.canPublishSources) :
    SessionRestricted auth.claims.video.canPublishSources auth.key
      (s.runJoinSocket auth r true now).refreshTokens.length
      (s.runJoinSocket auth r true now) := by
  obtain ⟨p,ps,hp,he⟩ := ho.joined hre
  have hr := restricted_self hk
  refine ⟨?_,?_,?_,le_rfl⟩
  · intro j hj
    rw [he.self] at hj
    exact some.inj hj ▸ snapshotRestricted_joined hp hr
  · rw [he.permissions]
    exact storeRestricted_grant ps hr
  · intro claims hmem
    rw [drop_length] at hmem
    cases hmem

theorem sessionRestricted_run {auth : AuthContext} {issued : ℕ} {s : SessionState}
    (h : SessionRestricted auth.claims.video.canPublishSources auth.key issued s)
    (hke : Keyed s.rooms) (hkn : NamesKnownSource auth.claims.video.canPublishSources)
    {es : List SessionEvent}
    (hk : AtEveryStep (fun ea e =>
      KeepsRestriction auth issued (s.run ea) e) es) :
    SessionRestricted auth.claims.video.canPublishSources auth.key issued (s.run es) := by
  induction es using reverseRecOn with
  | nil => exact h
  | append_singleton es e ih =>
    rw [atEveryStep_concat] at hk
    rw [run_concat]
    exact (ih hk.1).step (keyed_sessionRun hke es) hkn hk.2

def afterJoin (defaults : RoomDefaults) (autoCreate : Bool) (before : List SessionEvent)
    (auth : AuthContext) (request : SignalJoinRequest) (now : ℤ) : SessionState :=
  ((initial defaults autoCreate).run before).runJoinSocket auth request true now

/-- A restriction that names a known source never widens while the participant comes back only
with its token or one issued for it and the service does not change what it may publish. -/
theorem restriction_never_widens (defaults : RoomDefaults) (autoCreate : Bool)
    (before : List SessionEvent) (auth : AuthContext) (request : SignalJoinRequest) (now : ℤ)
    (hopens : OpensSession ((initial defaults autoCreate).run before) auth request now)
    (hreconnect : request.reconnect = false)
    (hknown : NamesKnownSource auth.claims.video.canPublishSources) (events : List SessionEvent)
    (hkeeps : AtEveryStep (fun earlier event => KeepsRestriction auth
      (afterJoin defaults autoCreate before auth request now).refreshTokens.length
      ((afterJoin defaults autoCreate before auth request now).run earlier) event) events) :
    RestrictionHolds auth.claims.video.canPublishSources auth.key
      (afterJoin defaults autoCreate before auth request now)
      ((afterJoin defaults autoCreate before auth request now).run events) := by
  have hk : Keyed (afterJoin defaults autoCreate before auth request now).rooms :=
    keyed_sessionStep (keyed_sessionRun (keyed_sessionInitial defaults autoCreate) before)
      (.join auth request true now)
  have hj := sessionRestricted_joined hopens hreconnect hknown
  have h := sessionRestricted_run hj hk hknown hkeeps
  exact ⟨fun _ => h.store.allowed_of_canPublishSource,fun claims hmem =>
    ⟨(h.tokens claims hmem).ne_nil,(h.tokens claims hmem).2⟩⟩

def metadataUpdate : ParticipantUpdate := ⟨"changed","",none,.empty⟩

/-- The camera alone, also after an update and a rejoin. -/
theorem camera_never_widens :
    RestrictionHolds ["Camera"] alice
      (afterJoin {} true [] (aliceToken ["Camera"]) {} 0)
      ((afterJoin {} true [] (aliceToken ["Camera"]) {} 0).run
        [.updateParticipant alice metadataUpdate,
          .join (aliceToken ["Camera"]) {} true 1]) := by
  refine restriction_never_widens {} true [] (aliceToken ["Camera"]) {} 0 (by decide +kernel) rfl
    ⟨"Camera",mem_singleton.mpr rfl,by decide +kernel⟩ _ ?_
  change AtEveryStep _ (([]++[_])++[_])
  rw [atEveryStep_concat,atEveryStep_concat]
  exact ⟨⟨atEveryStep_nil _,fun _ => trivial⟩,fun _ => .inl rfl⟩

/-- A list that names no known source is lost with the first update of the service: every source
may be published, and the token that is issued has no restriction. -/
theorem unknown_source_widens :
    let joined := afterJoin {} true [] (aliceToken ["screen"]) {} 0
    let updated := joined.step (.updateParticipant alice metadataUpdate)
    OpensSession (initial {} true) (aliceToken ["screen"]) {} 0 ∧
      KeepsRestriction (aliceToken ["screen"]) 0 joined
        (.updateParticipant alice metadataUpdate) ∧
      joined.permissions.publish.canPublishSource alice "camera" = false ∧
      updated.permissions.publish.canPublishSource alice "camera" = true ∧
      updated.refreshTokens.map (·.2.video.canPublishSources)=[[]] ∧
      ¬ RestrictionHolds ["screen"] alice joined updated := by
  have hp : ((afterJoin {} true [] (aliceToken ["screen"]) {} 0).step (.updateParticipant
      alice metadataUpdate)).permissions.publish.canPublishSource alice "camera" = true :=
        by decide +kernel
  refine ⟨by decide +kernel,fun _ => trivial,by decide +kernel,hp,by decide +kernel,?_⟩
  intro hh
  have ha := hh.publishes "camera" hp
  revert ha
  decide +kernel

end OxideSfu.Signaling
