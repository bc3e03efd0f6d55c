import OxideSfu.SubscriptionStores

/-!
# Tokens and permissions

What a participant may do stands in its token (`oxidesfu-auth/src/lib.rs`), in its snapshot in the
room store and in the stores that are asked (`stores/permissions.rs`). Token and store name sources
by texts, the snapshot numbers them, and an empty list allows every source.
-/

namespace OxideSfu.Signaling

open FiniteMaps Rooms RoomStore SubscribePermissionStore Option

def sourceNumber (source : String) : Option ℤ :=
  match toAsciiLowercase source with
  | "camera" => some 1 | "microphone" => some 2 | "screen_share" => some 3
  | "screen_share_audio" => some 4 | _ => none

/-- The name of a source in lower case, as tokens are issued and updates are applied with it. -/
def sourceName (number : ℤ) : String :=
  if number=1 then "camera"
  else if number=2 then "microphone"
  else if number=3 then "screen_share"
  else if number=4 then "screen_share_audio"
  else "unknown"

variable {c : String} {n : ℤ}

theorem sourceName_of_sourceNumber (h : sourceNumber c=some n) :
    sourceName n=toAsciiLowercase c := by
  unfold sourceNumber at h
  split at h
  · next hn => rw [hn,← some.inj h]; rfl
  · next hn => rw [hn,← some.inj h]; rfl
  · next hn => rw [hn,← some.inj h]; rfl
  · next hn => rw [hn,← some.inj h]; rfl
  · cases h

/-- The names of numbers that a join has read are recognised again, and are in lower case. -/
theorem sourceNumber_sourceName (h : sourceNumber c=some n) :
    sourceNumber (sourceName n)=some n ∧ toAsciiLowercase (sourceName n)=sourceName n := by
  unfold sourceNumber at h
  split at h
  · rw [← some.inj h]
    exact ⟨by decide +kernel,by decide +kernel⟩
  · rw [← some.inj h]
    exact ⟨by decide +kernel,by decide +kernel⟩
  · rw [← some.inj h]
    exact ⟨by decide +kernel,by decide +kernel⟩
  · rw [← some.inj h]
    exact ⟨by decide +kernel,by decide +kernel⟩
  · cases h

structure VideoGrants where
  roomJoin : Bool := false
  room : String := ""
  destinationRoom : String := ""
  canPublish : Bool := true
  canSubscribe : Bool := true
  canPublishData : Bool := true
  canPublishSources : List String := []
  canUpdateOwnMetadata : Bool := false
  hidden : Bool := false

/-- The claims of a token. The kind is the protocol's number, and the room configuration is the
request that a first join makes of it. -/
structure Claims where
  sub : String := ""
  identity : String := ""
  name : String := ""
  kind : ℕ := 0
  kindDetails : List ℕ := []
  video : VideoGrants
  metadata : String := ""
  attributes : FiniteMap String String := .empty
  roomConfig : Option CreateRoomRequest := none

structure AuthContext where
  apiKey : String
  claims : Claims

namespace AuthContext

def participantIdentity (auth : AuthContext) : String :=
  if auth.claims.sub ≠ "" then auth.claims.sub else auth.claims.identity

def key (auth : AuthContext) : ParticipantKey :=
  ⟨auth.claims.video.room,auth.participantIdentity⟩

def ensureJoinPermission (auth : AuthContext) : Bool :=
  auth.claims.video.roomJoin && auth.claims.video.room ≠ "" && auth.participantIdentity ≠ ""

end AuthContext

def aliceToken (sources : List String) : AuthContext where
  apiKey := "key"
  claims := {
    sub := "alice"
    video := {roomJoin := true,room := "room",canPublishSources := sources}}

def alice : ParticipantKey := ⟨"room","alice"⟩

/-- The permission that a local join stores for a token; unknown sources are left out. -/
def VideoGrants.permission (video : VideoGrants) : ParticipantPermission where
  canSubscribe := video.canSubscribe
  canPublish := video.canPublish
  canPublishData := video.canPublishData
  hidden := video.hidden
  canUpdateMetadata := video.canUpdateOwnMetadata
  canSubscribeMetrics := false
  canManageAgentSession := false
  canPublishSources := video.canPublishSources.filterMap sourceNumber

def noPermission : ParticipantPermission where
  canSubscribe := false
  canPublish := false
  canPublishData := false
  hidden := false
  canUpdateMetadata := false
  canSubscribeMetrics := false
  canManageAgentSession := false

def refreshClaims (auth : AuthContext) (room : String) (participant : ParticipantInfo) : Claims :=
  let permission := participant.permission.getD noPermission
  { sub := participant.identity
    identity := participant.identity,name := participant.name,kind := auth.claims.kind
    kindDetails := auth.claims.kindDetails
    video := {
      roomJoin := true
      room
      destinationRoom := auth.claims.video.destinationRoom,canPublish := permission.canPublish
      canSubscribe := permission.canSubscribe,canPublishData := permission.canPublishData
      canPublishSources := permission.canPublishSources.map sourceName
      canUpdateOwnMetadata := permission.canUpdateMetadata,hidden := permission.hidden}
    metadata := participant.metadata,attributes := participant.attributes
    roomConfig := auth.claims.roomConfig}

/-- What the signaling layer is told about a participant. -/
structure Rights where
  (publishMedia publishData : Bool)
  publishSources : List String
  subscribe : Bool

def VideoGrants.rights (video : VideoGrants) : Rights :=
  ⟨video.canPublish,video.canPublishData,video.canPublishSources,video.canSubscribe⟩

def permissionRights (permission : ParticipantPermission) : Rights :=
  ⟨permission.canPublish,permission.canPublishData,permission.canPublishSources.map sourceName,
    permission.canSubscribe⟩

structure PublishPermissionStore where
  (mediaAllowed dataAllowed : FiniteMap ParticipantKey Bool)
  sourcesAllowed : FiniteMap ParticipantKey (Finset String)

namespace PublishPermissionStore

def empty : PublishPermissionStore := ⟨.empty,.empty,.empty⟩

def setCanPublishMedia (s : PublishPermissionStore) (participant : ParticipantKey)
    (allowed : Bool) : PublishPermissionStore :=
  {s with mediaAllowed := s.mediaAllowed.insert participant allowed}

def setCanPublishData (s : PublishPermissionStore) (participant : ParticipantKey)
    (allowed : Bool) : PublishPermissionStore :=
  {s with dataAllowed := s.dataAllowed.insert participant allowed}

def setCanPublishSources (s : PublishPermissionStore) (participant : ParticipantKey)
    (sources : List String) : PublishPermissionStore :=
  if sources=[] then {s with sourcesAllowed := s.sourcesAllowed.erase participant}
  else
    let normalized := (sources.map toAsciiLowercase).toFinset
    {s with sourcesAllowed := s.sourcesAllowed.insert participant normalized}

def canPublishMedia (s : PublishPermissionStore) (participant : ParticipantKey) : Bool :=
  (s.mediaAllowed.lookup participant).getD false

def canPublishData (s : PublishPermissionStore) (participant : ParticipantKey) : Bool :=
  (s.dataAllowed.lookup participant).getD false

def canPublishSource (s : PublishPermissionStore) (participant : ParticipantKey)
    (source : String) : Bool :=
  if !s.canPublishMedia participant then false
  else
    match s.sourcesAllowed.lookup participant with
    | none => true
    | some allowed => if allowed=∅ then true else toAsciiLowercase source∈allowed

def removeParticipant (s : PublishPermissionStore) (participant : ParticipantKey) :
    PublishPermissionStore :=
  ⟨s.mediaAllowed.erase participant,s.dataAllowed.erase participant,
    s.sourcesAllowed.erase participant⟩

end PublishPermissionStore

namespace SubscribePermissionStore

def empty : SubscribePermissionStore := ⟨.empty⟩

def removeParticipant (s : SubscribePermissionStore) (participant : ParticipantKey) :
    SubscribePermissionStore :=
  ⟨s.canSubscribeData.erase participant⟩

end SubscribePermissionStore

structure PermissionStores where
  publish : PublishPermissionStore
  subscribe : SubscribePermissionStore

namespace PermissionStores

def empty : PermissionStores := ⟨.empty,.empty⟩

def grant (s : PermissionStores) (participant : ParticipantKey) (rights : Rights) :
    PermissionStores where
  publish := ((s.publish.setCanPublishMedia participant rights.publishMedia).setCanPublishData
    participant rights.publishData).setCanPublishSources participant rights.publishSources
  subscribe := s.subscribe.setCanSubscribe participant rights.subscribe

def removeParticipant (s : PermissionStores) (participant : ParticipantKey) :
    PermissionStores :=
  ⟨s.publish.removeParticipant participant,s.subscribe.removeParticipant participant⟩

variable (s : PermissionStores) (participant other : ParticipantKey) (rights : Rights)

theorem canPublishMedia_grant :
    (s.grant participant rights).publish.canPublishMedia other =
      if other=participant then rights.publishMedia else s.publish.canPublishMedia other := by
  simp only [grant,PublishPermissionStore.canPublishMedia,
    PublishPermissionStore.setCanPublishSources,PublishPermissionStore.setCanPublishData,
    PublishPermissionStore.setCanPublishMedia]
  split_ifs <;> simp [*]

theorem canPublishData_grant :
    (s.grant participant rights).publish.canPublishData other =
      if other=participant then rights.publishData else s.publish.canPublishData other := by
  simp only [grant,PublishPermissionStore.canPublishData,
    PublishPermissionStore.setCanPublishSources,PublishPermissionStore.setCanPublishData,
    PublishPermissionStore.setCanPublishMedia]
  split_ifs <;> simp [*]

theorem canSubscribe_grant :
    (s.grant participant rights).subscribe.canSubscribe other =
      if other=participant then rights.subscribe else s.subscribe.canSubscribe other := by
  simp only [grant,canSubscribe,setCanSubscribe,FiniteMap.lookup_insert]
  split_ifs <;> rfl

theorem sourcesAllowed_grant :
    (s.grant participant rights).publish.sourcesAllowed.lookup other =
      if other=participant then
        if rights.publishSources=[] then none
        else some (rights.publishSources.map toAsciiLowercase).toFinset
      else s.publish.sourcesAllowed.lookup other := by
  simp only [grant,PublishPermissionStore.setCanPublishSources,
    PublishPermissionStore.setCanPublishData,PublishPermissionStore.setCanPublishMedia]
  split_ifs <;> simp [*]

theorem canPublishSource_grant (c : String) :
    (s.grant participant rights).publish.canPublishSource participant c ↔
      rights.publishMedia ∧ (rights.publishSources=[] ∨
        toAsciiLowercase c∈rights.publishSources.map toAsciiLowercase) := by
  have hm := s.canPublishMedia_grant participant participant rights
  have hs := s.sourcesAllowed_grant participant participant rights
  rw [PublishPermissionStore.canPublishSource,hm,hs]
  cases rights.publishMedia with
  | false => simp
  | true =>
    by_cases he : rights.publishSources=[]
    · simp [he]
    · simp [he]

structure SameRights (participant : ParticipantKey) (s t : PermissionStores) : Prop where
  media : t.publish.canPublishMedia participant=s.publish.canPublishMedia participant
  data : t.publish.canPublishData participant=s.publish.canPublishData participant
  sources : t.publish.sourcesAllowed.lookup participant =
    s.publish.sourcesAllowed.lookup participant
  subscribe : t.subscribe.canSubscribe participant=s.subscribe.canSubscribe participant

theorem SameRights.refl : SameRights participant s s := ⟨rfl,rfl,rfl,rfl⟩

theorem SameRights.trans {s t u : PermissionStores} {p : ParticipantKey}
    (h : SameRights p s t) (h' : SameRights p t u) :
    SameRights p s u :=
  ⟨h'.media.trans h.media,h'.data.trans h.data,h'.sources.trans h.sources,
    h'.subscribe.trans h.subscribe⟩

variable {participant other}

theorem sameRights_grant (ho : other≠participant) :
    SameRights other s (s.grant participant rights) where
  media := by rw [canPublishMedia_grant,if_neg ho]
  data := by rw [canPublishData_grant,if_neg ho]
  sources := by rw [sourcesAllowed_grant,if_neg ho]
  subscribe := by rw [canSubscribe_grant,if_neg ho]

theorem sameRights_removeParticipant (ho : other≠participant) :
    SameRights other s (s.removeParticipant participant) where
  media := by
    simp [removeParticipant,PublishPermissionStore.removeParticipant,
      PublishPermissionStore.canPublishMedia,ho]
  data := by
    simp [removeParticipant,PublishPermissionStore.removeParticipant,
      PublishPermissionStore.canPublishData,ho]
  sources := by
    simp [removeParticipant,PublishPermissionStore.removeParticipant,ho]
  subscribe := by
    simp [removeParticipant,SubscribePermissionStore.removeParticipant,
      SubscribePermissionStore.canSubscribe,ho]

end PermissionStores

/-- The name of a source in the token of an agent (`oxidesfu-agent/src/lib.rs`): the name of the
enum variant in lower case, not the one of the protocol. -/
def agentSourceName (number : ℤ) : Option String :=
  if number=0 then some "unknown"
  else if number=1 then some "camera"
  else if number=2 then some "microphone"
  else if number=3 then some "screenshare"
  else if number=4 then some "screenshareaudio"
  else none

def permissionsToVideoGrants (permissions : ParticipantPermission) (roomName : String) :
    VideoGrants where
  roomJoin := true
  room := roomName
  canPublish := permissions.canPublish
  canSubscribe := permissions.canSubscribe
  canPublishData := permissions.canPublishData
  canPublishSources := permissions.canPublishSources.filterMap agentSourceName
  canUpdateOwnMetadata := permissions.canUpdateMetadata
  hidden := permissions.hidden

/-- What `add_track_response` asks before it publishes a track. -/
def PermissionStores.mayAddTrack (s : PermissionStores) (participant : ParticipantKey)
    (source : ℤ) : Bool :=
  s.publish.canPublishMedia participant && s.publish.canPublishSource participant
    (sourceName source)

theorem agentSourceName_matches {x y : ℤ} {name : String} (h : agentSourceName y=some name) :
    toAsciiLowercase (sourceName x)=toAsciiLowercase name ↔
      y=x ∧ x≠3 ∧ x≠4 ∨ y=0 ∧ agentSourceName x=none := by
  have hs : toAsciiLowercase (sourceName x)=sourceName x := by
    unfold sourceName
    split_ifs <;> decide +kernel
  have hn : toAsciiLowercase name=name := by
    unfold agentSourceName at h
    split_ifs at h <;> cases h <;> decide +kernel
  rw [hs]
  simp only [agentSourceName,sourceName] at h ⊢
  split_ifs at h <;> grind

/-- An agent may publish what it was registered for, unless its sources are all unknown to the
server, or the source is a screen share, or one that is unknown where `UNKNOWN` is granted. -/
theorem agent_sources_iff (s : PermissionStores) (participant : ParticipantKey) (room : String)
    (permissions : ParticipantPermission) (h : permissions.canPublish) (x : ℤ) :
    let sources := permissions.canPublishSources
    ((s.grant participant
      (permissionsToVideoGrants permissions room).rights).mayAddTrack participant x ↔
      x∈sources ∧ (agentSourceName x).isSome ∨ sources=[]) ↔
    sources=[] ∨ (∃y∈sources,(agentSourceName y).isSome) ∧ (x=3 ∨ x=4 → x∉sources) ∧
      (agentSourceName x=none → 0∉sources) := by
  intro sources
  have hg := s.canPublishSource_grant participant (permissionsToVideoGrants permissions room).rights
    (sourceName x)
  have hm := s.canPublishMedia_grant participant participant
    (permissionsToVideoGrants permissions room).rights
  have he : sources.filterMap agentSourceName=[] ↔ ¬∃y∈sources,(agentSourceName y).isSome := by
    simp [List.filterMap_eq_nil_iff]
  have hn : toAsciiLowercase
    (sourceName x)∈(sources.filterMap agentSourceName).map toAsciiLowercase ↔
      x∈sources ∧ x≠3 ∧ x≠4 ∧ (agentSourceName x).isSome ∨ 0∈sources ∧ agentSourceName x=none := by
    simp only [List.mem_map,List.mem_filterMap]
    constructor
    · rintro ⟨name,⟨y,hy,hname⟩,heq⟩
      obtain ⟨rfl,h3,h4⟩ | ⟨rfl,hu⟩ := (agentSourceName_matches hname).mp heq.symm
      · exact .inl ⟨hy,h3,h4,by rw [hname]; rfl⟩
      · exact .inr ⟨hy,hu⟩
    · rintro (⟨hx,h3,h4,hk⟩ | ⟨hz,hu⟩)
      · obtain ⟨name,hname⟩ := isSome_iff_exists.mp hk
        exact ⟨name,⟨x,hx,hname⟩,((agentSourceName_matches hname).mpr (.inl ⟨rfl,h3,h4⟩)).symm⟩
      · exact ⟨_,⟨0,hz,rfl⟩,((agentSourceName_matches rfl).mpr (.inr ⟨rfl,hu⟩)).symm⟩
  have hr : (permissionsToVideoGrants permissions room).rights.publishSources=
      sources.filterMap agentSourceName := rfl
  have hc : (permissionsToVideoGrants permissions room).rights.publishMedia := h
  rw [PermissionStores.mayAddTrack,Bool.and_eq_true,hm,hg,hr,hc]
  have hf : x=3 ∨ x=4 → (agentSourceName x).isSome := by
    rintro (rfl | rfl) <;> rfl
  by_cases hs : sources=[]
  · simp [hs]
  · grind

def agentPermission (sources : List ℤ) : ParticipantPermission :=
  {noPermission with canPublish := true,canPublishSources := sources}

def agentStores (sources : List ℤ) : PermissionStores :=
  PermissionStores.empty.grant ⟨"room","agent"⟩
    (permissionsToVideoGrants (agentPermission sources) "room").rights

theorem camera_agent : (agentStores [1]).mayAddTrack ⟨"room","agent"⟩ 1 :=
  ((agent_sources_iff .empty ⟨"room","agent"⟩ "room" (agentPermission [1]) rfl 1).mpr
    (.inr ⟨⟨1,by decide,rfl⟩,by decide,by decide⟩)).mpr (.inl ⟨by decide,rfl⟩)

/-- A screen share is refused, and an unknown source grants every source. -/
theorem screen_share_refused : (agentStores [3]).mayAddTrack ⟨"room","agent"⟩ 3=false ∧
    (agentStores [7]).mayAddTrack ⟨"room","agent"⟩ 1 := by
  decide +kernel

end OxideSfu.Signaling
