import OxideSfu.JoinInterleaving
import OxideSfu.ReconnectGrace

/-!
# A session and its successor

A join under an identity that is in the room disconnects the participant that is there, enters the
room store, connects its socket, sets its permissions and opens its transports (`run_join_socket` in
`router.rs`). The closing path of the old session cleans up if its connection is still the
registered one (`cleanup_if_active_session`). Each call of a store is one section.
-/

namespace OxideSfu.Signaling

open Rooms RoomStore SessionState CriticalSections Option

inductive Grant | publishMedia | publishData | publishSources | subscribe deriving DecidableEq

namespace Grant

def next : Grant→Option Grant
  | .publishMedia => some .publishData | .publishData => some .publishSources
  | .publishSources => some .subscribe | .subscribe => none

def set (permissions : PermissionStores) (key : ParticipantKey) (rights : Rights) :
    Grant → PermissionStores
  | .publishMedia =>
    {permissions with publish := permissions.publish.setCanPublishMedia key rights.publishMedia}
  | .publishData =>
    {permissions with publish := permissions.publish.setCanPublishData key rights.publishData}
  | .publishSources =>
    {permissions with publish := permissions.publish.setCanPublishSources key rights.publishSources}
  | .subscribe =>
    {permissions with subscribe := permissions.subscribe.setCanSubscribe key rights.subscribe}

def isSet (permissions : PermissionStores) (key : ParticipantKey) : Grant→Bool
  | .publishMedia => (permissions.publish.mediaAllowed.lookup key).isSome
  | .publishData => (permissions.publish.dataAllowed.lookup key).isSome
  | .publishSources => (permissions.publish.sourcesAllowed.lookup key).isSome
  | .subscribe => (permissions.subscribe.canSubscribeData.lookup key).isSome

end Grant

inductive Transport | peerConnection | dataChannel deriving DecidableEq

inductive Creation | participant
  | grant (grant : Grant)
  | transport (transport : Transport)
  deriving DecidableEq

/-- The data channels are a store of their own; `created` records what replacing joins have
created. -/
structure ReplacementState where
  sessions : SessionState
  dataChannels : Finset ParticipantKey
  created : Finset Creation

def Present (s : ReplacementState) (key : ParticipantKey) : Creation→Prop
  | .participant => (s.sessions.getParticipant key).isSome
  | .grant grant => grant.isSet s.sessions.permissions key
  | .transport .peerConnection => key∈s.sessions.peerConnections
  | .transport .dataChannel => key∈s.dataChannels

instance (s : ReplacementState) (key : ParticipantKey) :
    (creation : Creation)→Decidable (Present s key creation)
  | .participant => inferInstanceAs (Decidable (_=_))
  | .grant _ => inferInstanceAs (Decidable (_=_))
  | .transport .peerConnection => inferInstanceAs (Decidable (_∈_))
  | .transport .dataChannel => inferInstanceAs (Decidable (_∈_))

inductive CleanupStage | dataChannels | publishPermissions | subscribePermissions | peerConnections
  | authContext | room
  | broadcast (participant : ParticipantInfo)

def cleanupSection (key : ParticipantKey) (now : ℤ) (s : ReplacementState) :
    CleanupStage → ReplacementState × Option CleanupStage
  | .dataChannels =>
    ({s with dataChannels := s.dataChannels.erase key},some .publishPermissions)
  | .publishPermissions =>
    ({s with
      sessions.permissions.publish := s.sessions.permissions.publish.removeParticipant key},
      some .subscribePermissions)
  | .subscribePermissions =>
    ({s with
      sessions.permissions.subscribe := s.sessions.permissions.subscribe.removeParticipant key},
      some .peerConnections)
  | .peerConnections =>
    ({s with sessions.peerConnections := s.sessions.peerConnections.erase key},some .authContext)
  | .authContext =>
    ({s with
      sessions.participantAuthContexts := s.sessions.participantAuthContexts.erase key},
      some .room)
  | .room =>
    match s.sessions.rooms.removeParticipantWithReason key.room key.identity clientInitiated
      now with
    | (.ok participant,store) =>
      ({s with sessions := s.sessions.withRooms store},some (.broadcast participant))
    | (.error _,store) => ({s with sessions := s.sessions.withRooms store},none)
  | .broadcast participant =>
    ({s with sessions := s.sessions.broadcastUpdate key.room participant},none)

/-- A join that is past the checks of its token and is not a reconnect. `delivered` tells whether
its response can be sent, and `transports` are those that its session opens. -/
structure JoinPlan where
  request : SignalJoinRequest
  delivered : Bool
  transports : List Transport
  now : ℤ

/-- Where a join stands. It looks twice for somebody with its identity, first itself and then in
`disconnect_participant_from_service`. -/
inductive JoinPoint | checking | disconnecting
  | vacating (stage : CleanupStage)
  | admitting | storing
  | answering (joined : Joined)
  | reading
  | registering (participant : ParticipantInfo)
  | connecting (channel : ℕ)
  | remembering
  | granting (grant : Grant)
  | opening (transports : List Transport)

def openTransport (s : ReplacementState) (key : ParticipantKey) : Transport → ReplacementState
  | .peerConnection =>
    {s with
      sessions.peerConnections := insert key s.sessions.peerConnections
      created := insert (.transport .peerConnection) s.created}
  | .dataChannel =>
    {s with
      dataChannels := insert key s.dataChannels,
        created := insert (.transport .dataChannel) s.created}

def joinSection (auth : AuthContext) (plan : JoinPlan) (s : ReplacementState) :
    JoinPoint → ReplacementState × Option JoinPoint
  | .checking =>
    (s,some (if (s.sessions.getParticipant auth.key).isSome then .disconnecting else .admitting))
  | .disconnecting =>
    (s,some (if (s.sessions.getParticipant auth.key).isSome then .vacating .dataChannels
      else .admitting))
  | .vacating stage =>
    match cleanupSection auth.key plan.now s stage with
    | (s,some next) => (s,some (.vacating next)) | (s,none) => (s,some .admitting)
  | .admitting =>
    (s,if !s.sessions.roomAutoCreateOnJoin ∧ auth.key.room∉s.sessions.rooms.rooms.keys then none
      else some .storing)
  | .storing =>
    match s.sessions.rooms.joinParticipantWithPermission (joinCall auth plan.request) plan.now with
    | (.error _,store) => ({s with sessions := s.sessions.withRooms store},none)
    | (.ok joined,store) =>
      ({s with sessions := s.sessions.withRooms store,created := insert .participant s.created},
        some (.answering joined))
  | .answering joined =>
    ({s with sessions := s.sessions.answerLocalJoin auth joined},
      if plan.delivered then some .reading else none)
  | .reading => (s,(s.sessions.getParticipant auth.key).map .registering)
  | .registering participant =>
    ({s with
      sessions.updates := s.sessions.updates.registerAndBroadcastJoin auth.key.room participant
        (s.sessions.nextReceiver auth.key)
      sessions.nextChannel := s.sessions.nextChannel+1},
      some (.connecting s.sessions.nextChannel))
  | .connecting channel =>
    ({s with
      sessions.signalConnections := s.sessions.signalConnections.insert auth.key channel
      sessions.sockets := s.sessions.sockets.insert channel auth.key},some .remembering)
  | .remembering =>
    ({s with
      sessions.participantAuthContexts := s.sessions.participantAuthContexts.insert auth.key auth},
      some (.granting .publishMedia))
  | .granting grant =>
    ({s with
      sessions.permissions := grant.set s.sessions.permissions auth.key auth.claims.video.rights
      created := insert (.grant grant) s.created},
      some (match grant.next with
        | some next => .granting next | none => .opening plan.transports))
  | .opening [] => (s,none)
  | .opening (transport::rest) => (openTransport s auth.key transport,some (.opening rest))

/-- A closing path; `expiry` is the time at which its timer removes the participant. -/
structure ClosePlan where
  explicitLeave : Bool
  (now expiry : ℤ)

/-- Where a closing path stands after `remove_if_same`. From `waiting` on it is the task of the
timer. -/
inductive ClosingPoint | dropping | deciding | departing
  | listing (sid : Option String)
  | unpublishing (sid : Option String) (tracks : List TrackInfo)
  | reporting (sid : Option String) (participant : ParticipantInfo) (tracks : List TrackInfo)
  | waiting (sid : Option String)
  | comparing (sid : String)
  | cleaning (now : ℤ) (stage : CleanupStage)

def closingSection (key : ParticipantKey) (plan : ClosePlan) (s : ReplacementState) :
    ClosingPoint → ReplacementState × Option ClosingPoint
  | .dropping =>
    ({s with dataChannels := s.dataChannels.erase key},
      some (if plan.explicitLeave then .cleaning plan.now .dataChannels else .deciding))
  | .deciding =>
    (s,some (if key∈s.sessions.peerConnections then .departing
      else .cleaning plan.now .dataChannels))
  | .departing => (s,some (.listing ((sidOf s.sessions key).filter (· ≠ ""))))
  | .listing sid =>
    (s,some (.unpublishing sid (((s.sessions.getParticipant key).map (·.tracks)).getD [])))
  | .unpublishing sid [] => (s,some (.waiting sid))
  | .unpublishing sid (track::tracks) =>
    match s.sessions.rooms.removeParticipantTrack key.room key.identity track.sid with
    | (.ok participant,store) =>
      ({s with sessions := s.sessions.withRooms store},some (.reporting sid participant tracks))
    | (.error _,store) =>
      ({s with sessions := s.sessions.withRooms store},some (.unpublishing sid tracks))
  | .reporting sid participant tracks =>
    ({s with sessions := s.sessions.broadcastUpdate key.room participant},
      some (.unpublishing sid tracks))
  | .waiting sid =>
    (s,if (s.sessions.signalConnections.lookup key).isSome then none else sid.map .comparing)
  | .comparing sid =>
    (s,if sidOf s.sessions key=some sid then some (.cleaning plan.expiry .dataChannels)
      else none)
  | .cleaning now stage =>
    let (s,next) := cleanupSection key now s stage
    (s,next.map (.cleaning now))

inductive ReplacementCall
  | join (plan : JoinPlan)
  | close (plan : ClosePlan)

inductive ReplacementPoint
  | joining (plan : JoinPlan) (point : JoinPoint)
  | closing (plan : ClosePlan) (point : ClosingPoint)

/-- Joins with a token and closing paths of the session with the channel `replaced`. -/
def replacementMachine (auth : AuthContext) (replaced : ℕ) :
    Machine ReplacementState ReplacementCall ReplacementPoint where
  enter
    | .join plan, s =>
      ({s with sessions := s.sessions.applyRoomConfigOnFirstRoomCreation auth plan.now},
        some (.joining plan .checking))
    | .close plan, s =>
      -- `remove_if_same`
      if s.sessions.signalConnections.lookup auth.key=some replaced then
        ({s with sessions.signalConnections := s.sessions.signalConnections.erase auth.key},
          some (.closing plan .dropping))
      else (s,none)
  resume
    | .joining plan point, s =>
      let (s,next) := joinSection auth plan s point
      (s,next.map (.joining plan))
    | .closing plan point, s =>
      let (s,next) := closingSection auth.key plan s point
      (s,next.map (.closing plan))

variable {auth : AuthContext} {replaced : ℕ} {s t : ReplacementState} {key : ParticipantKey}

theorem completes_cleanup {m : Machine ReplacementState ReplacementCall ReplacementPoint} {now : ℤ}
    {stands : CleanupStage → ReplacementPoint}
    {after : Option ReplacementPoint}
    (hr : ∀stage s,m.resume (stands stage) s =
      ((cleanupSection key now s stage).1,((cleanupSection key now s stage).2.map stands).or after))
    (h : m.Completes after ⟨s.sessions.cleanupParticipantRuntimeState key now,
      s.dataChannels.erase key,s.created⟩ t) :
    m.Completes (some (stands .dataChannels)) s t := by
  -- Up to the room store every section leads to the next one.
  iterate 5
    refine .resumed ?_
    rw [hr]
    dsimp only [cleanupSection,map_some,some_or]
  refine .resumed ?_
  rw [hr]
  rw [cleanupParticipantRuntimeState] at h
  dsimp only [cleanupSection] at h ⊢
  cases hre : s.sessions.rooms.removeParticipantWithReason key.room key.identity clientInitiated
    now with
  | mk r st =>
    rw [hre] at h
    cases r with
    | error e => exact h
    | ok p =>
      refine .resumed ?_
      rw [hr]
      exact h

theorem resume_cleaning (plan : ClosePlan) (now : ℤ) (stage : CleanupStage) (s : ReplacementState) :
    (replacementMachine auth replaced).resume (.closing plan (.cleaning now stage)) s =
      ((cleanupSection auth.key now s stage).1,
        ((cleanupSection auth.key now s stage).2.map
          (fun stage => .closing plan (.cleaning now stage))).or none) := by
  simp [replacementMachine,closingSection,map_map,Function.comp_def]

theorem resume_vacating (plan : JoinPlan) (stage : CleanupStage) (s : ReplacementState) :
    (replacementMachine auth replaced).resume (.joining plan (.vacating stage)) s =
      ((cleanupSection auth.key plan.now s stage).1,
        ((cleanupSection auth.key plan.now s stage).2.map
          (fun stage => .joining plan (.vacating stage))).or
            (some (.joining plan .admitting))) := by
  simp only [replacementMachine,joinSection]
  split
  · next heq => rw [heq]; rfl
  · next heq => rw [heq]; rfl

theorem enter_close (ha : s.sessions.signalConnections.lookup auth.key=some replaced)
    (plan : ClosePlan) :
    (replacementMachine auth replaced).enter (.close plan) s =
      ({s with sessions.signalConnections := s.sessions.signalConnections.erase auth.key},
        some (.closing plan .dropping)) :=
  if_pos ha

theorem completes_unpublishing {plan : ClosePlan} {sid : Option String} {ks : List TrackInfo}
    (h : (replacementMachine auth replaced).Completes (some (.closing plan (.waiting sid)))
      {s with sessions := ks.foldl (unpublishTrack auth.key) s.sessions} t) :
    (replacementMachine auth replaced).Completes
      (some (.closing plan (.unpublishing sid ks))) s t := by
  induction ks generalizing s with
  | nil => exact .resumed h
  | cons k ks ih =>
    rw [List.foldl_cons,unpublishTrack] at h
    refine .resumed ?_
    simp only [replacementMachine,closingSection]
    cases hr : s.sessions.rooms.removeParticipantTrack auth.key.room auth.key.identity k.sid with
    | mk r st =>
      rw [hr] at h
      cases r with
      | error e => exact ih h
      | ok p => exact .resumed (ih h)

theorem graceTimers_unpublishTracks (s : SessionState) (key : ParticipantKey) :
    (s.unpublishParticipantTracksForReconnectGrace key).graceTimers=s.graceTimers := by
  refine List.foldlRecOn (motive := fun t : SessionState => t.graceTimers=s.graceTimers) _ _ rfl ?_
  intro t ht k _
  rw [unpublishTrack]
  split <;> exact ht

theorem completes_waiting (auth : AuthContext) (replaced : ℕ) (plan : ClosePlan)
    (sid : Option String) (s : ReplacementState) :
    ∃t,(replacementMachine auth replaced).Completes (some (.closing plan (.waiting sid))) s t ∧
      t.sessions=match sid with
        | none => s.sessions
        | some sid => graceTimerFires s.sessions auth.key sid plan.expiry := by
  cases sid with
  | none =>
    refine ⟨s,.resumed ?_,rfl⟩
    simp only [replacementMachine,closingSection,map_none,ite_self]
    exact .returned
  | some sid =>
    dsimp only
    rw [graceTimerFires]
    split_ifs with hc hcu
    · refine ⟨s,.resumed ?_,rfl⟩
      simp only [replacementMachine,closingSection,if_pos hc]
      exact .returned
    · refine ⟨⟨s.sessions.cleanupParticipantRuntimeState auth.key plan.expiry,
        s.dataChannels.erase auth.key,s.created⟩,.resumed ?_,rfl⟩
      simp only [replacementMachine,closingSection,if_neg hc]
      refine .resumed ?_
      simp only [if_pos hcu]
      exact completes_cleanup (resume_cleaning plan plan.expiry) .returned
    · refine ⟨s,.resumed ?_,rfl⟩
      simp only [replacementMachine,closingSection,if_neg hc]
      refine .resumed ?_
      simp only [if_neg hcu]
      exact .returned

/-- The participant is kept without its tracks and its connection. -/
theorem cleanupIfActiveSession_of_transports {s : SessionState}
    (ha : s.signalConnections.lookup key=some replaced) (htr : key∈s.peerConnections) (now : ℤ) :
    ({s.cleanupIfActiveSession key replaced false now with graceTimers :=
      s.graceTimers} : SessionState) =
      ({s with signalConnections := s.signalConnections.erase key} :
        SessionState).unpublishParticipantTracksForReconnectGrace key := by
  have ht := graceTimers_unpublishTracks
    {s with signalConnections := s.signalConnections.erase key} key
  rw [cleanupIfActiveSession,if_neg (not_not.mpr ha),if_neg (by simpa using htr)]
  generalize ({s with signalConnections := s.signalConnections.erase key} :
    SessionState).unpublishParticipantTracksForReconnectGrace key=kept at ht ⊢
  dsimp only at ht ⊢
  rw [← ht]
  split
  · rfl
  · split_ifs <;> rfl

/-- A socket that is lost, with nobody until its timer is over. The timer is the thread itself and
not an entry of `graceTimers`. -/
theorem lostSocket_alone (s : ReplacementState)
    (ha : s.sessions.signalConnections.lookup auth.key=some replaced)
    (ht : auth.key∈s.sessions.peerConnections) (now expiry : ℤ) (thread : ℕ) :
    let kept : SessionState :=
      {s.sessions.cleanupIfActiveSession auth.key replaced false now with
        graceTimers := s.sessions.graceTimers}
    ∃sections t,(replacementMachine auth replaced).run (.idle s)
        (.enter thread (.close ⟨false,now,expiry⟩) :: List.replicate sections (.resume thread)) =
          .idle t ∧
      t.sessions =
        match departingParticipantSid s.sessions auth.key replaced with
        | none => kept
        | some sid => graceTimerFires kept auth.key sid expiry := by
  intro kept
  have hsid : departingParticipantSid s.sessions auth.key replaced =
      (sidOf s.sessions auth.key).filter (· ≠ "") := by
    rw [departingParticipantSid,if_neg (not_not.mpr ha),if_neg (not_not.mpr ht)]
  have hk := cleanupIfActiveSession_of_transports ha ht now
  obtain ⟨t,hw,hs⟩ := completes_waiting auth replaced ⟨false,now,expiry⟩
    (departingParticipantSid s.sessions auth.key replaced)
    ⟨kept,s.dataChannels.erase auth.key,s.created⟩
  suffices hc : (replacementMachine auth replaced).Completes
      (some (.closing ⟨false,now,expiry⟩ .dropping))
      {s with sessions.signalConnections := s.sessions.signalConnections.erase auth.key} t by
    obtain ⟨sections,hrun⟩ := @Machine.Completes.run_enter _ _ _ (replacementMachine auth replaced)
      (.close ⟨false,now,expiry⟩) s t (by rw [enter_close ha]; exact hc) thread
    exact ⟨sections,t,hrun,hs⟩
  refine .resumed ?_
  simp only [replacementMachine,closingSection,Bool.false_eq_true,if_false,map_some]
  refine .resumed ?_
  simp only [if_pos ht]
  refine .resumed (.resumed (completes_unpublishing ?_))
  rw [hsid] at hw
  rw [show kept=_ from hk] at hw
  exact hw

variable (auth : AuthContext)

/-- From its registration on a join opens a session and sets its permissions. -/
theorem completes_registering (replaced : ℕ) (r : SignalJoinRequest)
    (d : Bool) (now : ℤ) (p : ParticipantInfo) (s : ReplacementState) :
    ∃t,(replacementMachine auth replaced).Completes
      (some (.joining ⟨r,d,[],now⟩ (.registering p))) s t ∧
      t.sessions=s.sessions.registerJoin auth p := by
  let granted := [Grant.publishMedia,.publishData,.publishSources,.subscribe].foldl
    (fun created grant => insert (.grant grant) created) s.created
  refine ⟨⟨s.sessions.registerJoin auth p,s.dataChannels,granted⟩,?_,rfl⟩
  iterate 8
    refine .resumed ?_
    dsimp only [replacementMachine,joinSection,Grant.next,map_some,map_none]
  exact .returned

/-- A join that is in the room store answers and opens its session, unless the answer cannot be
sent. -/
theorem completes_answering (replaced : ℕ) (r : SignalJoinRequest)
    (d : Bool) (now : ℤ) (j : Joined) (s : ReplacementState) :
    ∃t,(replacementMachine auth replaced).Completes
      (some (.joining ⟨r,d,[],now⟩ (.answering j))) s t ∧
      t.sessions=s.sessions.completeJoin auth j d := by
  rw [completeJoin_eq]
  cases d with
  | false => exact ⟨_,.resumed .returned,rfl⟩
  | true =>
    cases hr : (s.sessions.answerLocalJoin auth j).getParticipant auth.key with
    | none =>
      refine ⟨⟨s.sessions.answerLocalJoin auth j,s.dataChannels,s.created⟩,?_,rfl⟩
      refine .resumed (.resumed ?_)
      simp only [replacementMachine,joinSection,if_true,hr]
      exact .returned
    | some p =>
      obtain ⟨t,hc,hs⟩ := completes_registering auth replaced r true now
        p ⟨s.sessions.answerLocalJoin auth j,s.dataChannels,s.created⟩
      refine ⟨t,.resumed (.resumed ?_),hs⟩
      simp only [replacementMachine,joinSection,if_true,hr]
      exact hc

/-- The rest of a join once nobody has its identity. -/
theorem completes_admitting (replaced : ℕ) (r : SignalJoinRequest) (d : Bool) (now : ℤ)
    (s : ReplacementState) :
    ∃t,(replacementMachine auth replaced).Completes (some (.joining ⟨r,d,[],now⟩ .admitting)) s t ∧
      t.sessions=enterRoom s.sessions auth r d now := by
  rw [enterRoom]
  split_ifs with hr
  · refine ⟨s,.resumed ?_,rfl⟩
    simp only [replacementMachine,joinSection,if_pos hr]
    exact .returned
  · have ha : (replacementMachine auth replaced).resume
        (.joining ⟨r,d,[],now⟩ .admitting) s=(s,some (.joining ⟨r,d,[],now⟩ .storing)) := by
      simp only [replacementMachine,joinSection,if_neg hr,map_some]
    cases hj : s.sessions.rooms.joinParticipantWithPermission (joinCall auth r) now with
    | mk re st =>
      cases re with
      | error e =>
        refine ⟨⟨s.sessions.withRooms st,s.dataChannels,s.created⟩,.resumed ?_,rfl⟩
        rw [ha]
        refine .resumed ?_
        simp only [replacementMachine,joinSection,hj]
        exact .returned
      | ok j =>
        obtain ⟨t,hc,hs⟩ := completes_answering auth replaced r d now
          j ⟨s.sessions.withRooms st,s.dataChannels,insert .participant s.created⟩
        refine ⟨t,.resumed ?_,hs⟩
        rw [ha]
        refine .resumed ?_
        simp only [replacementMachine,joinSection,hj]
        exact hc

/-- A join that nobody interrupts is the one of `ParticipantSessions`. -/
theorem replacingJoin_alone (replaced : ℕ) (r : SignalJoinRequest) (d : Bool) (now : ℤ)
    (s : ReplacementState) (thread : ℕ) :
    ∃sections t,(replacementMachine auth replaced).run (.idle s)
        (.enter thread (.join ⟨r,d,[],now⟩)::List.replicate sections (.resume thread)) = .idle t ∧
      t.sessions=s.sessions.freshJoin auth r d now := by
  suffices hj : ∃t,(replacementMachine auth replaced).Completes
      (some (.joining ⟨r,d,[],now⟩ .checking))
      {s with sessions := s.sessions.applyRoomConfigOnFirstRoomCreation auth now} t ∧
      t.sessions=s.sessions.freshJoin auth r d now by
    obtain ⟨t,hc,hs⟩ := hj
    obtain ⟨sections,hrun⟩ := @Machine.Completes.run_enter _ _ _ (replacementMachine auth replaced)
      (.join ⟨r,d,[],now⟩) s t hc thread
    exact ⟨sections,t,hrun,hs⟩
  rw [freshJoin_eq,vacate,disconnectParticipantFromService]
  cases ht : (s.sessions.applyRoomConfigOnFirstRoomCreation auth now).getParticipant auth.key with
  | none =>
    obtain ⟨t,hc,hs⟩ := completes_admitting auth replaced r d now
      {s with sessions := s.sessions.applyRoomConfigOnFirstRoomCreation auth now}
    refine ⟨t,.resumed ?_,hs⟩
    simp only [replacementMachine,joinSection,ht,isSome_none]
    exact hc
  | some p =>
    obtain ⟨t,hc,hs⟩ := completes_admitting auth replaced r d now
      ⟨(s.sessions.applyRoomConfigOnFirstRoomCreation auth now).cleanupParticipantRuntimeState
        auth.key now,s.dataChannels.erase auth.key,s.created⟩
    have hv := completes_cleanup
      (s := {s with sessions := s.sessions.applyRoomConfigOnFirstRoomCreation auth now})
      (resume_vacating ⟨r,d,[],now⟩) hc
    refine ⟨t,.resumed ?_,hs⟩
    simp only [replacementMachine,joinSection,ht,isSome_some,if_true]
    refine .resumed ?_
    simp only [ht,isSome_some,if_true]
    exact hv

end OxideSfu.Signaling
