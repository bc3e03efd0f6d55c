import OxideSfu.SessionReplacement

/-!
# What the closing path of an old session removes

A closing path of the old session that starts after the new session has entered the room store and
before its connection is registered removes participant, permissions and transports of the new
session. Outside of this window it finds nothing of it or waits for another sid.
-/

namespace OxideSfu.Signaling

open FiniteMaps Rooms SessionState CriticalSections StepRuns ReplacementPoint Option List

namespace ClosingPoint

/-- The closing path goes on to a cleanup, or it has not yet read whom its timer is after. -/
def tearsDown : ClosingPoint→Bool
  | .dropping | .deciding | .departing | .cleaning _ _ => true | _ => false

def waitsFor : ClosingPoint→Option String
  | .listing sid | .unpublishing sid _ | .reporting sid _ _ | .waiting sid => sid
  | .comparing sid => some sid | _ => none

end ClosingPoint

namespace ReplacementPoint

def closes : ReplacementPoint→Bool
  | .closing _ _ => true | .joining _ _ => false

def tearsDown : ReplacementPoint→Bool
  | .closing _ point => point.tearsDown | .joining _ _ => false

def waitsFor : ReplacementPoint→Option String
  | .closing _ point => point.waitsFor | .joining _ _ => none

def stores : ReplacementPoint→Bool
  | .joining _ .storing => true | _ => false

end ReplacementPoint

/-- A closing path takes the connection of the replaced session only before a join has entered the
room store, and a join enters it when no closing path is on its way to a cleanup; the timers that
wait then are after other sids than the new one. -/
def NoOverlap (auth : AuthContext) (replaced : ℕ) (c : Threads ReplacementState ReplacementPoint) :
    Event ReplacementCall→Prop
  | .enter _ (.close _) => c.shared.sessions.signalConnections.lookup auth.key=some replaced →
      .participant∉c.shared.created
  | .enter _ (.join _) => True
  | .resume thread => (c.running.lookup thread).any stores →
      ∀other∈c.running.keys,∀point∈c.running.lookup other,
        point.tearsDown=false ∧
          point.waitsFor≠some (nextParticipantSid c.shared.sessions.rooms)

instance (auth : AuthContext) (replaced : ℕ) (c : Threads ReplacementState ReplacementPoint) :
    (event : Event ReplacementCall)→Decidable (NoOverlap auth replaced c event)
  | .enter _ (.close _) => inferInstanceAs (Decidable (_ → _))
  | .enter _ (.join _) => isTrue trivial
  | .resume _ => inferInstanceAs (Decidable (_ → ∀other∈_,∀point∈_,_))

def closingEvent (c : Threads ReplacementState ReplacementPoint) : Event ReplacementCall→Bool
  | .enter _ (.close _) => true | .enter _ (.join _) => false
  | .resume thread => (c.running.lookup thread).any closes

/-- A closing path removes nothing that a replacing join has created. -/
def SparesSuccessor (auth : AuthContext) (replaced : ℕ)
    (c : Threads ReplacementState ReplacementPoint) (event : Event ReplacementCall) : Prop :=
  closingEvent c event → ∀creation∈c.shared.created,
    Present c.shared auth.key creation →
      Present ((replacementMachine auth replaced).step c event).shared auth.key creation
  deriving Decidable

variable {point : JoinPoint} {plan : ClosePlan} {key : ParticipantKey} {s t : ReplacementState}

/-- Once something is created, the participant is. -/
def ParticipantFirst (s : ReplacementState) : Prop := .participant∉s.created → s.created=∅

/-- No join enters the room store, and the participant gets no new sid. -/
structure Quiet (key : ParticipantKey) (s t : ReplacementState) : Prop where
  entered : .participant∈t.created ↔ .participant∈s.created
  first : ParticipantFirst s → ParticipantFirst t
  sid : ∀sid,sidOf t.sessions key=some sid → sidOf s.sessions key=some sid

theorem sidOf_congr {s t : SessionState} (h : participantOf t key=participantOf s key) :
    sidOf t key=sidOf s key := by
  rw [sidOf_eq,sidOf_eq,h]

theorem Quiet.of_sid (hc : t.created=s.created)
    (hsid : ∀sid,sidOf t.sessions key=some sid → sidOf s.sessions key=some sid) :
    Quiet key s t where
  entered := by rw [hc]
  first := by
    rw [ParticipantFirst,ParticipantFirst,hc]
    exact id
  sid := hsid

theorem Quiet.of_participant (hc : t.created=s.created)
    (h : participantOf t.sessions key=participantOf s.sessions key) : Quiet key s t :=
  .of_sid hc (fun sid hsid => by rwa [sidOf_congr h] at hsid)

/-- What a join creates after it has entered the room store. -/
theorem Quiet.of_entered (he : .participant∈s.created) (hc : s.created⊆t.created)
    (h : participantOf t.sessions key=participantOf s.sessions key) : Quiet key s t where
  entered := ⟨fun _ => he,fun _ => hc he⟩
  first := fun _ hn => absurd (hc he) hn
  sid := fun sid hsid => by rwa [sidOf_congr h] at hsid

theorem quiet_cleanupSection (key : ParticipantKey) (now : ℤ) (s : ReplacementState)
    (stage : CleanupStage) : Quiet key s (cleanupSection key now s stage).1 := by
  cases stage with
  | room =>
    rw [cleanupSection]
    obtain ⟨e,-,heq⟩ | ⟨p,st,-,heq,hr⟩ :=
      removeParticipantWithReason_spec s.sessions.rooms key.room key.identity clientInitiated now
    · rw [heq]
      exact .of_participant rfl rfl
    · rw [heq]
      refine .of_sid rfl (fun sid hsid => ?_)
      have hn : participantOf (s.sessions.withRooms st) key=none := hr.self
      rw [sidOf_eq,hn] at hsid
      cases hsid
  | _ => exact .of_participant rfl rfl

theorem quiet_removeTrack {trackSid : String} {r : Except RoomStoreError ParticipantInfo}
    {st : RoomStore}
    (h : s.sessions.rooms.removeParticipantTrack key.room key.identity trackSid=(r,st)) :
    Quiet key s {s with sessions := s.sessions.withRooms st} := by
  obtain ⟨e,heq⟩ | ⟨p,d,edit,hp,he,heq,hr⟩ :=
    removeParticipantTrack_spec s.sessions.rooms key.room key.identity trackSid
  · obtain ⟨-,rfl⟩ := Prod.mk.inj (heq.symm.trans h)
    exact .of_participant rfl rfl
  · obtain ⟨-,rfl⟩ := Prod.mk.inj (heq.symm.trans h)
    refine .of_sid rfl (fun sid hsid => ?_)
    have hb : participantOf s.sessions key=some p := hp
    have ha : participantOf (s.sessions.withRooms edit) key=some d := hr.self
    rw [sidOf_eq,ha,he] at hsid
    rw [sidOf_eq,hb]
    exact hsid

theorem quiet_closingSection (key : ParticipantKey) (plan : ClosePlan) (s : ReplacementState)
    (x : ClosingPoint) : Quiet key s (closingSection key plan s x).1 := by
  cases x with
  | unpublishing sid ks =>
    cases ks with
    | nil => exact .of_participant rfl rfl
    | cons k ks =>
      rw [closingSection]
      split
      · next heq => exact quiet_removeTrack heq
      · next heq => exact quiet_removeTrack heq
  | cleaning now stage => exact quiet_cleanupSection key now s stage
  | _ => exact .of_participant rfl rfl

def JoinPoint.entered : JoinPoint→Bool
  | .checking | .disconnecting | .vacating _ | .admitting | .storing => false | _ => true

theorem quiet_joinSection {auth : AuthContext} (plan : JoinPlan)
    (hst : point ≠ .storing) (he : point.entered → .participant∈s.created) :
    Quiet auth.key s (joinSection auth plan s point).1 := by
  cases point with
  | storing => exact absurd rfl hst
  | vacating stage =>
    have hq := quiet_cleanupSection auth.key plan.now s stage
    rw [joinSection]
    split
    · next heq => rwa [heq] at hq
    · next heq => rwa [heq] at hq
  | answering j =>
    obtain ⟨answered,present,r,heq,hs,hr,-⟩ := answerLocalJoin_cases s.sessions auth j
    refine .of_sid rfl (fun sid hsid => ?_)
    have hp : participantOf (s.sessions.answerLocalJoin auth j) auth.key=present := by
      rw [heq]
      exact hr.self
    rw [joinSection,sidOf_eq,hp] at hsid
    rw [sidOf_eq]
    generalize participantOf s.sessions auth.key=before at hs ⊢
    cases hs with
    | none => cases hsid
    | some hs => rwa [map_some,hs.sid] at hsid
  | granting grant => exact .of_entered (he rfl) (Finset.subset_insert _ _) rfl
  | opening transports =>
    cases transports with
    | nil => exact .of_participant rfl rfl
    | cons tr rest =>
      cases tr with
      | peerConnection | dataChannel =>
        exact .of_entered (he rfl) (Finset.subset_insert _ _) rfl
  | _ => exact .of_participant rfl rfl

theorem joinSection_storing (auth : AuthContext) (plan : JoinPlan) (s : ReplacementState) :
    (∃t,joinSection auth plan s .storing=(t,none) ∧ Quiet auth.key s t) ∨
      ∃t j,joinSection auth plan s .storing=(t,some (.answering j)) ∧
        .participant∈t.created ∧
        sidOf t.sessions auth.key=some (nextParticipantSid s.sessions.rooms) := by
  rw [joinSection]
  obtain ⟨e,st,heq,hs⟩ | ⟨j,st,heq,-,-,-,hr⟩ :=
    joinParticipantWithPermission_spec s.sessions.rooms (joinCall auth plan.request) plan.now
  · rw [heq]
    exact .inl ⟨_,rfl,.of_participant rfl (hs auth.key.room auth.key.identity)⟩
  · have hsid := sid_of_joinParticipantWithPermission heq
    have hse : participantOf (s.sessions.withRooms st) auth.key=some j.participant := hr.self
    rw [heq]
    refine .inr ⟨_,j,rfl,Finset.mem_insert_self _ _,?_⟩
    rw [sidOf_eq,hse,map_some,hsid,nextParticipantSid]

/-- Nobody is at a point of a join after the room store who was not there before. -/
theorem entered_joinSection {auth : AuthContext} {plan : JoinPlan} {next : JoinPoint}
    (hs : point ≠ .storing)
    (hn : (joinSection auth plan s point).2=some next) (he : next.entered) : point.entered := by
  cases point with
  | checking | disconnecting =>
    rw [joinSection,some_inj] at hn
    split_ifs at hn <;> (subst hn; exact he)
  | vacating stage =>
    rw [joinSection] at hn
    split at hn <;> (cases hn; exact he)
  | admitting =>
    rw [joinSection] at hn
    split_ifs at hn
    cases hn
    exact he
  | storing => exact absurd rfl hs
  | _ => rfl

/-- A timer that is after another sid than the participant's goes on waiting or ends. -/
theorem waitsFor_closingSection {x next : ClosingPoint} (hw : x.tearsDown=false)
    (hs : ∀sid,x.waitsFor=some sid → sidOf s.sessions key≠some sid)
    (hn : (closingSection key plan s x).2=some next) :
    next.tearsDown=false ∧ next.waitsFor=x.waitsFor := by
  cases x with
  | listing | reporting =>
    cases hn
    exact ⟨rfl,rfl⟩
  | unpublishing sid ks =>
    cases ks with
    | nil =>
      cases hn
      exact ⟨rfl,rfl⟩
    | cons k ks =>
      rw [closingSection] at hn
      split at hn <;> (cases hn; exact ⟨rfl,rfl⟩)
  | waiting sid =>
    rw [closingSection] at hn
    split_ifs at hn
    obtain ⟨departing,rfl,rfl⟩ := map_eq_some_iff.mp hn
    exact ⟨rfl,rfl⟩
  | comparing sid =>
    rw [closingSection] at hn
    split_ifs at hn with hsid
    exact absurd hsid (hs sid rfl)
  | dropping | deciding | departing | cleaning => cases hw

/-- A closing path that waits removes nothing but tracks. -/
theorem present_closingSection {x : ClosingPoint}
    (hw : x.tearsDown=false) {creation : Creation} (h : Present s key creation) :
    Present (closingSection key plan s x).1 key creation := by
  cases x with
  | unpublishing sid ks =>
    cases ks with
    | nil => exact h
    | cons k ks =>
      rw [closingSection]
      obtain ⟨e,heq⟩ | ⟨p,d,st,-,-,heq,hr⟩ :=
        removeParticipantTrack_spec s.sessions.rooms key.room key.identity k.sid
      · rw [heq]
        exact h
      · rw [heq]
        have ha : participantOf (s.sessions.withRooms st) key=some d := hr.self
        cases creation with
        | participant =>
          rw [Present,getParticipant_eq,ha]
          rfl
        | grant grant => exact h
        | transport tr => cases tr <;> exact h
  | dropping | deciding | departing | cleaning => cases hw
  | _ =>
    cases creation with
    | transport tr => cases tr <;> exact h
    | _ => exact h

variable {auth : AuthContext} {replaced : ℕ} {c : Threads ReplacementState ReplacementPoint}

def ReplacementPoint.entered : ReplacementPoint→Bool
  | .joining _ point => point.entered | .closing _ _ => false

/-- A closing path on its way to a cleanup is there before a join enters the room store, and a timer
is not after a participant that joined later. -/
structure PointSafe (auth : AuthContext) (point : ReplacementPoint) (s : ReplacementState) :
    Prop where
  tearsDown : point.tearsDown → .participant∉s.created
  stale : ∀sid,point.waitsFor=some sid → .participant∈s.created →
    sidOf s.sessions auth.key≠some sid
  entered : point.entered → .participant∈s.created

theorem PointSafe.quiet {x : ReplacementPoint} (h : PointSafe auth x s)
    (hq : Quiet auth.key s t) : PointSafe auth x t where
  tearsDown hp := hq.entered.not.mpr (h.tearsDown hp)
  stale sid hp he hsid := h.stale sid hp (hq.entered.mp he) (hq.sid sid hsid)
  entered hp := hq.entered.mpr (h.entered hp)

theorem pointSafe_closing_of_nobody (plan : ClosePlan) (x : ClosingPoint)
    (h : .participant∉s.created) : PointSafe auth (.closing plan x) s where
  tearsDown _ := h
  stale _ _ he := absurd he h
  entered hp := by cases hp

theorem pointSafe_joining {plan : JoinPlan} (h : point.entered → .participant∈s.created) :
    PointSafe auth (.joining plan point) s where
  tearsDown hp := by cases hp
  stale _ hp := by cases hp
  entered := h

theorem PointSafe.closing {x next : ClosingPoint} (h : PointSafe auth (.closing plan x) s)
    (hn : (closingSection auth.key plan s x).2=some next) :
    PointSafe auth (.closing plan next) (closingSection auth.key plan s x).1 := by
  have hq := quiet_closingSection auth.key plan s x
  by_cases he : .participant∈s.created
  · have hwa : x.tearsDown=false := by
      by_contra hp
      exact h.tearsDown (Bool.not_eq_false _ ▸ hp) he
    obtain ⟨hw,hs⟩ := waitsFor_closingSection hwa (fun sid hsid => h.stale sid hsid he) hn
    refine PointSafe.quiet ⟨?_,?_,?_⟩ hq
    · intro hp
      exact absurd (hw.symm.trans hp) (by decide)
    · intro sid hsid
      exact h.stale sid (hs.symm.trans hsid)
    · intro hp
      cases hp
  · exact pointSafe_closing_of_nobody plan next (hq.entered.not.mpr he)

section

variable (h : Annotated ParticipantFirst (PointSafe auth) c)

include h

variable {r : ReplacementState × Option ReplacementPoint} {thread : ℕ}

/-- A section during which no join enters the room store. -/
theorem keeps_quiet (hq : Quiet auth.key c.shared r.1) (hr : ∀x,r.2=some x → PointSafe auth x r.1) :
    Keeps ParticipantFirst (PointSafe auth) c thread r where
  shared := hq.first h.1
  reached := hr
  others other x _ hp := (h.2 other x hp).quiet hq

theorem keeps_joining {plan : JoinPlan} (hru : c.running.lookup thread=some (.joining plan point))
    (ho : NoOverlap auth replaced c (.resume thread)) :
    Keeps ParticipantFirst (PointSafe auth) c thread
      ((replacementMachine auth replaced).resume (.joining plan point) c.shared) := by
  have hsame := h.2 thread _ hru
  by_cases hs : point = .storing
  · subst hs
    simp only [replacementMachine]
    obtain ⟨t,heq,hq⟩ | ⟨t,joined,heq,he,hsid⟩ := joinSection_storing auth plan c.shared
    · rw [heq]
      exact keeps_quiet h hq (fun _ hp => by cases hp)
    · rw [heq]
      refine ⟨fun hn => absurd he hn,?_,?_⟩
      · intro reached hr
        cases hr
        exact pointSafe_joining (fun _ => he)
      · intro other point _ hp
        have hst : (c.running.lookup thread).any stores := by
          rw [hru]
          rfl
        obtain ⟨hw,hot⟩ := ho hst other (FiniteMap.mem_keys_of_lookup hp) point hp
        refine ⟨?_,?_,fun _ => he⟩
        · intro ht
          exact absurd (hw.symm.trans ht) (by decide)
        · rintro sid hpe-hc
          rw [hsid] at hc
          exact hot (hpe.trans hc.symm)
  · have hq : Quiet auth.key c.shared (joinSection auth plan c.shared point).1 :=
      quiet_joinSection plan hs hsame.entered
    refine keeps_quiet h hq ?_
    intro reached hr
    obtain ⟨next,hne,rfl⟩ := map_eq_some_iff.mp hr
    refine pointSafe_joining (fun he => hq.entered.mpr (hsame.entered ?_))
    exact entered_joinSection hs hne he

theorem keeps_replacement {e : Event ReplacementCall} (ho : NoOverlap auth replaced c e)
    (hran : (replacementMachine auth replaced).ran c e=some r) :
    Keeps ParticipantFirst (PointSafe auth) c e.thread r := by
  obtain ⟨call,he,rfl⟩ | ⟨x,he,hru,rfl⟩ := (replacementMachine auth replaced).ran_eq_some hran
  · rw [he] at ho
    cases call with
    | join plan =>
      have hc := effect_applyRoomConfig c.shared.sessions auth plan.now auth.key (fun _ => True)
      refine keeps_quiet h (.of_participant rfl hc.self) ?_
      intro reached hr
      cases hr
      exact pointSafe_joining (fun hen => by cases hen)
    | close plan =>
      simp only [replacementMachine]
      split_ifs with ha
      · refine keeps_quiet h (.of_participant rfl rfl) ?_
        intro reached hr
        cases hr
        exact pointSafe_closing_of_nobody plan .dropping (ho ha)
      · exact keeps_quiet h (.of_participant rfl rfl) (fun _ hr => by cases hr)
  · rw [he] at ho
    cases x with
    | joining plan x => exact keeps_joining h hru ho
    | closing plan x =>
      refine keeps_quiet h (quiet_closingSection auth.key plan c.shared x) ?_
      intro reached hr
      obtain ⟨next,hn,rfl⟩ := map_eq_some_iff.mp hr
      exact (h.2 _ _ hru).closing hn

/-- A closing path that is on its way to a cleanup finds nothing of a successor. -/
theorem sparesSuccessor_of_annotated (e : Event ReplacementCall) :
    SparesSuccessor auth replaced c e := by
  intro hc creation hcr hp
  obtain hs | ⟨r,hran,hs⟩ := (replacementMachine auth replaced).step_cases c e
  · rwa [hs]
  rw [hs,Threads.moveTo_shared]
  obtain ⟨call,he,rfl⟩ | ⟨x,he,hr,rfl⟩ := (replacementMachine auth replaced).ran_eq_some hran
  · cases call with
    | join plan =>
      rw [he] at hc
      cases hc
    | close plan =>
      simp only [replacementMachine]
      split_ifs
      · cases creation with
        | transport tr => cases tr <;> exact hp
        | _ => exact hp
      · exact hp
  · cases x with
    | joining plan x =>
      rw [he,closingEvent,hr] at hc
      cases hc
    | closing plan x =>
      by_cases ht : x.tearsDown
      · have hn := h.1 ((h.2 _ _ hr).tearsDown ht)
        rw [hn] at hcr
        cases hcr
      · exact present_closingSection (Bool.eq_false_iff.mpr ht) hp

end

/-- A closing path spares the successor of its session in every run in which it does not overlap
with the part of the join between the room store and the connection. -/
theorem successor_spared (auth : AuthContext) (replaced : ℕ) (s : ReplacementState)
    (hnothing : s.created = ∅) (events : List (Event ReplacementCall))
    (horder : AtEveryStep (fun earlier event =>
      NoOverlap auth replaced ((replacementMachine auth replaced).run (.idle s) earlier) event)
      events) :
    AtEveryStep (fun earlier event =>
      SparesSuccessor auth replaced
        ((replacementMachine auth replaced).run (.idle s) earlier) event)
      events := by
  have hi : Annotated ParticipantFirst (PointSafe auth) (.idle s) := by
    refine ⟨fun _ => hnothing,?_⟩
    intro thread point hp
    cases hp
  intro earlier event later hev
  rw [hev] at horder
  have he := hi.run horder.of_append (fun c event result h ha hran => keeps_replacement h ha hran)
  exact sparesSuccessor_of_annotated he event

def aliceOnline : ReplacementState where
  sessions := ((SessionState.initial {} true).runJoinSocket (aliceToken ["camera"]) {} true 0).step
    (.openPeerConnection alice)
  dataChannels := {alice}
  created := ∅

def aliceRun (events : List (Event ReplacementCall)) : Threads ReplacementState ReplacementPoint :=
  (replacementMachine (aliceToken ["camera"]) 0).run (.idle aliceOnline) events

def aliceReplaces : Event ReplacementCall :=
  .enter 1 (.join ⟨{},true,[.peerConnection,.dataChannel],1⟩)

def aliceCreations : List Creation :=
  [.participant,.grant .publishMedia,.grant .publishData,.grant .publishSources,
    .grant .subscribe,.transport .peerConnection,.transport .dataChannel]

def aliceComesBack : List (Event ReplacementCall) :=
  .enter 2 (.close ⟨false,1,20⟩)::replicate 5 (.resume 2) ++
    aliceReplaces::replicate 23 (.resume 1)++[.resume 2]

theorem timer_spares_alice :
    (∀creation ∈ aliceCreations,creation ∈ (aliceRun aliceComesBack).shared.created ∧
        Present (aliceRun aliceComesBack).shared alice creation) ∧
      (aliceRun aliceComesBack).running.keys = ∅ ∧
      AtEveryStep (fun earlier event =>
        SparesSuccessor (aliceToken ["camera"]) 0 (aliceRun earlier) event) aliceComesBack :=
  ⟨by decide +kernel,by decide +kernel,
    successor_spared (aliceToken ["camera"]) 0 aliceOnline rfl aliceComesBack (by decide +kernel)⟩

theorem alice_loses_socket :
    ∃n t,aliceRun (.enter 1 (.close ⟨false,1,20⟩)::replicate n (.resume 1)) = .idle t :=
  let ⟨n,t,h,_⟩ := lostSocket_alone aliceOnline (by decide +kernel) (by decide +kernel) 1 20 1
  ⟨n,t,h⟩

/-- The join has entered the room store when the old socket closes with a leave and takes its
connection, which is still registered. Then the join runs to its end. -/
def aliceOverlaps : List (Event ReplacementCall) :=
  aliceReplaces::replicate 11 (.resume 1) ++
    .enter 2 (.close ⟨true,2,20⟩)::replicate 12 (.resume 1)

def oldSocketCleansUp : List (Event ReplacementCall) := replicate 8 (.resume 2)

/-- The old session removes all that the new one has created; the new connection stays. -/
theorem old_session_removes_alice :
    (∀creation ∈ aliceCreations,creation ∈ (aliceRun aliceOverlaps).shared.created ∧
        Present (aliceRun aliceOverlaps).shared alice creation ∧
        ¬ Present (aliceRun (aliceOverlaps ++ oldSocketCleansUp)).shared alice creation) ∧
      (aliceRun (aliceOverlaps ++ oldSocketCleansUp)).running.keys = ∅ ∧
      (aliceRun (aliceOverlaps ++
        oldSocketCleansUp)).shared.sessions.signalConnections.lookup alice =
        some 1 ∧
      ¬ AtEveryStep (fun earlier event =>
        SparesSuccessor (aliceToken ["camera"]) 0 (aliceRun earlier) event)
        (aliceOverlaps ++ oldSocketCleansUp) := by
  refine ⟨by decide +kernel,by decide +kernel,by decide +kernel,?_⟩
  -- The first section of the cleanup drops the new data channel.
  intro hs
  have hf := hs aliceOverlaps (.resume 2) (replicate 7 (.resume 2)) rfl
  exact absurd hf (by decide +kernel)

end OxideSfu.Signaling
