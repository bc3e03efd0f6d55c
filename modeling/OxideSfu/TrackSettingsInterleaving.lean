import OxideSfu.CriticalSections
import OxideSfu.TrackSettingsDebounce

/-!
# Track settings taken and written under different locks

The settings in force and those that wait have a lock each (`media/track_settings.rs`): a timer
takes its setting under one and writes it under the other, and a removal clears the waiting settings
first. Every critical section is a step; the draw of a generation is part of the section before it.
-/

namespace OxideSfu.Signaling

open FiniteMaps StepRuns CriticalSections TrackSettingsStore FiniteMap Threads List Option

inductive SettingsCall
  | scheduleFromRequest (room identity : String) (request : UpdateTrackSettings)
  | applyPendingForTrack (key : TrackSettingsKey) (generation : UInt64)
  | removeForTrack (key : TrackSettingsKey)
  | removeParticipant (room identity : String) (iteration : Iteration TrackSettingsKey)

/-- The local variables of the loop of a request: the track at hand and those after it. -/
structure ScheduleFrame where
  (room identity : String)
  request : UpdateTrackSettings
  trackSid : String
  rest : List String

namespace ScheduleFrame

def keyOf (frame : ScheduleFrame) (trackSid : String) : TrackSettingsKey :=
  ⟨frame.room,frame.identity,trackSid⟩

def key (frame : ScheduleFrame) : TrackSettingsKey := frame.keyOf frame.trackSid

def setting (frame : ScheduleFrame) : UpdateTrackSettings :=
  forTrack frame.request frame.trackSid

end ScheduleFrame

/-- The points between sections, with the local variables of the call. -/
inductive SettingsPoint
  -- `schedule_from_request`: before the read, the write and the removal or insertion
  | reading (frame : ScheduleFrame)
  | switchingOn (frame : ScheduleFrame)
  | dropping (frame : ScheduleFrame)
  | deferring (frame : ScheduleFrame) (generation : UInt64)
  -- `apply_pending_for_track`: around the write it reads the revision of the track
  | taken (key : TrackSettingsKey) (setting : UpdateTrackSettings)
  | applying (key : TrackSettingsKey) (setting : UpdateTrackSettings) (before : UInt64)
  | applied (key : TrackSettingsKey) (before : UInt64)
  -- `remove_for_track` and `remove_participant`
  | removingTrack (key : TrackSettingsKey)
  | removingParticipant (room identity : String) (iteration : Iteration TrackSettingsKey)

open SettingsPoint

def ScheduleFrame.next (frame : ScheduleFrame) : Option SettingsPoint :=
  match frame.rest with
  | [] => none
  | trackSid::rest => some (.reading {frame with trackSid,rest})

def readCurrent (frame : ScheduleFrame) (s : TrackSettingsStore) :
    TrackSettingsStore × Option SettingsPoint :=
  let current := s.getForTrack frame.key
  if current=some frame.setting then (s,some (.dropping frame))
  else if current.any (fun current => current.disabled && !frame.setting.disabled) then
    (s,some (.switchingOn frame))
  else
    let generation := s.nextPendingGeneration+1
    ({s with nextPendingGeneration := generation},some (.deferring frame generation))

def insertPending (s : TrackSettingsStore) (key : TrackSettingsKey) (generation : UInt64)
    (setting : UpdateTrackSettings) : TrackSettingsStore :=
  {s with pending := s.pending.insert key (generation,setting)}

def retainPending (s : TrackSettingsStore) (room identity : String) : TrackSettingsStore :=
  {s with
    pending := s.pending.filter (fun key _ => (key.room≠room ∨ key.identity≠identity))}

def removeSettings (s : TrackSettingsStore) (room identity : String)
    (iteration : Iteration TrackSettingsKey) : TrackSettingsStore :=
  let removed := s.settings.keys.filter (fun key => key.room=room ∧ key.identity=identity)
  (iteration.order removed).foldl removeSetting s

def settingsMachine : Machine TrackSettingsStore SettingsCall SettingsPoint where
  enter
    | .scheduleFromRequest room identity request, s =>
      match request.trackSids with
      | [] => (s,none) | trackSid::rest => readCurrent ⟨room,identity,request,trackSid,rest⟩ s
    | .applyPendingForTrack key generation, s =>
      match s.pending.lookup key with
      | none => (s,none)
      | some (candidate,setting) =>
        if candidate=generation then (s.dropPending key,some (.taken key setting))
        else (s,none)
    | .removeForTrack key, s => (s.dropPending key,some (.removingTrack key))
    | .removeParticipant room identity iteration, s =>
      (retainPending s room identity,some (.removingParticipant room identity iteration))
  resume
    | .reading frame, s => readCurrent frame s
    | .switchingOn frame, s =>
      (s.upsertFromRequest frame.room frame.identity frame.setting,some (.dropping frame))
    | .dropping frame, s => (s.dropPending frame.key,frame.next)
    | .deferring frame generation, s =>
      (insertPending s frame.key generation frame.setting,frame.next)
    | .taken key setting, s => (s,some (.applying key setting (s.revisionForTrack key)))
    | .applying key setting before, s =>
      (s.upsertFromRequest key.room key.identity setting,some (.applied key before))
    | .applied _ _, s => (s,none) | .removingTrack key,s => (s.removeSetting key,none)
    | .removingParticipant room identity iteration, s =>
      (removeSettings s room identity iteration,none)

def interleaved (events : List (Event SettingsCall)) : Threads TrackSettingsStore SettingsPoint :=
  settingsMachine.run (.idle .empty) events

variable (key : TrackSettingsKey)

theorem completes_track (f : ScheduleFrame) (sc : Scheduled)
    {s r : TrackSettingsStore}
    (hr : settingsMachine.Completes f.next
      (scheduleForTrack f.room f.identity f.request (sc,s) f.trackSid).2
      r) :
    settingsMachine.Completes (some (.reading f)) s r := by
  apply Machine.Completes.resumed
  change settingsMachine.Completes (readCurrent f s).2 (readCurrent f s).1 r
  by_cases hs : s.getForTrack f.key=some f.setting
  · have hre : readCurrent f s=(s,some (.dropping f)) := if_pos hs
    have ht : scheduleForTrack f.room f.identity f.request
      (sc,s) f.trackSid=(sc,s.dropPending f.key) := if_pos hs
    rw [ht] at hr
    rw [hre]
    exact .resumed hr
  · by_cases hon : (s.getForTrack f.key).any (fun c => c.disabled && !f.setting.disabled)
    · have hre : readCurrent f s=(s,some (.switchingOn f)) := (if_neg hs).trans (if_pos hon)
      have ht : (scheduleForTrack f.room f.identity f.request (sc,s)
          f.trackSid).2 =
          (s.upsertFromRequest f.room f.identity f.setting).dropPending f.key :=
        congrArg Prod.snd ((if_neg hs).trans (if_pos hon))
      rw [ht] at hr
      rw [hre]
      exact .resumed (.resumed hr)
    · have hre : readCurrent f s =
          ({s with nextPendingGeneration := s.nextPendingGeneration+1},
            some (.deferring f (s.nextPendingGeneration+1))) :=
        (if_neg hs).trans (if_neg hon)
      have ht : (scheduleForTrack f.room f.identity f.request (sc,s)
          f.trackSid).2 =
          insertPending {s with nextPendingGeneration := s.nextPendingGeneration+1} f.key
            (s.nextPendingGeneration+1) f.setting :=
        congrArg Prod.snd ((if_neg hs).trans (if_neg hon))
      rw [ht] at hr
      rw [hre]
      exact .resumed hr

variable (s : TrackSettingsStore) (room i : String) (r : UpdateTrackSettings)

theorem completes_reading (sid : String) (rest : List String) (sc : Scheduled)
    (s : TrackSettingsStore) :
    settingsMachine.Completes (some (.reading ⟨room,i,r,sid,rest⟩)) s
      ((sid::rest).foldl (scheduleForTrack room i r) (sc,s)).2 := by
  induction rest generalizing sid sc s with
  | nil => exact completes_track _ sc .returned
  | cons following rest ih => exact completes_track _ sc (ih following _ _)

theorem scheduleFromRequest_alone (t : ℕ) :
    ∃sections,settingsMachine.run (.idle s)
        (.enter t (.scheduleFromRequest room i r)::replicate sections (.resume t)) =
      .idle (s.scheduleFromRequest room i r).2 := by
  apply Machine.Completes.run_enter
  obtain ⟨ks,disabled,quality,width,height,fps,priority⟩ := r
  cases ks with
  | nil => exact .returned
  | cons sid rest =>
    have hl := completes_reading room i
      ⟨sid::rest,disabled,quality,width,height,fps,priority⟩ sid rest ⟨[],[]⟩ s
    cases hl with
    | resumed h => exact h

def SettingsCall.Schedules (key : TrackSettingsKey) : SettingsCall→Prop
  | .scheduleFromRequest room identity request =>
    key.room=room ∧ key.identity=identity ∧ key.trackSid∈request.trackSids
  | _ => False

def SettingsCall.Removes (key : TrackSettingsKey) : SettingsCall→Prop
  | .removeForTrack removed => key=removed
  | .removeParticipant room identity _ => key.room=room ∧ key.identity=identity | _ => False

instance (key : TrackSettingsKey) (call : SettingsCall) : Decidable (call.Removes key) :=
  match call with
  | .scheduleFromRequest .. | .applyPendingForTrack .. => isFalse id
  | .removeForTrack removed => inferInstanceAs (Decidable (key=removed))
  | .removeParticipant room identity _ =>
    inferInstanceAs (Decidable (key.room=room ∧ key.identity=identity))

/-- The tracks for which a call that has reached the point may still write a setting. -/
def SettingsPoint.writes : SettingsPoint → List TrackSettingsKey
  | .reading frame => frame.key::frame.rest.map frame.keyOf
  | .switchingOn frame => frame.key::frame.rest.map frame.keyOf
  | .dropping frame => frame.rest.map frame.keyOf
  | .deferring frame _ => frame.key::frame.rest.map frame.keyOf | .taken key _ => [key]
  | .applying key _ _ => [key] | .applied _ _ => [] | .removingTrack _ => []
  | .removingParticipant _ _ _ => []

/-- What must hold before a section: a removal begins only when no call is under way that may
still write one of the settings it removes. -/
def quiet (c : Threads TrackSettingsStore SettingsPoint) : Event SettingsCall→Bool
  | .enter _ call => decide (∀thread∈c.running.keys,
      ∀key∈((c.running.lookup thread).map SettingsPoint.writes).getD [],¬ call.Removes key)
  | .resume _ => true

/-- After a removal of a setting has completed, the setting is not there, unless a request for
the track has started since the removal began. -/
def NotResurrected (events : List (Event SettingsCall)) : Prop :=
  ∀earlier thread (removal : SettingsCall) key later,
    events=earlier ++ .enter thread removal::later →
    (interleaved earlier).running.lookup thread=none → removal.Removes key →
    .resume thread∈later →
    (∀other call,.enter other call∈later → ¬ SettingsCall.Schedules key call) →
    (interleaved events).shared.getForTrack key=none

structure Cleared (gone : TrackSettingsKey→Prop) (removed : Prop) (s : TrackSettingsStore) :
    Prop where
  own : OwnTracks s
  pending : ∀key,gone key → s.pending.lookup key=none
  settings : removed → ∀key,gone key → s.settings.lookup key=none

/-- A setting that was taken is for its own track only. -/
def SettingsPoint.Own : SettingsPoint→Prop
  | .taken key setting => setting.trackSids=[key.trackSid]
  | .applying key setting _ => setting.trackSids=[key.trackSid] | _ => True

/-- The call at the point writes no setting of the tracks. -/
def SettingsPoint.Spares (gone : TrackSettingsKey→Prop) (point : SettingsPoint) : Prop :=
  point.Own ∧ ∀key∈point.writes,¬ gone key

variable {gone : TrackSettingsKey→Prop} {removed : Prop} {s : TrackSettingsStore}

namespace Cleared

variable (h : Cleared gone removed s)

include h

theorem dropPending : Cleared gone removed (s.dropPending key) where
  own := h.own.dropPending key
  pending other ho := by
    simp [TrackSettingsStore.dropPending,h.pending other ho]
  settings := h.settings

variable {st : UpdateTrackSettings}

theorem insertPending {key : TrackSettingsKey} (hkey : ¬ gone key) (g : UInt64)
    (hs : st.trackSids=[key.trackSid]) :
    Cleared gone removed (insertPending s key g st) where
  own other candidate waiting ho := by
    simp only [Signaling.insertPending,lookup_insert] at ho
    split_ifs at ho with heq
    · obtain ⟨-,rfl⟩ := Prod.mk.inj (some.inj ho)
      rw [heq,hs]
    · exact h.own other candidate waiting ho
  pending other ho := by
    have hne : other≠key := fun heq => hkey (heq ▸ ho)
    simp [Signaling.insertPending,hne,h.pending other ho]
  settings := h.settings

theorem retainPending (room i : String) : Cleared gone removed (retainPending s room i) where
  own other candidate waiting ho := by
    exact h.own other candidate waiting (eq_some_of_filter_eq_some ho)
  pending other ho := by
    simp [Signaling.retainPending,h.pending other ho]
  settings := h.settings

theorem upsertFromRequest {key : TrackSettingsKey} (hkey : ¬ gone key)
    (hs : st.trackSids=[key.trackSid]) :
    Cleared gone removed (s.upsertFromRequest key.room key.identity st) := by
  rw [upsertFromRequest_single s key.room key.identity key.trackSid st hs]
  split_ifs
  · exact h
  · refine ⟨h.own,h.pending,?_⟩
    intro hr o ho
    have hne : o≠key := fun heq => hkey (heq ▸ ho)
    have hput := getForTrack_putSetting s key o st
    rw [if_neg hne] at hput
    exact hput.trans (h.settings hr o ho)

theorem removeSetting : Cleared gone removed (s.removeSetting key) := by
  rw [TrackSettingsStore.removeSetting]
  split_ifs
  · refine ⟨h.own,h.pending,?_⟩
    intro hr o ho
    simp [markChanged,h.settings hr o ho]
  · exact h

theorem removeSettings (room i : String) (it : Iteration TrackSettingsKey) :
    Cleared gone removed (removeSettings s room i it) := by
  refine foldlRecOn (motive := Cleared gone removed) _ _ h ?_
  intro t ht key _
  exact ht.removeSetting key

end Cleared

variable {c : Threads TrackSettingsStore SettingsPoint}

def KeepsCleared (gone : TrackSettingsKey→Prop) (removed : Prop)
    (result : TrackSettingsStore × Option SettingsPoint) : Prop :=
  Cleared gone removed result.1 ∧ ∀point,result.2=some point → point.Spares gone

section

variable (h : Cleared gone removed s)

include h

theorem keepsCleared_returned : KeepsCleared gone removed (s,none) := ⟨h,fun _ hp => by cases hp⟩

theorem keepsCleared_reached {x : SettingsPoint} (hp : x.Spares gone) :
    KeepsCleared gone removed (s,some x) :=
  ⟨h,fun _ heq => some.inj heq ▸ hp⟩

variable {frame : ScheduleFrame}

theorem keepsCleared_readCurrent (hf : ∀key∈frame.key::frame.rest.map frame.keyOf,¬ gone key) :
    KeepsCleared gone removed (readCurrent frame s) := by
  unfold readCurrent
  dsimp only
  split_ifs
  · exact keepsCleared_reached h ⟨trivial,fun key hkey => hf key (mem_cons_of_mem _ hkey)⟩
  · exact keepsCleared_reached h ⟨trivial,hf⟩
  · refine keepsCleared_reached ?_ ⟨trivial,hf⟩
    exact ⟨h.own,h.pending,h.settings⟩

theorem keepsCleared_next (hf : ∀key∈frame.rest.map frame.keyOf,¬ gone key) :
    KeepsCleared gone removed (s,frame.next) := by
  obtain ⟨room,identity,request,trackSid,rest⟩ := frame
  cases rest with
  | nil => exact keepsCleared_returned h
  | cons following rest =>
    have hp : (reading ⟨room,identity,request,following,rest⟩).Spares gone := ⟨trivial,hf⟩
    exact keepsCleared_reached h hp

theorem keepsCleared_enter (call : SettingsCall) (hc : ∀key,gone key → ¬ call.Schedules key) :
    KeepsCleared gone removed (settingsMachine.enter call s) := by
  cases call with
  | scheduleFromRequest room i r =>
    simp only [settingsMachine]
    split
    · exact keepsCleared_returned h
    · next sid rest ht =>
      apply keepsCleared_readCurrent h
      intro key hkey hg
      have hmem : key∈r.trackSids.map (ScheduleFrame.keyOf ⟨room,i,r,sid,rest⟩) := by
        rw [ht]
        exact hkey
      obtain ⟨named,hn,rfl⟩ := mem_map.mp hmem
      exact hc _ hg ⟨rfl,rfl,hn⟩
  | applyPendingForTrack key g =>
    simp only [settingsMachine]
    split
    · exact keepsCleared_returned h
    · next candidate st hp =>
      split_ifs
      · apply keepsCleared_reached (h.dropPending key)
        refine ⟨h.own key candidate st hp,?_⟩
        intro o ho hg
        -- A setting that waits is of none of the tracks.
        rw [mem_singleton.mp ho] at hg
        rw [h.pending key hg] at hp
        cases hp
      · exact keepsCleared_returned h
  | removeForTrack key =>
    exact keepsCleared_reached (h.dropPending key) ⟨trivial,by simp [writes]⟩
  | removeParticipant room i it =>
    exact keepsCleared_reached (h.retainPending room i) ⟨trivial,by simp [writes]⟩

theorem keepsCleared_resume {point : SettingsPoint} (hp : point.Spares gone) :
    KeepsCleared gone removed (settingsMachine.resume point s) := by
  obtain ⟨hown,hw⟩ := hp
  cases point with
  | reading frame => exact keepsCleared_readCurrent h hw
  | switchingOn frame =>
    have hkey := hw frame.key mem_cons_self
    exact keepsCleared_reached (h.upsertFromRequest hkey rfl)
      ⟨trivial,fun key hmem => hw key (mem_cons_of_mem _ hmem)⟩
  | dropping frame => exact keepsCleared_next (h.dropPending frame.key) hw
  | deferring frame generation =>
    have hkey := hw frame.key mem_cons_self
    exact keepsCleared_next (h.insertPending hkey generation rfl)
      (fun key hmem => hw key (mem_cons_of_mem _ hmem))
  | taken key setting => exact keepsCleared_reached h ⟨hown,hw⟩
  | applying key setting before =>
    have hkey := hw key mem_cons_self
    exact keepsCleared_reached (h.upsertFromRequest hkey hown) ⟨trivial,by simp [writes]⟩
  | applied key before => exact keepsCleared_returned h
  | removingTrack key => exact keepsCleared_returned (h.removeSetting key)
  | removingParticipant room identity iteration =>
    exact keepsCleared_returned (h.removeSettings room identity iteration)

end

/-- The tracks are cleared and no call under way writes a setting of one of them. -/
def ClearedRun (gone : TrackSettingsKey→Prop) (removed : Prop) :
    Threads TrackSettingsStore SettingsPoint→Prop :=
  Annotated (Cleared gone removed) (fun point _ => point.Spares gone)

theorem ClearedRun.run (h : ClearedRun gone removed c) (es : List (Event SettingsCall))
    (hev : ∀t call,.enter t call∈es → ∀key,gone key → ¬ SettingsCall.Schedules key call) :
    ClearedRun gone removed (settingsMachine.run c es) := by
  have ha : ∀e∈es,∀call,e = .enter e.thread call → ∀key,gone key →
    ¬ SettingsCall.Schedules key call := by
    intro e hmem call he
    exact hev e.thread call (he ▸ hmem)
  refine Annotated.run_of_forall (m := settingsMachine) h ha ?_
  intro c e r hb hc hran
  have hk : KeepsCleared gone removed r := by
    obtain ⟨call,he,rfl⟩ | ⟨x,-,hp,rfl⟩ := settingsMachine.ran_eq_some hran
    · exact keepsCleared_enter hb.1 call (hc call he)
    · exact keepsCleared_resume hb.1 (hb.2 e.thread x hp)
  exact ⟨hk.1,hk.2,fun o x _ ho => hb.2 o x ho⟩

/-- In every run a setting that waits, or that was taken, is for its own track only. -/
theorem own_interleaved (es : List (Event SettingsCall)) :
    ClearedRun (fun _ => False) False (interleaved es) := by
  apply ClearedRun.run
  · refine ⟨⟨?_,fun _ h => h.elim,fun h => h.elim⟩,?_⟩
    · intro key g st hp
      cases hp
    · intro t x hpo
      cases hpo
  · exact fun _ _ _ _ h => h.elim

variable {key : TrackSettingsKey}

def SettingsPoint.RemovesNext (key : TrackSettingsKey) : SettingsPoint→Prop
  | .removingTrack removed => key=removed
  | .removingParticipant room identity _ => key.room=room ∧ key.identity=identity | _ => False

variable {removal : SettingsCall} {point : SettingsPoint}

theorem enter_removal (hr : removal.Removes key) (s : TrackSettingsStore) :
    (settingsMachine.enter removal s).1.pending.lookup key=none ∧
      ∃x,(settingsMachine.enter removal s).2=some x ∧ x.RemovesNext key := by
  cases removal with
  | scheduleFromRequest => exact hr.elim
  | applyPendingForTrack => exact hr.elim
  | removeForTrack rm => exact ⟨if_pos hr,_,rfl,hr⟩
  | removeParticipant room i it =>
    refine ⟨?_,_,rfl,hr⟩
    simp [settingsMachine,retainPending,hr.1,hr.2]

theorem SettingsPoint.RemovesNext.spares (h : point.RemovesNext key)
    (gone : TrackSettingsKey→Prop) : point.Spares gone := by
  cases point with
  | removingTrack rm => exact ⟨trivial,by simp [writes]⟩
  | removingParticipant room i it =>
    exact ⟨trivial,by simp [writes]⟩
  | _ => exact h.elim

theorem getForTrack_removeSetting (s : TrackSettingsStore) (key o : TrackSettingsKey) :
    (s.removeSetting key).settings.lookup o =
      if o=key then none else s.settings.lookup o := by
  rw [removeSetting]
  split_ifs with hs heq heq
  · simp [markChanged,heq]
  · simp [markChanged,heq]
  · rw [heq]
    simpa using hs
  · rfl

theorem lookup_foldl_removeSetting (keys : List TrackSettingsKey) (s : TrackSettingsStore)
    (key : TrackSettingsKey) :
    (keys.foldl removeSetting s).settings.lookup key =
      if key∈keys then none else s.settings.lookup key := by
  induction keys generalizing s with
  | nil => rfl
  | cons first keys ih =>
    rw [foldl_cons,ih,getForTrack_removeSetting]
    by_cases hf : key=first
    · simp [hf]
    · simp [hf]

theorem resume_removal (hr : point.RemovesNext key) (s : TrackSettingsStore) :
    (settingsMachine.resume point s).1.settings.lookup key=none := by
  cases point with
  | removingTrack rm =>
    rw [show key=rm from hr]
    exact (getForTrack_removeSetting s rm rm).trans (if_pos rfl)
  | removingParticipant room i it =>
    change (removeSettings s room i it).settings.lookup key=none
    rw [removeSettings,lookup_foldl_removeSetting]
    split_ifs with hmem
    · rfl
    · rw [Iteration.mem_order,Finset.mem_filter,not_and'] at hmem
      exact lookup_eq_none_iff.mpr (hmem hr)
  | _ => exact hr.elim

/-- A quiet removal begins when no call is under way that writes the setting. -/
theorem spares_of_quiet {thread : ℕ} (hq : quiet c (.enter thread removal))
    (hr : removal.Removes key) (hown : ∀other point,c.running.lookup other=some point → point.Own)
    {other : ℕ} (hp : c.running.lookup other=some point) :
    point.Spares (· = key) := by
  refine ⟨hown other point hp,?_⟩
  rintro written hw rfl
  have hnot := of_decide_eq_true hq other (mem_keys_of_lookup hp) written
  rw [hp] at hnot
  exact hnot hw hr

theorem clearedRun_enter_removal {e : List (Event SettingsCall)} {t : ℕ}
    (hq : quiet (interleaved e) (.enter t removal)) (hr : removal.Removes key) :
    ClearedRun (· = key) False ((interleaved e).moveTo t
      (settingsMachine.enter removal (interleaved e).shared)) := by
  have hb := own_interleaved e
  obtain ⟨hpe,x,hp,hn⟩ := enter_removal hr (interleaved e).shared
  refine ⟨?_,?_⟩
  · rw [moveTo_shared]
    have hc := keepsCleared_enter hb.1 removal (fun _ h => h.elim)
    exact ⟨hc.1.own,fun _ heq => heq ▸ hpe,fun h => h.elim⟩
  · intro o reached hre
    obtain ⟨-,hown⟩ | ⟨-,ho⟩ := running_moveTo hre
    · rw [hp] at hown
      exact some.inj hown ▸ hn.spares _
    · exact spares_of_quiet hq hr (fun o x hp => (hb.2 o x hp).1) ho

/-- In every interleaving in which removals begin quietly, a removed setting does not come
back. -/
theorem notResurrected_of_quiet (events : List (Event SettingsCall))
    (h : AtEveryStep (fun earlier event => quiet (interleaved earlier) event) events) :
    NotResurrected events := by
  rintro earlier thread removal key later rfl hi hr hre hl
  have hs : settingsMachine.step (interleaved earlier) (.enter thread removal) =
      (interleaved earlier).moveTo thread
        (settingsMachine.enter removal (interleaved earlier).shared) := by
    apply settingsMachine.step_of_ran
    simp only [Machine.ran,hi]
  have hb : ClearedRun (· = key) False
    (settingsMachine.step (interleaved earlier) (.enter thread removal)) := by
    rw [hs]
    exact clearedRun_enter_removal (h earlier _ later rfl) hr
  obtain ⟨-,point,hp,hn⟩ := enter_removal hr (interleaved earlier).shared
  have hst : (settingsMachine.step (interleaved earlier)
      (.enter thread removal)).running.lookup thread=some point := by
    rw [hs,lookup_moveTo,if_pos rfl,hp]
  -- The first time its thread is resumed, the removal runs its second section.
  obtain ⟨waiting,rest,rfl,hw⟩ := eq_append_cons_of_mem hre
  have hc : ∀other call,.enter other call∈waiting ++ .resume thread::rest →
      ∀removed,removed=key → ¬ SettingsCall.Schedules removed call := by
    rintro other call hmem removed rfl
    exact hl other call hmem
  have hwa := hb.run waiting (fun other call hmem =>
    hc other call (mem_append_left _ hmem))
  have hd : ClearedRun (· = key) True (settingsMachine.step
      (settingsMachine.run (settingsMachine.step (interleaved earlier) (.enter thread removal))
        waiting) (.resume thread)) := by
    have hk := hwa.run [.resume thread] (by simp)
    refine ⟨⟨hk.1.own,hk.1.pending,?_⟩,hk.2⟩
    rintro-_ rfl
    rw [settingsMachine.step_resume (settingsMachine.running_run hst hw),moveTo_shared]
    exact resume_removal hn _
  have hend := hd.run rest (fun other call hmem =>
    hc other call (by simp [hmem]))
  have he : interleaved (earlier ++ .enter thread removal ::
      (waiting ++ .resume thread::rest))=settingsMachine.run (settingsMachine.step
        (settingsMachine.run (settingsMachine.step (interleaved earlier)
          (.enter thread removal)) waiting) (.resume thread)) rest := by
    simp [interleaved,Machine.run,foldl_append]
  rw [he]
  exact hend.1.settings trivial key rfl

/-- A setting takes effect and the next one waits when the track goes; the timer of the second
one fires after that. -/
def removedBeforeTimer : List (Event SettingsCall) :=
  [.enter 0 (.scheduleFromRequest "room" "bob" {trackSids := ["TR_1"],quality := 2}),
    .resume 0,
    .enter 1 (.applyPendingForTrack ⟨"room","bob","TR_1"⟩ 1),.resume 1,.resume 1,.resume 1,
    .enter 0 (.scheduleFromRequest "room" "bob" {trackSids := ["TR_1"],quality := 1}),
    .resume 0,
    .enter 2 (.removeForTrack ⟨"room","bob","TR_1"⟩),
    .enter 1 (.applyPendingForTrack ⟨"room","bob","TR_1"⟩ 2),.resume 2]

theorem notResurrected_of_removedBeforeTimer :
    (interleaved (removedBeforeTimer.take 8)).shared.getForTrack ⟨"room", "bob", "TR_1"⟩ =
        some {trackSids := ["TR_1"],quality := 2} ∧
      (interleaved removedBeforeTimer).shared.getForTrack ⟨"room", "bob", "TR_1"⟩ = none := by
  refine ⟨by decide +kernel,?_⟩
  exact notResurrected_of_quiet removedBeforeTimer (by decide +kernel) (removedBeforeTimer.take 8) 2
    (.removeForTrack ⟨"room","bob","TR_1"⟩) _ _ rfl (by decide +kernel) rfl (by simp)
    (by simp [SettingsCall.Schedules])

/-- The timer has taken the setting when the participant goes, and writes it after that. -/
def takenBeforeRemoval (iteration : Iteration TrackSettingsKey) : List (Event SettingsCall) :=
  [.enter 0 (.scheduleFromRequest "room" "bob" {trackSids := ["TR_1"],quality := 2}),
    .resume 0,
    .enter 1 (.applyPendingForTrack ⟨"room","bob","TR_1"⟩ 1),
    .enter 2 (.removeParticipant "room" "bob" iteration),.resume 2,.resume 1,.resume 1]

theorem removeSettings_of_no_settings (h : s.settings = .empty)
    (room i : String) (it : Iteration TrackSettingsKey) :
    removeSettings s room i it=s := by
  have hn : it.order (s.settings.keys.filter (fun key => key.room=room ∧ key.identity=i))=[] := by
    rw [← Multiset.coe_eq_zero,it.coe_order,h]
    rfl
  rw [removeSettings,hn,foldl_nil]

theorem getForTrack_takenBeforeRemoval (it : Iteration TrackSettingsKey) :
    (interleaved (takenBeforeRemoval it)).shared.getForTrack ⟨"room","bob","TR_1"⟩ =
      some {trackSids := ["TR_1"],quality := 2} := by
  have hsp : takenBeforeRemoval it =
    (takenBeforeRemoval it).take 4++[.resume 2]++[.resume 1,.resume 1] := rfl
  have hs : (interleaved ((takenBeforeRemoval it).take 4)).running.lookup 2 =
      some (.removingParticipant "room" "bob" it) := rfl
  change (settingsMachine.run (settingsMachine.step
    (interleaved ((takenBeforeRemoval it).take 4)) (.resume 2)) _).shared.getForTrack _=_
  change (settingsMachine.run (moveTo _ 2 (removeSettings _ _ _ _,none)) _).shared.getForTrack _=_
  rw [removeSettings_of_no_settings rfl]
  rfl

/-- A setting that a timer holds comes back after the participant has been removed. -/
theorem removed_settings_resurrected : ∃events,¬ NotResurrected events := by
  obtain ⟨iteration⟩ : Nonempty (Iteration TrackSettingsKey) :=
    ⟨⟨Finset.toList,fun s => s.coe_toList⟩⟩
  refine ⟨takenBeforeRemoval iteration,fun h => ?_⟩
  have hn := h ((takenBeforeRemoval iteration).take 3) 2
    (.removeParticipant "room" "bob" iteration) ⟨"room","bob","TR_1"⟩
    [.resume 2,.resume 1,.resume 1] rfl rfl ⟨rfl,rfl⟩ (by simp) (by simp)
  rw [getForTrack_takenBeforeRemoval] at hn
  cases hn

end OxideSfu.Signaling
