import OxideSfu.ForwardTrackIndex
import OxideSfu.StepRuns

/-!
# Interleaved calls on the forward-track store

Every critical section of a call is one step. A call that takes the lifecycle lock holds it from its
first section to its last; `remove_all_for_publisher` and `remove_participant` do not take it. Who
holds a lock can be read off the sections that are still to run.
-/

namespace OxideSfu.ForwardTracks

open FiniteMaps ForwardTrackStore StepRuns ForwardTrackKey List Option Bool

variable {T : Type}

inductive StoreCall (T : Type)
  | insert (key : ForwardTrackKey) (track : T) (active : Bool)
  | activateSubscriber (room subscriber : String)
  | activateSubscriberTrackSids (room subscriber : String) (trackSids : Finset String)
  | remove (key : ForwardTrackKey)
  | removeAllForPublisher (room publisher : String)
  | removeParticipant (room identity : String)

inductive AfterRebuild
  | publisher (room publisher : String)
  | participant (room identity : String)

/-- The next section of a running call, with the call's local variables. -/
inductive Section (T : Type)
  -- `insert_with_active`
  | insertCount (key : ForwardTrackKey) (track : T) (active : Bool)
  | insertIncarnation (key : ForwardTrackKey) (track : T) (active : Bool) (incarnation : UInt64)
  | insertTrack (key : ForwardTrackKey) (track : T) (active : Bool)
  | insertActive (key : ForwardTrackKey) (active : Bool)
  | insertIndex (key : ForwardTrackKey) (active : Bool)
  | insertRevision
  -- `activate_subscriber` and `activate_subscriber_track_sids`
  | activateCollect (selects : ForwardTrackKey→Bool)
  | activateActive (keys : Finset ForwardTrackKey)
  | activateIndex (keys : Finset ForwardTrackKey)
  | activateRevision (keys : Finset ForwardTrackKey)
  -- `remove`
  | removeActive (key : ForwardTrackKey)
  | removeIndex (key : ForwardTrackKey)
  | removeIncarnation (key : ForwardTrackKey)
  | removeTrack (key : ForwardTrackKey) (removedIncarnation : Bool)
  | removeRevision (changed : Bool)
  -- `remove_all_for_publisher`; the tracks stay locked until the revision is counted up
  | publisherTracks (room publisher : String)
  | publisherIndex (room publisher : String) (keys : Finset ForwardTrackKey)
  | publisherRevision (room publisher : String) (keys : Finset ForwardTrackKey)
  | publisherActive (room publisher : String)
  -- `remove_participant`
  | participantTracks (room identity : String)
  | participantActive (room identity : String)
  | participantRevision (room identity : String)
  -- `rebuild_active_index_from_active_set`
  | rebuildSnapshot (after : AfterRebuild)
  | rebuildIndex (index : FiniteMap ForwardTrackReaderKey (Finset ForwardTrackKey))
      (after : AfterRebuild)
  | started (after : AfterRebuild)

namespace Section

def holdsLifecycle : Section T→Bool
  | insertCount .. | insertIncarnation .. | insertTrack .. | insertActive .. | insertIndex ..
  | insertRevision | activateCollect .. | activateActive .. | activateIndex ..
  | activateRevision .. | removeActive .. | removeIndex .. | removeIncarnation ..
  | removeTrack .. | removeRevision .. => true | _ => false

def holdsTracks : Section T→Bool
  | publisherIndex .. | publisherRevision .. => true | _ => false

def locksTracks : Section T→Bool
  | insertTrack .. | activateCollect .. | removeTrack .. | publisherTracks ..
  | participantTracks .. => true | _ => false

def run (s : ForwardTrackStore T) : Section T → ForwardTrackStore T × Option (Section T)
  | insertCount key track active =>
    ({s with insertions := s.insertions+1},
      some (insertIncarnation key track active s.nextTargetIncarnation))
  | insertIncarnation key track active incarnation =>
    ({s with targetIncarnations := s.targetIncarnations.insert key incarnation},
      some (insertTrack key track active))
  | insertTrack key track active =>
    ({s with tracks := s.tracks.insert key track},some (insertActive key active))
  | insertActive key active =>
    ({s with active := if active then Insert.insert key s.active else s.active.erase key},
      some (insertIndex key active))
  | insertIndex key active => (s.setActiveIndexForKey key active,some insertRevision)
  | insertRevision => (s.bumpRevision,none)
  | activateCollect selects =>
    (s,some (activateActive (s.tracks.keys.filter (fun key => selects key))))
  | activateActive keys => ({s with active := s.active ∪ keys},some (activateIndex keys))
  | activateIndex keys => (s.setActiveIndexForKeys keys true,some (activateRevision keys))
  | activateRevision keys => (s.bumpRevisionIf (decide keys.Nonempty),none)
  | removeActive key => ({s with active := s.active.erase key},some (removeIndex key))
  | removeIndex key => (s.setActiveIndexForKey key false,some (removeIncarnation key))
  | removeIncarnation key =>
    ({s with targetIncarnations := s.targetIncarnations.erase key},
      some (removeTrack key (s.targetIncarnations.lookup key).isSome))
  | removeTrack key removedIncarnation =>
    ({s with tracks := s.tracks.erase key},
      some (removeRevision ((s.tracks.lookup key).isSome || removedIncarnation)))
  | removeRevision changed => (s.bumpRevisionIf changed,none)
  | publisherTracks room publisher =>
    let keys := s.tracks.keys.filter (fun key => key.room=room ∧ key.publisher=publisher)
    ({s with tracks := s.tracks.eraseAll keys},some (publisherIndex room publisher keys))
  | publisherIndex room publisher keys =>
    (s.setActiveIndexForKeys keys false,some (publisherRevision room publisher keys))
  | publisherRevision room publisher keys =>
    (s.bumpRevisionIf (decide keys.Nonempty),some (publisherActive room publisher))
  | publisherActive room publisher =>
    ({s with active :=
        s.active.filter (fun key => ¬(key.room=room ∧ key.publisher=publisher))},
      some (rebuildSnapshot (.publisher room publisher)))
  | participantTracks room identity =>
    ({s with tracks := s.tracks.filter (fun key _ => decide
        (key.room≠room ∨ (key.publisher≠identity ∧ key.subscriber≠identity)))},
      some (participantActive room identity))
  | participantActive room identity =>
    ({s with active := s.active.filter (fun key =>
        key.room≠room ∨ (key.publisher≠identity ∧ key.subscriber≠identity))},
      some (rebuildSnapshot (.participant room identity)))
  | participantRevision room identity =>
    (s.bumpRevision,some (started (.participant room identity)))
  | rebuildSnapshot after => (s,some (rebuildIndex (indexOfActive s.active) after))
  | rebuildIndex index (.publisher room publisher) =>
    ({s with activeByTrack := index},some (started (.publisher room publisher)))
  | rebuildIndex index (.participant room identity) =>
    ({s with activeByTrack := index},some (participantRevision room identity))
  | started (.publisher room publisher) =>
    ({s with started := s.started.filter (fun key _ =>
        !(key.room=room ∧ key.publisher=publisher))},none)
  | started (.participant room identity) =>
    ({s with started := s.started.filter (fun key _ =>
        (key.room≠room ∨ key.publisher≠identity))},none)

end Section

open Section

/-- The first section of a call; without track ids there is nothing to activate. -/
def StoreCall.entry : StoreCall T→Option (Section T)
  | .insert key track active => some (.insertCount key track active)
  | .activateSubscriber room subscriber =>
    some (.activateCollect (fun key => (key.room=room ∧ key.subscriber=subscriber)))
  | .activateSubscriberTrackSids room subscriber trackSids =>
    if trackSids=∅ then none
    else some (.activateCollect (fun key => decide
      (key.room=room ∧ key.subscriber=subscriber ∧ key.trackSid∈trackSids)))
  | .remove key => some (.removeActive key)
  | .removeAllForPublisher room publisher => some (.publisherTracks room publisher)
  | .removeParticipant room identity => some (.participantTracks room identity)

structure Configuration (T : Type) where
  store : ForwardTrackStore T
  running : FiniteMap ℕ (Section T)

namespace Configuration

def idle (s : ForwardTrackStore T) : Configuration T := ⟨s,.empty⟩

def anyRunning (c : Configuration T) (holds : Section T→Bool) : Bool :=
  ∃thread∈c.running.keys,(c.running.lookup thread).any holds

def moveTo (c : Configuration T) (thread : ℕ) (s : ForwardTrackStore T)
    (next : Option (Section T)) : Configuration T :=
  match next with
  | some next => ⟨s,c.running.insert thread next⟩ | none => ⟨s,c.running.erase thread⟩

end Configuration

open ForwardTracks.Configuration

inductive ThreadEvent (T : Type)
  | start (thread : ℕ) (call : StoreCall T)
  | advance (thread : ℕ)

/-- One event. A thread that is blocked by a lock, starts a call inside another one or has
nothing to run leaves everything as it is. -/
def threadStep (c : Configuration T) : ThreadEvent T → Configuration T
  | .start thread call =>
    match c.running.lookup thread,call.entry with
    | none, some entry =>
      if entry.holdsLifecycle && c.anyRunning Section.holdsLifecycle then c
      else c.moveTo thread c.store (some entry)
    | _, _ => c
  | .advance thread =>
    match c.running.lookup thread with
    | none => c
    | some current =>
      if current.locksTracks && c.anyRunning Section.holdsTracks then c
      else
        let (s,next) := current.run c.store
        c.moveTo thread s next

def configurationAfter (events : List (ThreadEvent T)) : Configuration T :=
  events.foldl threadStep (.idle .empty)

def StoreCall.operation : StoreCall T → StoreOperation T
  | .insert key track active => .insert key track active
  | .activateSubscriber room subscriber => .activateSubscriber room subscriber
  | .activateSubscriberTrackSids room subscriber trackSids =>
    .activateSubscriberTrackSids room subscriber trackSids
  | .remove key => .remove key
  | .removeAllForPublisher room publisher => .removeAllForPublisher room publisher
  | .removeParticipant room identity => .removeParticipant room identity

def onlyThread (thread : ℕ) : Option (Section T) → FiniteMap ℕ (Section T)
  | some current => FiniteMap.empty.insert thread current | none => .empty

variable (s : ForwardTrackStore T) (t : ℕ) (cu : Section T)

theorem anyRunning_onlyThread (holds : Section T→Bool) :
    (⟨s,onlyThread t (some cu)⟩ : Configuration T).anyRunning holds=holds cu := by
  simp [anyRunning,onlyThread,FiniteMap.empty]

theorem Section.locksTracks_and_holdsTracks : (cu.locksTracks && cu.holdsTracks)=false := by
  cases cu <;> rfl

theorem advance_onlyThread :
    threadStep ⟨s,onlyThread t (some cu)⟩ (.advance t) =
      ⟨(cu.run s).1,onlyThread t (cu.run s).2⟩ := by
  have hl : (onlyThread t (some cu)).lookup t=some cu := if_pos rfl
  rw [threadStep]
  simp only [hl,anyRunning_onlyThread,cu.locksTracks_and_holdsTracks]
  cases cu.run s with
  | mk after next =>
    cases next with
    | none =>
      have he : (onlyThread t (some cu)).erase t = .empty := by
        ext1 other
        by_cases ho : other=t <;> simp [onlyThread,ho]
      simp only [moveTo,he,false_eq_true,if_false]
      rfl
    | some next =>
      have hi : (onlyThread t (some cu)).insert t next=onlyThread t (some next) := by
        ext1 other
        by_cases ho : other=t <;> simp [onlyThread,ho]
      simp only [moveTo,hi,false_eq_true,if_false]

theorem advance_idle : threadStep ⟨s,onlyThread t none⟩ (.advance t)=⟨s,onlyThread t none⟩ := rfl

theorem start_idle (call : StoreCall T) :
    threadStep (.idle s) (.start t call)=⟨s,onlyThread t call.entry⟩ := by
  have hf : (idle s).anyRunning holdsLifecycle=false := by
    simp [anyRunning,idle,FiniteMap.empty]
  have hl : (idle s).running.lookup t=none := rfl
  rw [threadStep]
  cases call.entry with
  | none => rfl
  | some e =>
    simp only [hl,hf,Bool.and_false,Bool.false_eq_true,if_false]
    rfl

/-- A call that runs alone is the atomic operation; no call has more than seven sections. -/
theorem foldl_threadStep_alone [ForwardingTransport T] (s : ForwardTrackStore T) (t : ℕ)
    (call : StoreCall T) :
    (ThreadEvent.start t call::replicate 7 (.advance t)).foldl threadStep
      (.idle s) = .idle (s.apply call.operation) := by
  rw [foldl_cons,start_idle]
  cases call with
  | insert | remove | removeParticipant =>
    simp only [StoreCall.entry,replicate,foldl_cons,foldl_nil,advance_onlyThread,advance_idle,run]
    rfl
  | activateSubscriber room u =>
    simp only [StoreCall.entry,replicate,foldl_cons,foldl_nil,
      advance_onlyThread,advance_idle,run,decide_eq_true_eq]
    rfl
  | activateSubscriberTrackSids room u sids =>
    by_cases he : sids=∅
    · simp only [StoreCall.entry,replicate,foldl_cons,foldl_nil,advance_idle,
        if_pos he,StoreCall.operation,apply,activateSubscriberTrackSids]
      rfl
    · simp only [StoreCall.entry,replicate,foldl_cons,foldl_nil,
        advance_onlyThread,advance_idle,run,decide_eq_true_eq,if_neg he,
        StoreCall.operation,apply,activateSubscriberTrackSids]
      rfl
  | removeAllForPublisher room q =>
    simp only [StoreCall.entry,replicate,foldl_cons,foldl_nil,advance_onlyThread,run]
    rfl

/-- Calls one after another are a run of the operations. -/
theorem configurationAfter_serial [ForwardingTransport T] (cs : List (ℕ × StoreCall T)) :
    configurationAfter (cs.flatMap (fun c => .start c.1 c.2::replicate 7 (.advance c.1))) =
      .idle (storeAfter (cs.map (·.2.operation))) := by
  induction cs using reverseRecOn with
  | nil => rfl
  | append_singleton cs c ih =>
    rw [flatMap_append,flatMap_singleton,map_append,map_singleton,storeAfter_concat,
      ← foldl_threadStep_alone,← ih]
    exact foldl_append

def Section.changesActive : Section T→Bool
  | insertActive .. | activateActive .. | removeActive .. | publisherActive ..
  | participantActive .. => true | _ => false

/-- The section writes to the index what the call has learned of the active set. -/
def Section.writesIndex : Section T→Bool
  | insertIndex .. | activateIndex .. | removeIndex .. | rebuildIndex .. => true | _ => false

/-- The active set is changed only while no call has an index write to make. -/
def Undisturbed (c : Configuration T) : ThreadEvent T→Prop
  | .start _ _ => True
  | .advance thread =>
    (c.running.lookup thread).any Section.changesActive →
      c.anyRunning Section.writesIndex=false

instance (c : Configuration T) : (event : ThreadEvent T)→Decidable (Undisturbed c event)
  | .start .. => isTrue trivial
  | .advance thread => inferInstanceAs (Decidable
      ((c.running.lookup thread).any Section.changesActive → _))

def Section.covers : Section T → ForwardTrackKey→Prop
  | insertIndex key _, other | removeIndex key, other => other=key
  | activateIndex keys, other => other∈keys
  | publisherTracks ..,_ | publisherIndex ..,_ | publisherRevision ..,_
  | publisherActive ..,_ | participantTracks ..,_ | participantActive ..,_
  | rebuildSnapshot .., _ | rebuildIndex .., _ => True | _,_ => False

/-- What the call is about to write to the index is true of the active set. -/
def Section.Fresh (active : Finset ForwardTrackKey) : Section T→Prop
  | insertIndex key activated => key∈active ↔ activated | activateIndex keys => keys⊆active
  | removeIndex key => key∉active | rebuildIndex index _ => index=groupBy readerKey active
  | _ => True

variable {s : ForwardTrackStore T} {s' : ForwardTrackStore T} (cu : Section T)
  {keys : Finset ForwardTrackKey} {others : ForwardTrackKey→Prop}

theorem Section.run_active (h : cu.changesActive=false) : (cu.run s).1.active=s.active := by
  cases cu with
  | insertActive | activateActive | removeActive | publisherActive | participantActive => cases h
  | activateRevision | removeRevision | publisherRevision => exact bumpRevisionIf_active _ _
  | rebuildIndex i after => cases after <;> rfl
  | started after => cases after <;> rfl
  | _ => rfl

theorem Section.run_fresh {next : Section T} (hn : (cu.run s).2=some next) :
    next.Fresh (cu.run s).1.active := by
  cases cu with
  | insertActive key active =>
    obtain rfl := some.inj hn
    cases active <;> simp [run,Fresh]
  | activateActive keys =>
    obtain rfl := some.inj hn
    exact Finset.subset_union_right
  | removeActive key =>
    obtain rfl := some.inj hn
    exact Finset.notMem_erase key s.active
  | rebuildSnapshot after =>
    obtain rfl := some.inj hn
    exact indexOfActive_eq s.active
  | insertRevision => cases hn
  | activateRevision keys => cases hn
  | removeRevision changed => cases hn
  | rebuildIndex i after =>
    cases after <;> obtain rfl := some.inj hn <;> trivial
  | started after => cases after <;> cases hn
  | _ =>
    obtain rfl := some.inj hn
    trivial

/-- The index is the grouping of a set that agrees with the active set, apart from keys whose
index entry will still be written. -/
def Accounted (s : ForwardTrackStore T) (pending : ForwardTrackKey→Prop) : Prop :=
  ∃indexed,s.activeByTrack=groupBy readerKey indexed ∧
    ∀key,(key∈indexed ↔ key∈s.active) ∨ pending key

theorem Accounted.mono {pending pending' : ForwardTrackKey→Prop} (h : Accounted s pending)
    (hi : s'.activeByTrack=s.activeByTrack) (ha : s'.active=s.active)
    (hp : ∀key,pending key → pending' key) :
    Accounted s' pending' := by
  obtain ⟨indexed,hg,hk⟩ := h
  refine ⟨indexed,hi.trans hg,fun key => ?_⟩
  rw [ha]
  exact (hk key).imp_right (hp key)

/-- When keys get the index entries that the active set asks for, they need no longer be
pending. -/
theorem Accounted.written (h : Accounted s (fun key => key∈keys ∨ others key))
    (ha : s'.active=s.active)
    (hw : ∀indexed,s.activeByTrack=groupBy readerKey indexed →
      ∃indexed',s'.activeByTrack=groupBy readerKey indexed' ∧
        (∀key∈keys,key∈indexed' ↔ key∈s.active) ∧
        ∀key∉keys,key∈indexed' ↔ key∈indexed) :
    Accounted s' others := by
  obtain ⟨indexed,hg,hk⟩ := h
  obtain ⟨indexed',hg',hin,hout⟩ := hw indexed hg
  refine ⟨indexed',hg',fun key => ?_⟩
  rw [ha]
  by_cases hkey : key∈keys
  · exact .inl (hin key hkey)
  · rw [hout key hkey]
    exact (hk key).imp_right (fun hp => hp.resolve_left hkey)

theorem Accounted.setActiveIndexForKey {key : ForwardTrackKey} {active : Bool}
    (h : Accounted s (fun o => o=key ∨ others o)) (hf : key∈s.active ↔ active) :
    Accounted (s.setActiveIndexForKey key active) others := by
  have hk : Accounted s (fun o => o∈({key} : Finset _) ∨ others o) := by
    simpa only [Finset.mem_singleton] using h
  refine hk.written rfl (fun indexed hg => ?_)
  cases active with
  | true =>
    refine ⟨Insert.insert key indexed,?_,?_,?_⟩
    · simp only [ForwardTrackStore.setActiveIndexForKey,if_true,hg,addToGroup_groupBy]
    · simp [hf]
    · intro o ho
      simp [Finset.notMem_singleton.mp ho]
  | false =>
    refine ⟨indexed.erase key,?_,?_,?_⟩
    · simp only [ForwardTrackStore.setActiveIndexForKey,false_eq_true,if_false,hg,
        removeFromGroup_groupBy]
    · simp [hf]
    · intro o ho
      simp [Finset.notMem_singleton.mp ho]

theorem Accounted.addActiveIndexForKeys (h : Accounted s (fun key => key∈keys ∨ others key))
    (hf : keys⊆s.active) : Accounted (s.setActiveIndexForKeys keys true) others := by
  refine h.written rfl (fun indexed hg => ⟨indexed ∪ keys,?_,?_,?_⟩)
  · simp only [setActiveIndexForKeys,if_true,hg,addAllToGroups_groupBy]
  · intro key hkey
    simp [hkey,hf hkey]
  · intro key hkey
    simp [hkey]

/-- The active set may change where the index entry is still to be written. -/
theorem Accounted.changeActive {covered : ForwardTrackKey→Prop} (h : Accounted s others)
    (hi : s'.activeByTrack=s.activeByTrack)
    (ha : ∀key,covered key ∨ (key∈s'.active ↔ key∈s.active)) :
    Accounted s' (fun key => covered key ∨ others key) := by
  obtain ⟨indexed,hg,hk⟩ := h
  refine ⟨indexed,hi.trans hg,fun key => ?_⟩
  rcases ha key with hc | hs
  · exact .inr (.inl hc)
  · rw [hs]
    exact (hk key).imp_right .inr

/-- A section pays for the keys that its call no longer covers afterwards. -/
theorem Section.run_accounted (h : Accounted s (fun key => cu.covers key ∨ others key))
    (hf : cu.Fresh s.active) :
    Accounted (cu.run s).1
      (fun key => (∃next,(cu.run s).2=some next ∧ next.covers key) ∨ others key) := by
  have hot (hc : ∀key,¬cu.covers key) : Accounted s others :=
    h.mono rfl rfl (fun key hkey => hkey.resolve_left (hc key))
  cases cu with
  | insertActive key active =>
    refine (hot (fun _ => id)).changeActive rfl (fun o => ?_)
    by_cases ho : o=key
    · exact .inl ⟨_,rfl,ho⟩
    · cases active <;> simp [run,ho]
  | activateActive keys =>
    refine (hot (fun _ => id)).changeActive rfl (fun o => ?_)
    by_cases ho : o∈keys
    · exact .inl ⟨_,rfl,ho⟩
    · simp [run,ho]
  | removeActive key =>
    refine (hot (fun _ => id)).changeActive rfl (fun o => ?_)
    by_cases ho : o=key
    · exact .inl ⟨_,rfl,ho⟩
    · simp [run,ho]
  | insertIndex key active =>
    exact (Accounted.setActiveIndexForKey h hf).mono rfl rfl (fun _ => .inr)
  | activateIndex keys =>
    exact (Accounted.addActiveIndexForKeys h hf).mono rfl rfl (fun _ => .inr)
  | removeIndex key =>
    exact (Accounted.setActiveIndexForKey h (iff_of_false hf false_ne_true)).mono rfl rfl
      (fun _ => .inr)
  -- the calls that rebuild the index cover every key until they do
  | publisherIndex room q keys =>
    obtain ⟨indexed,hg,-⟩ := h
    refine ⟨indexed \ keys,?_,fun key => .inr (.inl ⟨_,rfl,trivial⟩)⟩
    simp only [run,setActiveIndexForKeys,false_eq_true,if_false,hg,removeAllFromGroups_groupBy]
  | publisherRevision room q keys =>
    obtain ⟨indexed,hg,-⟩ := h
    exact ⟨indexed,(bumpRevisionIf_activeByTrack _ _).trans hg,
      fun key => .inr (.inl ⟨_,rfl,trivial⟩)⟩
  | publisherTracks | publisherActive | participantTracks | participantActive | rebuildSnapshot =>
    obtain ⟨indexed,hg,-⟩ := h
    exact ⟨indexed,hg,fun key => .inr (.inl ⟨_,rfl,trivial⟩)⟩
  | rebuildIndex i after =>
    cases after <;> exact ⟨s.active,hf,fun key => .inl Iff.rfl⟩
  | activateRevision | removeRevision =>
    exact (hot (fun _ => id)).mono (bumpRevisionIf_activeByTrack _ _) (bumpRevisionIf_active _ _)
      (fun _ => .inr)
  | started after => cases after <;> exact (hot (fun _ => id)).mono rfl rfl (fun _ => .inr)
  | _ => exact (hot (fun _ => id)).mono rfl rfl (fun _ => .inr)

/-- The invariant of all interleavings in which nothing disturbs an index write. -/
structure IndexAccounted (c : Configuration T) : Prop where
  accounted : Accounted c.store (fun key =>
    ∃thread current,c.running.lookup thread=some current ∧ current.covers key)
  fresh : ∀thread current,c.running.lookup thread=some current →
    current.Fresh c.store.active

variable {en : Section T}

theorem StoreCall.entry_fresh (call : StoreCall T)
    (he : call.entry=some en) (active : Finset ForwardTrackKey) : en.Fresh active := by
  cases call with
  | activateSubscriberTrackSids room u sids =>
    rw [StoreCall.entry] at he
    split_ifs at he
    obtain rfl := some.inj he
    trivial
  | _ =>
    obtain rfl := some.inj he
    trivial

variable (c : Configuration T) (events : List (ThreadEvent T))

theorem lookup_moveTo (t : ℕ) (s : ForwardTrackStore T) (next : Option (Section T)) (o : ℕ) :
    (c.moveTo t s next).running.lookup o =
      if o=t then next else c.running.lookup o := by
  cases next <;> rfl

theorem threadStep_cases (e : ThreadEvent T) :
    threadStep c e=c ∨
      (∃t call en,e = .start t call ∧ c.running.lookup t=none ∧
        call.entry=some en ∧
        (en.holdsLifecycle → c.anyRunning holdsLifecycle=false) ∧
        threadStep c e=c.moveTo t c.store (some en)) ∨
      ∃t cu,e = .advance t ∧ c.running.lookup t=some cu ∧
        threadStep c e=c.moveTo t (cu.run c.store).1 (cu.run c.store).2 := by
  cases e with
  | start t call =>
    cases hl : c.running.lookup t with
    | some cu => exact .inl (by simp only [threadStep,hl])
    | none =>
      cases he : call.entry with
      | none => exact .inl (by simp only [threadStep,hl,he])
      | some en =>
        by_cases hb : (en.holdsLifecycle && c.anyRunning holdsLifecycle)
        · exact .inl (by simp only [threadStep,hl,he,if_pos hb])
        · refine .inr (.inl ⟨t,call,en,rfl,hl,he,?_,?_⟩)
          · intro hh
            simpa [hh] using hb
          · simp only [threadStep,hl,he,if_neg hb]
  | advance t =>
    cases hl : c.running.lookup t with
    | none => exact .inl (by simp only [threadStep,hl])
    | some cu =>
      by_cases hb : (cu.locksTracks && c.anyRunning holdsTracks)
      · exact .inl (by simp only [threadStep,hl,if_pos hb])
      · refine .inr (.inr ⟨t,cu,rfl,hl,?_⟩)
        simp only [threadStep,hl,if_neg hb]

theorem Configuration.anyRunning_eq_false_iff (holds : Section T→Bool) :
    c.anyRunning holds=false ↔ ∀t cu,c.running.lookup t=some cu → holds cu=false := by
  rw [anyRunning,decide_eq_false_iff_not]
  constructor
  · intro hn t cu hc
    by_contra hh
    refine hn ⟨t,FiniteMap.mem_keys_of_lookup hc,?_⟩
    simpa [hc] using hh
  · rintro hall ⟨t,-,hh⟩
    cases hc : c.running.lookup t with
    | none => simp [hc] at hh
    | some cu => simp [hc,hall t cu hc] at hh

@[simp] theorem moveTo_store (t : ℕ) (s : ForwardTrackStore T) (next : Option (Section T)) :
    (c.moveTo t s next).store=s := by
  cases next <;> rfl

theorem Section.Fresh.of_not_writesIndex {c : Section T}
    (h : c.writesIndex=false) (active : Finset ForwardTrackKey) :
    c.Fresh active := by
  cases c with
  | insertIndex | activateIndex | removeIndex | rebuildIndex => cases h
  | _ => trivial

variable {c}

variable (h : IndexAccounted c)
include h

theorem IndexAccounted.start {t : ℕ}
    (hi : c.running.lookup t=none) {call : StoreCall T} (he : call.entry=some en) :
    IndexAccounted (c.moveTo t c.store (some en)) where
  accounted := by
    refine h.accounted.mono rfl rfl (fun key hkey => ?_)
    obtain ⟨o,cu,hc,hco⟩ := hkey
    refine ⟨o,cu,?_,hco⟩
    rw [lookup_moveTo,if_neg,hc]
    rintro rfl
    simp [hi] at hc
  fresh o cu hc := by
    rw [lookup_moveTo] at hc
    split_ifs at hc
    · obtain rfl := some.inj hc
      exact call.entry_fresh he _
    · exact h.fresh o cu hc

theorem IndexAccounted.advance {t : ℕ} {cu : Section T}
    (hl : c.running.lookup t=some cu) (hu : Undisturbed c (.advance t)) :
    IndexAccounted (c.moveTo t (cu.run c.store).1 (cu.run c.store).2) where
  accounted := by
    rw [moveTo_store]
    -- the other threads go on covering what they covered
    have hs : Accounted c.store (fun key => cu.covers key ∨
        ∃o running,o≠t ∧ c.running.lookup o=some running ∧ running.covers key) := by
      refine h.accounted.mono rfl rfl (fun key hkey => ?_)
      obtain ⟨o,running,hr,hc⟩ := hkey
      by_cases ho : o=t
      · rw [ho,hl] at hr
        obtain rfl := some.inj hr
        exact .inl hc
      · exact .inr ⟨o,running,ho,hr,hc⟩
    refine (cu.run_accounted hs (h.fresh t cu hl)).mono rfl rfl ?_
    rintro key (⟨next,hne,hc⟩ | ⟨o,running,ho,hr,hc⟩)
    · refine ⟨t,next,?_,hc⟩
      rw [lookup_moveTo,if_pos rfl,hne]
    · refine ⟨o,running,?_,hc⟩
      rw [lookup_moveTo,if_neg ho,hr]
  fresh o running hr := by
    rw [moveTo_store]
    rw [lookup_moveTo] at hr
    split_ifs at hr
    · exact cu.run_fresh hr
    · cases hch : cu.changesActive with
      | false =>
        rw [cu.run_active hch]
        exact h.fresh o running hr
      | true =>
        have hn := hu (by simp [hl,hch])
        rw [anyRunning_eq_false_iff] at hn
        exact .of_not_writesIndex (hn o running hr) _

theorem IndexAccounted.threadStep (e : ThreadEvent T) (hu : Undisturbed c e) :
    IndexAccounted (threadStep c e) := by
  rcases threadStep_cases c e with hsame | ⟨t,call,en,rfl,hi,he,-,hs⟩ | ⟨t,current,rfl,hl,hs⟩
  · rw [hsame]
    exact h
  · rw [hs]
    exact h.start hi he
  · rw [hs]
    exact h.advance hl hu

omit h

variable (c)

theorem configurationAfter_concat (e : ThreadEvent T) :
    configurationAfter (events++[e])=threadStep (configurationAfter events) e := by
  rw [configurationAfter,foldl_append]
  rfl

theorem indexAccounted_configurationAfter
    (h : AtEveryStep (fun earlier => Undisturbed (configurationAfter earlier)) events) :
    IndexAccounted (configurationAfter events) := by
  induction events using reverseRecOn with
  | nil => exact ⟨⟨∅,groupBy_empty.symm,fun _ => .inl Iff.rfl⟩,fun _ _ hc => by cases hc⟩
  | append_singleton events event ih =>
    rw [atEveryStep_concat] at h
    rw [configurationAfter_concat]
    exact (ih h.1).threadStep event h.2

/-- No activation is lost: the index is the grouping of the active set, and every active
target is listed for its track. -/
structure ActiveListed (s : ForwardTrackStore T) : Prop where
  grouped : s.activeByTrack=groupBy readerKey s.active
  listed : ∀key∈s.active,key∈s.activeKeys key.readerKey

theorem IndexAccounted.activeListed {c : Configuration T} (h : IndexAccounted c)
    (hf : c.running.keys=∅) : ActiveListed c.store := by
  obtain ⟨indexed,hg,hk⟩ := h.accounted
  have hs : indexed=c.store.active := by
    ext key
    apply (hk key).resolve_right
    rintro ⟨t,cu,hc,-⟩
    have hmem := FiniteMap.mem_keys_of_lookup hc
    simp [hf] at hmem
  rw [hs] at hg
  refine ⟨hg,fun key hkey => ?_⟩
  rw [activeKeys,hg,mem_getD_lookup_groupBy]
  exact ⟨hkey,rfl⟩

/-- In every interleaving in which no call changes the active set while another one has an
index write to make, the index is right once all calls have finished. -/
theorem activeListed_of_undisturbed (events : List (ThreadEvent T))
    (hundisturbed : AtEveryStep (fun earlier => Undisturbed (configurationAfter earlier)) events)
    (hfinished : (configurationAfter events).running.keys = ∅) :
    ActiveListed (configurationAfter events).store :=
  (indexAccounted_configurationAfter events hundisturbed).activeListed hfinished

def listedTarget : ForwardTrackKey := ⟨"room","alice","TR","bob"⟩

/-- A participant leaves while a target is inserted for others; its rebuild comes last. -/
def leaveAroundInsert : List (ThreadEvent Unit) :=
  [.start 0 (.removeParticipant "room" "carol"),.advance 0,
    .start 1 (.insert listedTarget () true)]++replicate 6 (.advance 1) ++
  replicate 5 (.advance 0)

theorem activeListed_leaveAroundInsert :
    listedTarget ∈ (configurationAfter leaveAroundInsert).store.active ∧
      ActiveListed (configurationAfter leaveAroundInsert).store :=
  ⟨by decide +kernel,activeListed_of_undisturbed leaveAroundInsert (by decide +kernel)
    (by decide +kernel)⟩

/-- The same two calls, with the insertion between the snapshot of the active set and the
overwriting of the index. -/
def insertDuringRebuild : List (ThreadEvent Unit) :=
  .start 0 (.removeParticipant "room" "carol")::replicate 3 (.advance 0) ++
  .start 1 (.insert listedTarget () true)::replicate 6 (.advance 1) ++
  replicate 3 (.advance 0)

/-- All calls have finished, and the inserted target is active but listed nowhere. -/
theorem insertDuringRebuild_loses_activation :
    (configurationAfter insertDuringRebuild).running.keys = ∅ ∧
      listedTarget ∈ (configurationAfter insertDuringRebuild).store.active ∧
      ¬ActiveListed (configurationAfter insertDuringRebuild).store := by
  refine ⟨by decide +kernel,by decide +kernel,fun h => ?_⟩
  have hmem := h.listed listedTarget (by decide +kernel)
  revert hmem
  decide +kernel

def StoreCall.takesLifecycle : StoreCall T→Bool
  | .removeAllForPublisher .. | .removeParticipant .. => false | _ => true

theorem StoreCall.entry_holdsLifecycle (call : StoreCall T)
    (he : call.entry=some en) : en.holdsLifecycle=call.takesLifecycle := by
  cases call with
  | activateSubscriberTrackSids room u sids =>
    rw [StoreCall.entry] at he
    split_ifs at he
    obtain rfl := some.inj he
    rfl
  | _ =>
    obtain rfl := some.inj he
    rfl

theorem Section.run_holdsLifecycle (c : Section T) (s : ForwardTrackStore T)
    {next : Section T} (hn : (c.run s).2=some next) :
    next.holdsLifecycle=c.holdsLifecycle := by
  cases c with
  | insertRevision | activateRevision | removeRevision => cases hn
  | rebuildIndex i after => cases after <;> obtain rfl := some.inj hn <;> rfl
  | started after => cases after <;> cases hn
  | _ =>
    obtain rfl := some.inj hn
    rfl

/-- At most one call runs, and it holds the lock. -/
structure LockedOut (c : Configuration T) : Prop where
  holds : ∀thread current,c.running.lookup thread=some current →
    current.holdsLifecycle
  unique : ∀thread other current running,c.running.lookup thread=some current →
    c.running.lookup other=some running → other=thread

theorem LockedOut.undisturbed {c : Configuration T} (h : LockedOut c) (e : ThreadEvent T) :
    Undisturbed c e := by
  cases e with
  | start t call => trivial
  | advance t =>
    intro hc
    rw [anyRunning_eq_false_iff]
    intro o running hr
    cases hcu : c.running.lookup t with
    | none => simp [hcu] at hc
    | some cu =>
      obtain rfl := h.unique t o cu running hcu hr
      rw [hr] at hc
      cases running with
      | insertIndex | activateIndex | removeIndex | rebuildIndex => cases hc
      | _ => rfl

theorem LockedOut.threadStep {c : Configuration T} (h : LockedOut c) (e : ThreadEvent T)
    (hlo : ∀t call,e = .start t call → call.takesLifecycle) :
    LockedOut (threadStep c e) := by
  rcases threadStep_cases c e with hsame | ⟨t,call,en,rfl,hi,he,hfr,hst⟩ | ⟨t,current,rfl,hl,hst⟩
  · rw [hsame]
    exact h
  · have hh : en.holdsLifecycle := by
      rw [call.entry_holdsLifecycle he,hlo t call rfl]
    -- nobody else is inside a call, since all calls hold the lock
    have hn : ∀o,c.running.lookup o=none := by
      intro o
      cases ho : c.running.lookup o with
      | none => rfl
      | some running =>
        have hfr := (c.anyRunning_eq_false_iff _).mp (hfr hh) o running ho
        simp [h.holds o running ho] at hfr
    rw [hst]
    constructor
    · intro o running hr
      rw [lookup_moveTo,hn] at hr
      split_ifs at hr
      obtain rfl := some.inj hr
      exact hh
    · intro first b _ _ hfi hse
      rw [lookup_moveTo,hn] at hfi hse
      split_ifs at hfi hse with hf hs
      rw [hf,hs]
  · have hmem : ∀o running,
        (c.moveTo t (current.run c.store).1 (current.run c.store).2).running.lookup o =
          some running → o=t ∧ running.holdsLifecycle := by
      intro o running hr
      rw [lookup_moveTo] at hr
      split_ifs at hr with ho
      · refine ⟨ho,?_⟩
        rw [current.run_holdsLifecycle c.store hr]
        exact h.holds t current hl
      · exact absurd (h.unique t o current running hl hr) ho
    rw [hst]
    exact ⟨fun o running hr => (hmem o running hr).2,
      fun first b _ _ hfi hse =>
        (hmem b _ hse).1.trans (hmem first _ hfi).1.symm⟩

variable (es : List (ThreadEvent T))

theorem lockedOut_configurationAfter
    (hl : ∀thread call,.start thread call∈events → call.takesLifecycle) :
    LockedOut (configurationAfter events) := by
  induction events using reverseRecOn with
  | nil => exact ⟨fun _ _ h => (nomatch h),fun _ _ _ _ h => (nomatch h)⟩
  | append_singleton events event ih =>
    rw [configurationAfter_concat]
    apply LockedOut.threadStep
    · exact ih (fun thread call hmem => hl thread call (mem_append_left _ hmem))
    · rintro thread call rfl
      exact hl thread call (by simp)

/-- Where every call takes the lifecycle lock, no activation is lost: the two calls that
rebuild the index are the only ones that disturb others. -/
theorem activeListed_of_takesLifecycle
    (hl : ∀thread call,.start thread call∈es → call.takesLifecycle)
    (hf : (configurationAfter es).running.keys=∅) :
    ActiveListed (configurationAfter es).store := by
  refine (indexAccounted_configurationAfter es ?_).activeListed hf
  rintro earlier event later rfl
  apply LockedOut.undisturbed
  apply lockedOut_configurationAfter
  intro thread call hmem
  exact hl thread call (mem_append_left _ hmem)

/-- A second thread wants to activate the target while the first one inserts it, and gets the lock
afterwards; then the first one has to wait with the removal. -/
def contendedInsert : List (ThreadEvent Unit) :=
  [.start 0 (.insert listedTarget () false),.advance 0,
    .start 1 (.activateSubscriber "room" "bob"),.advance 1] ++ replicate 5 (.advance 0) ++
  [.start 1 (.activateSubscriber "room" "bob"),.advance 1,.start 0 (.remove listedTarget),
    .advance 0] ++ replicate 4 (.advance 1)

theorem activeListed_contendedInsert :
    (configurationAfter (contendedInsert.take 4)).running.keys = {0} ∧
      (configurationAfter (contendedInsert.take 13)).running.keys = {1} ∧
      listedTarget ∈ (configurationAfter contendedInsert).store.active ∧
      ActiveListed (configurationAfter contendedInsert).store := by
  refine ⟨by decide +kernel,by decide +kernel,by decide +kernel,
    activeListed_of_takesLifecycle contendedInsert (fun thread call hmem => ?_) (by decide +kernel)⟩
  simp [contendedInsert] at hmem
  rcases hmem with ⟨-,rfl⟩ | ⟨-,rfl⟩ | ⟨-,rfl⟩ <;> rfl

end OxideSfu.ForwardTracks
