import OxideSfu.StepRuns
import OxideSfu.SubscriptionStores

/-!
# Debounced track settings

Settings for a track wait for a debounce time, except those that switch a disabled track on
(`media/track_settings.rs`, `signal_request.rs`). A setting that waits has a generation, and its
timer applies it only while it is the one that waits. Timers may fire late, in any order and more
than once.
-/

namespace OxideSfu.Signaling

open FiniteMaps TrackSettingsStore FiniteMap List Option Nat

inductive SettingsEvent
  | schedule (room identity : String) (request : UpdateTrackSettings)
  | apply (key : TrackSettingsKey) (generation : UInt64)

def settingsStep (s : TrackSettingsStore) : SettingsEvent → TrackSettingsStore
  | .schedule room identity request => (s.scheduleFromRequest room identity request).2
  | .apply key generation => (s.applyPendingForTrack key generation).2

def settingsAfter (events : List SettingsEvent) : TrackSettingsStore :=
  events.foldl settingsStep .empty

def changes (s : TrackSettingsStore) : SettingsEvent → ℕ
  | .schedule room identity request =>
    (s.scheduleFromRequest room identity request).1.immediate.length
  | .apply key generation =>
    if (s.applyPendingForTrack key generation).2.getForTrack key=s.getForTrack key then 0 else 1

def changeCount (events : List SettingsEvent) : ℕ :=
  (events.foldl (fun acc event => (acc.1+changes acc.2 event,settingsStep acc.2 event))
    (0,empty)).1

variable (events : List SettingsEvent)

theorem settingsAfter_concat (e : SettingsEvent) :
    settingsAfter (events++[e])=settingsStep (settingsAfter events) e :=
  foldl_append

theorem changeCount_concat (event : SettingsEvent) :
    changeCount (events++[event])=changeCount events+changes (settingsAfter events) event := by
  have hs : ∀events : List SettingsEvent,
      (events.foldl (fun acc event => (acc.1+changes acc.2 event,settingsStep acc.2 event))
        (0,empty)).2=settingsAfter events := by
    intro events
    induction events using reverseRecOn with
    | nil => rfl
    | append_singleton events event ih =>
      rw [foldl_append,settingsAfter_concat,← ih]
      rfl
  rw [changeCount,foldl_append,← hs events]
  rfl

variable {s : TrackSettingsStore}

def putSetting (s : TrackSettingsStore) (key : TrackSettingsKey) (setting : UpdateTrackSettings) :
    TrackSettingsStore :=
  markChanged {s with settings := s.settings.insert key setting} key

theorem upsertFromRequest_single (s : TrackSettingsStore) (room i sid : String)
    (st : UpdateTrackSettings) (hs : st.trackSids=[sid]) :
    s.upsertFromRequest room i st =
      if s.settings.lookup ⟨room,i,sid⟩=some st then s
      else putSetting s ⟨room,i,sid⟩ st := by
  have hown : forTrack st sid=st := by
    rw [forTrack,← hs]
  rw [upsertFromRequest,hs,foldl_cons,upsertForTrack]
  simp only [hown]
  rfl

/-- What one track of a request does: it confirms the setting in force, takes effect at once,
or waits under the next generation. -/
theorem scheduleForTrack_cases (room i : String) (r : UpdateTrackSettings)
    (sc : Scheduled) (s : TrackSettingsStore) (sid : String) :
    (s.settings.lookup ⟨room,i,sid⟩=some (forTrack r sid) ∧
      scheduleForTrack room i r (sc,s) sid=(sc,s.dropPending ⟨room,i,sid⟩)) ∨
    (s.settings.lookup ⟨room,i,sid⟩≠some (forTrack r sid) ∧
      scheduleForTrack room i r (sc,s) sid =
        ({sc with immediate := sc.immediate++[sid]},
          (putSetting s ⟨room,i,sid⟩ (forTrack r sid)).dropPending ⟨room,i,sid⟩)) ∨
    (s.settings.lookup ⟨room,i,sid⟩≠some (forTrack r sid) ∧
      scheduleForTrack room i r (sc,s) sid =
        ({sc with deferred := sc.deferred++[(sid,s.nextPendingGeneration+1)]},
          {s with
            nextPendingGeneration := s.nextPendingGeneration+1
            pending := s.pending.insert ⟨room,i,sid⟩
              (s.nextPendingGeneration+1,forTrack r sid)})) := by
  have hu := upsertFromRequest_single s room i sid (forTrack r sid) rfl
  unfold scheduleForTrack getForTrack
  dsimp only
  by_cases hs : s.settings.lookup ⟨room,i,sid⟩=some (forTrack r sid)
  · rw [if_pos hs]
    exact .inl ⟨hs,rfl⟩
  · rw [if_neg hs] at hu ⊢
    split_ifs
    · rw [hu]
      exact .inr (.inl ⟨hs,rfl⟩)
    · exact .inr (.inr ⟨hs,rfl⟩)

/-- A timer does nothing unless its generation waits. -/
theorem applyPendingForTrack_cases (s : TrackSettingsStore) (key : TrackSettingsKey) (g : UInt64) :
    ((s.applyPendingForTrack key g).2=s ∧ ∀st,s.pending.lookup key≠some (g,st)) ∨
    ∃st,s.pending.lookup key=some (g,st) ∧
      (s.applyPendingForTrack key g).2 =
        (s.dropPending key).upsertFromRequest key.room key.identity st := by
  rw [applyPendingForTrack]
  cases s.pending.lookup key with
  | none => exact .inl ⟨rfl,by simp⟩
  | some w =>
    obtain ⟨candidate,st⟩ := w
    dsimp only
    split_ifs with hg
    · exact .inr ⟨st,by rw [hg],rfl⟩
    · refine .inl ⟨rfl,?_⟩
      intro o ho
      exact hg (Prod.mk.inj (some.inj ho)).1

variable {generation : UInt64}

def OwnTracks (s : TrackSettingsStore) : Prop :=
  ∀key generation setting,s.pending.lookup key=some (generation,setting) →
    setting.trackSids=[key.trackSid]

namespace OwnTracks

variable (h : OwnTracks s)

include h

theorem dropPending (key : TrackSettingsKey) : OwnTracks (s.dropPending key) := by
  intro o g st ho
  simp only [TrackSettingsStore.dropPending,lookup_erase] at ho
  split_ifs at ho
  exact h o g st ho

theorem schedule (room i : String) (r : UpdateTrackSettings) :
    OwnTracks (s.scheduleFromRequest room i r).2 := by
  refine foldlRecOn (motive := fun acc : Scheduled × TrackSettingsStore => OwnTracks acc.2)
    _ _ h ?_
  rintro ⟨sc,s⟩ hs sid -
  obtain ⟨-,heq⟩ | ⟨-,heq⟩ | ⟨-,heq⟩ := scheduleForTrack_cases room i r sc s sid
  · rw [heq]
    exact dropPending hs _
  · rw [heq]
    exact dropPending (s := putSetting _ _ _) hs _
  · rw [heq]
    intro o g st ho
    simp only [lookup_insert] at ho
    split_ifs at ho with hkey
    · obtain ⟨-,rfl⟩ := Prod.mk.inj (some.inj ho)
      rw [hkey]
      rfl
    · exact hs o g st ho

theorem apply_eq {key : TrackSettingsKey}
    {st : UpdateTrackSettings} (hp : s.pending.lookup key=some (generation,st)) :
    (s.applyPendingForTrack key generation).2 =
      if s.settings.lookup key=some st then s.dropPending key
      else putSetting (s.dropPending key) key st := by
  obtain ⟨-,hnot⟩ | ⟨found,hf,heq⟩ := applyPendingForTrack_cases s key generation
  · exact absurd hp (hnot st)
  · rw [hp] at hf
    obtain ⟨-,rfl⟩ := Prod.mk.inj (some.inj hf)
    rw [heq,upsertFromRequest_single _ _ _ _ _ (h key generation st hp)]
    rfl

theorem step (e : SettingsEvent) : OwnTracks (settingsStep s e) := by
  cases e with
  | schedule room i r => exact h.schedule room i r
  | apply key g =>
    rw [settingsStep]
    obtain ⟨heq,-⟩ | ⟨st,hp,-⟩ := applyPendingForTrack_cases s key g
    · rw [heq]
      exact h
    · rw [h.apply_eq hp]
      split_ifs
      · exact h.dropPending key
      · exact h.dropPending key

end OwnTracks

theorem ownTracks_settingsAfter (es : List SettingsEvent) : OwnTracks (settingsAfter es) := by
  induction es using reverseRecOn with
  | nil =>
    intro key g st h
    cases h
  | append_singleton es e ih =>
    rw [settingsAfter_concat]
    exact ih.step e

def SettingsEvent.Names (key : TrackSettingsKey) : SettingsEvent→Prop
  | .schedule room identity request =>
    key.room=room ∧ key.identity=identity ∧ key.trackSid∈request.trackSids
  | .apply _ _ => False

def InForce (key : TrackSettingsKey) (setting : UpdateTrackSettings) (s : TrackSettingsStore) :
    Prop :=
  s.pending.lookup key=none ∧ s.settings.lookup key=some setting

/-- The setting waits under the generation, or it is in force. -/
def WaitsOrInForce (key : TrackSettingsKey) (generation : UInt64)
    (setting : UpdateTrackSettings) (s : TrackSettingsStore) : Prop :=
  s.pending.lookup key=some (generation,setting) ∨ InForce key setting s

variable {key : TrackSettingsKey} {st : UpdateTrackSettings}

theorem scheduleForTrack_other {room i sid : String} (r : UpdateTrackSettings)
    (sc : Scheduled) (s : TrackSettingsStore) (hkey : key≠⟨room,i,sid⟩) :
    (scheduleForTrack room i r (sc,s) sid).2.settings.lookup key=s.settings.lookup key ∧
      (scheduleForTrack room i r (sc,s) sid).2.pending.lookup key=s.pending.lookup key ∧
      (scheduleForTrack room i r (sc,s) sid).2.revisionForTrack key=s.revisionForTrack key := by
  obtain ⟨-,heq⟩ | ⟨-,heq⟩ | ⟨-,heq⟩ := scheduleForTrack_cases room i r sc s sid
  · rw [heq]
    simp [dropPending,revisionForTrack,hkey]
  · rw [heq]
    simp [dropPending,putSetting,markChanged,revisionForTrack,hkey]
  · rw [heq]
    simp [revisionForTrack,hkey]

theorem mem_deferred_scheduleForTrack (room i : String) (r : UpdateTrackSettings) {sc : Scheduled}
    (s : TrackSettingsStore) (sid : String) {e : String × UInt64} (h : e∈sc.deferred) :
    e∈(scheduleForTrack room i r (sc,s) sid).1.deferred := by
  obtain ⟨-,heq⟩ | ⟨-,heq⟩ | ⟨-,heq⟩ := scheduleForTrack_cases room i r sc s sid
  · rw [heq]
    exact h
  · rw [heq]
    exact h
  · rw [heq]
    exact mem_append_left _ h

/-- What a request leaves for a track it names: its setting in force, or waiting under a
generation that the request returned. -/
def LeavesSetting (key : TrackSettingsKey) (request : UpdateTrackSettings)
    (acc : Scheduled × TrackSettingsStore) : Prop :=
  InForce key (forTrack request key.trackSid) acc.2 ∨
    ∃generation,acc.2.pending.lookup key=some (generation,forTrack request key.trackSid) ∧
      (key.trackSid,generation)∈acc.1.deferred

theorem leavesSetting_scheduleForTrack (key : TrackSettingsKey) (r : UpdateTrackSettings)
    (acc : Scheduled × TrackSettingsStore) :
    LeavesSetting key r (scheduleForTrack key.room key.identity r acc key.trackSid) := by
  obtain ⟨sc,s⟩ := acc
  obtain ⟨hs,heq⟩ | ⟨-,heq⟩ | ⟨-,heq⟩ :=
    scheduleForTrack_cases key.room key.identity r sc s key.trackSid
  · rw [heq]
    exact .inl ⟨if_pos rfl,hs⟩
  · rw [heq]
    exact .inl ⟨if_pos rfl,if_pos rfl⟩
  · rw [heq]
    exact .inr ⟨_,if_pos rfl,mem_append_right _ mem_cons_self⟩

variable {r : UpdateTrackSettings}

theorem LeavesSetting.scheduleForTrack {acc : Scheduled × TrackSettingsStore}
    (h : LeavesSetting key r acc) (sid : String) :
    LeavesSetting key r (scheduleForTrack key.room key.identity r acc sid) := by
  by_cases ht : sid=key.trackSid
  · rw [ht]
    exact leavesSetting_scheduleForTrack key r acc
  · obtain ⟨sc,s⟩ := acc
    have hkey : key≠⟨key.room,key.identity,sid⟩ := by
      intro heq
      exact ht (congrArg TrackSettingsKey.trackSid heq).symm
    obtain ⟨hs,hp,-⟩ := scheduleForTrack_other r sc s hkey
    obtain ⟨hn,hf⟩ | ⟨g,hw,hd⟩ := h
    · exact .inl ⟨hp.trans hn,hs.trans hf⟩
    · exact .inr ⟨g,hp.trans hw,mem_deferred_scheduleForTrack key.room key.identity r s sid hd⟩

variable (s)

theorem leavesSetting_scheduleFromRequest (ht : key.trackSid∈r.trackSids) :
    LeavesSetting key r (s.scheduleFromRequest key.room key.identity r) := by
  obtain ⟨b,after,hs⟩ := append_of_mem ht
  rw [scheduleFromRequest,hs,foldl_append]
  -- The named track settles the matter; the tracks after it keep what it left.
  refine foldlRecOn (motive := LeavesSetting key r) after _
    (leavesSetting_scheduleForTrack key r _) ?_
  intro acc hacc sid _
  exact hacc.scheduleForTrack sid

theorem scheduleFromRequest_other {room i : String}
    (ho : ¬ (SettingsEvent.schedule room i r).Names key) :
    (s.scheduleFromRequest room i r).2.settings.lookup key=s.settings.lookup key ∧
      (s.scheduleFromRequest room i r).2.pending.lookup key=s.pending.lookup key := by
  refine foldlRecOn (motive := fun acc : Scheduled × TrackSettingsStore =>
    acc.2.settings.lookup key=s.settings.lookup key ∧
      acc.2.pending.lookup key=s.pending.lookup key) _ _ ⟨rfl,rfl⟩ ?_
  rintro ⟨sc,t⟩ ⟨hs,hp⟩ sid hmem
  have hkey : key≠⟨room,i,sid⟩ := by
    rintro rfl
    exact ho ⟨rfl,rfl,hmem⟩
  obtain ⟨hs',hp',-⟩ := scheduleForTrack_other r sc t hkey
  exact ⟨hs'.trans hs,hp'.trans hp⟩

variable {s}

theorem OwnTracks.apply_other (h : OwnTracks s) {o : TrackSettingsKey} (ho : key≠o) (g : UInt64) :
    (s.applyPendingForTrack o g).2.settings.lookup key=s.settings.lookup key ∧
      (s.applyPendingForTrack o g).2.pending.lookup key=s.pending.lookup key ∧
      (s.applyPendingForTrack o g).2.revisionForTrack key=s.revisionForTrack key := by
  obtain ⟨heq,-⟩ | ⟨st,hp,-⟩ := applyPendingForTrack_cases s o g
  · rw [heq]
    exact ⟨rfl,rfl,rfl⟩
  · rw [h.apply_eq hp]
    split_ifs
    · simp [TrackSettingsStore.dropPending,revisionForTrack,ho]
    · simp [TrackSettingsStore.dropPending,putSetting,markChanged,revisionForTrack,ho]

theorem OwnTracks.apply_inForce (h : OwnTracks s) (hp : s.pending.lookup key=some (generation,st)) :
    InForce key st (s.applyPendingForTrack key generation).2 := by
  rw [h.apply_eq hp]
  split_ifs with hs
  · exact ⟨if_pos rfl,hs⟩
  · exact ⟨if_pos rfl,if_pos rfl⟩

variable {e : SettingsEvent}

theorem InForce.step (h : InForce key st s) (hown : OwnTracks s)
    (ho : ¬ e.Names key) : InForce key st (settingsStep s e) := by
  cases e with
  | schedule room i r =>
    obtain ⟨hs,hp⟩ := scheduleFromRequest_other s ho
    exact ⟨hp.trans h.1,hs.trans h.2⟩
  | apply o g =>
    by_cases hkey : key=o
    · subst hkey
      obtain ⟨heq,-⟩ | ⟨found,hp,-⟩ := applyPendingForTrack_cases s key g
      · rw [settingsStep,heq]
        exact h
      · rw [h.1] at hp
        cases hp
    · obtain ⟨hs,hp,-⟩ := hown.apply_other hkey g
      exact ⟨hp.trans h.1,hs.trans h.2⟩

theorem WaitsOrInForce.step (h : WaitsOrInForce key generation st s) (hown : OwnTracks s)
    (ho : ¬ e.Names key) :
    WaitsOrInForce key generation st (settingsStep s e) := by
  obtain hw | hfo := h
  · cases e with
    | schedule room i r =>
      obtain ⟨-,hp⟩ := scheduleFromRequest_other s ho
      exact .inl (hp.trans hw)
    | apply o fired =>
      by_cases hkey : key=o
      · subst hkey
        by_cases hf : fired=generation
        · rw [hf]
          exact .inr (hown.apply_inForce hw)
        · obtain ⟨heq,-⟩ | ⟨found,hp,-⟩ := applyPendingForTrack_cases s key fired
          · rw [settingsStep,heq]
            exact .inl hw
          · rw [hw] at hp
            exact absurd (Prod.mk.inj (some.inj hp)).1.symm hf
      · obtain ⟨-,hp,-⟩ := hown.apply_other hkey fired
        exact .inl (hp.trans hw)
  · exact .inr (hfo.step hown ho)

/-- A fact that single events keep, as long as no request names the track, is kept by runs. -/
theorem settingsAfter_keeps {P : TrackSettingsStore→Prop}
    (hs : ∀s e,OwnTracks s → ¬ e.Names key → P s → P (settingsStep s e)) {ea l : List SettingsEvent}
    (he : P (settingsAfter ea)) (hl : ∀e∈l,¬ e.Names key) : P (settingsAfter (ea++l)) := by
  induction l using reverseRecOn with
  | nil => rwa [append_nil]
  | append_singleton l e ih =>
    rw [← append_assoc,settingsAfter_concat]
    apply hs _ _ (ownTracks_settingsAfter _) (hl e (by simp))
    exact ih (fun o hmem => hl o (mem_append_left _ hmem))

/-- The store has counted `n` changes, and every track has the number of one of them. -/
structure Numbered (n : ℕ) (s : TrackSettingsStore) : Prop where
  revision : s.revision=UInt64.ofNat n
  tracks : ∀key,∃m≤n,s.revisionForTrack key=UInt64.ofNat m

/-- Between two states the track kept its setting and its revision, or it took the setting and
a number counted since. -/
def TookOrKept (key : TrackSettingsKey) (setting : UpdateTrackSettings) (first last : ℕ)
    (before after : TrackSettingsStore) : Prop :=
  (after.getForTrack key=before.getForTrack key ∧
      after.revisionForTrack key=before.revisionForTrack key) ∨
    (before.getForTrack key≠some setting ∧ after.getForTrack key=some setting ∧
      ∃m,first < m ∧ m≤last ∧ after.revisionForTrack key=UInt64.ofNat m)

variable {b after : TrackSettingsStore} {n first last : ℕ}

variable (s)

theorem revisionForTrack_putSetting (key o : TrackSettingsKey) (st : UpdateTrackSettings) :
    (putSetting s key st).revisionForTrack o =
      if o=key then s.revision+1 else s.revisionForTrack o := by
  simp only [putSetting,markChanged,revisionForTrack,lookup_insert]
  split_ifs <;> rfl

theorem getForTrack_putSetting (key o : TrackSettingsKey) (st : UpdateTrackSettings) :
    (putSetting s key st).getForTrack o =
      if o=key then some st else s.getForTrack o := by
  simp only [putSetting,markChanged,getForTrack,lookup_insert]

variable {s}

theorem Numbered.next (h : Numbered n s) : s.revision+1=UInt64.ofNat (n+1) := by
  rw [h.revision,UInt64.ofNat_add]
  rfl

theorem Numbered.putSetting (h : Numbered n s) (key : TrackSettingsKey)
    (st : UpdateTrackSettings) : Numbered (n+1) (putSetting s key st) where
  revision := h.next
  tracks other := by
    rw [revisionForTrack_putSetting]
    split_ifs
    · exact ⟨n+1,le_rfl,h.next⟩
    · obtain ⟨m,hm,heq⟩ := h.tracks other
      exact ⟨m,le_succ_of_le hm,heq⟩

theorem TookOrKept.mono (h : TookOrKept key st first last b after) {last' : ℕ}
    (hl : last≤last') : TookOrKept key st first last' b after := by
  obtain hk | ⟨hb,ha,m,hf,hm,hr⟩ := h
  · exact .inl hk
  · exact .inr ⟨hb,ha,m,hf,hm.trans hl,hr⟩

/-- Below the bound of the counter, numbers counted since are new. -/
theorem TookOrKept.revision_iff (h : TookOrKept key st first last b after)
    (hn : Numbered first b) (hl : last<2^64) :
    after.revisionForTrack key≠b.revisionForTrack key ↔
      after.getForTrack key≠b.getForTrack key := by
  obtain ⟨hget,hr⟩ | ⟨hbe,ha,m,hf,hm,hr⟩ := h
  · exact ⟨fun hne => absurd hr hne,fun hne => absurd hget hne⟩
  · have hc : after.getForTrack key≠b.getForTrack key := by
      rw [ha]
      exact fun heq => hbe heq.symm
    refine ⟨fun _ => hc,fun _ heq => ?_⟩
    obtain ⟨k,hk,hold⟩ := hn.tracks key
    rw [hr,hold] at heq
    have hb : m<2^64 := hm.trans_lt hl
    have hnat := congrArg UInt64.toNat heq
    rw [UInt64.toNat_ofNat_of_lt' hb,UInt64.toNat_ofNat_of_lt' ((hk.trans_lt hf).trans hb)] at hnat
    omega

/-- A request counts the changes that it reports as immediate. -/
theorem Numbered.schedule (h : Numbered n s) (room i : String) (r : UpdateTrackSettings)
    (key : TrackSettingsKey) :
    Numbered (n+changes s (.schedule room i r)) (settingsStep s (.schedule room i r)) ∧
      TookOrKept key (forTrack r key.trackSid) n
        (n+changes s (.schedule room i r)) s
        (settingsStep s (.schedule room i r)) := by
  refine foldlRecOn (motive := fun acc : Scheduled × TrackSettingsStore =>
    Numbered (n+acc.1.immediate.length) acc.2 ∧
      TookOrKept key (forTrack r key.trackSid) n (n+acc.1.immediate.length) s acc.2)
    _ _ ⟨h,.inl ⟨rfl,rfl⟩⟩ ?_
  rintro ⟨sc,t⟩ ⟨hn,ht⟩ sid -
  obtain ⟨-,heq⟩ | ⟨hd,heq⟩ | ⟨-,heq⟩ := scheduleForTrack_cases room i r sc t sid
  · rw [heq]
    exact ⟨⟨hn.revision,hn.tracks⟩,ht⟩
  · rw [heq]
    have hput := hn.putSetting ⟨room,i,sid⟩ (forTrack r sid)
    simp only [length_append,length_singleton,← add_assoc]
    refine ⟨⟨hput.revision,hput.tracks⟩,?_⟩
    change TookOrKept key _ n _ s (Signaling.putSetting t _ _)
    by_cases hkey : key=⟨room,i,sid⟩
    · -- The track itself: it still had the setting of the state before the request.
      subst hkey
      obtain ⟨hget,-⟩ | ⟨-,ha,-⟩ := ht
      · refine .inr ⟨?_,?_,n+sc.immediate.length+1,by omega,le_rfl,?_⟩
        · rw [← hget]
          exact hd
        · rw [getForTrack_putSetting,if_pos rfl]
        · rw [revisionForTrack_putSetting,if_pos rfl]
          exact hn.next
      · exact absurd ha hd
    · have hm := ht.mono (le_succ (n+sc.immediate.length))
      rw [TookOrKept,getForTrack_putSetting,revisionForTrack_putSetting,if_neg hkey,if_neg hkey]
      exact hm
  · rw [heq]
    exact ⟨⟨hn.revision,hn.tracks⟩,ht⟩

theorem Numbered.apply (h : Numbered n s) (hown : OwnTracks s) (o : TrackSettingsKey)
    (g : UInt64) (key : TrackSettingsKey) :
    Numbered (n+changes s (.apply o g)) (settingsStep s (.apply o g)) ∧
      ∃st,TookOrKept key st n (n+changes s (.apply o g)) s (settingsStep s (.apply o g)) := by
  rw [settingsStep,changes]
  obtain ⟨heq,-⟩ | ⟨st,hp,-⟩ := applyPendingForTrack_cases s o g
  · rw [heq,if_pos rfl]
    exact ⟨h,{trackSids := []},.inl ⟨rfl,rfl⟩⟩
  · rw [hown.apply_eq hp]
    by_cases hs : s.settings.lookup o=some st
    · rw [if_pos hs,if_pos (by rfl)]
      exact ⟨⟨h.revision,h.tracks⟩,st,.inl ⟨rfl,rfl⟩⟩
    · have hget : (Signaling.putSetting (s.dropPending o) o st).getForTrack o=some st := by
        rw [getForTrack_putSetting,if_pos rfl]
      rw [if_neg hs,if_neg (by rw [hget]; exact fun heq => hs heq.symm)]
      have hd : Numbered n (s.dropPending o) := ⟨h.revision,h.tracks⟩
      refine ⟨hd.putSetting o st,st,?_⟩
      rw [TookOrKept,getForTrack_putSetting,revisionForTrack_putSetting]
      split_ifs with hkey
      · subst hkey
        exact .inr ⟨hs,rfl,n+1,lt_succ_self n,le_rfl,hd.next⟩
      · exact .inl ⟨rfl,rfl⟩

theorem Numbered.step (h : Numbered n s) (hown : OwnTracks s) (e : SettingsEvent)
    (key : TrackSettingsKey) :
    Numbered (n+changes s e) (settingsStep s e) ∧
      ∃st,TookOrKept key st n (n+changes s e) s (settingsStep s e) := by
  cases e with
  | schedule room i r =>
    obtain ⟨hn,ht⟩ := h.schedule room i r key
    exact ⟨hn,_,ht⟩
  | apply o g => exact h.apply hown o g key

theorem numbered_settingsAfter (es : List SettingsEvent) :
    Numbered (changeCount es) (settingsAfter es) := by
  induction es using reverseRecOn with
  | nil => exact ⟨rfl,fun _ => ⟨0,le_rfl,rfl⟩⟩
  | append_singleton es e ih =>
    rw [settingsAfter_concat,changeCount_concat]
    exact (ih.step (ownTracks_settingsAfter es) e ⟨"","",""⟩).1

theorem changeCount_le_append (e l : List SettingsEvent) : changeCount e≤changeCount (e++l) := by
  induction l using reverseRecOn with
  | nil => rw [append_nil]
  | append_singleton l event ih =>
    rw [← append_assoc,changeCount_concat]
    exact ih.trans (le_add_right _ _)

/-- The timer of every setting that a request deferred has fired since. -/
def EveryDeferredApplied (events : List SettingsEvent) : Prop :=
  ∀earlier room identity request later,
    events=earlier ++ .schedule room identity request::later →
    ∀trackSid generation,
      (trackSid,generation) ∈
        ((settingsAfter earlier).scheduleFromRequest room identity request).1.deferred →
      .apply ⟨room,identity,trackSid⟩ generation∈later

/-- What subscribers rely on: the request that came last is in force once the timers have fired,
and the revision of a track tells whether its setting has changed. -/
structure DebounceSound (events : List SettingsEvent) : Prop where
  last_wins : EveryDeferredApplied events → ∀earlier room identity request later,
    events=earlier ++ .schedule room identity request::later →
    ∀trackSid∈request.trackSids,
      (∀event∈later,¬ event.Names ⟨room,identity,trackSid⟩) →
      (settingsAfter events).getForTrack ⟨room,identity,trackSid⟩ =
        some (forTrack request trackSid)
  revision_changes : ∀earlier event later,events=earlier++event::later → ∀key,
    (settingsStep (settingsAfter earlier) event).revisionForTrack key ≠
        (settingsAfter earlier).revisionForTrack key ↔
      (settingsStep (settingsAfter earlier) event).getForTrack key ≠
        (settingsAfter earlier).getForTrack key

/-- The request that named the track last is in force once its timer has fired. -/
theorem inForce_of_lastRequest {ea l : List SettingsEvent} (key : TrackSettingsKey)
    {r : UpdateTrackSettings}
    (ha : EveryDeferredApplied (ea ++ .schedule key.room key.identity r::l))
    (ht : key.trackSid∈r.trackSids) (hl : ∀e∈l,¬ e.Names key) :
    InForce key (forTrack r key.trackSid)
      (settingsAfter (ea ++ .schedule key.room key.identity r::l)) := by
  have hk : ∀s e,OwnTracks s → ¬ e.Names key →
      InForce key (forTrack r key.trackSid) s →
      InForce key (forTrack r key.trackSid) (settingsStep s e) :=
    fun s e hown ho hf => hf.step hown ho
  rw [append_cons]
  obtain hf | ⟨g,hwa,hd⟩ := leavesSetting_scheduleFromRequest (settingsAfter ea) ht
  · apply settingsAfter_keeps hk _ hl
    rw [settingsAfter_concat]
    exact hf
  · -- The setting waits until the first of its timers fires.
    obtain ⟨w,rest,hs⟩ := append_of_mem (ha _ _ _ _ _ rfl key.trackSid g hd)
    have hw : WaitsOrInForce key g (forTrack r key.trackSid)
        (settingsAfter ((ea++[.schedule key.room key.identity r])++w)) := by
      refine settingsAfter_keeps (fun s e hown ho h => h.step hown ho) ?_
        (fun e hmem => hl e (by rw [hs]; exact mem_append_left _ hmem))
      rw [settingsAfter_concat]
      exact .inl hwa
    rw [hs,append_cons w,← append_assoc,← append_assoc]
    refine settingsAfter_keeps hk ?_ (fun e hmem => hl e (by simp [hs,hmem]))
    rw [settingsAfter_concat]
    obtain hp | hf := hw
    · exact (ownTracks_settingsAfter _).apply_inForce hp
    · exact hf.step (ownTracks_settingsAfter _) (fun h => h)

/-- Debounced settings are last-writer-wins, and up to the bound of the counter the revisions of
the tracks change exactly with their settings. -/
theorem debounceSound_of_changeCount_lt (events : List SettingsEvent)
    (hcount : changeCount events < 2 ^ 64) : DebounceSound events where
  last_wins happlied earlier room identity request later hsplit trackSid htrack hlater := by
    subst hsplit
    exact (inForce_of_lastRequest ⟨room,identity,trackSid⟩ happlied htrack hlater).2
  revision_changes earlier event later hsplit key := by
    have hn := numbered_settingsAfter earlier
    obtain ⟨-,setting,ht⟩ := hn.step (ownTracks_settingsAfter earlier) event key
    refine ht.revision_iff hn ?_
    calc changeCount earlier+changes (settingsAfter earlier) event
        = changeCount (earlier++[event]) := (changeCount_concat earlier event).symm
      _≤changeCount events := by
        rw [hsplit,append_cons earlier event later]
        exact changeCount_le_append _ later
      _<2^64 := hcount

/-- A subscriber switches the track off and on again before the first timer fires; the timers
then fire in the other order. -/
def lateTimers : List SettingsEvent :=
  [.schedule "room" "bob" {trackSids := ["TR_1"],disabled := true},
    .schedule "room" "bob" {trackSids := ["TR_1"],quality := 2},
    .apply ⟨"room","bob","TR_1"⟩ 2,.apply ⟨"room","bob","TR_1"⟩ 1]

theorem everyDeferredApplied_lateTimers : EveryDeferredApplied lateTimers := by
  intro e room i r l hs sid g hd
  rcases e with _ | ⟨first,_ | ⟨b,_ | ⟨third,_ | ⟨fourth,rest⟩⟩⟩⟩
  · obtain ⟨⟨rfl,rfl,rfl⟩,rfl⟩ := hs
    have he : (sid,g)∈[("TR_1",(1 : UInt64))] := hd
    simp_all
  · obtain ⟨rfl,⟨rfl,rfl,rfl⟩,rfl⟩ := hs
    have he : (sid,g)∈[("TR_1",(2 : UInt64))] := hd
    simp_all
  · simp [lateTimers] at hs
  · simp [lateTimers] at hs
  · simp [lateTimers] at hs

theorem debounceSound_of_lateTimers :
    changeCount lateTimers < 2 ^ 64 ∧
      (settingsAfter lateTimers).getForTrack ⟨"room", "bob", "TR_1"⟩ =
        some {trackSids := ["TR_1"],quality := 2} := by
  have hc : changeCount lateTimers<2^64 := by decide +kernel
  refine ⟨hc,?_⟩
  apply (debounceSound_of_changeCount_lt lateTimers hc).last_wins
    everyDeferredApplied_lateTimers [_] "room" "bob" {trackSids := ["TR_1"],quality := 2} _ rfl
  · simp
  · simp [SettingsEvent.Names]

/-- The subscriber switches its first track on, which takes effect at once, and off again, which
waits under the generation. -/
def offOnCycle (generation : UInt64) : List SettingsEvent :=
  [.schedule "room" "bob" {trackSids := ["TR_1"]},
    .schedule "room" "bob" {trackSids := ["TR_1"],disabled := true},
    .apply ⟨"room","bob","TR_1"⟩ generation]

def offOnCycles : ℕ → List SettingsEvent
  | 0 => [.schedule "room" "bob" {trackSids := ["TR_1"],disabled := true},
      .apply ⟨"room","bob","TR_1"⟩ 1]
  | k+1 => offOnCycles k++offOnCycle (UInt64.ofNat (k+2))

/-- What the cycles leave: the first track is off, each cycle has counted twice, and the second
track has not been touched. -/
structure SwitchedOff (k : ℕ) (s : TrackSettingsStore) : Prop where
  off : s.settings.lookup ⟨"room","bob","TR_1"⟩=some {trackSids := ["TR_1"],disabled := true}
  generation : s.nextPendingGeneration=UInt64.ofNat (k+1)
  revision : s.revision=UInt64.ofNat (2*k+1)
  untouched : s.settings.lookup ⟨"room","bob","TR_2"⟩=none
  uncounted : s.revisions.lookup ⟨"room","bob","TR_2"⟩=none

theorem SwitchedOff.cycle {k : ℕ} {s : TrackSettingsStore} (h : SwitchedOff k s) :
    SwitchedOff (k+1) ((offOnCycle (UInt64.ofNat (k+2))).foldl settingsStep s) := by
  have hg : s.nextPendingGeneration+1=UInt64.ofNat (k+2) := by
    rw [h.generation,← UInt64.ofNat_one,← UInt64.ofNat_add]
  have hr : s.revision+1+1=UInt64.ofNat (2*(k+1)+1) := by
    rw [h.revision,← UInt64.ofNat_one,← UInt64.ofNat_add,← UInt64.ofNat_add]
    rfl
  have hs : (offOnCycle (UInt64.ofNat (k+2))).foldl settingsStep s =
      dropPending (putSetting (putSetting
        {s with
          nextPendingGeneration := s.nextPendingGeneration+1
          pending := (s.pending.erase ⟨"room","bob","TR_1"⟩).insert ⟨"room","bob","TR_1"⟩
            (s.nextPendingGeneration+1,{trackSids := ["TR_1"],disabled := true})}
        ⟨"room","bob","TR_1"⟩ {trackSids := ["TR_1"]})
        ⟨"room","bob","TR_1"⟩ {trackSids := ["TR_1"],disabled := true})
        ⟨"room","bob","TR_1"⟩ := by
    simp [offOnCycle,settingsStep,scheduleFromRequest,scheduleForTrack,getForTrack,h.off,
      forTrack,upsertFromRequest,upsertForTrack,putSetting,markChanged,dropPending,
      applyPendingForTrack,hg]
  rw [hs]
  constructor
  · simp [dropPending,putSetting,markChanged]
  · exact hg
  · exact hr
  · simp [dropPending,putSetting,markChanged,h.untouched]
  · simp [dropPending,putSetting,markChanged,h.uncounted]

theorem switchedOff_offOnCycles (k : ℕ) : SwitchedOff k (settingsAfter (offOnCycles k)) := by
  induction k with
  | zero =>
    constructor <;> decide +kernel
  | succ k ih =>
    rw [settingsAfter,offOnCycles,foldl_append]
    exact ih.cycle

/-- When the cycles have used up the counter, the first setting of the second track gets the
number that an untouched track has. -/
theorem SwitchedOff.not_debounceSound {k : ℕ} {es : List SettingsEvent}
    (h : SwitchedOff k (settingsAfter es)) (hk : UInt64.ofNat (2*k+1)+1=0) :
    ¬ DebounceSound (es++[.schedule "room" "bob" {trackSids := ["TR_2"]}] ++
      [.apply ⟨"room","bob","TR_2"⟩ (UInt64.ofNat (k+1)+1)]) := by
  intro hso
  have hr : (settingsAfter es).revision+1=0 := by
    rw [h.revision,hk]
  have hs : settingsAfter (es++[.schedule "room" "bob" {trackSids := ["TR_2"]}]) =
      {settingsAfter es with
        nextPendingGeneration := UInt64.ofNat (k+1)+1
        pending := (settingsAfter es).pending.insert ⟨"room","bob","TR_2"⟩
          (UInt64.ofNat (k+1)+1,{trackSids := ["TR_2"]})} := by
    rw [settingsAfter_concat]
    simp [settingsStep,scheduleFromRequest,scheduleForTrack,getForTrack,h.untouched,forTrack,
      h.generation]
  have hc := hso.revision_changes _ _ [] rfl ⟨"room","bob","TR_2"⟩
  rw [hs] at hc
  simp [settingsStep,applyPendingForTrack,upsertFromRequest,upsertForTrack,dropPending,
    markChanged,forTrack,revisionForTrack,getForTrack,h.untouched,h.uncounted,
    hr] at hc

/-- After `2 ^ 64 - 1` changes of one track the revision of another does not show its change. -/
theorem debounceSound_fails_when_revision_wraps : ∃events,¬ DebounceSound events := by
  have hr : UInt64.ofNat (2*(2^63-1)+1)+1=0 := by decide
  exact ⟨_,(switchedOff_offOnCycles (2^63-1)).not_debounceSound hr⟩

end OxideSfu.Signaling
