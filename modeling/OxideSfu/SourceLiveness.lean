import OxideSfu.SelectedSource

/-!
# Liveness of the selected source

A tick deselects a source that has been silent for eight ticks. The selector looks at the slot of
the selected layer, which packets without a layer do not refresh and packets of other sources
overwrite.
-/

namespace OxideSfu.VideoIngress

open RtpForwarding StepRuns SubscriberVideoLayerSelector PerLayer Option Prod

def SelectorEvent.isTimer : SelectorEvent→Bool
  | .timer => true | _ => false

/-- The source that a packet enters into a slot: the one whose layer it is labelled with,
or the selected source into its own slot under any admissible label. -/
def slotWriter (slot : SpatialLayer)
    (t : Transition SubscriberVideoLayerSelector SelectorEvent SelectorOutput) : Option UInt32 :=
  match t.input with
  | .packet packet _ =>
    match packet.sourceKind,packet.spatial with
    | .simulcast, some spatial =>
      if spatial≤t.before.policy.max ∧
          (slot=spatial ∨ t.before.current=some (packet.ssrc,slot)) then some packet.ssrc
      else none
    | _, _ => none
  | _ => none

def scalableWriter (ssrc : UInt32)
    (t : Transition SubscriberVideoLayerSelector SelectorEvent SelectorOutput) : Option UInt32 :=
  match t.input with
  | .packet packet _ =>
    if packet.sourceKind = .singleScalable ∧ packet.ssrc=ssrc then some ssrc else none
  | _ => none

def lastWriter (policy : LayerPolicy) (slot : SpatialLayer) (events : List SelectorEvent) :
    Option (UInt32 × ℕ) :=
  lastMark (slotWriter slot) SelectorEvent.isTimer selectorStep (new policy) events

def lastScalable (policy : LayerPolicy) (ssrc : UInt32) (events : List SelectorEvent) :
    Option (UInt32 × ℕ) :=
  lastMark (scalableWriter ssrc) SelectorEvent.isTimer selectorStep (new policy) events

def NeverDeselects (policy : LayerPolicy) (events : List SelectorEvent) : Prop :=
  ∀t∈trace selectorStep (new policy) events,t.input = .timer →
    ∀ssrc,t.before.selectedSsrc=some ssrc → t.after.selectedSsrc=some ssrc

/-- Walks through the steps of a run with the sources forwarded since the last tick, and
checks at every further tick that the selected source is among them. -/
def servedFrom : Option (List UInt32) →
    List (Transition SubscriberVideoLayerSelector SelectorEvent SelectorOutput)→Bool
  | _, [] => true
  | served, t::ts =>
    match t.input,t.output with
    | .timer, _ =>
      (match served,t.before.selectedSsrc with
        | some sources,some ssrc => sources.contains ssrc | _,_ => true) && servedFrom (some []) ts
    | .packet packet _, .decided (.forward _) => servedFrom (served.map (packet.ssrc::·)) ts
    | _, _ => servedFrom served ts

/-- Between any two consecutive ticks a packet of the selected source is forwarded. -/
def LiveBetweenTicks (policy : LayerPolicy) (events : List SelectorEvent) : Prop :=
  servedFrom none (trace selectorStep (new policy) events)
  deriving Decidable

/-- What keeps the selected source through the next tick: in simulcast mode its slot was
written last by the source itself, less than eight ticks ago; in scalable mode a scalable
packet of the source is as recent, or the simulcast selection is the same source. -/
structure TickSafe (policy : LayerPolicy) (events : List SelectorEvent) : Prop where
  simulcast : (selectorAfter policy events).singleScalableActive=false →
    ∀ssrc slot,(selectorAfter policy events).current=some (ssrc,slot) →
    ∃ticks,lastWriter policy slot events=some (ssrc,ticks) ∧ ticks+1<sourceStaleTicks
  scalable : ∀ssrc,(selectorAfter policy events).singleScalableCurrent=some ssrc →
    (∃ticks,lastScalable policy ssrc events=some (ssrc,ticks) ∧
      ticks+1<sourceStaleTicks) ∨ (selectorAfter policy events).currentSsrc=some ssrc

def KeptFresh (policy : LayerPolicy) (events : List SelectorEvent) : Prop :=
  AtEveryStep (fun before event => event = .timer → TickSafe policy before) events

theorem nextTick_of_lt {n : ℕ} (h : n<sourceStaleTicks) : nextTick n=n+1 := by
  rw [sourceStaleTicks] at h
  rw [nextTick,saturatingAdd]
  omega

structure Recorded (policy : LayerPolicy) (events : List SelectorEvent) : Prop where
  slots : (selectorAfter policy events).singleScalableActive=false → ∀slot ssrc ticks,
    (selectorAfter policy events).rtpSeenSsrc.get slot=some ssrc ∧
        (selectorAfter policy events).seenAgeTicks.get slot=ticks ↔
      lastWriter policy slot events=some (ssrc,ticks) ∧ ticks<sourceStaleTicks
  scalable : ∀ssrc,(selectorAfter policy events).singleScalableCurrent=some ssrc →
    ∃ticks,lastScalable policy ssrc events=some (ssrc,ticks) ∧ ticks<sourceStaleTicks ∧
      (selectorAfter policy events).singleScalableCurrentAgeTicks=ticks

variable (policy : LayerPolicy) (events : List SelectorEvent)

theorem recorded_nil : Recorded policy [] := by
  constructor
  · intro _ slot ssrc ticks
    simp [lastWriter,lastMark,new]
  · intro ssrc h
    cases h

section

variable {y : LayerPolicy} {es : List SelectorEvent}

theorem lastWriter_concat (slot : SpatialLayer) (e : SelectorEvent) :
    lastWriter y slot (es++[e]) =
      markStep (slotWriter slot) SelectorEvent.isTimer (lastWriter y slot es)
        (transition selectorStep (selectorAfter y es) e) :=
  lastMark_concat _ _ _ _ _ _

theorem lastScalable_concat (ssrc : UInt32) (e : SelectorEvent) :
    lastScalable y ssrc (es++[e]) =
      markStep (scalableWriter ssrc) SelectorEvent.isTimer (lastScalable y ssrc es)
        (transition selectorStep (selectorAfter y es) e) :=
  lastMark_concat _ _ _ _ _ _

variable {s : SubscriberVideoLayerSelector} {pk : LayerPacketMetadata} {av : Bool}

theorem slotWriter_of_not_selected {sp slot : SpatialLayer} {out : SelectorOutput}
    {after : SubscriberVideoLayerSelector} (hk : pk.sourceKind = .simulcast)
    (hl : pk.spatial=some sp) (hmax : sp ≤ s.policy.max) (hsel : s.currentSsrc≠some pk.ssrc) :
    slotWriter slot ⟨s,.packet pk av,out,after⟩ =
      if slot=sp then some pk.ssrc else none := by
  have ho : s.current≠some (pk.ssrc,slot) := by
    intro hcur
    exact hsel (by rw [currentSsrc,hcur]; rfl)
  simp [slotWriter,hk,hl,hmax,ho]

/-- A packet enters its source into the slots it writes, at age zero, and leaves the
others alone. -/
theorem SubscriberVideoLayerSelector.SimulcastSpec.slots {s' : SubscriberVideoLayerSelector}
    {d : VideoIngressDecision} (h : SimulcastSpec s pk d s') (hk : pk.sourceKind = .simulcast)
    (slot : SpatialLayer) (out : SelectorOutput) (after : SubscriberVideoLayerSelector) :
    (slotWriter slot ⟨s,.packet pk av,out,after⟩=some pk.ssrc ∧
      s'.rtpSeenSsrc.get slot=some pk.ssrc ∧ s'.seenAgeTicks.get slot=0) ∨
    (slotWriter slot ⟨s,.packet pk av,out,after⟩=none ∧
      s'.rtpSeenSsrc.get slot=s.rtpSeenSsrc.get slot ∧
      s'.seenAgeTicks.get slot=s.seenAgeTicks.get slot) := by
  cases h with
  | unlabelled hl hsel =>
    right
    simp [slotWriter,hk,hl]
  | unknown hl hsel =>
    right
    simp [slotWriter,hk,hl]
  | above sp hl hmax =>
    right
    simp [slotWriter,hk,hl,not_le_of_gt hmax]
  | selected sp own hl hmax hsel usable =>
    by_cases hs : slot=sp ∨ slot=own
    · left
      have hw : slot=sp ∨ s.current=some (pk.ssrc,slot) := by
        rcases hs with rfl | rfl
        · exact .inl rfl
        · exact .inr hsel
      refine ⟨by simp only [slotWriter,hk,hl,hmax,hw,and_self,if_true],?_⟩
      rcases hs with rfl | rfl <;> simp [get_set]
    · right
      obtain ⟨hne,hne'⟩ := not_or.mp hs
      have hw : ¬ (slot=sp ∨ s.current=some (pk.ssrc,slot)) := by
        intro hwr
        rcases hwr with rfl | hcur
        · exact hne rfl
        · rw [hsel] at hcur
          exact hne' (Prod.mk.inj (some.inj hcur)).2.symm
      refine ⟨by simp only [slotWriter,hk,hl,hw,and_false,if_false],?_⟩
      simp [get_set,hne,hne']
  | switched sp changed locked hl hmax hsel hp ht usable =>
    rw [slotWriter_of_not_selected hk hl hmax hsel]
    by_cases hs : slot=sp <;> simp [hs,get_set]
  | dropped sp d hl hmax hsel hke hd usable =>
    rw [slotWriter_of_not_selected hk hl hmax hsel]
    by_cases hs : slot=sp <;> simp [hs,get_set]

theorem expireSlots_slot (s : SubscriberVideoLayerSelector) (slot : SpatialLayer) :
    s.expireSlots.seenAgeTicks.get slot=nextTick (s.seenAgeTicks.get slot) ∧
      s.expireSlots.rtpSeenSsrc.get slot =
        if sourceStaleTicks≤nextTick (s.seenAgeTicks.get slot) then none
        else s.rtpSeenSsrc.get slot := by
  simp [expireSlots]

/-- No step leaves scalable mode. -/
theorem simulcastMode_of_step {e : SelectorEvent}
    (h : (selectorStep s e).2.singleScalableActive=false) :
    s.singleScalableActive=false := by
  cases e with
  | packet p av =>
    obtain ⟨d,s',hst,hs⟩ := s.selectorStep_packet p av
    rw [hst] at h
    rcases hs with ⟨_,hs⟩ | ⟨_,hs⟩
    · cases hs <;> exact h
    · cases hs <;> cases h
  | setPolicy y =>
    obtain ⟨_,_,_,_,_,_,hf⟩ := s.setPolicy_frame y
    rw [selectorStep,hf] at h
    exact h
  | timer =>
    obtain ⟨_,_,_,_,_,hf⟩ := s.onTimer_frame
    simp only [selectorStep,hf] at h
    cases ha : s.singleScalableActive with
    | false => rfl
    | true =>
      rw [expireStaleSources_scalable ha] at h
      exact ha.symm.trans h

theorem slot_tick {seen : Option UInt32} {age : ℕ} {rc : Option (UInt32 × ℕ)}
    (h : ∀ssrc ticks,seen=some ssrc ∧ age=ticks ↔
      rc=some (ssrc,ticks) ∧ ticks<sourceStaleTicks) (ssrc : UInt32) (ticks : ℕ) :
    (if sourceStaleTicks≤nextTick age then none else seen)=some ssrc ∧ nextTick age=ticks ↔
      rc.map (fun r => (r.1,r.2+1))=some (ssrc,ticks) ∧ ticks<sourceStaleTicks := by
  constructor
  · intro hsl
    obtain ⟨hs,rfl⟩ := hsl
    split_ifs at hs with hst
    obtain ⟨hr,hlt⟩ := (h ssrc age).mp ⟨hs,rfl⟩
    rw [hr,nextTick_of_lt hlt] at *
    exact ⟨rfl,Nat.lt_of_not_le hst⟩
  · intro hm
    obtain ⟨hr,hlt⟩ := hm
    obtain ⟨⟨x,n⟩,hold,heq⟩ := map_eq_some_iff.mp hr
    obtain ⟨rfl,rfl⟩ := mk.inj heq
    have hn : n<sourceStaleTicks := Nat.lt_of_succ_lt hlt
    obtain ⟨hs,rfl⟩ := (h x n).mpr ⟨hold,hn⟩
    rw [nextTick_of_lt hn,if_neg (Nat.not_le.mpr hlt)]
    exact ⟨hs,rfl⟩

variable (h : Recorded y es)

include h

theorem Recorded.slots_step (e : SelectorEvent)
    (hm : (selectorAfter y (es++[e])).singleScalableActive=false)
    (slot : SpatialLayer) (ssrc : UInt32) (ticks : ℕ) :
    (selectorAfter y (es++[e])).rtpSeenSsrc.get slot=some ssrc ∧
        (selectorAfter y (es++[e])).seenAgeTicks.get slot=ticks ↔
      lastWriter y slot (es++[e])=some (ssrc,ticks) ∧ ticks<sourceStaleTicks := by
  rw [selectorAfter_concat] at hm ⊢
  have hb := simulcastMode_of_step hm
  have hsl := h.slots hb slot
  rw [lastWriter_concat]
  cases e with
  | packet p av =>
    obtain ⟨d,s',hst,hsp⟩ := (selectorAfter y es).selectorStep_packet p av
    rw [hst] at hm ⊢
    rcases hsp with ⟨hk,hsp⟩ | ⟨_,hsp⟩
    · simp only [markStep,transition]
      rcases hsp.slots hk slot _ _ with ⟨hma,hs,hage⟩ | ⟨hma,hs,hage⟩
      · rw [hma,hs,hage]
        constructor
        · intro h
          obtain ⟨hss,rfl⟩ := h
          obtain rfl := some.inj hss
          exact ⟨rfl,by decide⟩
        · intro h
          obtain ⟨rfl,rfl⟩ := mk.inj (some.inj h.1)
          exact ⟨rfl,rfl⟩
      · rw [hma,hs,hage]
        exact hsl ssrc ticks
    · -- A scalable packet would have switched the mode.
      cases hsp <;> cases hm
  | setPolicy q =>
    obtain ⟨_,_,_,_,_,_,hf⟩ := (selectorAfter y es).setPolicy_frame q
    simp only [selectorStep,hf]
    exact hsl ssrc ticks
  | timer =>
    obtain ⟨_,_,_,_,_,hf⟩ := (selectorAfter y es).onTimer_frame
    obtain ⟨_,_,_,hs,hage⟩ := expireStaleSources_simulcast hb
    obtain ⟨ha',hs'⟩ := expireSlots_slot (selectorAfter y es) slot
    simp only [selectorStep,hf,hs,hage,ha',hs']
    exact slot_tick hsl ssrc ticks

/-- The age of the scalable source is the age of its last scalable packet. -/
def ScalableAged (policy : LayerPolicy) (events : List SelectorEvent) (ssrc : UInt32) : Prop :=
  ∃ticks,lastScalable policy ssrc events=some (ssrc,ticks) ∧ ticks<sourceStaleTicks ∧
    (selectorAfter policy events).singleScalableCurrentAgeTicks=ticks

theorem Recorded.scalable_packet (p : LayerPacketMetadata)
    (av : Bool) (ssrc : UInt32)
    (hsel : (selectorAfter y (es++[.packet p av])).singleScalableCurrent =
      some ssrc) : ScalableAged y (es++[.packet p av]) ssrc := by
  rw [ScalableAged]
  rw [selectorAfter_concat] at hsel ⊢
  rw [lastScalable_concat]
  obtain ⟨d,s',hst,hs⟩ := (selectorAfter y es).selectorStep_packet p av
  rw [hst] at hsel ⊢
  simp only [markStep,transition,scalableWriter]
  rcases hs with ⟨hk,hs⟩ | ⟨hk,hs⟩
  · have hold : (selectorAfter y es).singleScalableCurrent=some ssrc ∧
        s'.singleScalableCurrentAgeTicks=(selectorAfter y es).singleScalableCurrentAgeTicks := by
      cases hs <;> exact ⟨hsel,rfl⟩
    obtain ⟨ticks,hr,hlt,hage⟩ := h.scalable ssrc hold.1
    exact ⟨ticks,by simp [hk,SelectorEvent.isTimer,hr],hlt,hold.2.trans hage⟩
  · cases hs with
    | selected hcur =>
      obtain rfl : p.ssrc=ssrc := some.inj (hcur.symm.trans hsel)
      exact ⟨0,by simp [hk],by decide,rfl⟩
    | dropped d hcur hke hd =>
      have hne : p.ssrc≠ssrc := by
        intro heq
        exact hcur (heq ▸ hsel)
      obtain ⟨ticks,hr,hlt,hage⟩ := h.scalable ssrc hsel
      exact ⟨ticks,by simp [hne,SelectorEvent.isTimer,hr],hlt,hage⟩
    | acquired hn hp =>
      obtain rfl : p.ssrc=ssrc := some.inj hsel
      exact ⟨0,by simp [hk],by decide,rfl⟩

theorem Recorded.scalable_timer (ssrc : UInt32)
    (hsel : (selectorAfter y (es++[.timer])).singleScalableCurrent=some ssrc) :
    ScalableAged y (es++[.timer]) ssrc := by
  rw [ScalableAged]
  rw [selectorAfter_concat] at hsel ⊢
  rw [lastScalable_concat]
  obtain ⟨_,_,_,_,_,hf⟩ := (selectorAfter y es).onTimer_frame
  have hso := modeSound_selectorAfter y es
  simp only [selectorStep,hf] at hsel ⊢
  cases ha : (selectorAfter y es).singleScalableActive with
  | false =>
    obtain ⟨_,hs,_⟩ := expireStaleSources_simulcast ha
    rw [hs,hso.scalable_none ha] at hsel
    cases hsel
  | true =>
    rw [expireStaleSources_scalable ha] at hsel ⊢
    simp only [expireScalable] at hsel ⊢
    split_ifs at hsel with hst
    obtain ⟨ticks,hr,hlt,hage⟩ := h.scalable ssrc hsel
    rw [hsel,hage,nextTick_of_lt hlt] at hst
    rw [hsel,hage,nextTick_of_lt hlt]
    refine ⟨ticks+1,?_,?_,rfl⟩
    · simp [markStep,transition,scalableWriter,SelectorEvent.isTimer,hr]
    · simpa using hst

theorem Recorded.scalable_step (e : SelectorEvent) (ssrc : UInt32)
    (hsel : (selectorAfter y (es++[e])).singleScalableCurrent=some ssrc) :
    ScalableAged y (es++[e]) ssrc := by
  cases e with
  | packet p av => exact h.scalable_packet p av ssrc hsel
  | setPolicy q =>
    rw [ScalableAged]
    rw [selectorAfter_concat] at hsel ⊢
    rw [lastScalable_concat]
    obtain ⟨_,_,_,_,_,_,hf⟩ := (selectorAfter y es).setPolicy_frame q
    simp only [selectorStep,hf] at hsel ⊢
    exact h.scalable ssrc hsel
  | timer => exact h.scalable_timer ssrc hsel

end

theorem recorded : Recorded policy events := by
  induction events using List.reverseRecOn with
  | nil => exact recorded_nil policy
  | append_singleton events event ih => exact ⟨ih.slots_step event,ih.scalable_step event⟩

/-- The record of a slot says whether the next tick finds it fresh. -/
theorem slotFresh_iff {policy : LayerPolicy} {events : List SelectorEvent}
    (hmo : (selectorAfter policy events).singleScalableActive=false) (ssrc : UInt32)
    (slot : SpatialLayer) :
    (selectorAfter policy events).SlotFresh ssrc slot ↔
      ∃ticks,lastWriter policy slot events=some (ssrc,ticks) ∧ ticks+1<sourceStaleTicks := by
  have hsl := (recorded policy events).slots hmo slot ssrc
  constructor
  · intro hf
    obtain ⟨hs,hage⟩ := hf
    obtain ⟨hr,hlt⟩ := (hsl _).mp ⟨hs,rfl⟩
    rw [nextTick_of_lt hlt] at hage
    exact ⟨_,hr,hage⟩
  · intro hm
    obtain ⟨ticks,hr,hlt⟩ := hm
    have ht : ticks<sourceStaleTicks := Nat.lt_of_succ_lt hlt
    obtain ⟨hs,hage⟩ := (hsl ticks).mpr ⟨hr,ht⟩
    refine ⟨hs,?_⟩
    rw [hage,nextTick_of_lt ht]
    exact hlt

theorem expireScalable_selects_iff {s : SubscriberVideoLayerSelector} {ssrc : UInt32}
    (hsel : s.singleScalableCurrent=some ssrc) :
    s.expireScalable.selectedSsrc=some ssrc ↔
      nextTick s.singleScalableCurrentAgeTicks<sourceStaleTicks ∨ s.currentSsrc=some ssrc := by
  rw [expireScalable_selectedSsrc,hsel]
  by_cases hs : sourceStaleTicks≤nextTick s.singleScalableCurrentAgeTicks
  · simp [hs,Nat.not_lt.mpr hs]
  · simp [hs,Nat.lt_of_not_le hs]

/-- A tick keeps the selected source exactly when the record says it is fresh. -/
theorem tick_keeps_iff :
    (∀ssrc,(selectorAfter policy events).selectedSsrc=some ssrc →
      (selectorAfter policy events).onTimer.2.selectedSsrc=some ssrc) ↔
      TickSafe policy events := by
  have hs := modeSound_selectorAfter policy events
  rw [onTimer_selectedSsrc]
  cases ha : (selectorAfter policy events).singleScalableActive with
  | false =>
    simp only [hs.selectedSsrc_iff ha,hs.expire_selectedSsrc_iff ha,slotFresh_iff ha]
    constructor
    · intro h
      refine ⟨?_,by simp [hs.scalable_none ha]⟩
      intro _ ssrc slot hcur
      obtain ⟨slot',hc',hf⟩ := h ssrc ⟨slot,hcur⟩
      obtain ⟨_,rfl⟩ := mk.inj (some.inj (hcur.symm.trans hc'))
      exact hf
    · intro h ssrc hsel
      obtain ⟨slot,hcur⟩ := hsel
      exact ⟨slot,hcur,h.simulcast ha ssrc slot hcur⟩
  | true =>
    rw [expireStaleSources_scalable ha]
    constructor
    · intro h
      refine ⟨by simp [ha],?_⟩
      intro ssrc hsel
      obtain ⟨ticks,hr,hlt,hage⟩ := (recorded policy events).scalable ssrc hsel
      have hk := h ssrc (by rw [selectedSsrc,hsel]; rfl)
      rw [expireScalable_selects_iff hsel,hage,nextTick_of_lt hlt] at hk
      rcases hk with hf | hcur
      · exact .inl ⟨ticks,hr,hf⟩
      · exact .inr hcur
    · intro h ssrc hb
      cases hsel : (selectorAfter policy events).singleScalableCurrent with
      | none =>
        have haf : (selectorAfter policy events).expireScalable.selectedSsrc =
            (selectorAfter policy events).selectedSsrc := by
          simp [selectedSsrc,currentSsrc,expireScalable,hsel]
        rw [haf,hb]
      | some scalable =>
        obtain rfl : scalable=ssrc := by
          rw [selectedSsrc,hsel] at hb
          exact some.inj hb
        rw [expireScalable_selects_iff hsel]
        rcases h.scalable scalable hsel with ⟨ticks,hr,hlt⟩ | hcur
        · obtain ⟨ticks',hr',hlt',hage⟩ := (recorded policy events).scalable scalable hsel
          obtain ⟨_,rfl⟩ := mk.inj (some.inj (hr.symm.trans hr'))
          rw [hage,nextTick_of_lt hlt']
          exact .inl hlt
        · exact .inr hcur

/-- In every run, no tick takes the selected source away exactly when every tick finds
it fresh. -/
theorem neverDeselects_iff (policy : LayerPolicy) (events : List SelectorEvent) :
    NeverDeselects policy events ↔ KeptFresh policy events := by
  constructor
  · rintro h before event after rfl rfl
    refine (tick_keeps_iff policy before).mp fun ssrc hsel => ?_
    exact h (transition selectorStep (selectorAfter policy before) .timer)
      ((mem_trace_iff _ _ _ _).mpr ⟨before,.timer,after,rfl,rfl⟩) rfl ssrc hsel
  · intro h t ht hin ssrc hsel
    obtain ⟨before,event,after,rfl,rfl⟩ := (mem_trace_iff _ _ _ _).mp ht
    obtain rfl : event = .timer := hin
    exact (tick_keeps_iff policy before).mpr (h before .timer after rfl rfl) ssrc hsel

/-- A selected source whose further packets carry no layer, one in every tick interval. -/
def unlabelledPackets : List SelectorEvent :=
  .packet ⟨10,some .low,.simulcast,true⟩ false ::
    (List.replicate 8 [.packet ⟨10,none,.simulcast,false⟩ false,.timer]).flatten

/-- All its packets are forwarded, and the eighth tick deselects it. -/
theorem neverDeselects_fails_on_unlabelled_packets :
    LiveBetweenTicks (.fixed .low) unlabelledPackets ∧
      ¬ NeverDeselects (.fixed .low) unlabelledPackets := by
  constructor
  · decide +kernel
  · intro h
    have hl := h (transition selectorStep (selectorAfter (.fixed .low)
      (unlabelledPackets.take 16)) .timer)
      ((mem_trace_iff _ _ _ _).mpr ⟨unlabelledPackets.take 16,.timer,[],rfl,rfl⟩) rfl 10
    revert hl
    decide +kernel

end OxideSfu.VideoIngress
