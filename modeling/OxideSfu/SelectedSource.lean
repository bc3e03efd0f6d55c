import OxideSfu.SelectorSteps

/-!
# One decodable source at a time

Simulcast and scalable sources keep separate selections, and the scalable one shadows the
other. The selector forwards only the selected source, and changes it only at a switch
point, exactly as long as the two selections do not get in each other's way.
-/

namespace OxideSfu.VideoIngress

open StepRuns SubscriberVideoLayerSelector

/-- Only the selected source is forwarded, and a source becomes selected only in the step
that observes one of its switch points. -/
structure OneDecodableSource
    (t : Transition SubscriberVideoLayerSelector SelectorEvent SelectorOutput) : Prop where
  forwarded : ∀packet available changed,t.input = .packet packet available →
    t.output = .decided (.forward changed) → t.after.selectedSsrc=some packet.ssrc
  changed : ∀ssrc,t.after.selectedSsrc=some ssrc → t.before.selectedSsrc≠some ssrc →
    ∃packet available,t.input = .packet packet available ∧
      packet.isDecodableSwitchPoint ∧ packet.ssrc=ssrc

/-- A selected scalable source and the simulcast selection do not disagree: no simulcast
packet of another source is accepted beside it, and it does not go stale in front of
another selected simulcast source. -/
def KindsAgree (s : SubscriberVideoLayerSelector) : SelectorEvent→Prop
  | .packet packet _ => packet.sourceKind = .simulcast → s.AcceptsSimulcast packet →
      ∀scalable,s.singleScalableCurrent=some scalable → scalable=packet.ssrc
  | .timer => ∀scalable,s.singleScalableCurrent=some scalable →
      sourceStaleTicks≤nextTick s.singleScalableCurrentAgeTicks →
      ∀simulcast,s.currentSsrc=some simulcast → simulcast=scalable
  | .setPolicy _ => True

/-- A selected scalable source implies scalable mode. -/
def ModeSound (s : SubscriberVideoLayerSelector) : Prop :=
  s.singleScalableCurrent.isSome → s.singleScalableActive

variable {s s' : SubscriberVideoLayerSelector}

theorem ModeSound.scalable_none (h : ModeSound s) (ha : s.singleScalableActive=false) :
    s.singleScalableCurrent=none := by
  cases hs : s.singleScalableCurrent with
  | none => rfl
  | some scalable =>
    have hon := h (by rw [hs]; rfl)
    rw [ha] at hon
    cases hon

theorem ModeSound.selectedSsrc_iff (h : ModeSound s) (ha : s.singleScalableActive=false)
    (ssrc : UInt32) :
    s.selectedSsrc=some ssrc ↔ ∃slot,s.current=some (ssrc,slot) := by
  rw [selectedSsrc,h.scalable_none ha,Option.none_or,currentSsrc]
  simp only [Option.map_eq_some_iff,Prod.exists,exists_and_right,exists_eq_right]

theorem ModeSound.expire_selectedSsrc_iff (h : ModeSound s) (ha : s.singleScalableActive=false)
    (ssrc : UInt32) :
    s.expireStaleSources.selectedSsrc=some ssrc ↔ ∃slot,s.current=some (ssrc,slot) ∧
      s.SlotFresh ssrc slot := by
  obtain ⟨hm,hs,_⟩ := expireStaleSources_simulcast ha
  have haf : ModeSound s.expireStaleSources := by
    rw [ModeSound,hs,h.scalable_none ha]
    intro hso
    cases hso
  simp only [haf.selectedSsrc_iff hm,expireStaleSources_current ha]

theorem OneDecodableSource.of_quiet {e : SelectorEvent} {out : SelectorOutput}
    (hq : ∀changed,out ≠ .decided (.forward changed))
    (hsel : s'.selectedSsrc=s.selectedSsrc) : OneDecodableSource ⟨s,e,out,s'⟩ := by
  constructor
  · intro p av changed _ hout
    exact absurd hout (hq changed)
  · intro ssrc ha hb
    exact absurd (hsel.symm.trans ha) hb

/-- A forwarded packet is unproblematic exactly when it belongs to the selected source. -/
theorem oneDecodableSource_forward_iff {p : LayerPacketMetadata} {av changed : Bool}
    (hnew : s'.selectedSsrc≠s.selectedSsrc → p.isDecodableSwitchPoint) :
    OneDecodableSource ⟨s,.packet p av,.decided (.forward changed),s'⟩ ↔
      s'.selectedSsrc=some p.ssrc := by
  constructor
  · intro h
    exact h.forwarded p av changed rfl rfl
  · intro hsel
    constructor
    · intro packet' available' changed' hin _
      obtain ⟨rfl,_⟩ := SelectorEvent.packet.inj hin
      exact hsel
    · intro ssrc ha hb
      obtain rfl := Option.some.inj (hsel.symm.trans ha)
      refine ⟨p,av,rfl,hnew ?_,rfl⟩
      intro heq
      exact hb (heq.symm.trans ha)

/-- The scalable source, when there is one, decides whether an accepted simulcast packet
is the selected one. -/
theorem selectedSsrc_of_current {ssrc : UInt32} (hcur : s.currentSsrc=some ssrc) :
    s.selectedSsrc=some ssrc ↔ ∀scalable,s.singleScalableCurrent=some scalable → scalable=ssrc := by
  rw [selectedSsrc,hcur]
  cases s.singleScalableCurrent with
  | none => simp
  | some scalable => simp

variable {s s' : SubscriberVideoLayerSelector} {p : LayerPacketMetadata}
  {decision : VideoIngressDecision}

theorem SubscriberVideoLayerSelector.SimulcastSpec.keepsOneSource_iff (available : Bool)
    (h : SimulcastSpec s p decision s') :
    OneDecodableSource ⟨s,.packet p available,.decided decision,s'⟩ ↔
      (s.AcceptsSimulcast p → ∀scalable,s.singleScalableCurrent=some scalable →
        scalable=p.ssrc) := by
  cases h with
  | unlabelled hl hsel =>
    have ha : s.AcceptsSimulcast p := by
      rw [AcceptsSimulcast,hl]
      exact hsel
    refine Iff.trans (oneDecodableSource_forward_iff fun hne => absurd rfl hne) ?_
    rw [selectedSsrc_of_current hsel,forall_prop_of_true ha]
  | unknown hl hsel =>
    have hr : ¬ s.AcceptsSimulcast p := by
      rw [AcceptsSimulcast,hl]
      exact hsel
    simp only [hr,false_implies,iff_true]
    exact .of_quiet (by simp) rfl
  | above spatial hl hmax =>
    have hr : ¬ s.AcceptsSimulcast p := by
      rw [AcceptsSimulcast,hl]
      exact fun h => absurd h.1 (not_le_of_gt hmax)
    simp only [hr,false_implies,iff_true]
    exact .of_quiet (by simp) rfl
  | selected spatial slot hl hmax hsel usable =>
    have hcur : s.currentSsrc=some p.ssrc := by rw [currentSsrc,hsel]; rfl
    have ha : s.AcceptsSimulcast p := by
      rw [AcceptsSimulcast,hl]
      exact ⟨hmax,.inl hcur⟩
    refine Iff.trans (oneDecodableSource_forward_iff fun hne => absurd rfl hne) ?_
    refine Iff.trans (selectedSsrc_of_current hcur) ?_
    rw [forall_prop_of_true ha]
  | switched spatial changed locked hl hmax hsel hp ht usable =>
    have ha : s.AcceptsSimulcast p := by
      rw [AcceptsSimulcast,hl]
      exact ⟨hmax,.inr ⟨hp,ht⟩⟩
    refine Iff.trans (oneDecodableSource_forward_iff fun _ => hp) ?_
    refine Iff.trans (selectedSsrc_of_current rfl) ?_
    rw [forall_prop_of_true ha]
  | dropped spatial decision hl hmax hsel hk hd usable =>
    have hr : ¬ s.AcceptsSimulcast p := by
      rw [AcceptsSimulcast,hl]
      intro ha
      obtain ⟨_,h | h⟩ := ha
      · exact hsel h
      · exact hk h
    simp only [hr,false_implies,iff_true]
    exact .of_quiet (by simpa using hd) rfl

/-- A scalable packet never forwards anything but the selected source. -/
theorem SubscriberVideoLayerSelector.ScalableSpec.keepsOneSource (available : Bool)
    (h : ScalableSpec s p decision s') :
    OneDecodableSource ⟨s,.packet p available,.decided decision,s'⟩ := by
  cases h with
  | selected hsel =>
    apply (oneDecodableSource_forward_iff ?_).mpr
    · rw [hsel]
      rfl
    · exact fun hne => absurd rfl hne
  | dropped decision hsel hk hd => exact .of_quiet (by simpa using hd) rfl
  | acquired hn hp =>
    exact (oneDecodableSource_forward_iff fun _ => hp).mpr rfl

theorem onTimer_selectedSsrc (s : SubscriberVideoLayerSelector) :
    s.onTimer.2.selectedSsrc=s.expireStaleSources.selectedSsrc := by
  obtain ⟨_,_,_,_,_,h⟩ := s.onTimer_frame
  rw [h]
  rfl

theorem oneDecodableSource_timer_iff {r : Option KeyframeRequest} :
    OneDecodableSource ⟨s,.timer,.ticked r,s'⟩ ↔ ∀ssrc,s'.selectedSsrc=some ssrc →
      s.selectedSsrc=some ssrc := by
  constructor
  · intro h ssrc ha
    by_contra hb
    obtain ⟨_,_,hin,_⟩ := h.changed ssrc ha hb
    cases hin
  · intro h
    constructor
    · intro p av changed hin
      cases hin
    · intro ssrc ha hb
      exact absurd (h ssrc ha) hb

theorem expireScalable_keeps_iff (s : SubscriberVideoLayerSelector) :
    (∀ssrc,s.expireScalable.selectedSsrc=some ssrc → s.selectedSsrc=some ssrc) ↔
      KindsAgree s .timer := by
  simp only [expireScalable_selectedSsrc]
  simp only [KindsAgree,selectedSsrc]
  cases s.singleScalableCurrent with
  | none => simp
  | some scalable =>
    by_cases hs : sourceStaleTicks≤nextTick s.singleScalableCurrentAgeTicks
    · cases s.currentSsrc with
      | none => simp [hs]
      | some simulcast => simp [hs,eq_comm]
    · simp [hs]

theorem timer_oneDecodableSource_iff (hm : ModeSound s) :
    OneDecodableSource (transition selectorStep s .timer) ↔ KindsAgree s .timer := by
  rw [transition,selectorStep,oneDecodableSource_timer_iff,onTimer_selectedSsrc]
  cases ha : s.singleScalableActive with
  | true => rw [expireStaleSources_scalable ha,expireScalable_keeps_iff]
  | false =>
    -- In simulcast mode no scalable source is selected, and expiry only releases.
    refine iff_of_true ?_ ?_
    · intro ssrc haf
      obtain ⟨slot,hcur,_⟩ := (hm.expire_selectedSsrc_iff ha ssrc).mp haf
      exact (hm.selectedSsrc_iff ha ssrc).mpr ⟨slot,hcur⟩
    · intro scalable hs
      rw [hm.scalable_none ha] at hs
      cases hs

theorem oneDecodableSource_step_iff (hm : ModeSound s) (e : SelectorEvent) :
    OneDecodableSource (transition selectorStep s e) ↔ KindsAgree s e := by
  cases e with
  | packet p av =>
    obtain ⟨d,s',hst,hsp⟩ := s.selectorStep_packet p av
    rw [transition,hst]
    rcases hsp with ⟨hk,hsp⟩ | ⟨hk,hsp⟩
    · refine Iff.trans (hsp.keepsOneSource_iff av) ?_
      rw [KindsAgree,forall_prop_of_true hk]
    · refine iff_of_true (hsp.keepsOneSource av) ?_
      intro hs
      rw [hk] at hs
      cases hs
  | setPolicy y =>
    obtain ⟨_,_,_,_,_,_,hf⟩ := s.setPolicy_frame y
    have hsel : (s.setPolicy y).selectedSsrc=s.selectedSsrc := by rw [hf]; rfl
    exact iff_of_true (.of_quiet (fun _ h => by cases h) hsel) trivial
  | timer => exact timer_oneDecodableSource_iff hm

theorem ModeSound.step (h : ModeSound s) (e : SelectorEvent) : ModeSound (selectorStep s e).2 := by
  cases e with
  | packet p av =>
    obtain ⟨d,s',hst,hs⟩ := s.selectorStep_packet p av
    rw [hst]
    rcases hs with ⟨_,hs⟩ | ⟨_,hs⟩
    · cases hs <;> exact h
    · cases hs <;> exact fun _ => rfl
  | setPolicy y =>
    obtain ⟨_,_,_,_,_,_,hf⟩ := s.setPolicy_frame y
    rw [selectorStep,hf]
    exact h
  | timer =>
    obtain ⟨_,_,_,_,_,hf⟩ := s.onTimer_frame
    simp only [ModeSound,selectorStep,hf]
    cases ha : s.singleScalableActive with
    | true =>
      rw [expireStaleSources_scalable ha]
      exact fun _ => ha
    | false =>
      obtain ⟨hm,hsc,_⟩ := expireStaleSources_simulcast ha
      rw [hsc]
      exact fun hso => absurd (h hso) (by simp [ha])

theorem modeSound_selectorAfter (y : LayerPolicy) (es : List SelectorEvent) :
    ModeSound (selectorAfter y es) :=
  exec_invariant selectorStep ModeSound (fun _ e h => h.step e) (by simp [ModeSound,new]) es

/-- A run keeps to one decodable source exactly when its two kinds of source agree at
every step. -/
theorem oneDecodableSource_iff (policy : LayerPolicy) (events : List SelectorEvent) :
    (∀t ∈ trace selectorStep (new policy) events,OneDecodableSource t) ↔
      ∀t ∈ trace selectorStep (new policy) events,KindsAgree t.before t.input := by
  have hiff : ∀t∈trace selectorStep (new policy) events,
    (OneDecodableSource t ↔ KindsAgree t.before t.input) := by
    intro t ht
    obtain ⟨before,event,_,_,rfl⟩ := (mem_trace_iff _ _ _ _).mp ht
    exact oneDecodableSource_step_iff (modeSound_selectorAfter policy before) event
  constructor
  · intro h t ht
    exact (hiff t ht).mp (h t ht)
  · intro h t ht
    exact (hiff t ht).mpr (h t ht)

/-- A scalable source is selected, then a switch point of a simulcast source arrives. -/
def simulcastBesideScalable : List SelectorEvent :=
  [.packet ⟨10,none,.singleScalable,true⟩ false,
    .packet ⟨20,some .low,.simulcast,true⟩ false]

/-- The simulcast packet is forwarded although the scalable source stays selected. -/
theorem oneDecodableSource_fails_on_mixed_kinds :
    ¬ ∀t ∈ trace selectorStep (new (.fixed .low)) simulcastBesideScalable,
      OneDecodableSource t := by
  intro h
  have hs := (h _ (List.mem_cons_of_mem _ List.mem_cons_self)).forwarded
    ⟨20,some .low,.simulcast,true⟩ false true rfl (by decide)
  revert hs
  decide

end OxideSfu.VideoIngress
