import OxideSfu.VideoLayerSelector

/-!
# What one step of the layer selector does

One lemma for each kind of step says which fields it may change and under which guard, so
that the properties of whole runs are proved without unfolding the selector.
-/

namespace OxideSfu.VideoIngress

open RtpForwarding

namespace SubscriberVideoLayerSelector

variable (s : SubscriberVideoLayerSelector) (p : LayerPacketMetadata)

theorem registerPacket_eq (sp : SpatialLayer) (av : Bool) :
    ∃usable,s.registerPacket p sp av={s with
      rtpSeenSsrc := s.rtpSeenSsrc.set sp (some p.ssrc),seenAgeTicks := s.seenAgeTicks.set sp 0
      decoderUsableSsrc := usable} := by
  simp only [registerPacket]
  split_ifs <;> exact ⟨_,rfl⟩

/-- A simulcast packet is forwarded: it belongs to the selected source, or it is a
switch point of the layer that is waited for. -/
def AcceptsSimulcast (s : SubscriberVideoLayerSelector) (packet : LayerPacketMetadata) : Prop :=
  match packet.spatial with
  | none => s.currentSsrc=some packet.ssrc
  | some spatial => spatial ≤ s.policy.max ∧ (s.currentSsrc=some packet.ssrc ∨
      packet.isDecodableSwitchPoint ∧ spatial=s.switchTarget packet spatial)

inductive SimulcastSpec (s : SubscriberVideoLayerSelector) (packet : LayerPacketMetadata) :
    VideoIngressDecision → SubscriberVideoLayerSelector→Prop
  | unlabelled (hlabel : packet.spatial=none) (hsel : s.currentSsrc=some packet.ssrc) :
      SimulcastSpec s packet (.forward false) s
  | unknown (hlabel : packet.spatial=none) (hsel : s.currentSsrc≠some packet.ssrc) :
      SimulcastSpec s packet .dropUnknownLayer s
  | above (spatial : SpatialLayer) (hlabel : packet.spatial=some spatial)
      (hmax : s.policy.max<spatial) : SimulcastSpec s packet .dropAboveMaximum s
  | selected (spatial slot : SpatialLayer) (hlabel : packet.spatial=some spatial)
      (hmax : spatial ≤ s.policy.max) (hsel : s.current=some (packet.ssrc,slot)) (usable) :
      SimulcastSpec s packet (.forward false) {s with
        rtpSeenSsrc :=
          (s.rtpSeenSsrc.set spatial (some packet.ssrc)).set slot (some packet.ssrc)
        seenAgeTicks := (s.seenAgeTicks.set spatial 0).set slot 0,decoderUsableSsrc := usable}
  | switched (spatial : SpatialLayer) (changed locked : Bool)
      (hlabel : packet.spatial=some spatial) (hmax : spatial ≤ s.policy.max)
      (hsel : s.currentSsrc≠some packet.ssrc) (hpoint : packet.isDecodableSwitchPoint)
      (htarget : spatial=s.switchTarget packet spatial) (usable) :
      SimulcastSpec s packet (.forward changed) {s with
        current := some (packet.ssrc,spatial)
        rtpSeenSsrc := s.rtpSeenSsrc.set spatial (some packet.ssrc)
        seenAgeTicks := s.seenAgeTicks.set spatial 0,decoderUsableSsrc :=
          usable,acquisitionTicks := 0
        pliTicks := 0,fallbackLocked := locked,fallbackStarted := false
        remainingPliRequests := maxKeyframeRequestsPerAcquisition,waitingFor := s.policy.desired}
  | dropped (spatial : SpatialLayer) (decision : VideoIngressDecision)
      (hlabel : packet.spatial=some spatial) (hmax : spatial ≤ s.policy.max)
      (hsel : s.currentSsrc≠some packet.ssrc)
      (hkeep : ¬ (packet.isDecodableSwitchPoint ∧
        spatial=s.switchTarget packet spatial))
      (hdrop : ∀changed,decision ≠ .forward changed) (usable) :
      SimulcastSpec s packet decision {s with
        rtpSeenSsrc := s.rtpSeenSsrc.set spatial (some packet.ssrc)
        seenAgeTicks := s.seenAgeTicks.set spatial 0,decoderUsableSsrc := usable}

private theorem switchOrDrop_spec {sp : SpatialLayer} (hl : p.spatial=some sp)
    (hmax : sp ≤ s.policy.max) (hsel : s.currentSsrc≠some p.ssrc) (usable) :
    let r := switchOrDrop {s with
      rtpSeenSsrc := s.rtpSeenSsrc.set sp (some p.ssrc),seenAgeTicks := s.seenAgeTicks.set sp 0
      decoderUsableSsrc := usable} p sp
    SimulcastSpec s p r.1 r.2 := by
  have ht : switchTarget {s with
      rtpSeenSsrc := s.rtpSeenSsrc.set sp (some p.ssrc),seenAgeTicks := s.seenAgeTicks.set sp 0
      decoderUsableSsrc := usable} p sp=s.switchTarget p sp := rfl
  simp only [switchOrDrop,ht]
  by_cases hd : sp≠s.switchTarget p sp ∨ (!p.isDecodableSwitchPoint)
  · rw [if_pos hd]
    refine .dropped sp _ hl hmax hsel ?_ ?_ usable
    · intro hs
      obtain ⟨hp,heq⟩ := hs
      rcases hd with hne | hp'
      · exact hne heq
      · rw [hp] at hp'
        cases hp'
    · intro changed
      split_ifs <;> exact fun h => by cases h
  · rw [if_neg hd]
    obtain ⟨heq,hp⟩ := not_or.mp hd
    refine .switched sp _ _ hl hmax hsel ?_ (not_not.mp heq) usable
    simpa using hp

theorem observeSimulcastPacket_spec (av : Bool) :
    SimulcastSpec s p (s.observeSimulcastPacket p av).1 (s.observeSimulcastPacket p av).2 := by
  unfold observeSimulcastPacket
  cases hl : p.spatial with
  | none =>
    by_cases hsel : s.currentSsrc=some p.ssrc
    · simp only [hsel,if_true]
      exact .unlabelled hl hsel
    · simp only [hsel,if_false]
      exact .unknown hl hsel
  | some sp =>
    by_cases hmax : s.policy.max<sp
    · simp only [hmax,if_true]
      exact .above sp hl hmax
    · obtain ⟨usable,hreg⟩ := s.registerPacket_eq p sp av
      have hle := le_of_not_gt hmax
      simp only [hmax,if_false,hreg]
      cases hcur : s.current with
      | none =>
        have hsel : s.currentSsrc≠some p.ssrc := by simp [currentSsrc,hcur]
        have h := switchOrDrop_spec s p hl hle hsel usable
        rw [hcur] at h
        exact h
      | some selected =>
        rcases selected with ⟨ssrc,slot⟩
        by_cases hs : ssrc=p.ssrc
        · subst hs
          simp only [if_true]
          have h := SimulcastSpec.selected (s := s) sp slot hl hle hcur usable
          rw [hcur] at h
          exact h
        · have hsel : s.currentSsrc≠some p.ssrc := by simp [currentSsrc,hcur,hs]
          have h := switchOrDrop_spec s p hl hle hsel usable
          rw [hcur] at h
          simp only [hs,if_false]
          exact h

inductive ScalableSpec (s : SubscriberVideoLayerSelector) (packet : LayerPacketMetadata) :
    VideoIngressDecision → SubscriberVideoLayerSelector→Prop
  | selected (hsel : s.singleScalableCurrent=some packet.ssrc) :
      ScalableSpec s packet (.forward false) {s with
        singleScalableActive := true,singleScalableSeen := some packet.ssrc
        singleScalableSeenAgeTicks := 0,singleScalableCurrentAgeTicks := 0}
  | dropped (decision : VideoIngressDecision)
      (hsel : s.singleScalableCurrent≠some packet.ssrc)
      (hkeep : s.singleScalableCurrent=none → packet.isDecodableSwitchPoint=false)
      (hdrop : ∀changed,decision ≠ .forward changed) :
      ScalableSpec s packet decision {s with
        singleScalableActive := true,singleScalableSeen := some packet.ssrc
        singleScalableSeenAgeTicks := 0}
  | acquired (hnone : s.singleScalableCurrent=none)
      (hpoint : packet.isDecodableSwitchPoint) :
      ScalableSpec s packet (.forward true) {s with
        singleScalableActive := true,singleScalableSeen := some packet.ssrc
        singleScalableSeenAgeTicks := 0,singleScalableCurrent := some packet.ssrc
        singleScalableCurrentAgeTicks := 0,acquisitionTicks := 0,pliTicks := 0
        remainingPliRequests := maxKeyframeRequestsPerAcquisition}

theorem observeSingleScalablePacket_spec :
    ScalableSpec s p (s.observeSingleScalablePacket p).1 (s.observeSingleScalablePacket p).2 := by
  simp only [observeSingleScalablePacket]
  by_cases hsel : s.singleScalableCurrent=some p.ssrc
  · rw [if_pos hsel]
    exact .selected hsel
  · rw [if_neg hsel]
    cases hcur : s.singleScalableCurrent with
    | some ssrc =>
      have h := ScalableSpec.dropped (s := s) .dropNonSelectedSsrc hsel (by simp [hcur]) (by simp)
      rw [hcur] at h
      exact h
    | none =>
      cases hp : p.isDecodableSwitchPoint with
      | false =>
        have h := ScalableSpec.dropped (s := s) .dropWaitingForKeyframe hsel (fun _ => hp) (by simp)
        rw [hcur] at h
        exact h
      | true => exact .acquired hcur hp

theorem selectorStep_packet (av : Bool) :
    ∃d s',selectorStep s (.packet p av)=(.decided d,s') ∧
      (p.sourceKind = .simulcast ∧ SimulcastSpec s p d s' ∨
        p.sourceKind = .singleScalable ∧ ScalableSpec s p d s') := by
  rw [selectorStep,observePacketWithDependencyDescriptorMetadata]
  cases p.sourceKind with
  | simulcast =>
    exact ⟨_,_,rfl,.inl ⟨rfl,s.observeSimulcastPacket_spec p av⟩⟩
  | singleScalable =>
    exact ⟨_,_,rfl,.inr ⟨rfl,s.observeSingleScalablePacket_spec p⟩⟩

theorem setPolicy_frame (y : LayerPolicy) :
    ∃w ticks started locked pli rm,s.setPolicy y={s with
      policy := y,waitingFor := w,acquisitionTicks := ticks,fallbackStarted := started
      fallbackLocked := locked,pliTicks := pli
      remainingPliRequests := rm} := by
  simp only [setPolicy]
  split_ifs with h
  · subst h
    exact ⟨_,_,_,_,_,_,rfl⟩
  · exact ⟨_,_,_,_,_,_,rfl⟩

theorem requestKeyframe_frame (c : Option UInt32) :
    ∃pli rm,(s.requestKeyframe c).2={s with
      pliTicks := pli
      remainingPliRequests := rm} := by
  simp only [requestKeyframe]
  split_ifs
  · exact ⟨_,_,rfl⟩
  · exact ⟨_,_,rfl⟩
  · cases c with
    | none => exact ⟨_,_,rfl⟩
    | some ssrc => exact ⟨_,_,rfl⟩

theorem advanceAcquisition_frame :
    ∃ticks started,s.advanceAcquisition={s with
      acquisitionTicks := ticks
      fallbackStarted := started} := by
  simp only [advanceAcquisition]
  split_ifs
  · exact ⟨_,_,rfl⟩
  · exact ⟨_,_,rfl⟩

theorem aimFallback_frame :
    ∃w pli rm,s.aimFallback={s with
      waitingFor := w,pliTicks := pli
      remainingPliRequests := rm} := by
  simp only [aimFallback]
  split_ifs
  · exact ⟨_,_,_,rfl⟩
  · exact ⟨_,_,_,rfl⟩

theorem onTimer_frame :
    ∃w ticks started pli rm,s.onTimer.2={s.expireStaleSources with
      waitingFor := w,acquisitionTicks := ticks,fallbackStarted := started,pliTicks := pli
      remainingPliRequests := rm} := by
  simp only [onTimer]
  split_ifs
  · simp only [onSingleScalableTimer]
    split_ifs
    · exact ⟨_,_,_,_,_,rfl⟩
    · obtain ⟨pli,rm,h⟩ := requestKeyframe_frame
        {s.expireStaleSources with
          acquisitionTicks := nextTick s.expireStaleSources.acquisitionTicks}
        s.expireStaleSources.singleScalableSeen
      rw [h]
      exact ⟨_,_,_,_,_,rfl⟩
  · exact ⟨_,_,_,_,_,rfl⟩
  · exact ⟨_,_,_,_,_,rfl⟩
  · obtain ⟨ticks,started,h₁⟩ := s.expireStaleSources.advanceAcquisition_frame
    obtain ⟨w,pli,rm,h₂⟩ := s.expireStaleSources.advanceAcquisition.aimFallback_frame
    obtain ⟨pli',remaining',h₃⟩ := requestKeyframe_frame
      s.expireStaleSources.advanceAcquisition.aimFallback
      (s.expireStaleSources.advanceAcquisition.aimFallback.rtpSeenSsrc.get
        s.expireStaleSources.advanceAcquisition.aimFallback.waitingFor)
    rw [h₃,h₂,h₁]
    exact ⟨_,_,_,_,_,rfl⟩

/-- The slot of the selected simulcast source shows it and is not about to go stale. -/
def SlotFresh (s : SubscriberVideoLayerSelector) (ssrc : UInt32) (slot : SpatialLayer) : Prop :=
  s.rtpSeenSsrc.get slot=some ssrc ∧ nextTick (s.seenAgeTicks.get slot)<sourceStaleTicks

theorem expireSlots_shows_iff (ssrc : UInt32) (slot : SpatialLayer) :
    s.expireSlots.rtpSeenSsrc.get slot=some ssrc ↔ s.SlotFresh ssrc slot := by
  simp only [expireSlots,PerLayer.get_ofFn,SlotFresh,decide_eq_true_eq]
  by_cases hs : sourceStaleTicks≤nextTick (s.seenAgeTicks.get slot)
  · simp [hs,Nat.not_lt.mpr hs]
  · simp [hs,Nat.lt_of_not_le hs]

variable {s}

/-- Which simulcast source survives a tick in simulcast mode. -/
theorem expireStaleSources_current
    (hm : s.singleScalableActive=false) {ssrc : UInt32} {slot : SpatialLayer} :
    s.expireStaleSources.current=some (ssrc,slot) ↔ s.current=some (ssrc,slot) ∧
      s.SlotFresh ssrc slot := by
  have hf : s.expireSlots.current=s.current := rfl
  simp only [expireStaleSources,hm,Bool.false_eq_true,if_false,releaseLost,hf]
  cases hcur : s.current with
  | none => simp [hf,hcur]
  | some selected =>
    rcases selected with ⟨x,l⟩
    simp only
    rw [← expireSlots_shows_iff]
    by_cases hs : s.expireSlots.rtpSeenSsrc.get l=some x
    · rw [if_pos hs,hf,hcur]
      constructor
      · intro h
        obtain ⟨rfl,rfl⟩ := Prod.mk.inj (Option.some.inj h)
        exact ⟨rfl,hs⟩
      · exact And.left
    · rw [if_neg hs]
      constructor
      · intro h
        cases h
      · intro hk
        obtain ⟨h,hs'⟩ := hk
        obtain ⟨rfl,rfl⟩ := Prod.mk.inj (Option.some.inj h)
        exact absurd hs' hs

theorem expireStaleSources_simulcast (hm : s.singleScalableActive=false) :
    s.expireStaleSources.singleScalableActive=false ∧
      s.expireStaleSources.singleScalableCurrent=s.singleScalableCurrent ∧
      s.expireStaleSources.policy=s.policy ∧
      s.expireStaleSources.rtpSeenSsrc=s.expireSlots.rtpSeenSsrc ∧
      s.expireStaleSources.seenAgeTicks=s.expireSlots.seenAgeTicks := by
  simp only [expireStaleSources,hm,Bool.false_eq_true,if_false,releaseLost]
  split
  · split_ifs
    · exact ⟨hm,rfl,rfl,rfl,rfl⟩
    · exact ⟨hm,rfl,rfl,rfl,rfl⟩
  · exact ⟨hm,rfl,rfl,rfl,rfl⟩

theorem expireStaleSources_scalable (hm : s.singleScalableActive) :
    s.expireStaleSources=s.expireScalable := by
  simp only [expireStaleSources,hm,if_true]

variable (s)

/-- The scalable source goes when it is stale, and the simulcast source shows again. -/
theorem expireScalable_selectedSsrc :
    s.expireScalable.selectedSsrc =
      (if s.singleScalableCurrent.isSome &&
          sourceStaleTicks≤nextTick s.singleScalableCurrentAgeTicks then none
        else s.singleScalableCurrent).or s.currentSsrc := rfl

end SubscriberVideoLayerSelector

end OxideSfu.VideoIngress
