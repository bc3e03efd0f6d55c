import OxideSfu.SourceLiveness

/-!
# What a policy update leaves alone

A policy update keeps the selected simulcast source, but the new maximum also applies to
its packets. The source goes on being forwarded until another one is switched to or it
falls silent, as long as its packets fit the selection and its slot is not taken over.
-/

namespace OxideSfu.VideoIngress

open StepRuns SubscriberVideoLayerSelector Option

def quietTicks (ssrc : UInt32) (events : List SelectorEvent) : ℕ :=
  events.foldl (fun ticks event => match event with
    | .timer => ticks+1
    | .packet packet _ => if packet.ssrc=ssrc then 0 else ticks
    | .setPolicy _ => ticks) 0

theorem quietTicks_timer (ssrc : UInt32) (es : List SelectorEvent) :
    quietTicks ssrc (es++[.timer])=quietTicks ssrc es+1 := by
  rw [quietTicks,List.foldl_append]
  rfl

variable (policy : LayerPolicy) (ssrc : UInt32)

/-- A source is released when a switch point of another source is forwarded, or when a
tick deselects it after eight ticks without a packet. -/
def Releases (before : List SelectorEvent) : SelectorEvent→Prop
  | .packet packet available => packet.ssrc≠ssrc ∧ packet.isDecodableSwitchPoint ∧
      ∃changed,(selectorStep (selectorAfter policy before) (.packet packet available)).1 =
        .decided (.forward changed)
  | .timer => (selectorAfter policy before).selectedSsrc=some ssrc ∧
      (selectorAfter policy (before++[.timer])).selectedSsrc≠some ssrc ∧
      sourceStaleTicks≤quietTicks ssrc (before++[.timer])
  | .setPolicy _ => False

/-- Nothing released the source since a point of the run. -/
def Held (start since : List SelectorEvent) : Prop :=
  AtEveryStep (fun before event => ¬ Releases policy ssrc (start++before) event) since

def KeepsForwarding (start since : List SelectorEvent) : Prop :=
  AtEveryStep (fun before event => ∀packet available,event = .packet packet available →
    packet.ssrc=ssrc → Held policy ssrc start before →
    ∃changed,(selectorStep (selectorAfter policy (start++before)) event).1 =
      .decided (.forward changed)) since

/-- The next event suits the selected source: its simulcast packets stay below the
maximum, a scalable packet is a switch point or continues a scalable selection, and a tick
in simulcast mode finds the slot fresh unless the source was silent for eight ticks. -/
def FitsSelection (before : List SelectorEvent) : SelectorEvent→Prop
  | .packet packet _ => packet.ssrc=ssrc →
    match packet.sourceKind with
    | .simulcast => ∀spatial,packet.spatial=some spatial →
        spatial≤(selectorAfter policy before).policy.max
    | .singleScalable => (selectorAfter policy before).singleScalableCurrent=some ssrc ∨
        packet.isDecodableSwitchPoint
  | .timer => (selectorAfter policy before).singleScalableActive=false →
      ∀slot,(selectorAfter policy before).current=some (ssrc,slot) →
        (selectorAfter policy before).SlotFresh ssrc slot ∨
          sourceStaleTicks≤quietTicks ssrc before+1
  | .setPolicy _ => True

def FitsUntilRelease (start since : List SelectorEvent) : Prop :=
  AtEveryStep (fun before event => Held policy ssrc start before →
    FitsSelection policy ssrc (start++before) event) since

/-- The source is the simulcast selection, and no other scalable source hides it. -/
structure Holding (s : SubscriberVideoLayerSelector) (ssrc : UInt32) : Prop where
  current : ∃slot,s.current=some (ssrc,slot)
  scalable : ∀other,s.singleScalableCurrent=some other → other=ssrc

theorem Holding.currentSsrc {s : SubscriberVideoLayerSelector} {ssrc : UInt32}
    (h : Holding s ssrc) : s.currentSsrc=some ssrc := by
  obtain ⟨slot,hcur⟩ := h.current
  rw [SubscriberVideoLayerSelector.currentSsrc,hcur]
  rfl

variable {y : LayerPolicy} {b : List SelectorEvent} {ssrc : UInt32} {p : LayerPacketMetadata}

theorem Holding.forwards (h : Holding (selectorAfter y b) p.ssrc)
    (av : Bool) (hfit : FitsSelection y p.ssrc b (.packet p av)) :
    ∃changed,(selectorStep (selectorAfter y b) (.packet p av)).1 = .decided (.forward changed) := by
  have hfit := hfit rfl
  obtain ⟨d,s',hst,hsp⟩ := (selectorAfter y b).selectorStep_packet p av
  rw [hst]
  rcases hsp with ⟨hk,hsp⟩ | ⟨hk,hsp⟩
  · simp only [hk] at hfit
    cases hsp with
    | unlabelled => exact ⟨_,rfl⟩
    | selected => exact ⟨_,rfl⟩
    | switched => exact ⟨_,rfl⟩
    | unknown _ hsel => exact absurd h.currentSsrc hsel
    | above sp hl hmax => exact absurd (hfit sp hl) (not_le_of_gt hmax)
    | dropped _ _ _ _ hsel => exact absurd h.currentSsrc hsel
  · simp only [hk] at hfit
    cases hsp with
    | selected => exact ⟨_,rfl⟩
    | acquired => exact ⟨_,rfl⟩
    | dropped _ hsel hke =>
      exfalso
      rcases hfit with hcur | hp
      · exact hsel hcur
      · cases hs : (selectorAfter y b).singleScalableCurrent with
        | none => exact absurd (hke hs) (by simp [hp])
        | some o => exact hsel (by rw [hs,h.scalable o hs])

theorem Holding.packet (h : Holding (selectorAfter y b) ssrc) {av : Bool}
    (hk : ¬ Releases y ssrc b (.packet p av)) :
    Holding (selectorAfter y (b++[.packet p av])) ssrc := by
  rw [selectorAfter_concat]
  have hown : p.isDecodableSwitchPoint →
      (∃changed,(selectorStep (selectorAfter y b) (.packet p av)).1 =
        .decided (.forward changed)) → p.ssrc=ssrc := by
    intro hp hf
    by_contra hne
    exact hk ⟨hne,hp,hf⟩
  obtain ⟨d,s',hst,hs⟩ := (selectorAfter y b).selectorStep_packet p av
  rw [hst] at hown ⊢
  rcases hs with ⟨_,hs⟩ | ⟨_,hs⟩
  · cases hs with
    | switched sp changed locked hl hmax hsel hp ht usable =>
      have hss := hown hp ⟨changed,rfl⟩
      exact ⟨⟨sp,by rw [hss]⟩,h.scalable⟩
    | unlabelled => exact h
    | unknown => exact h
    | above => exact h
    | selected => exact ⟨h.current,h.scalable⟩
    | dropped => exact ⟨h.current,h.scalable⟩
  · cases hs with
    | acquired hn hp =>
      refine ⟨h.current,?_⟩
      intro o ho
      rw [← hown hp ⟨true,rfl⟩]
      exact (some.inj ho).symm
    | selected => exact ⟨h.current,h.scalable⟩
    | dropped => exact ⟨h.current,h.scalable⟩

theorem Holding.timer (h : Holding (selectorAfter y b) ssrc)
    (hfit : FitsSelection y ssrc b .timer) (hk : ¬ Releases y ssrc b .timer) :
    Holding (selectorAfter y (b++[.timer])) ssrc := by
  obtain ⟨slot,hcur⟩ := h.current
  obtain ⟨_,_,_,_,_,hf⟩ := (selectorAfter y b).onTimer_frame
  have haf : selectorAfter y (b++[.timer]) = (selectorAfter y b).onTimer.2 :=
    selectorAfter_concat _ _ _
  cases ha : (selectorAfter y b).singleScalableActive with
  | true =>
    rw [haf,hf,expireStaleSources_scalable ha]
    refine ⟨⟨slot,hcur⟩,?_⟩
    intro o ho
    simp only [expireScalable] at ho
    split_ifs at ho
    exact h.scalable o ho
  | false =>
    obtain ⟨_,hs,_⟩ := expireStaleSources_simulcast ha
    have ho : ∀o,(selectorAfter y (b++[.timer])).singleScalableCurrent=some o → o=ssrc := by
      rw [haf,hf]
      intro o ho
      exact h.scalable o (hs.symm.trans ho)
    -- A slot that is not fresh would mean a release after eight silent ticks.
    have hfr : (selectorAfter y b).SlotFresh ssrc slot := by
      by_contra hst
      have hq := (hfit ha slot hcur).resolve_left hst
      apply hk
      refine ⟨(selectedSsrc_of_current h.currentSsrc).mpr h.scalable,?_,?_⟩
      · intro hsel
        rw [haf,onTimer_selectedSsrc,
          (modeSound_selectorAfter y b).expire_selectedSsrc_iff ha] at hsel
        obtain ⟨slot',hc',hfr⟩ := hsel
        obtain ⟨_,rfl⟩ := Prod.mk.inj (some.inj (hcur.symm.trans hc'))
        exact hst hfr
      · rw [quietTicks_timer]
        exact hq
    refine ⟨⟨slot,?_⟩,ho⟩
    rw [haf,hf]
    exact (expireStaleSources_current ha).mpr ⟨hcur,hfr⟩

theorem holding_of_held {start since : List SelectorEvent}
    (hs : Holding (selectorAfter y start) ssrc)
    (hfi : FitsUntilRelease y ssrc start since) (hh : Held y ssrc start since) :
    Holding (selectorAfter y (start++since)) ssrc := by
  induction since using List.reverseRecOn with
  | nil =>
    rw [List.append_nil]
    exact hs
  | append_singleton since e ih =>
    obtain ⟨hf,hfit⟩ := (atEveryStep_concat _ _ _).mp hfi
    obtain ⟨hp,hk⟩ := (atEveryStep_concat _ _ _).mp hh
    have hnow := ih hf hp
    rw [← List.append_assoc]
    cases e with
    | packet p av => exact hnow.packet hk
    | timer => exact hnow.timer (hfit hp) hk
    | setPolicy q =>
      obtain ⟨_,_,_,_,_,_,hfr⟩ := (selectorAfter y (start++since)).setPolicy_frame q
      rw [selectorAfter_concat,selectorStep,hfr]
      exact ⟨hnow.current,hnow.scalable⟩

/-- After a policy update in any reachable state, a selected simulcast source is forwarded
until it is released, in every continuation whose events fit the selection. -/
theorem setPolicy_keepsForwarding (policy q : LayerPolicy) (before since : List SelectorEvent)
    (ssrc : UInt32) (slot : SpatialLayer)
    (hcur : (selectorAfter policy before).current = some (ssrc,slot))
    (hscalable : (selectorAfter policy before).singleScalableCurrent = none)
    (hfits : FitsUntilRelease policy ssrc (before ++ [.setPolicy q]) since) :
    KeepsForwarding policy ssrc (before ++ [.setPolicy q]) since := by
  have hs : Holding (selectorAfter policy (before++[.setPolicy q])) ssrc := by
    obtain ⟨_,_,_,_,_,_,hf⟩ := (selectorAfter policy before).setPolicy_frame q
    rw [selectorAfter_concat,selectorStep,hf]
    refine ⟨⟨slot,hcur⟩,?_⟩
    intro other ho
    rw [hscalable] at ho
    cases ho
  rintro done event rest rfl packet available rfl rfl hh
  have hfit := hfits done (.packet packet available) rest rfl hh
  have hnow := holding_of_held hs hfits.of_append hh
  exact hnow.forwards available hfit

/-- The selected low source after an update that raises the policy. -/
theorem setPolicy_keepsForwarding_raised :
    KeepsForwarding (.fixed .low) 10
      ([.packet ⟨10,some .low,.simulcast,true⟩ false] ++ [.setPolicy (.fixed .high)])
      [.packet ⟨10,some .low,.simulcast,false⟩ false,.timer,
        .packet ⟨10,none,.simulcast,false⟩ false] := by
  apply setPolicy_keepsForwarding _ _ _ _ _ .low (by decide) (by decide)
  change AtEveryStep _ ((([]++[_])++[_])++[_])
  simp only [atEveryStep_concat,atEveryStep_nil,true_and]
  refine ⟨⟨?_,?_⟩,?_⟩ <;> intro _
  · intro _ spatial hl
    obtain rfl := some.inj hl
    decide
  · intro _ slot hcur
    obtain rfl : SpatialLayer.low=slot := (Prod.mk.inj (some.inj hcur)).2
    exact .inl ⟨by decide,by decide⟩
  · intro _ spatial hl
    cases hl

/-- An update to a lower maximum drops the next packet of the selected source, before
any other source was switched to. -/
theorem setPolicy_keepsForwarding_fails_below_selected :
    (selectorAfter (.fixed .high) [.packet ⟨30,some .high,.simulcast,true⟩ false]).current =
        some (30,.high) ∧
      ¬ KeepsForwarding (.fixed .high) 30
        ([.packet ⟨30,some .high,.simulcast,true⟩ false] ++ [.setPolicy (.fixed .low)])
        [.packet ⟨30,some .high,.simulcast,false⟩ false] := by
  refine ⟨by decide,?_⟩
  intro h
  obtain ⟨changed,hf⟩ := h [] _ [] rfl _ _ rfl rfl (atEveryStep_nil _)
  revert hf
  cases changed <;> decide

end OxideSfu.VideoIngress
