import Mathlib.Data.Finset.Card
import OxideSfu.SourceLiveness

/-!
# Keyframe requests of a target

An acquisition may ask twelve times for a keyframe. The budget is refilled whenever the fallback
moves to another layer, so it bounds the requests only while the fallback does not come back to a
layer. A second result says when a request goes to the selected source.
-/

namespace OxideSfu.VideoIngress

open StepRuns SubscriberVideoLayerSelector List Nat

variable {request : KeyframeRequest}

namespace SubscriberVideoLayerSelector

def movesFallbackTo (s : SubscriberVideoLayerSelector) : Option SpatialLayer :=
  let s := s.expireStaleSources.advanceAcquisition
  if s.fallbackStarted ∧ s.fallbackLayer≠s.waitingFor then some s.fallbackLayer else none

variable (s : SubscriberVideoLayerSelector)

theorem requestKeyframe_budget (c : Option UInt32) :
    (s.requestKeyframe c).1.isSome.toNat+(s.requestKeyframe c).2.remainingPliRequests =
      s.remainingPliRequests := by
  simp only [requestKeyframe]
  split_ifs
  · exact zero_add _
  · exact zero_add _
  · cases c with
    | none => exact zero_add _
    | some ssrc =>
      simp only [Option.isSome_some,Bool.toNat_true]
      omega

theorem requestKeyframe_waitingFor (c : Option UInt32) :
    (s.requestKeyframe c).2.waitingFor=s.waitingFor := by
  obtain ⟨_,_,h⟩ := s.requestKeyframe_frame c
  rw [h]

theorem requestKeyframe_eq_some {s : SubscriberVideoLayerSelector} {source : Option UInt32} :
    (s.requestKeyframe source).1=some request ↔
      s.pliTicks=0 ∧ 0<s.remainingPliRequests ∧ source=some request.mediaSsrc := by
  simp only [requestKeyframe]
  split_ifs with hgap he
  · simp [Nat.ne_of_gt hgap]
  · simp [he]
  · have hz : s.pliTicks=0 := Nat.eq_zero_of_not_pos hgap
    have hpos : 0<s.remainingPliRequests := Nat.pos_of_ne_zero he
    cases source with
    | none => simp
    | some ssrc =>
      rcases request with ⟨mediaSsrc⟩
      simp [hz,hpos]

theorem aimFallback_advance :
    s.expireStaleSources.advanceAcquisition.aimFallback =
      match s.movesFallbackTo with
      | some l => {s.expireStaleSources.advanceAcquisition with
          waitingFor := l,pliTicks := 0,remainingPliRequests := maxKeyframeRequestsPerAcquisition}
      | none => s.expireStaleSources.advanceAcquisition := by
  simp only [aimFallback,movesFallbackTo]
  split_ifs <;> rfl

end SubscriberVideoLayerSelector

variable (policy : LayerPolicy) (events : List SelectorEvent)

def SelectorOutput.isRequest : SelectorOutput→Bool
  | .ticked (some _) => true | _ => false

def requestCount : ℕ :=
  (trace selectorStep (new policy) events).countP fun t => t.output.isRequest

/-- One fixed policy, and no packet that could be switched to. -/
structure Unsatisfied : Prop where
  fixed : ∀q,.setPolicy q∈events → q=policy
  noSwitchPoint : ∀packet available,.packet packet available∈events →
    packet.isDecodableSwitchPoint=false

def awaitedLayers : Finset SpatialLayer :=
  insert policy.desired
    ((trace selectorStep (new policy) events).map fun t => t.after.waitingFor).toFinset

/-- In simulcast mode no tick moves the fallback to a layer waited for before. -/
def NeverReturns : Prop :=
  AtEveryStep (fun before event => event = .timer →
    (selectorAfter policy before).singleScalableActive=false →
    ∀layer∈(selectorAfter policy before).movesFallbackTo,
      layer∉awaitedLayers policy before) events

instance (policy : LayerPolicy) (events : List SelectorEvent) :
    Decidable (NeverReturns policy events) := by
  unfold NeverReturns
  infer_instance

theorem card_layers_le (layers : Finset SpatialLayer) : layers.card≤3 := by
  have hsub : layers⊆{.low,.medium,.high} := by
    intro l _
    cases l <;> decide
  exact (Finset.card_le_card hsub).trans (by decide)

theorem requestCount_concat (y : LayerPolicy) (es : List SelectorEvent) (e : SelectorEvent) :
    requestCount y (es++[e])=requestCount y es +
      (selectorStep (selectorAfter y es) e).1.isRequest.toNat := by
  rw [requestCount,trace_concat,countP_append]
  have hone : ∀t : Transition SubscriberVideoLayerSelector SelectorEvent SelectorOutput,
      countP (·.output.isRequest) [t]=t.output.isRequest.toNat := by
    intro t
    cases h : t.output.isRequest <;> simp [h]
  rfl

theorem awaitedLayers_concat (y : LayerPolicy) (es : List SelectorEvent) (e : SelectorEvent) :
    awaitedLayers y (es++[e]) = insert (selectorAfter y (es++[e])).waitingFor
      (awaitedLayers y es) := by
  ext layer
  rw [selectorAfter_concat]
  simp only [awaitedLayers,trace_concat,map_append,map_cons,map_nil,
    toFinset_append,Finset.mem_insert,Finset.mem_union,mem_toFinset,
    mem_singleton]
  constructor
  · intro hl
    rcases hl with h | h | h
    · exact .inr (.inl h)
    · exact .inr (.inr h)
    · exact .inl h
  · intro hl
    rcases hl with h | h | h
    · exact .inr (.inr h)
    · exact .inl h
    · exact .inr (.inl h)

structure Unselected (policy : LayerPolicy) (s : SubscriberVideoLayerSelector) : Prop where
  policy : s.policy=policy
  current : s.current=none
  scalable : s.singleScalableCurrent=none
  unlocked : s.fallbackLocked=false

variable {y : LayerPolicy} {s : SubscriberVideoLayerSelector} {es : List SelectorEvent}

/-- Without a switch point a packet touches neither selection nor acquisition. -/
theorem Unselected.packet (h : Unselected y s) {p : LayerPacketMetadata}
    (hpo : p.isDecodableSwitchPoint=false) (av : Bool) :
    let r := selectorStep s (.packet p av)
    Unselected y r.2 ∧ r.2.waitingFor=s.waitingFor ∧
      r.2.remainingPliRequests=s.remainingPliRequests ∧ r.1.isRequest=false := by
  have hn : s.currentSsrc=none := by rw [currentSsrc,h.current]; rfl
  obtain ⟨d,s',hst,hs⟩ := s.selectorStep_packet p av
  simp only [hst]
  rcases hs with ⟨_,hs⟩ | ⟨_,hs⟩
  · cases hs with
    | unlabelled _ hsel => exact absurd (hn.symm.trans hsel) (by simp)
    | unknown => exact ⟨h,rfl,rfl,rfl⟩
    | above => exact ⟨h,rfl,rfl,rfl⟩
    | selected _ _ _ _ hsel => exact absurd (h.current.symm.trans hsel) (by simp)
    | switched _ _ _ _ _ _ hp => exact absurd (hpo.symm.trans hp) (by decide)
    | dropped =>
      exact ⟨⟨h.policy,h.current,h.scalable,h.unlocked⟩,rfl,rfl,rfl⟩
  · cases hs with
    | selected hsel => exact absurd (h.scalable.symm.trans hsel) (by simp)
    | acquired _ hp => exact absurd (hpo.symm.trans hp) (by decide)
    | dropped =>
      exact ⟨⟨h.policy,h.current,h.scalable,h.unlocked⟩,rfl,rfl,rfl⟩

theorem Unselected.expire (h : Unselected y s) :
    Unselected y s.expireStaleSources ∧
      s.expireStaleSources.waitingFor=s.waitingFor ∧
      s.expireStaleSources.remainingPliRequests=s.remainingPliRequests ∧
      s.expireStaleSources.singleScalableActive=s.singleScalableActive := by
  cases ha : s.singleScalableActive with
  | true =>
    rw [expireStaleSources_scalable ha]
    refine ⟨⟨h.policy,h.current,?_,h.unlocked⟩,rfl,rfl,ha⟩
    simp [expireScalable,h.scalable]
  | false =>
    have hs : s.expireStaleSources=s.expireSlots := by
      have hcur : s.expireSlots.current=none := h.current
      simp only [expireStaleSources,ha,Bool.false_eq_true,if_false,releaseLost,hcur]
    rw [hs]
    exact ⟨⟨h.policy,h.current,h.scalable,h.unlocked⟩,rfl,rfl,ha⟩

/-- What a tick does to the budget while nothing is selected. -/
theorem Unselected.timer (h : Unselected y s) :
    Unselected y s.onTimer.2 ∧
      ((s.onTimer.2.waitingFor=s.waitingFor ∧
          s.onTimer.1.isSome.toNat+s.onTimer.2.remainingPliRequests=s.remainingPliRequests) ∨
        (s.singleScalableActive=false ∧ s.movesFallbackTo=some s.onTimer.2.waitingFor ∧
          s.onTimer.1.isSome.toNat+s.onTimer.2.remainingPliRequests =
            maxKeyframeRequestsPerAcquisition)) := by
  obtain ⟨he,hw,hr,hac⟩ := h.expire
  refine ⟨?_,?_⟩
  · obtain ⟨_,_,_,_,_,hf⟩ := s.onTimer_frame
    rw [hf]
    exact ⟨he.policy,he.current,he.scalable,he.unlocked⟩
  · have hs : s.expireStaleSources.currentSpatial=none := by
      rw [currentSpatial,he.current]
      rfl
    simp only [onTimer,hac,he.unlocked,hs,Bool.false_eq_true,if_false,reduceCtorEq]
    cases s.singleScalableActive with
    | true =>
      left
      simp only [if_true,onSingleScalableTimer,he.scalable,Option.isSome_none,
        Bool.false_eq_true,if_false,requestKeyframe_waitingFor,requestKeyframe_budget]
      exact ⟨hw,hr⟩
    | false =>
      obtain ⟨ticks,started,ha⟩ := s.expireStaleSources.advanceAcquisition_frame
      simp only [Bool.false_eq_true,if_false,requestKeyframe_waitingFor,requestKeyframe_budget,
        aimFallback_advance]
      cases s.movesFallbackTo with
      | none =>
        left
        rw [ha]
        exact ⟨hw,hr⟩
      | some l =>
        right
        exact ⟨by trivial,rfl,rfl⟩

/-- The requests made so far and the budget left never exceed twelve for each layer that
was waited for. -/
structure WithinBudget (policy : LayerPolicy) (events : List SelectorEvent) : Prop where
  unselected : Unselected policy (selectorAfter policy events)
  awaited : (selectorAfter policy events).waitingFor∈awaitedLayers policy events
  spent : requestCount policy events+(selectorAfter policy events).remainingPliRequests ≤
    maxKeyframeRequestsPerAcquisition*(awaitedLayers policy events).card

theorem withinBudget_nil (y : LayerPolicy) : WithinBudget y [] := by
  refine ⟨⟨rfl,rfl,rfl,rfl⟩,?_,?_⟩
  · simp [awaitedLayers,new]
  · simp [awaitedLayers,requestCount,new]

/-- A step that keeps the awaited layer and the sum of requests and budget. -/
theorem WithinBudget.keep (h : WithinBudget y es) {e : SelectorEvent}
    (hun : Unselected y (selectorAfter y (es++[e])))
    (hw : (selectorAfter y (es++[e])).waitingFor =
      (selectorAfter y es).waitingFor) (hs : requestCount y (es++[e]) +
        (selectorAfter y (es++[e])).remainingPliRequests =
      requestCount y es+(selectorAfter y es).remainingPliRequests) :
    WithinBudget y (es++[e]) := by
  have ha : awaitedLayers y (es++[e])=awaitedLayers y es := by
    rw [awaitedLayers_concat,hw]
    exact Finset.insert_eq_of_mem h.awaited
  refine ⟨hun,?_,?_⟩
  · rw [ha,hw]
    exact h.awaited
  · rw [hs,ha]
    exact h.spent

theorem WithinBudget.step (h : WithinBudget y es) (e : SelectorEvent)
    (hp : ∀q,e = .setPolicy q → q=y)
    (hpo : ∀p av,e = .packet p av → p.isDecodableSwitchPoint=false)
    (hret : e = .timer → (selectorAfter y es).singleScalableActive=false →
      ∀l,(selectorAfter y es).movesFallbackTo=some l → l∉awaitedLayers y es) :
    WithinBudget y (es++[e]) := by
  cases e with
  | packet p av =>
    obtain ⟨hun,hw,hre,hq⟩ := h.unselected.packet (hpo p av rfl) av
    apply h.keep
    · rw [selectorAfter_concat]
      exact hun
    · rw [selectorAfter_concat]
      exact hw
    · rw [requestCount_concat,selectorAfter_concat,hre]
      rfl
  | setPolicy q =>
    have hsame : (selectorAfter y es).setPolicy q=selectorAfter y es := by
      rw [hp q rfl,setPolicy,if_pos h.unselected.policy]
    have ha : selectorAfter y (es++[.setPolicy q])=selectorAfter y es := by
      rw [selectorAfter_concat,selectorStep,hsame]
    apply h.keep
    · rw [ha]
      exact h.unselected
    · rw [ha]
    · rw [requestCount_concat,ha]
      rfl
  | timer =>
    obtain ⟨hun,hc⟩ := h.unselected.timer
    have ha : selectorAfter y (es++[.timer]) = (selectorAfter y es).onTimer.2 :=
      selectorAfter_concat _ _ _
    have hr : (selectorStep (selectorAfter y es) .timer).1.isRequest =
      (selectorAfter y es).onTimer.1.isSome := by
      simp only [selectorStep]
      cases (selectorAfter y es).onTimer.1 <;> rfl
    rcases hc with ⟨hw,hs⟩ | ⟨hmo,hm,hs⟩
    · apply h.keep
      · rw [ha]
        exact hun
      · rw [ha,hw]
      · rw [requestCount_concat,ha,hr]
        omega
    · -- A refilled budget is paid for by the layer that is waited for the first time.
      have hnew := hret rfl hmo _ hm
      have hb := h.spent
      refine ⟨by rw [ha]; exact hun,?_,?_⟩
      · rw [awaitedLayers_concat]
        exact Finset.mem_insert_self _ _
      · rw [requestCount_concat,awaitedLayers_concat,ha,hr,Finset.card_insert_of_notMem hnew,
          mul_succ]
        omega

/-- The requests of an unsatisfied target are bounded by 36 in every run whose fallback
never comes back to a layer it waited for. -/
theorem requestCount_le (policy : LayerPolicy) (events : List SelectorEvent)
    (hun : Unsatisfied policy events) (hreturn : NeverReturns policy events) :
    requestCount policy events≤36 := by
  have hb : WithinBudget policy events := by
    induction events using reverseRecOn with
    | nil => exact withinBudget_nil policy
    | append_singleton events event ih =>
      obtain ⟨hpa,hnow⟩ := (atEveryStep_concat _ _ _).mp hreturn
      have hold : Unsatisfied policy events :=
        ⟨fun q hq => hun.fixed q (by simp [hq]),
          fun packet available hp => hun.noSwitchPoint packet available (by simp [hp])⟩
      refine (ih hold hpa).step event ?_ ?_ hnow
      · rintro q rfl
        exact hun.fixed q (by simp)
      · rintro packet available rfl
        exact hun.noSwitchPoint packet available (by simp)
  have hc := card_layers_le (awaitedLayers policy events)
  have hs := hb.spent
  rw [maxKeyframeRequestsPerAcquisition] at hs
  omega

/-- The check behind `Unsatisfied`, event by event. -/
def SelectorEvent.isUnsatisfying (policy : LayerPolicy) : SelectorEvent→Bool
  | .packet metadata _ => !metadata.isDecodableSwitchPoint | .setPolicy q => q=policy
  | .timer => true

theorem unsatisfied_of_all (h : es.all (SelectorEvent.isUnsatisfying y)) : Unsatisfied y es := by
  have hall := all_eq_true.mp h
  constructor
  · intro q hq
    exact of_decide_eq_true (hall _ hq)
  · intro p av hp
    have hpo := hall _ hp
    simpa [SelectorEvent.isUnsatisfying] using hpo

def lowSourceOnly : List SelectorEvent :=
  (replicate 5 [.packet ⟨10,some .low,.simulcast,false⟩ false,.timer]).flatten

theorem requestCount_le_lowSourceOnly :
    Unsatisfied (.fixed .high) lowSourceOnly ∧ NeverReturns (.fixed .high) lowSourceOnly ∧
      requestCount (.fixed .high) lowSourceOnly≤36 := by
  have hun : Unsatisfied (.fixed .high) lowSourceOnly := unsatisfied_of_all (by decide)
  have hr : NeverReturns (.fixed .high) lowSourceOnly := by decide +kernel
  exact ⟨hun,hr,requestCount_le _ _ hun hr⟩

/-- A low source that keeps sending, and a medium source that sends one packet every
sixteen ticks and is forgotten in between. Neither sends a switch point. -/
def mediumSourceReappears : List SelectorEvent :=
  (replicate 6 (.packet ⟨20,some .medium,.simulcast,false⟩ false ::
    (replicate 16 [.packet ⟨10,some .low,.simulcast,false⟩ false,.timer]).flatten)).flatten

/-- Each time the medium source comes and goes the budget is filled again. -/
theorem requestCount_exceeds_on_reappearance :
    Unsatisfied (.fixed .high) mediumSourceReappears ∧
      36 < requestCount (.fixed .high) mediumSourceReappears :=
  ⟨unsatisfied_of_all (by decide +kernel),by decide +kernel⟩

def PointlessRequest
    (t : Transition SubscriberVideoLayerSelector SelectorEvent SelectorOutput) : Prop :=
  ∃request,t.output = .ticked (some request) ∧
    t.after.selectedSsrc=some request.mediaSsrc

/-- The budget and the retry gap permit a request at the next tick. -/
def RequestDue (s : SubscriberVideoLayerSelector) : Prop :=
  s.movesFallbackTo≠none ∨ s.pliTicks=0 ∧ 0<s.remainingPliRequests

/-- The request that the next tick may make does not go to the selected source. In
simulcast mode the awaited layer, after the fallback has moved, was not last seen from the
selected source; in scalable mode the scalable source seen last is not the selected
simulcast source. -/
structure AsksElsewhere (s : SubscriberVideoLayerSelector) : Prop where
  simulcast : s.singleScalableActive=false → s.fallbackLocked=false →
    ∀ssrc slot,s.current=some (ssrc,slot) → s.SlotFresh ssrc slot →
    slot≠s.policy.desired → RequestDue s →
    ¬ s.SlotFresh ssrc (s.movesFallbackTo.getD s.waitingFor)
  scalable : s.singleScalableActive →
    (s.singleScalableCurrent.isSome →
      sourceStaleTicks≤nextTick s.singleScalableCurrentAgeTicks) →
    s.pliTicks=0 → 0<s.remainingPliRequests → ∀ssrc,s.currentSsrc=some ssrc →
    ¬ (s.singleScalableSeen=some ssrc ∧
      nextTick s.singleScalableSeenAgeTicks<sourceStaleTicks)

variable {slot : SpatialLayer} {ssrc : UInt32}

theorem expireStaleSources_of_fresh (hm : s.singleScalableActive=false)
    (hcur : s.current=some (ssrc,slot)) (hf : s.SlotFresh ssrc slot) :
    s.expireStaleSources=s.expireSlots := by
  have hs := (s.expireSlots_shows_iff ssrc slot).mpr hf
  have hk : s.expireSlots.current=some (ssrc,slot) := hcur
  simp only [expireStaleSources,hm,Bool.false_eq_true,if_false,releaseLost,hk,hs,if_true]

theorem onTimer_request_simulcast (hm : s.singleScalableActive=false)
    (hcur : s.current=some (ssrc,slot)) (hf : s.SlotFresh ssrc slot) :
    s.onTimer.1=some request ↔
      s.fallbackLocked=false ∧ slot≠s.policy.desired ∧ RequestDue s ∧
        s.SlotFresh request.mediaSsrc (s.movesFallbackTo.getD s.waitingFor) := by
  have he := expireStaleSources_of_fresh hm hcur hf
  obtain ⟨ticks,started,ha⟩ := s.expireSlots.advanceAcquisition_frame
  have hac : s.expireStaleSources.singleScalableActive=false := by
    rw [he]
    exact hm
  have hl : s.expireStaleSources.fallbackLocked=s.fallbackLocked := by
    rw [he]
    rfl
  have hs : s.expireStaleSources.currentSpatial=some s.policy.desired ↔ slot=s.policy.desired := by
    have hk : s.expireSlots.current=some (ssrc,slot) := hcur
    rw [he,currentSpatial,hk]
    simp
  have hp : s.expireStaleSources.policy=s.policy := by
    rw [he]
    rfl
  simp only [onTimer,hac,hl,hp,hs,Bool.false_eq_true,if_false]
  cases s.fallbackLocked with
  | true => simp
  | false =>
    by_cases hd : slot=s.policy.desired
    · simp [hd]
    · simp only [Bool.false_eq_true,if_false,hd,not_false_eq_true,true_and,ne_eq,
        requestKeyframe_eq_some,aimFallback_advance,RequestDue,← expireSlots_shows_iff]
      rw [he,ha]
      cases s.movesFallbackTo with
      | none => simp [expireSlots,and_assoc]
      | some layer => simp [maxKeyframeRequestsPerAcquisition]

theorem onTimer_request_scalable (hm : s.singleScalableActive) :
    s.onTimer.1=some request ↔
      (s.singleScalableCurrent.isSome → sourceStaleTicks≤nextTick s.singleScalableCurrentAgeTicks) ∧
      s.pliTicks=0 ∧ 0<s.remainingPliRequests ∧
      s.singleScalableSeen=some request.mediaSsrc ∧
      nextTick s.singleScalableSeenAgeTicks<sourceStaleTicks := by
  have he := expireStaleSources_scalable hm
  have ha : s.expireScalable.singleScalableActive := hm
  have hse : s.expireScalable.singleScalableSeen=some request.mediaSsrc ↔
      s.singleScalableSeen=some request.mediaSsrc ∧
        nextTick s.singleScalableSeenAgeTicks<sourceStaleTicks := by
    simp only [expireScalable]
    by_cases hs : sourceStaleTicks≤nextTick s.singleScalableSeenAgeTicks
    · simp [hs,Nat.not_lt.mpr hs]
    · simp [hs,Nat.lt_of_not_le hs]
  have hcur : s.expireScalable.singleScalableCurrent.isSome ↔
      ¬ (s.singleScalableCurrent.isSome →
        sourceStaleTicks≤nextTick s.singleScalableCurrentAgeTicks) := by
    simp only [expireScalable]
    cases s.singleScalableCurrent with
    | none => simp
    | some scalable =>
      by_cases hs : sourceStaleTicks≤nextTick s.singleScalableCurrentAgeTicks
      · simp [hs]
      · simp [hs]
  simp only [onTimer,he,ha,if_true,onSingleScalableTimer,hcur]
  by_cases hg : s.singleScalableCurrent.isSome →
    sourceStaleTicks≤nextTick s.singleScalableCurrentAgeTicks
  · rw [if_neg (not_not.mpr hg),requestKeyframe_eq_some]
    rw [hse]
    exact ⟨fun h => ⟨hg,h⟩,And.right⟩
  · simp [hg]

theorem pointlessRequest_timer_iff (hso : ModeSound s) :
    ¬ PointlessRequest (transition selectorStep s .timer) ↔ AsksElsewhere s := by
  have hp : PointlessRequest (transition selectorStep s .timer) ↔
      ∃r,s.onTimer.1=some r ∧ s.expireStaleSources.selectedSsrc=some r.mediaSsrc := by
    simp only [PointlessRequest,transition,selectorStep,SelectorOutput.ticked.injEq,
      onTimer_selectedSsrc]
  rw [hp]
  cases hm : s.singleScalableActive with
  | false =>
    have hsel := hso.expire_selectedSsrc_iff hm
    constructor
    · intro h
      refine ⟨?_,by simp [hm]⟩
      intro _ hl ssrc slot hcur hf hd hdue ha
      apply h
      refine ⟨⟨ssrc⟩,?_,(hsel ssrc).mpr ⟨slot,hcur,hf⟩⟩
      exact (onTimer_request_simulcast hm hcur hf).mpr ⟨hl,hd,hdue,ha⟩
    · intro h hp
      obtain ⟨⟨ssrc⟩,hr,hs⟩ := hp
      obtain ⟨slot,hcur,hf⟩ := (hsel ssrc).mp hs
      obtain ⟨hl,hd,hdue,ha⟩ := (onTimer_request_simulcast hm hcur hf).mp hr
      exact h.simulcast hm hl ssrc slot hcur hf hd hdue ha
  | true =>
    rw [expireStaleSources_scalable hm]
    simp only [onTimer_request_scalable hm]
    -- A request is made only when no scalable source is left.
    have hsel : (s.singleScalableCurrent.isSome →
        sourceStaleTicks≤nextTick s.singleScalableCurrentAgeTicks) →
        s.expireScalable.selectedSsrc=s.currentSsrc := by
      intro hg
      rw [expireScalable_selectedSsrc]
      cases hsc : s.singleScalableCurrent with
      | none => rfl
      | some scalable =>
        have hst := hg (by rw [hsc]; rfl)
        simp [hst]
    constructor
    · intro h
      refine ⟨by simp [hm],?_⟩
      intro _ hg hgap hb ssrc hcur hse
      exact h ⟨⟨ssrc⟩,⟨hg,hgap,hb,hse⟩,(hsel hg).trans hcur⟩
    · intro h hp
      obtain ⟨⟨ssrc⟩,⟨hg,hgap,hb,hse⟩,hs⟩ := hp
      exact h.scalable hm hg hgap hb ssrc ((hsel hg).symm.trans hs) hse

/-- In every run, no request goes to the selected source exactly when every tick asks
elsewhere. -/
theorem noPointlessRequest_iff (policy : LayerPolicy) (events : List SelectorEvent) :
    (∀t ∈ trace selectorStep (new policy) events,¬ PointlessRequest t) ↔
      ∀t ∈ trace selectorStep (new policy) events,t.input = .timer →
        AsksElsewhere t.before := by
  constructor
  · intro h t ht hin
    obtain ⟨before,event,after,rfl,rfl⟩ := (mem_trace_iff _ _ _ _).mp ht
    obtain rfl : event = .timer := hin
    exact (pointlessRequest_timer_iff (modeSound_selectorAfter policy before)).mp (h _ ht)
  · intro h t ht
    obtain ⟨before,event,after,rfl,rfl⟩ := (mem_trace_iff _ _ _ _).mp ht
    cases event with
    | timer =>
      exact (pointlessRequest_timer_iff (modeSound_selectorAfter policy before)).mpr (h _ ht rfl)
    | packet | setPolicy =>
      intro hp
      obtain ⟨request,hout,_⟩ := hp
      cases hout

def lowSelectedHighDesired : List SelectorEvent :=
  [.packet ⟨10,some .low,.simulcast,true⟩ false,.setPolicy (.fixed .high),.timer,.timer,
    .timer,.timer]

/-- When the grace is over the fallback aims at the low layer, and the selected source is
asked for a keyframe. -/
theorem noPointlessRequest_fails_on_own_layer :
    ¬ ∀t ∈ trace selectorStep (new (.fixed .low)) lowSelectedHighDesired,
      ¬ PointlessRequest t := by
  intro h
  apply h (transition selectorStep (selectorAfter (.fixed .low)
    (lowSelectedHighDesired.take 5)) .timer)
    ((mem_trace_iff _ _ _ _).mpr ⟨lowSelectedHighDesired.take 5,.timer,[],rfl,rfl⟩)
  exact ⟨⟨10⟩,by decide +kernel,by decide +kernel⟩

end OxideSfu.VideoIngress
