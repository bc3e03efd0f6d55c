import OxideSfu.SubscriptionLimits

/-!
# Shares of the outgoing bitrate

At every tick the reader of a video track gives each subscriber's target a share of the bitrate that
the subscriber can take, by the area it shows, and chooses the layers that the share pays for
(`router/session.rs`).
-/

namespace OxideSfu.Signaling

open Rooms VideoQuality ForwardingDecisionContext Option List

def advertisedLayers (track : TrackInfo) : List VideoLayer :=
  track.layers++track.codecs.flatMap SimulcastCodecInfo.layers

def advertisedVideoBitrateForQuality (track : TrackInfo) (quality : VideoQuality) : Option ℕ :=
  (((advertisedLayers track).filter (fun layer =>
    ofNumber layer.quality=quality ∧ 0<layer.bitrate)).map (·.bitrate)).min?

def allocationQualityForBudget (track : TrackInfo) (budget : ℕ) : Option VideoQuality :=
  match [high,.medium,.low].find? (fun quality =>
      (advertisedVideoBitrateForQuality track quality).any (·≤budget)) with
  | some quality => some quality
  | none => (advertisedVideoBitrateForQuality track .low).map (fun _ => .low)

def saturatingMul (a b : ℕ) : ℕ := min (a*b) (2^64-1)

def temporalLayerFor (bitrate budget : ℕ) : ℕ :=
  if saturatingMul bitrate 90 ≤ saturatingMul budget 100 then 2
  else if saturatingMul bitrate 60 ≤ saturatingMul budget 100 then 1
  else 0

def allocationTemporalLayerForBudget (track : TrackInfo) (quality : VideoQuality) (budget : ℕ) :
    Option ℕ :=
  (advertisedVideoBitrateForQuality track quality).map (temporalLayerFor · budget)

def allocation (track : TrackInfo) (budget : ℕ) : Option VideoQuality × Option ℕ :=
  let quality := allocationQualityForBudget track budget
  (quality,quality.bind (fun quality => allocationTemporalLayerForBudget track quality budget))

/-- Without an allocation the highest layers are wanted. -/
def allocationRank (allocated : Option VideoQuality × Option ℕ) : ℕ × ℕ :=
  ((allocated.1.getD .high).number,allocated.2.getD 2)

/-- Spatial quality first, then the temporal layer. -/
def NoWorse (x y : ℕ × ℕ) : Prop :=
  x.1<y.1 ∨ x.1=y.1 ∧ x.2≤y.2

variable (c : ForwardingDecisionContext) (room subscriber : String)

theorem advertisedVideoBitrate_pos {track : TrackInfo} {quality : VideoQuality} {r : ℕ}
    (h : advertisedVideoBitrateForQuality track quality=some r) : 0<r := by
  have hm := min?_mem h
  obtain ⟨l,hl,rfl⟩ := mem_map.mp hm
  exact (of_decide_eq_true (mem_filter.mp hl).2).2

theorem temporalLayerFor_of_le {r b : ℕ} (h : r≤b) : temporalLayerFor r b=2 := by
  rw [temporalLayerFor,if_pos]
  simp only [saturatingMul]
  omega

theorem temporalLayerFor_mono (r : ℕ) {b₁ b₂ : ℕ} (h : b₁≤b₂) :
    temporalLayerFor r b₁≤temporalLayerFor r b₂ := by
  have hs : saturatingMul b₁ 100 ≤ saturatingMul b₂ 100 := by
    simp only [saturatingMul]
    omega
  unfold temporalLayerFor
  split_ifs <;> omega

/-- A budget that pays for a quality pays for all of its frames. -/
theorem rank_allocation (track : TrackInfo) (b : ℕ) :
    allocationRank (allocation track b) =
      if (advertisedVideoBitrateForQuality track .high).any (·≤b) then (2,2)
      else if (advertisedVideoBitrateForQuality track .medium).any (·≤b) then (1,2)
      else ((advertisedVideoBitrateForQuality track .low).map
        (fun r => (0,temporalLayerFor r b))).getD (2,2) := by
  simp only [allocation,allocationRank,allocationQualityForBudget,find?,
    allocationTemporalLayerForBudget]
  cases hh : (advertisedVideoBitrateForQuality track .high).any (·≤b) with
  | true =>
    obtain ⟨r,hr,hb⟩ := (any_eq_true _ _).mp hh
    simp [hr,temporalLayerFor_of_le (of_decide_eq_true hb),number]
  | false =>
    cases hm : (advertisedVideoBitrateForQuality track .medium).any (·≤b) with
    | true =>
      obtain ⟨r,hr,hb⟩ := (any_eq_true _ _).mp hm
      simp [hr,temporalLayerFor_of_le (of_decide_eq_true hb),number]
    | false =>
      cases hl : advertisedVideoBitrateForQuality track .low with
      | none => simp [number]
      | some r => by_cases hb : r≤b <;> simp [hb,hl,number]

/-- More bandwidth does not mean less as long as the track says what its lowest layer needs, or no
budget pays for the medium layer alone. -/
theorem allocation_mono_iff (track : TrackInfo) :
    (∀b₁ b₂,b₁≤b₂ →
      NoWorse (allocationRank (allocation track b₁)) (allocationRank (allocation track b₂))) ↔
      (advertisedVideoBitrateForQuality track .low).isSome ∨
        ∀m,advertisedVideoBitrateForQuality track .medium = some m →
          ∃h,advertisedVideoBitrateForQuality track .high = some h ∧ h ≤ m := by
  have ha : ∀{q b₁ b₂},b₁≤b₂ → (advertisedVideoBitrateForQuality track q).any (·≤b₁) →
      (advertisedVideoBitrateForQuality track q).any (·≤b₂) := by
    intro q b₁ b₂ hb h
    obtain ⟨r,hr,hle⟩ := (any_eq_true _ _).mp h
    exact (any_eq_true _ _).mpr ⟨r,hr,decide_eq_true ((of_decide_eq_true hle).trans hb)⟩
  simp only [rank_allocation]
  cases advertisedVideoBitrateForQuality track .low with
  | some l =>
    refine iff_of_true (fun b₁ b₂ hb => ?_) (.inl rfl)
    have hh := @ha .high b₁ b₂ hb
    have hm := @ha .medium b₁ b₂ hb
    have ht := temporalLayerFor_mono l hb
    split_ifs <;> simp_all [NoWorse]
  | none =>
    simp only [isSome_none,Bool.false_eq_true,false_or]
    constructor
    · intro h m hm
      have hp := advertisedVideoBitrate_pos hm
      have hn := h 0 m (Nat.zero_le m)
      cases hh : advertisedVideoBitrateForQuality track .high with
      | none => simp [NoWorse,hm,hh,hp.ne'] at hn
      | some x =>
        have hx := advertisedVideoBitrate_pos hh
        refine ⟨x,rfl,?_⟩
        by_contra hc
        simp [NoWorse,hm,hh,hp.ne',hx.ne',hc] at hn
    · intro h b₁ b₂ hb
      have hn : (advertisedVideoBitrateForQuality track .medium).any (·≤b₂) →
          (advertisedVideoBitrateForQuality track .high).any (·≤b₂) := by
        intro hm
        obtain ⟨m,hm,hle⟩ := (any_eq_true _ _).mp hm
        obtain ⟨x,hh,hx⟩ := h m hm
        exact (any_eq_true _ _).mpr ⟨x,hh,decide_eq_true (hx.trans (of_decide_eq_true hle))⟩
      split_ifs <;> simp_all [NoWorse]

def mediumOnly : TrackInfo :=
  {sid := "TR_camera",type := .video,layers := [⟨1,640,360,500000⟩]}

theorem poorer_budget_wants_more :
    allocation mediumOnly 100000 = (none,none) ∧
      allocation mediumOnly 600000 = (some .medium,some 2) ∧
      ¬ NoWorse (allocationRank (allocation mediumOnly 100000))
        (allocationRank (allocation mediumOnly 600000)) := by
  unfold NoWorse
  decide

variable {c : ForwardingDecisionContext} {room subscriber : String}

end OxideSfu.Signaling
