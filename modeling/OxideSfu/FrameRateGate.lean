import OxideSfu.Numerals

/-!
# The frame-rate gate

`FpsForwardingState` (`router/session.rs`) drops frames by their RTP timestamps when a subscriber
asks for fewer. It knows the frame it has decided last and the one it has forwarded last.
-/

namespace OxideSfu.VideoIngress

structure FpsForwardingState where
  currentTimestamp : Option UInt32 := none
  forwardCurrentTimestamp : Bool := false
  lastForwardedTimestamp : Option UInt32 := none

/-- In ticks of the 90 kHz clock, with a tolerance of ten percent. -/
def minTimestampDelta (requestedFps : UInt32) : ℕ :=
  max (810000 / min (10*max requestedFps.toNat 1) (2^32-1)) 1

/-- Of two timestamps within half a turn of each other one is the older. -/
theorem eq_of_sub_lt {a b : UInt32} (h : (a-b).toNat<2^31) (hb : (b-a).toNat<2^31) : a=b := by
  rw [UInt32.toNat_sub] at h hb
  have hl := a.toNat_lt
  have hk := b.toNat_lt
  exact UInt32.toNat_inj.mp (by omega)

theorem sub_le_sub_of_lt {a b c : UInt32} (h : (b-a).toNat<2^31)
    (hc : (c-b).toNat<2^31) : (b-a).toNat≤(c-a).toNat := by
  have hk := b.toNat_lt
  rw [UInt32.toNat_sub] at h hc
  rw [UInt32.toNat_sub,UInt32.toNat_sub]
  omega

namespace FpsForwardingState

variable (fps : UInt32)

def allows (s : FpsForwardingState) (t : UInt32) : Bool :=
  s.lastForwardedTimestamp.all (fun last => minTimestampDelta fps≤(t-last).toNat)

def shouldForwardPacket (s : FpsForwardingState) (t : UInt32) : Bool × FpsForwardingState :=
  if fps=0 then (true,s)
  else if s.currentTimestamp=some t then (s.forwardCurrentTimestamp,s)
  else
    (s.allows fps t,
      { currentTimestamp := some t
        forwardCurrentTimestamp := s.allows fps t
        lastForwardedTimestamp := if s.allows fps t then some t else s.lastForwardedTimestamp})

def decisions : FpsForwardingState → List UInt32 → List (UInt32 × Bool)
  | _, [] => []
  | s, t::ts => (t,(s.shouldForwardPacket fps t).1) ::
      decisions (s.shouldForwardPacket fps t).2 ts

/-- Packets of one frame come together, and no frame is older than one that has come. -/
def InOrder (ts : List UInt32) : Prop :=
  ts.Pairwise (fun a b => (b-a).toNat<2^31)

/-- Two decisions, the earlier one first. -/
def Compatible (x y : UInt32 × Bool) : Prop :=
  (x.1=y.1 → x.2=y.2) ∧ (fps≠0 → x.2 → y.2 → x.1≠y.1 →
    minTimestampDelta fps≤(y.1-x.1).toNat)

/-- Nothing that comes is older than what the state remembers. -/
structure Ahead (s : FpsForwardingState) (ts : List UInt32) : Prop where
  inOrder : InOrder ts
  current : ∀c,s.currentTimestamp=some c → ∀t∈ts,(t-c).toNat<2^31
  last : ∀l,s.lastForwardedTimestamp=some l → ∀t∈ts,(t-l).toNat<2^31

variable {fps} {s : FpsForwardingState} {t : UInt32} {ts : List UInt32}

theorem shouldForwardPacket_current (hf : fps≠0) (hc : s.currentTimestamp=some t) :
    s.shouldForwardPacket fps t=(s.forwardCurrentTimestamp,s) := by
  rw [shouldForwardPacket,if_neg hf,if_pos hc]

theorem shouldForwardPacket_new (hf : fps≠0) (hc : s.currentTimestamp≠some t) :
    s.shouldForwardPacket fps t=(s.allows fps t,⟨some t,s.allows fps t,
      if s.allows fps t then some t else s.lastForwardedTimestamp⟩) := by
  rw [shouldForwardPacket,if_neg hf,if_neg hc]

theorem le_of_allows {l : UInt32} (h : s.allows fps t)
    (hl : s.lastForwardedTimestamp=some l) : minTimestampDelta fps≤(t-l).toNat := by
  simpa [allows,hl] using h

/-- Each packet leaves its frame and the decision on it behind. -/
theorem shouldForwardPacket_remembers (hf : fps≠0) :
    (s.shouldForwardPacket fps t).2.currentTimestamp=some t ∧
      (s.shouldForwardPacket fps t).2.forwardCurrentTimestamp =
        (s.shouldForwardPacket fps t).1 := by
  by_cases hc : s.currentTimestamp=some t
  · rw [shouldForwardPacket_current hf hc]
    exact ⟨hc,rfl⟩
  · rw [shouldForwardPacket_new hf hc]
    exact ⟨rfl,rfl⟩

def Consistent (s : FpsForwardingState) : Prop :=
  s.forwardCurrentTimestamp → s.lastForwardedTimestamp=s.currentTimestamp

theorem Consistent.step (hf : fps≠0) (h : s.Consistent) :
    (s.shouldForwardPacket fps t).2.Consistent := by
  by_cases hc : s.currentTimestamp=some t
  · rwa [shouldForwardPacket_current hf hc]
  · rw [shouldForwardPacket_new hf hc]
    exact fun ha => if_pos ha

theorem Ahead.step (hf : fps≠0) (h : Ahead s (t::ts)) :
    Ahead (s.shouldForwardPacket fps t).2 ts := by
  obtain ⟨ho,hc,hl⟩ := h
  have ht := List.pairwise_cons.mp ho
  by_cases he : s.currentTimestamp=some t
  · rw [shouldForwardPacket_current hf he]
    exact ⟨ht.2,fun c hs u hu => hc c hs u (List.mem_cons_of_mem t hu),
      fun l hs u hu => hl l hs u (List.mem_cons_of_mem t hu)⟩
  · rw [shouldForwardPacket_new hf he]
    refine ⟨ht.2,fun c hs => Option.some.inj hs ▸ ht.1,fun l hs => ?_⟩
    by_cases ha : s.allows fps t
    · rw [if_pos ha] at hs
      exact Option.some.inj hs ▸ ht.1
    · rw [if_neg ha] at hs
      exact fun u hu => hl l hs u (List.mem_cons_of_mem t hu)

variable {y : UInt32 × Bool}

theorem mem_of_mem_decisions (hy : y∈decisions fps s ts) : y.1∈ts := by
  induction ts generalizing s with
  | nil => cases hy
  | cons t ts ih =>
    rcases List.mem_cons.mp hy with rfl | hy
    · exact List.mem_cons_self
    · exact List.mem_cons_of_mem t (ih hy)

/-- What the state remembers settles the packets of its frame and keeps other frames away. -/
theorem decisions_of_state (hf : fps≠0) (h : Ahead s ts) (hy : y∈decisions fps s ts) :
    (s.currentTimestamp=some y.1 → y.2=s.forwardCurrentTimestamp) ∧
      (s.currentTimestamp≠some y.1 → y.2 → ∀l,s.lastForwardedTimestamp=some l →
        minTimestampDelta fps≤(y.1-l).toNat) := by
  induction ts generalizing s with
  | nil => cases hy
  | cons t ts ih =>
    rw [decisions,List.mem_cons] at hy
    by_cases hc : s.currentTimestamp=some t
    · rw [shouldForwardPacket_current hf hc] at hy
      have hs := h.step hf
      rw [shouldForwardPacket_current hf hc] at hs
      rcases hy with rfl | hy
      · exact ⟨fun _ => rfl,fun hn => absurd hc hn⟩
      · exact ih hs hy
    · have hs := h.step hf
      rw [shouldForwardPacket_new hf hc] at hy hs
      rcases hy with rfl | hy
      · exact ⟨fun he => absurd he hc,fun _ ha l hl => le_of_allows ha hl⟩
      · have hm := mem_of_mem_decisions hy
        have hn := (List.pairwise_cons.mp h.inOrder).1 y.1 hm
        have hi := ih hs hy
        constructor
        · -- a frame that has been left does not come back
          intro he
          have hd := h.current y.1 he t List.mem_cons_self
          exact absurd (he.trans (congrArg some (eq_of_sub_lt hn hd))) hc
        · intro _ ha l hl
          have hd := h.last l hl t List.mem_cons_self
          by_cases hp : s.allows fps t
          · exact (le_of_allows hp hl).trans (sub_le_sub_of_lt hd hn)
          · by_cases he : t=y.1
            · exact absurd ((hi.1 (congrArg some he)).symm.trans ha) hp
            · exact hi.2 (fun hq => he (Option.some.inj hq)) ha l ((if_neg hp).trans hl)

theorem decisions_compatible (hf : fps≠0) (hs : s.Consistent) (h : Ahead s ts) :
    (decisions fps s ts).Pairwise (Compatible fps) := by
  induction ts generalizing s with
  | nil => exact List.Pairwise.nil
  | cons t ts ih =>
    refine List.pairwise_cons.mpr ⟨fun y hy => ?_,ih (hs.step hf) (h.step hf)⟩
    have hr := shouldForwardPacket_remembers (s := s) (t := t) hf
    have hd := decisions_of_state hf (h.step hf) hy
    refine ⟨fun he => ?_,fun _ hx ha he => ?_⟩
    · exact hr.2.symm.trans (hd.1 (hr.1.trans (congrArg some he))).symm
    · have hl := (hs.step hf (hr.2.trans hx)).trans hr.1
      exact hd.2 (fun hq => he (Option.some.inj (hr.1.symm.trans hq))) ha t hl

theorem decisions_zero (hy : y∈decisions 0 s ts) : y.2 := by
  induction ts with
  | nil => cases hy
  | cons t ts ih =>
    rcases List.mem_cons.mp hy with rfl | hy
    · rfl
    · exact ih hy

theorem decisions_chain : (decisions fps s ts).IsChain (fun x y => x.1=y.1 → x.2=y.2) := by
  by_cases hf : fps=0
  · subst hf
    refine (List.pairwise_of_forall_mem_list fun x hx y hy _ => ?_).isChain
    exact (decisions_zero hx).trans (decisions_zero hy).symm
  induction ts generalizing s with
  | nil => exact List.IsChain.nil
  | cons t ts ih =>
    cases ts with
    | nil => exact List.IsChain.singleton _
    | cons u us =>
      refine List.isChain_cons_cons.mpr ⟨fun he => ?_,ih⟩
      have hr := shouldForwardPacket_remembers (s := s) (t := t) hf
      rw [shouldForwardPacket_current hf (hr.1.trans (congrArg some he)),hr.2]

/-- Neighbouring packets of a frame fare alike; in a run without late packets all of them do, and
the frames forwarded keep their distance. -/
theorem decisions_whole_and_spaced (fps : UInt32) (ts : List UInt32) :
    (decisions fps {} ts).IsChain (fun x y => x.1 = y.1 → x.2 = y.2) ∧
      (InOrder ts → (decisions fps {} ts).Pairwise (Compatible fps)) := by
  refine ⟨decisions_chain,fun ho => ?_⟩
  by_cases hf : fps=0
  · subst hf
    refine List.pairwise_of_forall_mem_list fun x hx y hy => ⟨fun _ => ?_,fun hn => absurd rfl hn⟩
    exact (decisions_zero hx).trans (decisions_zero hy).symm
  · exact decisions_compatible hf (fun h => nomatch h)
      ⟨ho,fun _ h => (nomatch h),fun _ h => (nomatch h)⟩

theorem frames_at_fifteen_compatible :
    InOrder [0,0,3000,6100] ∧
      (decisions 15 {} [0,0,3000,6100]).Pairwise (Compatible 15) := by
  have ho : InOrder [0,0,3000,6100] := by unfold InOrder; decide
  exact ⟨ho,(decisions_whole_and_spaced 15 _).2 ho⟩

/-- The last packet of the first frame comes after the second frame and is dropped. -/
theorem late_packet_dropped :
    decisions 15 {} [0,3000,0] = [(0,true),(3000,false),(0,false)] := by
  decide

end FpsForwardingState

end OxideSfu.VideoIngress
