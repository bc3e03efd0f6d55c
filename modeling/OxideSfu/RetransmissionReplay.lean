import OxideSfu.ForwardTarget

/-!
# Gap-free numbering and replay

The packets delivered to a target are numbered consecutively, and the retransmission
ring replays exactly the newest 256 of them in the representation cached last.
-/

namespace OxideSfu.RtpForwarding

open RecencyWindow SubscriberRtpState List Option Nat RetransmissionCache

def TargetEvent.isPacket : TargetEvent→Bool
  | .packet _ _ => true | .rtcp _ _ => false

def packetCount (events : List TargetEvent) : ℕ := events.countP TargetEvent.isPacket

/-- Numbers are consecutive, drops change nothing that later packets or replays depend
on, and the newest 256 deliveries can be replayed. -/
structure GapFreeReplay (codec : ExtensionCodec) (events : List TargetEvent) : Prop where
  numbering : ∀k first d,(deliveries codec events)[0]?=some first →
    (deliveries codec events)[k]?=some d →
    d.rewritten.header.sequenceNumber =
        first.rewritten.header.sequenceNumber+UInt16.ofNat k ∧
      d.cached.header.sequenceNumber=d.rewritten.header.sequenceNumber
  dropped : ∀before call finalisation after,
    events=before ++ .packet call finalisation::after →
    (targetStep codec (targetAfter codec before) (.packet call finalisation)).1=none →
    let next := (targetStep codec (targetAfter codec before) (.packet call finalisation)).2
    next.nextOutgoingExtSeq=(targetAfter codec before).nextOutgoingExtSeq ∧
      next.timestampMapper=(targetAfter codec before).timestampMapper ∧
      next.retransmissionCache=(targetAfter codec before).retransmissionCache
  replay : ∀n packet,(targetAfter codec events).retransmissionPacket n=some packet ↔
    ∃d∈(deliveries codec events).rtake rtpRetransmissionCacheSize,
      d.rewritten.header.sequenceNumber=n ∧ d.cached=packet

def Delivery.slot (d : Delivery) : RetransmissionCacheSlot :=
  ⟨d.cached.header.sequenceNumber,d.cached⟩

/-- The part of the correspondence that an empty log satisfies for every first number. -/
structure Numbered (base : ℕ) (s : SubscriberRtpState) (log : List Delivery) : Prop where
  base_lt : base<2^16
  number : ∀k d,log[k]?=some d →
    d.rewritten.header.sequenceNumber=UInt16.ofNat (base+k) ∧
      d.cached.header.sequenceNumber=d.rewritten.header.sequenceNumber
  ring : RingHolds base (log.map Delivery.slot) s.retransmissionCache.slots

/-- Nothing was delivered and the state is untouched, or the next number continues the
log from its first number. -/
inductive Replays (s : SubscriberRtpState) (log : List Delivery) : Prop
  | untouched (empty : log=[]) (same : default.SameForwarding s)
  | running (base : ℕ) (numbered : Numbered base s log)
      (next : s.nextOutgoingExtSeq=some (base+log.length))

/-- The ring size divides 2^16, so wrapping the number does not move its slot. -/
theorem mod_eq_index_ofNat (n : ℕ) : n % rtpRetransmissionCacheSize=index (UInt16.ofNat n) := by
  simp only [index,UInt16.toNat_ofNat',rtpRetransmissionCacheSize]
  omega

variable {s s' : SubscriberRtpState} {log : List Delivery} {base : ℕ}

theorem numbered_nil (hb : base<2^16) (hs : default.SameForwarding s) : Numbered base s [] := by
  obtain ⟨_,_,_,_,_,rfl⟩ := hs
  exact ⟨hb,by simp,fun _ _ => ⟨nofun,nofun⟩⟩

theorem Numbered.deliver (h : Numbered base s log) (d : Delivery)
    (hn : d.rewritten.header.sequenceNumber=UInt16.ofNat (base+log.length))
    (hc : d.cached.header.sequenceNumber=d.rewritten.header.sequenceNumber)
    (hca : s'.retransmissionCache=s.retransmissionCache.insert d.cached) :
    Numbered base s' (log++[d]) := by
  refine ⟨h.base_lt,?_,?_⟩
  · intro k e he
    by_cases hk : k<log.length
    · rw [List.getElem?_append_left hk] at he
      exact h.number k e he
    · have hlt : k<(log++[d]).length := (List.getElem?_eq_some_iff.mp he).1
      rw [List.length_append,List.length_singleton] at hlt
      obtain rfl : k=log.length := by omega
      obtain rfl : d=e := by simpa using he
      exact ⟨hn,hc⟩
  · rw [hca,List.map_append]
    apply h.ring.concat
    rw [List.length_map,hc,hn]
    exact mod_eq_index_ofNat _

/-- What a state with nothing delivered looks like to the next packet. -/
theorem fresh_of_untouched (hs : default.SameForwarding s) (p : Packet) :
    s.nextOutgoingExtSeq=none ∧ (s.incomingKey p).2=p.header.sequenceNumber.toNat := by
  obtain ⟨_,_,_,_,_,rfl⟩ := hs
  exact ⟨rfl,rfl⟩

theorem not_isDuplicate_of_untouched (hs : default.SameForwarding s) (p : Packet) :
    ¬ s.IsDuplicate p := by
  obtain ⟨_,_,_,_,_,rfl⟩ := hs
  intro hd
  obtain ⟨_,hse⟩ := hd
  exact absurd hse (Finset.notMem_empty _)

theorem rewritten_sequenceNumber (s : SubscriberRtpState) (call : RewriteCall) :
    (s.rewritten call.packet call.targetSsrc
      call.negotiatedPayloadType).header.sequenceNumber =
      UInt16.ofNat (s.nextOutgoingExtSeq.getD (s.incomingKey call.packet).2) := rfl

theorem replays_of_same (h : Replays s log) (hsame : s.SameForwarding s') : Replays s' log := by
  cases h with
  | untouched he hs => exact .untouched he (hs.trans hsame)
  | running base hn hne =>
    obtain ⟨_,_,_,_,_,rfl⟩ := hsame
    exact .running base ⟨hn.base_lt,hn.number,hn.ring⟩ hne

variable {out : Option Delivery} {e : TargetEvent}

/-- One event keeps the correspondence while the counter is far from its limit. -/
theorem Replays.step (h : Replays s log) (hlen : log.length<2^63)
    (hst : TargetStepSpec s e out s') :
    Replays s' (log++out.toList) := by
  cases hst with
  | rtcp hsame _ =>
    rw [toList_none,append_nil]
    exact replays_of_same h hsame
  | dropped hdup highest active =>
    rw [toList_none,append_nil]
    cases h with
    | untouched _ hs => exact absurd hdup (not_isDuplicate_of_untouched hs _)
    | running base hn hne => exact .running base ⟨hn.base_lt,hn.number,hn.ring⟩ hne
  | @delivered call _ _ d _ _ hr hnu hn' _ hc _ =>
    rw [toList_some]
    have hseq := rewritten_sequenceNumber s call
    rw [← hr] at hseq
    cases h with
    | untouched he hs =>
      -- The first delivery fixes the base: its extended number is the header's.
      subst he
      obtain ⟨hno,hkey⟩ := fresh_of_untouched hs call.packet
      rw [hno,getD_none,hkey] at hseq hn'
      have hb := call.packet.header.sequenceNumber.toNat_lt
      refine .running _ ((numbered_nil hb hs).deliver d hseq hnu hc) ?_
      rw [hn',saturatingAdd]
      congr 1
      simp only [nil_append,length_singleton]
      omega
    | running base hn hne =>
      rw [hne,getD_some] at hseq hn'
      refine .running base (hn.deliver d hseq hnu hc) ?_
      have hb := hn.base_lt
      rw [hn',saturatingAdd,length_append,length_singleton]
      congr 1
      omega

theorem packetCount_concat (es : List TargetEvent) (e : TargetEvent) :
    packetCount (es++[e])=packetCount es+e.isPacket.toNat := by
  cases h : e.isPacket <;> simp [packetCount,countP_append,h]

theorem TargetStepSpec.length_output_le (h : TargetStepSpec s e out s') :
    out.toList.length≤e.isPacket.toNat := by
  cases h with
  | rtcp => exact zero_le _
  | dropped => exact zero_le _
  | delivered => exact le_refl _

theorem length_deliveries_le (codec : ExtensionCodec) (es : List TargetEvent) :
    (deliveries codec es).length≤packetCount es := by
  induction es using reverseRecOn with
  | nil => exact le_refl _
  | append_singleton es e ih =>
    have hone := (targetStep_spec codec (targetAfter codec es) e).length_output_le
    rw [deliveries_concat,packetCount_concat,length_append]
    omega

theorem replays_deliveries (codec : ExtensionCodec) (es : List TargetEvent)
    (hc : packetCount es<2^63) :
    Replays (targetAfter codec es) (deliveries codec es) := by
  induction es using reverseRecOn with
  | nil => exact .untouched rfl (.refl _)
  | append_singleton es e ih =>
    rw [packetCount_concat] at hc
    have hlen := length_deliveries_le codec es
    rw [deliveries_concat,targetAfter_concat]
    exact (ih (by omega)).step (by omega) (targetStep_spec codec _ e)

theorem retransmissionPacket_eq_some {n : UInt16} {p : Packet} :
    s.retransmissionPacket n=some p ↔ s.retransmissionCache.slots (index n)=some ⟨n,p⟩ := by
  simp only [retransmissionPacket,RetransmissionCache.get]
  cases s.retransmissionCache.slots (index n) with
  | none => simp
  | some slot =>
    rcases slot with ⟨number,cached⟩
    by_cases h : number=n
    · simp [h]
    · simp [h]

/-- The ring answers a number exactly from the newest deliveries. -/
theorem Numbered.replay (h : Numbered base s log) (n : UInt16) (p : Packet) :
    s.retransmissionPacket n=some p ↔
      ∃d∈log.rtake rtpRetransmissionCacheSize,d.rewritten.header.sequenceNumber=n ∧ d.cached=p := by
  rw [retransmissionPacket_eq_some,h.ring]
  simp only [mem_rtake_iff_getElem?,getElem?_map,length_map]
  constructor
  · intro hs
    obtain ⟨k,hk,hlen,_⟩ := hs
    obtain ⟨d,hd,hs⟩ := map_eq_some_iff.mp hk
    obtain ⟨hn,rfl⟩ := RetransmissionCacheSlot.mk.inj hs
    exact ⟨d,⟨k,hlen,hd⟩,(h.number k d hd).2.symm.trans hn,rfl⟩
  · intro hde
    obtain ⟨d,⟨k,hlen,hd⟩,hn,rfl⟩ := hde
    obtain ⟨hnu,hc⟩ := h.number k d hd
    refine ⟨k,?_,hlen,?_⟩
    · rw [hd,map_some,Delivery.slot,hc,hn]
    · rw [← hn,hnu]
      exact mod_eq_index_ofNat _

theorem Replays.replay (h : Replays s log) (n : UInt16) (p : Packet) :
    s.retransmissionPacket n=some p ↔
      ∃d∈log.rtake rtpRetransmissionCacheSize,d.rewritten.header.sequenceNumber=n ∧ d.cached=p := by
  cases h with
  | untouched he hs =>
    subst he
    have hz : (0 : ℕ)<2^16 := by decide
    exact (numbered_nil hz hs).replay n p
  | running base hn _ => exact hn.replay n p

/-- Deliveries are numbered without gaps and replayed from the newest 256, in every run
of fewer than 2^63 packets. -/
theorem gapFreeReplay (codec : ExtensionCodec) (events : List TargetEvent)
    (hcount : packetCount events < 2 ^ 63) : GapFreeReplay codec events := by
  have hr := replays_deliveries codec events hcount
  refine ⟨?_,?_,hr.replay⟩
  · intro k first d hf hd
    cases hr with
    | untouched he _ =>
      rw [he] at hf
      cases hf
    | running base hn _ =>
      obtain ⟨hnu,hc⟩ := hn.number k d hd
      refine ⟨?_,hc⟩
      rw [hnu,(hn.number 0 first hf).1,add_zero,UInt16.ofNat_add]
  · intro before call finalisation after _ hno
    have hs := targetStep_spec codec (targetAfter codec before) (.packet call finalisation)
    rw [hno] at hs
    generalize (targetStep codec (targetAfter codec before) (.packet call finalisation)).2=s' at hs
    cases hs with
    | dropped => exact ⟨rfl,rfl,rfl⟩

/-- A video source whose second packet carries an empty extension, with a repeat of the
first packet and a NACK in between. -/
def finalisedRun : List TargetEvent :=
  let video : Option Finalisation := some ⟨none,true⟩
  let bare := RewriteCall.plain 7 65535 90
  let extended := RewriteCall.plain 7 0 180
  [.packet bare video,.packet bare video,.rtcp [.retransmitSequence 65535] 1000,
    .packet {extended with packet := {extended.packet with header := {extended.packet.header with
      extension := true,extensionProfile := extensionProfileOneByte,extensions := [⟨3,[]⟩]}}} video]

theorem gapFreeReplay_finalisedRun :
    packetCount finalisedRun < 2 ^ 63 ∧ GapFreeReplay oneByteCodec finalisedRun :=
  ⟨by decide,gapFreeReplay oneByteCodec finalisedRun (by decide)⟩

end OxideSfu.RtpForwarding
