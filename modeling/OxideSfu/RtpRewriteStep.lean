import OxideSfu.RecencyWindow
import OxideSfu.RtpSequenceExtension

/-!
# What one call of `rewrite_packet` does

The call extends the incoming number, drops a duplicate, or takes the next outgoing
number, records the key, maps the timestamp and caches the rewritten packet. The
lemmas below say this field by field, so that the later files never unfold the call.
-/

namespace OxideSfu.RtpForwarding

open RecencyWindow

structure TimestampMapper where
  (incomingSsrc baseIncoming baseOutgoing lastOutgoing : Option UInt32)

namespace TimestampMapper

def start (incomingSsrc incomingTimestamp outgoingTimestamp : UInt32) : TimestampMapper :=
  ⟨some incomingSsrc,some incomingTimestamp,some outgoingTimestamp,some outgoingTimestamp⟩

def map (m : TimestampMapper) (incomingSsrc incomingTimestamp : UInt32) :
    UInt32 × TimestampMapper :=
  match m.incomingSsrc,m.baseIncoming,m.baseOutgoing with
  | some mappedSsrc, some baseIncoming, some baseOutgoing =>
    if mappedSsrc=incomingSsrc then
      let outgoing := baseOutgoing+(incomingTimestamp-baseIncoming)
      (outgoing,{m with lastOutgoing := some outgoing})
    else
      let resumed := match m.lastOutgoing with
        | some last => last+1 | none => incomingTimestamp
      (resumed,start incomingSsrc incomingTimestamp resumed)
  | _, _, _ => (incomingTimestamp,start incomingSsrc incomingTimestamp incomingTimestamp)

end TimestampMapper

namespace SubscriberRtpState

def timestampMapper (s : SubscriberRtpState) : TimestampMapper :=
  ⟨s.timestampMapperIncomingSsrc,s.timestampMapperBaseIncoming,s.timestampMapperBaseOutgoing,
    s.timestampMapperLastOutgoing⟩

theorem mapPacketTimestamp_eq (s : SubscriberRtpState) (ssrc ts : UInt32) :
    s.mapPacketTimestamp ssrc ts =
      ((s.timestampMapper.map ssrc ts).1,{s with
        timestampMapperIncomingSsrc := (s.timestampMapper.map ssrc ts).2.incomingSsrc
        timestampMapperBaseIncoming := (s.timestampMapper.map ssrc ts).2.baseIncoming
        timestampMapperBaseOutgoing := (s.timestampMapper.map ssrc ts).2.baseOutgoing
        timestampMapperLastOutgoing := (s.timestampMapper.map ssrc ts).2.lastOutgoing}) := by
  simp only [mapPacketTimestamp,TimestampMapper.map,timestampMapper,startTimestampStretch,
    TimestampMapper.start]
  cases s.timestampMapperIncomingSsrc with
  | none => rfl
  | some mappedSsrc =>
    cases s.timestampMapperBaseIncoming with
    | none => rfl
    | some baseIncoming =>
      cases s.timestampMapperBaseOutgoing with
      | none => rfl
      | some baseOutgoing =>
        by_cases h : mappedSsrc=ssrc
        · simp [h]
        · cases s.timestampMapperLastOutgoing with
          | none => simp [h]
          | some last => simp [h]

/-- On a window without repetitions, the eviction loop keeps the newest keys. -/
theorem evictBeyondWindow_eq (window : ℕ) (order : List (UInt32 × ℕ)) (h : order.Nodup) :
    evictBeyondWindow window order order.toFinset=(order.rtake window,
      (order.rtake window).toFinset) := by
  induction order with
  | nil => simp [evictBeyondWindow]
  | cons key order ih =>
    obtain ⟨hkey,ho⟩ := List.nodup_cons.mp h
    rw [evictBeyondWindow]
    split_ifs with hlen
    · have hle : window≤order.length := by
        rw [List.length_cons] at hlen
        omega
      rw [List.toFinset_cons,Finset.erase_insert (by simpa using hkey),ih ho,
        rtake_cons_of_le key hle]
    · rw [rtake_of_length_le (Nat.le_of_not_lt hlen)]

variable (s : SubscriberRtpState) (packet : Packet) (targetSsrc : Option UInt32)
  (negotiatedPayloadType : Option UInt8)

def incomingKey : UInt32 × ℕ :=
  (packet.header.ssrc,extended (s.reference packet.header.ssrc) packet.header.sequenceNumber)

/-- The packet is not ahead of its source and its key is still in the window. -/
def IsDuplicate : Prop :=
  isNewHighest (s.reference packet.header.ssrc) packet.header.sequenceNumber=false ∧
    s.incomingKey packet∈s.seenIncomingExtSeq

def rewritten : Packet :=
  rewriteHeader packet targetSsrc negotiatedPayloadType
    (s.nextOutgoingExtSeq.getD (s.incomingKey packet).2)
    (s.timestampMapper.map packet.header.ssrc packet.header.timestamp).1

variable {s packet}

theorem rewritePacket_of_duplicate (h : s.IsDuplicate packet) :
    s.rewritePacket packet targetSsrc negotiatedPayloadType =
      (none,(s.extendSequenceNumber packet.header.ssrc packet.header.sequenceNumber).2) := by
  obtain ⟨highest,active,hf⟩ :=
    s.extendSequenceNumber_frame packet.header.ssrc packet.header.sequenceNumber
  have hr := s.extendSequenceNumber_result packet.header.ssrc packet.header.sequenceNumber
  obtain ⟨hnew,hs⟩ := h
  simp only [incomingKey] at hs
  simp [rewritePacket,hr,hf,hnew,hs]

theorem rewritePacket_of_fresh (h : ¬ s.IsDuplicate packet) :
    ∃highest active,
      (s.extendSequenceNumber packet.header.ssrc packet.header.sequenceNumber).2={s with
        highestIncomingExtSeqBySsrc := highest,activeIncomingExtSeq := active} ∧
      s.rewritePacket packet targetSsrc negotiatedPayloadType =
        (some (s.rewritten packet targetSsrc negotiatedPayloadType),{s with
          highestIncomingExtSeqBySsrc := highest,activeIncomingExtSeq := active
          nextOutgoingExtSeq :=
            some (saturatingAdd 64 (s.nextOutgoingExtSeq.getD (s.incomingKey packet).2) 1)
          incomingExtSeqOrder := (evictBeyondWindow rtpDuplicateWindow
            (s.incomingExtSeqOrder++[s.incomingKey packet])
            (insert (s.incomingKey packet) s.seenIncomingExtSeq)).1
          seenIncomingExtSeq := (evictBeyondWindow rtpDuplicateWindow
            (s.incomingExtSeqOrder++[s.incomingKey packet])
            (insert (s.incomingKey packet) s.seenIncomingExtSeq)).2
          timestampMapperIncomingSsrc :=
            (s.timestampMapper.map packet.header.ssrc packet.header.timestamp).2.incomingSsrc
          timestampMapperBaseIncoming :=
            (s.timestampMapper.map packet.header.ssrc packet.header.timestamp).2.baseIncoming
          timestampMapperBaseOutgoing :=
            (s.timestampMapper.map packet.header.ssrc packet.header.timestamp).2.baseOutgoing
          timestampMapperLastOutgoing :=
            (s.timestampMapper.map packet.header.ssrc packet.header.timestamp).2.lastOutgoing
          retransmissionCache := s.retransmissionCache.insert
            (s.rewritten packet targetSsrc negotiatedPayloadType)}) := by
  obtain ⟨highest,active,hf⟩ :=
    s.extendSequenceNumber_frame packet.header.ssrc packet.header.sequenceNumber
  refine ⟨highest,active,hf,?_⟩
  have hr := s.extendSequenceNumber_result packet.header.ssrc packet.header.sequenceNumber
  have hk : ¬ ((!isNewHighest (s.reference packet.header.ssrc) packet.header.sequenceNumber &&
      decide ((packet.header.ssrc,extended (s.reference packet.header.ssrc)
        packet.header.sequenceNumber)∈s.seenIncomingExtSeq))) := by
    simpa [IsDuplicate,incomingKey] using h
  simp only [rewritePacket,hr,hf,hk,mapPacketTimestamp_eq]
  rfl

theorem rewritePacket_eq_none_iff :
    (s.rewritePacket packet targetSsrc negotiatedPayloadType).1=none ↔ s.IsDuplicate packet := by
  by_cases h : s.IsDuplicate packet
  · simp [rewritePacket_of_duplicate targetSsrc negotiatedPayloadType h,h]
  · obtain ⟨_,_,_,hr⟩ := rewritePacket_of_fresh targetSsrc negotiatedPayloadType h
    simp [hr,h]

theorem rewritePacket_output {out : Packet}
    (h : (s.rewritePacket packet targetSsrc negotiatedPayloadType).1=some out) :
    ¬ s.IsDuplicate packet ∧ out=s.rewritten packet targetSsrc negotiatedPayloadType := by
  have hf : ¬ s.IsDuplicate packet := by
    intro hdup
    rw [rewritePacket_of_duplicate targetSsrc negotiatedPayloadType hdup] at h
    cases h
  obtain ⟨_,_,_,hr⟩ := rewritePacket_of_fresh targetSsrc negotiatedPayloadType hf
  rw [hr] at h
  exact ⟨hf,(Option.some.inj h).symm⟩

variable (s packet)

theorem rewritePacket_reference :
    (s.rewritePacket packet targetSsrc negotiatedPayloadType).2.reference =
      Function.update s.reference packet.header.ssrc
        (some (nextReference (s.reference packet.header.ssrc) packet.header.sequenceNumber)) := by
  rw [← extendSequenceNumber_reference]
  by_cases h : s.IsDuplicate packet
  · rw [rewritePacket_of_duplicate targetSsrc negotiatedPayloadType h]
  · obtain ⟨highest,active,hf,hr⟩ := rewritePacket_of_fresh targetSsrc negotiatedPayloadType h
    rw [hr,hf]
    rfl

end SubscriberRtpState

structure RewriteCall where
  packet : Packet
  targetSsrc : Option UInt32
  negotiatedPayloadType : Option UInt8

def RewriteCall.ssrc (call : RewriteCall) : UInt32 := call.packet.header.ssrc

def SubscriberRtpState.rewriteCall (s : SubscriberRtpState) (call : RewriteCall) :
    Option Packet × SubscriberRtpState :=
  s.rewritePacket call.packet call.targetSsrc call.negotiatedPayloadType

def RewriteCall.plain (ssrc : UInt32) (sequenceNumber : UInt16) (timestamp : UInt32) :
    RewriteCall where
  packet := {
    header := {
      marker := false,payloadType := 96,sequenceNumber := sequenceNumber,timestamp := timestamp
      ssrc := ssrc,extension := false,extensionProfile := 0,extensions := [],extensionsPadding := 0}
    payload := []}
  targetSsrc := none
  negotiatedPayloadType := none

end OxideSfu.RtpForwarding
