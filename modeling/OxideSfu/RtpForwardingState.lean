import Mathlib.Algebra.Group.Nat.Defs
import Mathlib.Algebra.Group.Int.Defs
import Mathlib.Data.Finset.Basic

/-!
# Per-subscriber RTP forwarding state

The state a forwarding target owns for one subscriber (`media/rtp_forwarding.rs`). Sequence numbers,
timestamps and SSRCs keep their machine widths; extended numbers (`u64`) and clocks are naturals,
with the truncations and saturations of the source written out.
-/

namespace OxideSfu.RtpForwarding

def rtpDuplicateWindow : ℕ := 512
def rtpRetransmissionCacheSize : ℕ := 256
def mediaFeedbackWindowMillis : ℕ := 5000
def mediaFeedbackDegradedFractionLostThreshold : UInt8 := 64
def mediaFeedbackModerateFractionLostThreshold : UInt8 := 24
def mediaFeedbackDegradedMinReports : ℕ := 2
def mediaFeedbackRecoveryMinReports : ℕ := 2
def mediaFeedbackQualityRecommendationMinGapMillis : ℕ := 2000

/-- Addition that saturates at the largest value of a `bits`-wide unsigned integer. -/
def saturatingAdd (bits a b : ℕ) : ℕ := min (a+b) (2^bits-1)

structure Extension where
  id : UInt8
  payload : List UInt8

/-- The RTP header fields that forwarding reads or writes; the remaining ones travel
unchanged with the cloned packet. -/
structure Header where
  marker : Bool
  payloadType : UInt8
  sequenceNumber : UInt16
  (timestamp ssrc : UInt32)
  extension : Bool
  extensionProfile : UInt16
  extensions : List Extension
  extensionsPadding : ℕ

structure Packet where
  header : Header
  payload : List UInt8

inductive KeyFrameRequestKind | pli | fir

structure KeyFrameRequestGate where
  (lastPliMillis lastFirMillis : Option ℕ)

namespace KeyFrameRequestGate

def last (g : KeyFrameRequestGate) : KeyFrameRequestKind→Option ℕ
  | .pli => g.lastPliMillis | .fir => g.lastFirMillis

def setLast (g : KeyFrameRequestGate) (nowMillis : ℕ) : KeyFrameRequestKind → KeyFrameRequestGate
  | .pli => {g with lastPliMillis := some nowMillis}
  | .fir => {g with lastFirMillis := some nowMillis}

/-- `saturating_sub` of two clocks is truncated subtraction. -/
def shouldForward (g : KeyFrameRequestGate) (request : KeyFrameRequestKind)
    (nowMillis minGapMillis : ℕ) : Bool × KeyFrameRequestGate :=
  match g.last request with
  | some previous =>
    if nowMillis-previous < minGapMillis then (false,g) else (true,g.setLast nowMillis request)
  | none => (true,g.setLast nowMillis request)

end KeyFrameRequestGate

structure MappedSenderReport where
  (ssrc rtpTimestamp : UInt32)

structure SenderReportMapper where
  (targetSsrc baseIncomingRtpTimestamp baseOutgoingRtpTimestamp : Option UInt32)

namespace SenderReportMapper

/-- The mapper after it adopts a report as the origin of its own timeline. -/
def rebase (targetSsrc incomingRtpTimestamp : UInt32) : SenderReportMapper where
  targetSsrc := some targetSsrc
  baseIncomingRtpTimestamp := some incomingRtpTimestamp
  baseOutgoingRtpTimestamp := some incomingRtpTimestamp

def map (m : SenderReportMapper) (targetSsrc incomingRtpTimestamp : UInt32) :
    MappedSenderReport × SenderReportMapper :=
  match m.baseIncomingRtpTimestamp,m.baseOutgoingRtpTimestamp,m.targetSsrc with
  | some baseIn, some baseOut, some existingTargetSsrc =>
    if existingTargetSsrc=targetSsrc then
      (⟨targetSsrc,baseOut+(incomingRtpTimestamp-baseIn)⟩,m)
    else (⟨targetSsrc,incomingRtpTimestamp⟩,rebase targetSsrc incomingRtpTimestamp)
  | _, _, _ => (⟨targetSsrc,incomingRtpTimestamp⟩,rebase targetSsrc incomingRtpTimestamp)

end SenderReportMapper

inductive RecommendedVideoQuality | low | medium | high deriving DecidableEq

structure MediaFeedbackSummary where
  lastRrSsrc : Option UInt32
  rrMaxFractionLost : UInt8
  rrReportCount : ℕ
  lastTwccMediaSsrc : Option UInt32
  twccPacketStatusCount : ℕ
  isDegraded : Bool

structure MediaFeedbackAdaptationState where
  lastRecommendedQuality : Option RecommendedVideoQuality
  lastRecommendationMillis : Option ℕ

namespace MediaFeedbackAdaptationState

/-- The quality a summary speaks for, before repetition and pacing are considered. -/
def desired (summary : MediaFeedbackSummary) : Option RecommendedVideoQuality :=
  if summary.isDegraded then some .low
  else if mediaFeedbackRecoveryMinReports ≤ summary.rrReportCount ∧
      mediaFeedbackModerateFractionLostThreshold ≤ summary.rrMaxFractionLost then some .medium
  else if mediaFeedbackRecoveryMinReports ≤ summary.rrReportCount then some .high
  else none

def maybeRecommend (a : MediaFeedbackAdaptationState) (summary : MediaFeedbackSummary)
    (nowMillis : ℕ) : Option RecommendedVideoQuality × MediaFeedbackAdaptationState :=
  match desired summary with
  | none => (none,a)
  | some quality =>
    if a.lastRecommendedQuality=some quality then (none,a)
    else
      let tooSoon := match a.lastRecommendationMillis with
        | some lastMillis =>
          decide (nowMillis-lastMillis < mediaFeedbackQualityRecommendationMinGapMillis)
        | none => false
      if tooSoon then (none,a) else (some quality,⟨some quality,some nowMillis⟩)

end MediaFeedbackAdaptationState

structure MediaFeedbackState where
  rrWindowStartMillis : Option ℕ
  rrWindowLastSsrc : Option UInt32
  rrWindowMaxFractionLost : UInt8
  rrWindowReportCount : ℕ
  twccWindowStartMillis : Option ℕ
  twccWindowLastMediaSsrc : Option UInt32
  twccWindowPacketStatusCount : ℕ

namespace MediaFeedbackState

def windowOpen (start : Option ℕ) (nowMillis : ℕ) : Bool :=
  match start with
  | some windowStart => nowMillis-windowStart ≤ mediaFeedbackWindowMillis | none => false

def refreshRrWindow (m : MediaFeedbackState) (nowMillis : ℕ) : MediaFeedbackState :=
  if windowOpen m.rrWindowStartMillis nowMillis then m
  else {m with
    rrWindowStartMillis := some nowMillis,rrWindowLastSsrc := none,rrWindowMaxFractionLost := 0
    rrWindowReportCount := 0}

def refreshTwccWindow (m : MediaFeedbackState) (nowMillis : ℕ) : MediaFeedbackState :=
  if windowOpen m.twccWindowStartMillis nowMillis then m
  else {m with
    twccWindowStartMillis := some nowMillis,twccWindowLastMediaSsrc := none
    twccWindowPacketStatusCount := 0}

def observeReceiverReport (m : MediaFeedbackState) (nowMillis : ℕ) (ssrc : UInt32)
    (maxFractionLost : UInt8) (reportCount : UInt16) : MediaFeedbackState :=
  let m := m.refreshRrWindow nowMillis
  {m with
    rrWindowLastSsrc := some ssrc
    rrWindowMaxFractionLost := max m.rrWindowMaxFractionLost maxFractionLost
    rrWindowReportCount := saturatingAdd 32 m.rrWindowReportCount reportCount.toNat}

def observeTransportWideCc (m : MediaFeedbackState) (nowMillis : ℕ) (mediaSsrc : UInt32)
    (packetStatusCount : UInt16) : MediaFeedbackState :=
  let m := m.refreshTwccWindow nowMillis
  {m with
    twccWindowLastMediaSsrc := some mediaSsrc
    twccWindowPacketStatusCount :=
      saturatingAdd 32 m.twccWindowPacketStatusCount packetStatusCount.toNat}

def summary (m : MediaFeedbackState) (nowMillis : ℕ) : MediaFeedbackSummary × MediaFeedbackState :=
  let m := (m.refreshRrWindow nowMillis).refreshTwccWindow nowMillis
  (⟨m.rrWindowLastSsrc,m.rrWindowMaxFractionLost,m.rrWindowReportCount,
    m.twccWindowLastMediaSsrc,m.twccWindowPacketStatusCount,
    decide (mediaFeedbackDegradedMinReports ≤ m.rrWindowReportCount ∧
      mediaFeedbackDegradedFractionLostThreshold ≤ m.rrWindowMaxFractionLost)⟩,m)

end MediaFeedbackState

structure RetransmissionCacheSlot where
  sequenceNumber : UInt16
  packet : Packet

/-- A ring of slots addressed by the outgoing sequence number. -/
structure RetransmissionCache where
  slots : Fin rtpRetransmissionCacheSize→Option RetransmissionCacheSlot

namespace RetransmissionCache

def index (sequenceNumber : UInt16) : Fin rtpRetransmissionCacheSize :=
  ⟨sequenceNumber.toNat % rtpRetransmissionCacheSize,Nat.mod_lt _ (by decide)⟩

def insert (c : RetransmissionCache) (packet : Packet) : RetransmissionCache where
  slots := Function.update c.slots (index packet.header.sequenceNumber)
    (some ⟨packet.header.sequenceNumber,packet⟩)

def get (c : RetransmissionCache) (sequenceNumber : UInt16) : Option Packet :=
  match c.slots (index sequenceNumber) with
  | some slot => if slot.sequenceNumber=sequenceNumber then some slot.packet else none
  | none => none

end RetransmissionCache

structure SubscriberRtpState where
  highestIncomingExtSeqBySsrc : UInt32→Option ℕ
  activeIncomingExtSeq : Option (UInt32 × ℕ)
  seenIncomingExtSeq : Finset (UInt32 × ℕ)
  incomingExtSeqOrder : List (UInt32 × ℕ)
  nextOutgoingExtSeq : Option ℕ
  (timestampMapperIncomingSsrc timestampMapperBaseIncoming : Option UInt32)
  (timestampMapperBaseOutgoing timestampMapperLastOutgoing : Option UInt32)
  retransmissionCache : RetransmissionCache
  keyframeGate : KeyFrameRequestGate
  firSequenceNumbers : UInt32→Option UInt8
  senderReportMapper : SenderReportMapper
  mediaFeedback : MediaFeedbackState
  mediaFeedbackAdaptation : MediaFeedbackAdaptationState

/-- One candidate cycle of `extend_sequence_number_from_reference`. The best candidate
and its distance so far are updated only by a strictly closer candidate. -/
def considerCycle (seq16 referenceExtSeq : ℕ) (best : ℕ × ℕ) (cycle : ℤ) : ℕ × ℕ :=
  if cycle<0 then best
  else
    let candidate : ℕ := (cycle.toNat <<< 16 ||| seq16) % 2^64
    let distance := ((candidate : ℤ)-(referenceExtSeq : ℤ)).natAbs
    if distance<best.2 then (candidate,distance) else best

/-- The extended number closest to the reference among the cycles next to it. -/
def extendSequenceNumberFromReference (incomingSequenceNumber referenceExtSeq : ℕ) : ℕ :=
  let seq16 := incomingSequenceNumber % 2^16
  let referenceCycle : ℤ := (referenceExtSeq >>> 16 : ℕ)
  ([referenceCycle-1,referenceCycle,referenceCycle+1].foldl
    (considerCycle seq16 referenceExtSeq) (referenceExtSeq,2^127-1)).1

namespace SubscriberRtpState

def default : SubscriberRtpState where
  highestIncomingExtSeqBySsrc := fun _ => none
  activeIncomingExtSeq := none
  seenIncomingExtSeq := ∅
  incomingExtSeqOrder := []
  nextOutgoingExtSeq := none
  timestampMapperIncomingSsrc := none
  timestampMapperBaseIncoming := none
  timestampMapperBaseOutgoing := none
  timestampMapperLastOutgoing := none
  retransmissionCache := ⟨fun _ => none⟩
  keyframeGate := ⟨none,none⟩
  firSequenceNumbers := fun _ => none
  senderReportMapper := ⟨none,none,none⟩
  mediaFeedback := ⟨none,none,0,0,none,none,0⟩
  mediaFeedbackAdaptation := ⟨none,none⟩

/-- The tail of `extend_sequence_number`: the incoming source becomes the active one,
with its remembered reference taken out of the map. -/
def activateSource (s : SubscriberRtpState) (incomingSsrc : UInt32)
    (incomingSequenceNumber : ℕ) : (ℕ × Bool) × SubscriberRtpState :=
  let reference := s.highestIncomingExtSeqBySsrc incomingSsrc
  let extended := match reference with
    | some reference => extendSequenceNumberFromReference incomingSequenceNumber reference
    | none => incomingSequenceNumber
  let shouldUpdate := match reference with
    | some reference => reference<extended | none => true
  let activeReference := if shouldUpdate then extended else reference.getD extended
  ((extended,shouldUpdate),{s with
    highestIncomingExtSeqBySsrc :=
      Function.update s.highestIncomingExtSeqBySsrc incomingSsrc none
    activeIncomingExtSeq := some (incomingSsrc,activeReference)})

def extendSequenceNumber (s : SubscriberRtpState) (incomingSsrc : UInt32)
    (incomingSequenceNumber : UInt16) : (ℕ × Bool) × SubscriberRtpState :=
  let incomingSequenceNumber := incomingSequenceNumber.toNat
  match s.activeIncomingExtSeq with
  | some (activeSsrc,activeReference) =>
    if activeSsrc=incomingSsrc then
      let extended := extendSequenceNumberFromReference incomingSequenceNumber activeReference
      if activeReference<extended then
        ((extended,true),{s with activeIncomingExtSeq := some (incomingSsrc,extended)})
      else ((extended,false),s)
    else
      activateSource {s with
        highestIncomingExtSeqBySsrc :=
          Function.update s.highestIncomingExtSeqBySsrc activeSsrc (some activeReference)}
        incomingSsrc incomingSequenceNumber
  | none => activateSource s incomingSsrc incomingSequenceNumber

/-- The mapper fields after the incoming source starts a new stretch. -/
def startTimestampStretch (s : SubscriberRtpState)
    (incomingSsrc incomingTimestamp outgoingTimestamp : UInt32) : SubscriberRtpState :=
  {s with
    timestampMapperIncomingSsrc := some incomingSsrc
    timestampMapperBaseIncoming := some incomingTimestamp
    timestampMapperBaseOutgoing := some outgoingTimestamp
    timestampMapperLastOutgoing := some outgoingTimestamp}

def mapPacketTimestamp (s : SubscriberRtpState) (incomingSsrc incomingTimestamp : UInt32) :
    UInt32 × SubscriberRtpState :=
  match s.timestampMapperIncomingSsrc,s.timestampMapperBaseIncoming,
      s.timestampMapperBaseOutgoing with
  | some mappedSsrc, some baseIncoming, some baseOutgoing =>
    if mappedSsrc=incomingSsrc then
      let outgoing := baseOutgoing+(incomingTimestamp-baseIncoming)
      (outgoing,{s with timestampMapperLastOutgoing := some outgoing})
    else
      let resumed := match s.timestampMapperLastOutgoing with
        | some last => last+1 | none => incomingTimestamp
      (resumed,s.startTimestampStretch incomingSsrc incomingTimestamp resumed)
  | _, _, _ =>
    (incomingTimestamp,s.startTimestampStretch incomingSsrc incomingTimestamp incomingTimestamp)

def cacheRetransmissionPacket (s : SubscriberRtpState) (packet : Packet) : SubscriberRtpState :=
  {s with retransmissionCache := s.retransmissionCache.insert packet}

def retransmissionPacket (s : SubscriberRtpState) (outgoingSequenceNumber : UInt16) :
    Option Packet :=
  s.retransmissionCache.get outgoingSequenceNumber

/-- The `while` loop that pops the oldest keys until the order fits the window. -/
def evictBeyondWindow (window : ℕ) :
    List (UInt32 × ℕ) → Finset (UInt32 × ℕ) → List (UInt32 × ℕ) × Finset (UInt32 × ℕ)
  | [], seen => ([],seen)
  | key::order, seen =>
    if window<(key::order).length then evictBeyondWindow window order (seen.erase key)
    else (key::order,seen)

/-- The bookkeeping of a packet that is not a duplicate: its outgoing number is taken
and its key enters the duplicate window. -/
def recordForwarded (s : SubscriberRtpState) (incomingKey : UInt32 × ℕ) : ℕ × SubscriberRtpState :=
  let outgoingExtSeq := s.nextOutgoingExtSeq.getD incomingKey.2
  let kept := evictBeyondWindow rtpDuplicateWindow (s.incomingExtSeqOrder++[incomingKey])
    (insert incomingKey s.seenIncomingExtSeq)
  (outgoingExtSeq,{s with
    nextOutgoingExtSeq := some (saturatingAdd 64 outgoingExtSeq 1),incomingExtSeqOrder := kept.1
    seenIncomingExtSeq := kept.2})

def rewriteHeader (packet : Packet) (targetSsrc : Option UInt32)
    (negotiatedPayloadType : Option UInt8) (outgoingExtSeq : ℕ) (outgoingTimestamp : UInt32) :
    Packet :=
  {packet with
    header := {packet.header with
      payloadType := negotiatedPayloadType.getD packet.header.payloadType
      sequenceNumber := UInt16.ofNat outgoingExtSeq,timestamp := outgoingTimestamp
      ssrc := targetSsrc.getD packet.header.ssrc}}

def rewritePacket (s : SubscriberRtpState) (packet : Packet) (targetSsrc : Option UInt32)
    (negotiatedPayloadType : Option UInt8) : Option Packet × SubscriberRtpState :=
  let incomingSsrc := packet.header.ssrc
  let ((incomingExtSeq,isNewHighest),s) :=
    s.extendSequenceNumber incomingSsrc packet.header.sequenceNumber
  let incomingKey := (incomingSsrc,incomingExtSeq)
  -- A new highest number is never looked up in the duplicate window.
  if !isNewHighest && incomingKey∈s.seenIncomingExtSeq then (none,s)
  else
    let (outgoingExtSeq,s) := s.recordForwarded incomingKey
    let (outgoingTimestamp,s) := s.mapPacketTimestamp incomingSsrc packet.header.timestamp
    let rewritten :=
      rewriteHeader packet targetSsrc negotiatedPayloadType outgoingExtSeq outgoingTimestamp
    (some rewritten,s.cacheRetransmissionPacket rewritten)

def shouldForwardKeyframeRequest (s : SubscriberRtpState) (request : KeyFrameRequestKind)
    (nowMillis minGapMillis : ℕ) : Bool × SubscriberRtpState :=
  let (forward,gate) := s.keyframeGate.shouldForward request nowMillis minGapMillis
  (forward,{s with keyframeGate := gate})

def mapSenderReport (s : SubscriberRtpState) (targetSsrc incomingRtpTimestamp : UInt32) :
    MappedSenderReport × SubscriberRtpState :=
  let (mapped,mapper) := s.senderReportMapper.map targetSsrc incomingRtpTimestamp
  (mapped,{s with senderReportMapper := mapper})

def nextFirSequenceNumber (s : SubscriberRtpState) (mediaSsrc : UInt32) :
    UInt8 × SubscriberRtpState :=
  let sequenceNumber := (s.firSequenceNumbers mediaSsrc).getD 0
  (sequenceNumber,{s with
    firSequenceNumbers :=
      Function.update s.firSequenceNumbers mediaSsrc (some (sequenceNumber+1))})

def observeReceiverReport (s : SubscriberRtpState) (nowMillis : ℕ) (ssrc : UInt32)
    (maxFractionLost : UInt8) (reportCount : UInt16) : SubscriberRtpState :=
  {s with
    mediaFeedback :=
      s.mediaFeedback.observeReceiverReport nowMillis ssrc maxFractionLost reportCount}

def observeTransportWideCc (s : SubscriberRtpState) (nowMillis : ℕ) (mediaSsrc : UInt32)
    (packetStatusCount : UInt16) : SubscriberRtpState :=
  {s with
    mediaFeedback := s.mediaFeedback.observeTransportWideCc nowMillis mediaSsrc packetStatusCount}

def mediaFeedbackSummary (s : SubscriberRtpState) (nowMillis : ℕ) :
    MediaFeedbackSummary × SubscriberRtpState :=
  let (summary,feedback) := s.mediaFeedback.summary nowMillis
  (summary,{s with mediaFeedback := feedback})

def recommendVideoQuality (s : SubscriberRtpState) (nowMillis : ℕ) :
    Option RecommendedVideoQuality × SubscriberRtpState :=
  let (summary,feedback) := s.mediaFeedback.summary nowMillis
  let (quality,adaptation) := s.mediaFeedbackAdaptation.maybeRecommend summary nowMillis
  (quality,{s with mediaFeedback := feedback,mediaFeedbackAdaptation := adaptation})

end SubscriberRtpState

end OxideSfu.RtpForwarding
