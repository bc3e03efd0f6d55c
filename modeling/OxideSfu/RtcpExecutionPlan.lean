import OxideSfu.RtpForwardingState

/-!
# Execution plans for subscriber RTCP

A batch of RTCP actions is executed against the forwarding state of one subscriber
(`media/rtcp.rs`). Whatever the batch holds, it leaves numbering, timestamp mapping,
duplicate window and retransmission cache alone.
-/

namespace OxideSfu.RtpForwarding

/-- The sender-report fields that are rewritten; the others travel with the clone. -/
structure SenderReport where
  (ssrc rtpTime : UInt32)

inductive RtcpForwardAction
  | retransmitSequence (outgoingSequenceNumber : UInt16)
  | keyFrameRequest (kind : KeyFrameRequestKind) (mediaSsrc : UInt32)
  | senderReport (report : SenderReport)
  | receiverReportObserved (ssrc : UInt32) (maxFractionLost : UInt8) (reportCount : UInt16)
  | transportWideCcObserved (mediaSsrc : UInt32) (packetStatusCount : UInt16)

structure KeyframeFeedbackRequest where
  kind : KeyFrameRequestKind
  mediaSsrc : UInt32
  firSequenceNumber : Option UInt8

structure RtcpExecutionPlan where
  retransmitPackets : List Packet
  keyframeRequests : List KeyframeFeedbackRequest
  rewrittenSenderReports : List SenderReport
  mediaFeedback : MediaFeedbackSummary
  recommendedVideoQuality : Option RecommendedVideoQuality

def RtcpExecutionPlan.default : RtcpExecutionPlan where
  retransmitPackets := []
  keyframeRequests := []
  rewrittenSenderReports := []
  mediaFeedback := ⟨none,0,0,none,0,false⟩
  recommendedVideoQuality := none

def keyframeRequestMinGapMillis : ℕ := 300

def rewriteSenderReportPacket (original : SenderReport) (mapped : MappedSenderReport) :
    SenderReport :=
  {original with ssrc := mapped.ssrc,rtpTime := mapped.rtpTimestamp}

def executeAction (nowMillis : ℕ) (acc : RtcpExecutionPlan × SubscriberRtpState)
    (action : RtcpForwardAction) : RtcpExecutionPlan × SubscriberRtpState :=
  let (plan,s) := acc
  match action with
  | .retransmitSequence outgoingSequenceNumber =>
    match s.retransmissionPacket outgoingSequenceNumber with
    | some packet => ({plan with retransmitPackets := plan.retransmitPackets++[packet]},s)
    | none => (plan,s)
  | .keyFrameRequest kind mediaSsrc =>
    let (forward,s) := s.shouldForwardKeyframeRequest kind nowMillis keyframeRequestMinGapMillis
    if forward then
      let (firSequenceNumber,s) := match kind with
        | .fir =>
          let (sequenceNumber,s) := s.nextFirSequenceNumber mediaSsrc
          (some sequenceNumber,s)
        | .pli => (none,s)
      ({plan with
        keyframeRequests := plan.keyframeRequests++[⟨kind,mediaSsrc,firSequenceNumber⟩]},s)
    else (plan,s)
  | .senderReport report =>
    let (mapped,s) := s.mapSenderReport report.ssrc report.rtpTime
    ({plan with
      rewrittenSenderReports :=
        plan.rewrittenSenderReports++[rewriteSenderReportPacket report mapped]},s)
  | .receiverReportObserved ssrc maxFractionLost reportCount =>
    (plan,s.observeReceiverReport nowMillis ssrc maxFractionLost reportCount)
  | .transportWideCcObserved mediaSsrc packetStatusCount =>
    (plan,s.observeTransportWideCc nowMillis mediaSsrc packetStatusCount)

/-- A negative clock reads as zero. -/
def buildRtcpExecutionPlan (s : SubscriberRtpState) (actions : List RtcpForwardAction)
    (nowMillis : ℤ) : RtcpExecutionPlan × SubscriberRtpState :=
  let nowMillis := nowMillis.toNat
  let (plan,s) := actions.foldl (executeAction nowMillis) (RtcpExecutionPlan.default,s)
  let (mediaFeedback,s) := s.mediaFeedbackSummary nowMillis
  let (recommendedVideoQuality,s) := s.recommendVideoQuality nowMillis
  ({plan with
    mediaFeedback := mediaFeedback,recommendedVideoQuality := recommendedVideoQuality},s)

namespace SubscriberRtpState

def SameForwarding (s s' : SubscriberRtpState) : Prop :=
  ∃gate firs mapper feedback adaptation,s'={s with
    keyframeGate := gate,firSequenceNumbers := firs,senderReportMapper := mapper
    mediaFeedback := feedback,mediaFeedbackAdaptation := adaptation}

theorem SameForwarding.refl (s : SubscriberRtpState) : s.SameForwarding s := ⟨_,_,_,_,_,rfl⟩

theorem SameForwarding.trans {s s' s'' : SubscriberRtpState} (h : s.SameForwarding s')
    (h' : s'.SameForwarding s'') : s.SameForwarding s'' := by
  obtain ⟨_,_,_,_,_,rfl⟩ := h
  obtain ⟨gate,firs,mapper,feedback,adaptation,rfl⟩ := h'
  exact ⟨gate,firs,mapper,feedback,adaptation,rfl⟩

/-- The sender-report mapper has not moved away from the incoming timeline. -/
def ReportsUnshifted (s : SubscriberRtpState) : Prop :=
  s.senderReportMapper.baseIncomingRtpTimestamp=s.senderReportMapper.baseOutgoingRtpTimestamp

theorem mapSenderReport_of_unshifted {s : SubscriberRtpState} (h : s.ReportsUnshifted)
    (ssrc ts : UInt32) :
    (s.mapSenderReport ssrc ts).1=⟨ssrc,ts⟩ ∧ (s.mapSenderReport ssrc ts).2.ReportsUnshifted := by
  unfold ReportsUnshifted at h
  simp only [mapSenderReport,SenderReportMapper.map,ReportsUnshifted]
  split
  · rename_i baseIn baseOut existing hin hout _
    -- Equal bases cancel in `base_out + (t - base_in)`.
    obtain rfl : baseIn=baseOut := by
      rw [hin,hout] at h
      exact Option.some.inj h
    split_ifs
    · have hc : baseIn+(ts-baseIn)=ts := by grind
      rw [hc]
      exact ⟨rfl,h⟩
    · exact ⟨rfl,rfl⟩
  · exact ⟨rfl,rfl⟩

end SubscriberRtpState

open SubscriberRtpState

theorem executeAction_keeps (nowMillis : ℕ) (plan : RtcpExecutionPlan) (s : SubscriberRtpState)
    (action : RtcpForwardAction) :
    s.SameForwarding (executeAction nowMillis (plan,s) action).2 ∧
      (s.ReportsUnshifted → (executeAction nowMillis (plan,s) action).2.ReportsUnshifted) := by
  cases action with
  | retransmitSequence n =>
    simp only [executeAction]
    split
    · exact ⟨.refl s,id⟩
    · exact ⟨.refl s,id⟩
  | keyFrameRequest kind mediaSsrc =>
    simp only [executeAction]
    split
    · cases kind with
      | pli => exact ⟨⟨_,_,_,_,_,rfl⟩,id⟩
      | fir => exact ⟨⟨_,_,_,_,_,rfl⟩,id⟩
    · exact ⟨⟨_,_,_,_,_,rfl⟩,id⟩
  | senderReport report =>
    refine ⟨⟨_,_,_,_,_,rfl⟩,?_⟩
    intro h
    exact (mapSenderReport_of_unshifted h report.ssrc report.rtpTime).2
  | receiverReportObserved | transportWideCcObserved =>
    exact ⟨⟨_,_,_,_,_,rfl⟩,id⟩

theorem foldl_executeAction_keeps (nowMillis : ℕ) (actions : List RtcpForwardAction)
    (acc : RtcpExecutionPlan × SubscriberRtpState) :
    acc.2.SameForwarding (actions.foldl (executeAction nowMillis) acc).2 ∧
      (acc.2.ReportsUnshifted →
        (actions.foldl (executeAction nowMillis) acc).2.ReportsUnshifted) := by
  induction actions generalizing acc with
  | nil => exact ⟨.refl _,id⟩
  | cons action actions ih =>
    obtain ⟨hs,hr⟩ := executeAction_keeps nowMillis acc.1 acc.2 action
    obtain ⟨hs',hr'⟩ := ih (executeAction nowMillis acc action)
    exact ⟨hs.trans hs',fun h => hr' (hr h)⟩

/-- Executing a plan never touches what packets are numbered, mapped or replayed by. -/
theorem buildRtcpExecutionPlan_keeps (s : SubscriberRtpState) (actions : List RtcpForwardAction)
    (nowMillis : ℤ) :
    s.SameForwarding (buildRtcpExecutionPlan s actions nowMillis).2 ∧
      (s.ReportsUnshifted → (buildRtcpExecutionPlan s actions nowMillis).2.ReportsUnshifted) := by
  obtain ⟨hs,hr⟩ := foldl_executeAction_keeps nowMillis.toNat actions (RtcpExecutionPlan.default,s)
  refine ⟨hs.trans ⟨_,_,_,_,_,rfl⟩,?_⟩
  intro h
  exact hr h

end OxideSfu.RtpForwarding
