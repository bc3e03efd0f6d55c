import OxideSfu.DescriptorSelector
import OxideSfu.RtcpExecutionPlan
import OxideSfu.RtpRewriteStep

/-!
# The forwarding target of one subscriber

What the session does with the forwarding state of a subscriber (`router/session.rs`): an incoming
packet is rewritten, its extensions are adapted to the target, and the delivered representation is
cached; RTCP batches are executed in between.
-/

namespace OxideSfu.RtpForwarding

open StepRuns SubscriberRtpState VideoIngress

/-- The parts of the RTP library the adaptation calls: writing one header extension, and
the descriptor payload with another active-target mask. Writing an extension leaves the
sequence number alone. -/
structure ExtensionCodec where
  setExtension : Header → UInt8 → List UInt8 → Header
  replaceOrInjectActiveDecodeTargetMask : List UInt8 → UInt8 → UInt32→Option (List UInt8)
  setExtension_sequenceNumber : ∀header id payload,
    (setExtension header id payload).sequenceNumber=header.sequenceNumber

/-- A codec that writes one-byte extensions and leaves descriptors it cannot parse out,
for the evaluation of concrete runs. -/
def oneByteCodec : ExtensionCodec where
  setExtension header id payload := {header with
    extension := true,extensionProfile :=
      if header.extension then header.extensionProfile else 0xBEDE
    extensions := header.extensions.filter (fun extension => extension.id != id)++[⟨id,payload⟩]}
  replaceOrInjectActiveDecodeTargetMask _ _ _ := none
  setExtension_sequenceNumber _ _ _ := rfl

structure DependencyDescriptorMetadataSnapshot where
  sourceExtensionId : UInt8
  decodeTargetIndications : List DependencyDescriptorDti

def extensionProfileOneByte : UInt16 := 0xBEDE

def Header.dropEmptyExtensionBlock (header : Header) : Header :=
  if header.extensions.isEmpty then
    {header with extension := false,extensionProfile := 0,extensionsPadding := 0}
  else header

def removeUnencodableOneByteExtensions (packet : Packet) : Packet :=
  if packet.header.extensionProfile=extensionProfileOneByte then
    {packet with
      header := Header.dropEmptyExtensionBlock {packet.header with
        extensions := packet.header.extensions.filter
          (fun extension => extension.id != 0 && !extension.payload.isEmpty)}}
  else packet

/-- The payload for the target, when the number of decode targets fits a byte and the
target is one of them. -/
def rewrittenDescriptorPayload (codec : ExtensionCodec)
    (snapshot : DependencyDescriptorMetadataSnapshot) (sourcePayload : List UInt8)
    (target : UInt8) : Option (List UInt8) :=
  let count := snapshot.decodeTargetIndications.length
  if count<2^8 ∧ target.toNat<count then
    codec.replaceOrInjectActiveDecodeTargetMask sourcePayload (UInt8.ofNat count)
      (1 <<< target.toUInt32)
  else none

def rewriteDependencyDescriptorForTarget (codec : ExtensionCodec) (packet : Packet)
    (snapshot : DependencyDescriptorMetadataSnapshot)
    (decision : DependencyDescriptorForwardingDecision) (destinationExtensionId : Option UInt8) :
    Bool × Packet :=
  match decision with
  | .forward target =>
    match packet.header.extensions.find? (fun extension =>
        extension.id == snapshot.sourceExtensionId) with
    | none => (false,packet)
    | some source =>
      let header := {packet.header with
        extensions := packet.header.extensions.filter
          (fun extension => extension.id != snapshot.sourceExtensionId)}
      let header :=
        match destinationExtensionId,
            rewrittenDescriptorPayload codec snapshot source.payload target with
        | some id, some payload => codec.setExtension header id payload | _,_ => header
      (true,{packet with header := header.dropEmptyExtensionBlock})
  | _ => (false,packet)

structure Finalisation where
  descriptor : Option (DependencyDescriptorMetadataSnapshot ×
    DependencyDescriptorForwardingDecision × Option UInt8)
  isVideoTrack : Bool

def Finalisation.apply (codec : ExtensionCodec) (f : Finalisation) (packet : Packet) : Packet :=
  let packet := match f.descriptor with
    | some (snapshot,decision,destinationExtensionId) =>
      (rewriteDependencyDescriptorForTarget codec packet snapshot decision
        destinationExtensionId).2
    | none => packet
  if f.isVideoTrack then removeUnencodableOneByteExtensions packet else packet

/-- What happens to a target: a packet is rewritten, and finalised unless the rewriter
is called on its own, or a batch of RTCP actions is executed. -/
inductive TargetEvent
  | packet (call : RewriteCall) (finalisation : Option Finalisation)
  | rtcp (actions : List RtcpForwardAction) (nowMillis : ℤ)

/-- A forwarded packet as rewritten and in the representation cached last for it. -/
structure Delivery where
  call : RewriteCall
  (rewritten cached : Packet)

def targetStep (codec : ExtensionCodec) (s : SubscriberRtpState) :
    TargetEvent→Option Delivery × SubscriberRtpState
  | .packet call finalisation =>
    match s.rewriteCall call with
    | (none,s) => (none,s)
    | (some rewritten,s) =>
      match finalisation with
      | none => (some ⟨call,rewritten,rewritten⟩,s)
      | some f =>
        let delivered := f.apply codec rewritten
        (some ⟨call,rewritten,delivered⟩,s.cacheRetransmissionPacket delivered)
  | .rtcp actions nowMillis => (none,(buildRtcpExecutionPlan s actions nowMillis).2)

def targetAfter (codec : ExtensionCodec) (events : List TargetEvent) : SubscriberRtpState :=
  exec (targetStep codec) default events

def deliveries (codec : ExtensionCodec) (events : List TargetEvent) : List Delivery :=
  (emitted (targetStep codec) default events).map Prod.snd

variable (codec : ExtensionCodec)

@[simp] theorem targetAfter_concat (es : List TargetEvent) (e : TargetEvent) :
    targetAfter codec (es++[e])=(targetStep codec (targetAfter codec es) e).2 :=
  exec_concat _ _ _ _

theorem deliveries_concat (es : List TargetEvent) (e : TargetEvent) :
    deliveries codec (es++[e]) =
      deliveries codec es++(targetStep codec (targetAfter codec es) e).1.toList := by
  rw [deliveries,emitted_concat]
  simp [deliveries,targetAfter,Function.comp_def]

theorem dropEmptyExtensionBlock_sequenceNumber (header : Header) :
    header.dropEmptyExtensionBlock.sequenceNumber=header.sequenceNumber := by
  unfold Header.dropEmptyExtensionBlock
  split_ifs <;> rfl

theorem removeUnencodableOneByteExtensions_sequenceNumber (p : Packet) :
    (removeUnencodableOneByteExtensions p).header.sequenceNumber=p.header.sequenceNumber := by
  unfold removeUnencodableOneByteExtensions
  split_ifs
  · rw [dropEmptyExtensionBlock_sequenceNumber]
  · rfl

theorem rewriteDependencyDescriptorForTarget_sequenceNumber (p : Packet)
    (n : DependencyDescriptorMetadataSnapshot)
    (d : DependencyDescriptorForwardingDecision) (destinationExtensionId : Option UInt8) :
    (rewriteDependencyDescriptorForTarget codec p n d
      destinationExtensionId).2.header.sequenceNumber=p.header.sequenceNumber := by
  unfold rewriteDependencyDescriptorForTarget
  split
  · split
    · rfl
    · simp only [dropEmptyExtensionBlock_sequenceNumber]
      split
      · rw [codec.setExtension_sequenceNumber]
      · rfl
  · rfl

theorem Finalisation.apply_sequenceNumber (f : Finalisation) (p : Packet) :
    (f.apply codec p).header.sequenceNumber=p.header.sequenceNumber := by
  rcases f with ⟨_ | ⟨n,decision,d⟩,isVideoTrack⟩
  · cases isVideoTrack with
    | false => rfl
    | true => exact removeUnencodableOneByteExtensions_sequenceNumber p
  · have hd := rewriteDependencyDescriptorForTarget_sequenceNumber codec p n decision d
    cases isVideoTrack with
    | false => exact hd
    | true => exact (removeUnencodableOneByteExtensions_sequenceNumber _).trans hd

/-- What a step does to the forwarding state: nothing a packet depends on, the
bookkeeping of a duplicate, or one delivery cached under its own number. -/
inductive TargetStepSpec (s : SubscriberRtpState) :
    TargetEvent→Option Delivery → SubscriberRtpState→Prop
  | rtcp {actions nowMillis s'} (same : s.SameForwarding s')
      (reports : s.ReportsUnshifted → s'.ReportsUnshifted) :
      TargetStepSpec s (.rtcp actions nowMillis) none s'
  | dropped {call finalisation} (duplicate : s.IsDuplicate call.packet) (highest active) :
      TargetStepSpec s (.packet call finalisation) none {s with
        highestIncomingExtSeqBySsrc := highest,activeIncomingExtSeq := active}
  | delivered {call finalisation s'} (d : Delivery) (fresh : ¬ s.IsDuplicate call.packet)
      (hcall : d.call=call)
      (hrewritten : d.rewritten=s.rewritten call.packet call.targetSsrc
        call.negotiatedPayloadType)
      (hnumber : d.cached.header.sequenceNumber=d.rewritten.header.sequenceNumber)
      (next : s'.nextOutgoingExtSeq =
        some (saturatingAdd 64 (s.nextOutgoingExtSeq.getD (s.incomingKey call.packet).2) 1))
      (mapper : s'.timestampMapper =
        (s.timestampMapper.map call.ssrc call.packet.header.timestamp).2)
      (cache : s'.retransmissionCache=s.retransmissionCache.insert d.cached)
      (reports : s'.senderReportMapper=s.senderReportMapper) :
      TargetStepSpec s (.packet call finalisation) (some d) s'

theorem RetransmissionCache.insert_insert (c : RetransmissionCache) {p q : Packet}
    (h : q.header.sequenceNumber=p.header.sequenceNumber) :
    (c.insert p).insert q=c.insert q := by
  simp only [RetransmissionCache.insert,h,Function.update_idem]

theorem targetStep_spec (s : SubscriberRtpState) (e : TargetEvent) :
    TargetStepSpec s e (targetStep codec s e).1 (targetStep codec s e).2 := by
  cases e with
  | rtcp actions nowMillis =>
    obtain ⟨hs,hre⟩ := buildRtcpExecutionPlan_keeps s actions nowMillis
    exact .rtcp hs hre
  | packet call finalisation =>
    by_cases hdup : s.IsDuplicate call.packet
    · obtain ⟨highest,active,hf⟩ :=
        s.extendSequenceNumber_frame call.packet.header.ssrc call.packet.header.sequenceNumber
      have hr : s.rewriteCall call=(none,_) :=
        rewritePacket_of_duplicate call.targetSsrc call.negotiatedPayloadType hdup
      rw [hf] at hr
      simp only [targetStep,hr]
      exact .dropped hdup highest active
    · obtain ⟨highest,active,_,hr⟩ :=
        rewritePacket_of_fresh call.targetSsrc call.negotiatedPayloadType hdup
      change s.rewriteCall call=_ at hr
      cases finalisation with
      | none =>
        simp only [targetStep,hr]
        exact .delivered _ hdup rfl rfl rfl rfl rfl rfl rfl
      | some f =>
        simp only [targetStep,hr]
        have hn := f.apply_sequenceNumber codec
          (s.rewritten call.packet call.targetSsrc call.negotiatedPayloadType)
        exact .delivered _ hdup rfl rfl hn rfl rfl (RetransmissionCache.insert_insert _ hn) rfl

end OxideSfu.RtpForwarding
