import OxideSfu.ForwardTarget

/-!
# Sender reports beside the packet timeline

The sender-report mapper rebases on the incoming timestamp itself, so it answers every
report unchanged. Packets are shifted after a source switch, so reports and packets share
a timeline exactly while the current stretch is sent unshifted.
-/

namespace OxideSfu.RtpForwarding

open SubscriberRtpState TimestampMapper Option

/-- A report of the source forwarded last is mapped to the timestamp a packet of that
source with the same timestamp would be sent with. -/
def SameTimeline (codec : ExtensionCodec) (events : List TargetEvent) : Prop :=
  ∀last,(deliveries codec events).getLast?=some last → ∀call out,
    call.ssrc=last.call.ssrc → ((targetAfter codec events).rewriteCall call).1=some out →
    ((targetAfter codec events).mapSenderReport call.ssrc
      call.packet.header.timestamp).1.rtpTimestamp=out.header.timestamp

def Delivery.Unshifted (d : Delivery) : Prop :=
  d.rewritten.header.timestamp=d.call.packet.header.timestamp

variable {m : TimestampMapper}

namespace TimestampMapper

/-- A mapper on a stretch of a source, with the shift it applies to packets. -/
structure OnStretch (m : TimestampMapper) (ssrc shift : UInt32) : Prop where
  source : m.incomingSsrc=some ssrc
  bases : ∃baseIncoming baseOutgoing,m.baseIncoming=some baseIncoming ∧
    m.baseOutgoing=some baseOutgoing ∧ baseOutgoing-baseIncoming=shift

theorem onStretch_start (ssrc incoming outgoing : UInt32) :
    (start ssrc incoming outgoing).OnStretch ssrc (outgoing-incoming) :=
  ⟨rfl,incoming,outgoing,rfl,rfl,rfl⟩

theorem OnStretch.map {ssrc shift : UInt32} (h : m.OnStretch ssrc shift) (ts : UInt32) :
    (m.map ssrc ts).1=ts+shift ∧ (m.map ssrc ts).2.OnStretch ssrc shift := by
  obtain ⟨hs,baseIncoming,baseOutgoing,hin,hout,rfl⟩ := h
  simp only [TimestampMapper.map,hs,hin,hout,if_true]
  refine ⟨?_,rfl,baseIncoming,baseOutgoing,rfl,rfl,rfl⟩
  grind

/-- Whatever came before, the mapper is on a stretch of the source it mapped last. -/
theorem map_onStretch (m : TimestampMapper) (ssrc ts : UInt32) :
    (m.map ssrc ts).2.OnStretch ssrc ((m.map ssrc ts).1-ts) := by
  simp only [map]
  split
  · rename_i mappedSsrc baseIncoming baseOutgoing _ hin hout
    split_ifs with hs
    · subst hs
      refine ⟨by assumption,baseIncoming,baseOutgoing,hin,hout,?_⟩
      grind
    · exact onStretch_start _ _ _
  · exact onStretch_start _ _ _

end TimestampMapper

/-- The mapper state that a log of deliveries leaves behind. -/
structure OnTimeline (s : SubscriberRtpState) (log : List Delivery) : Prop where
  reports : s.ReportsUnshifted
  initial : log=[] → s.timestampMapper.incomingSsrc=none
  stretch : ∀last,log.getLast?=some last → s.timestampMapper.OnStretch last.call.ssrc
    (last.rewritten.header.timestamp-last.call.packet.header.timestamp)
  single : ∀ssrc,(∀d∈log,d.call.ssrc=ssrc) → ∀d∈log,d.Unshifted

theorem onTimeline_default : OnTimeline SubscriberRtpState.default [] := by
  refine ⟨rfl,fun _ => rfl,?_,by simp⟩
  intro last h
  cases h

variable {log : List Delivery} {s s' : SubscriberRtpState}

theorem OnTimeline.deliver
    (h : OnTimeline s log) (d : Delivery)
    (hout : d.rewritten.header.timestamp =
      (s.timestampMapper.map d.call.ssrc d.call.packet.header.timestamp).1)
    (hm : s'.timestampMapper=(s.timestampMapper.map d.call.ssrc d.call.packet.header.timestamp).2)
    (hr : s'.senderReportMapper=s.senderReportMapper) :
    OnTimeline s' (log++[d]) := by
  refine ⟨?_,by simp,?_,?_⟩
  · rw [ReportsUnshifted,hr]
    exact h.reports
  · intro last hl
    obtain rfl : d=last := by simpa using hl
    rw [hm,hout]
    exact map_onStretch _ _ _
  · intro ssrc hall
    have hold : ∀e∈log,e.call.ssrc=ssrc := fun e he => hall e (by simp [he])
    have hu := h.single ssrc hold
    have hnew : d.Unshifted := by
      cases hlog : log.getLast? with
      | none =>
        rw [Delivery.Unshifted,hout]
        simp only [map,h.initial (List.getLast?_eq_none_iff.mp hlog)]
      | some last =>
        -- The stretch goes on with the shift of the last packet, which is zero.
        have hmem : last∈log := List.mem_of_getLast? hlog
        have hs := h.stretch last hlog
        rw [hu last hmem,hold last hmem,← hall d (by simp)] at hs
        rw [Delivery.Unshifted,hout,(hs.map _).1]
        grind
    intro e he
    rcases List.mem_append.mp he with he | he
    · exact hu e he
    · rw [List.mem_singleton.mp he]
      exact hnew

theorem OnTimeline.step {e : TargetEvent}
    {out : Option Delivery} (h : OnTimeline s log) (hst : TargetStepSpec s e out s') :
    OnTimeline s' (log++out.toList) := by
  cases hst with
  | rtcp hs hr =>
    rw [toList_none,List.append_nil]
    have hk := hr h.reports
    obtain ⟨_,_,_,_,_,rfl⟩ := hs
    exact ⟨hk,h.initial,h.stretch,h.single⟩
  | dropped =>
    rw [toList_none,List.append_nil]
    exact ⟨h.reports,h.initial,h.stretch,h.single⟩
  | delivered d _ hc hre _ _ hm _ hr =>
    subst hc
    exact h.deliver d (by rw [hre]; rfl) hm hr

theorem onTimeline_deliveries (codec : ExtensionCodec) (es : List TargetEvent) :
    OnTimeline (targetAfter codec es) (deliveries codec es) := by
  induction es using List.reverseRecOn with
  | nil => exact onTimeline_default
  | append_singleton es e ih =>
    rw [deliveries_concat,targetAfter_concat]
    exact ih.step (targetStep_spec codec _ e)

/-- Every report is answered unchanged, in every state a run reaches. This is the
timestamp a packet of the source forwarded last would get exactly while that source is
sent unshifted, which lasts as long as no other source was forwarded. -/
theorem mapSenderReport_timeline (codec : ExtensionCodec) (events : List TargetEvent) :
    (∀ssrc timestamp,((targetAfter codec events).mapSenderReport ssrc timestamp).1 =
      ⟨ssrc,timestamp⟩) ∧
    (∀last,(deliveries codec events).getLast? = some last →
      (∀call out,call.ssrc = last.call.ssrc →
        ((targetAfter codec events).rewriteCall call).1 = some out →
        (((targetAfter codec events).mapSenderReport call.ssrc
          call.packet.header.timestamp).1.rtpTimestamp = out.header.timestamp ↔
            last.Unshifted)) ∧
      ((∀d ∈ deliveries codec events,d.call.ssrc = last.call.ssrc) → last.Unshifted)) := by
  have h := onTimeline_deliveries codec events
  have hr := fun ssrc timestamp => (mapSenderReport_of_unshifted h.reports ssrc timestamp).1
  refine ⟨hr,?_⟩
  intro last hl
  refine ⟨?_,fun hall => h.single _ hall last (List.mem_of_getLast? hl)⟩
  intro call out hs hout
  obtain ⟨_,rfl⟩ := rewritePacket_output call.targetSsrc call.negotiatedPayloadType hout
  have hm := ((h.stretch last hl).map call.packet.header.timestamp).1
  rw [← hs] at hm
  rw [hr,Delivery.Unshifted]
  change call.packet.header.timestamp =
    ((targetAfter codec events).timestampMapper.map call.ssrc call.packet.header.timestamp).1 ↔ _
  constructor
  · intro heq
    grind
  · intro heq
    grind

def reportBeforeSwitch : List TargetEvent :=
  [.packet (.plain 1 1 1000) none,.rtcp [.senderReport ⟨1,1000⟩] 0]

theorem mapSenderReport_timeline_before_switch :
    SameTimeline oneByteCodec reportBeforeSwitch := by
  obtain ⟨_,hso⟩ := mapSenderReport_timeline oneByteCodec reportBeforeSwitch
  intro last hl call out hss hout
  obtain ⟨hiff,hs⟩ := hso last hl
  refine (hiff call out hss hout).mpr (hs ?_)
  obtain rfl := some.inj hl
  intro d hd
  obtain rfl := List.mem_singleton.mp hd
  rfl

def reportAfterSwitch : List TargetEvent :=
  [.packet (.plain 1 1 1000) none,.rtcp [.senderReport ⟨1,1000⟩] 0,
    .packet (.plain 2 1 500000) none,.rtcp [.senderReport ⟨2,500000⟩] 0]

/-- After a switch the second source is sent from 1001 on while its reports keep the
timestamps of the source. -/
theorem sameTimeline_fails_after_switch : ¬ SameTimeline oneByteCodec reportAfterSwitch := by
  intro h
  have heq := h _ rfl (.plain 2 2 500000) _ rfl rfl
  revert heq
  decide +kernel

end OxideSfu.RtpForwarding
