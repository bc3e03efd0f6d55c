import Mathlib.Data.Finset.Max
import Mathlib.Data.List.Chain
import OxideSfu.RtpRewriteStep

/-!
# Outgoing timestamps across source switches

Inside a stretch of packets from one source the mapper shifts timestamps by a constant. When the
source changes it resumes one tick after the timestamp it sent last, so the timeline is continuous
exactly if the last packet before the switch was the newest of its stretch.
-/

namespace OxideSfu.RtpForwarding

open StepRuns SubscriberRtpState TimestampMapper List

/-- A call whose packet is given the true timestamp its 32-bit timestamp stands for. -/
structure TimedCall extends RewriteCall where
  trueTimestamp : ℤ
  trueTimestamp_low : trueTimestamp % 2^32=packet.header.timestamp.toNat

open TimedCall

def TimedCall.rewrite (s : SubscriberRtpState) (call : TimedCall) :
    Option Packet × SubscriberRtpState :=
  s.rewriteCall call.toRewriteCall

abbrev Sent := TimedCall × Packet

namespace Sent

def ssrc (e : Sent) : UInt32 := e.1.ssrc
def incoming (e : Sent) : UInt32 := e.1.packet.header.timestamp
def outgoing (e : Sent) : UInt32 := e.2.header.timestamp
def trueTimestamp (e : Sent) : ℤ := e.1.trueTimestamp

end Sent

def sentLog (calls : List TimedCall) : List Sent :=
  emitted TimedCall.rewrite default calls

/-- `a` is newer than `b` modulo 2^32 when it is less than half the range ahead. -/
def Newer (a b : UInt32) : Prop := 0<(a-b).toNat ∧ (a-b).toNat<2^31
  deriving Decidable

/-- A maximal stretch of forwarded packets from one source inside a log. -/
structure IsStretch (log pre stretch post : List Sent) (ssrc : UInt32) : Prop where
  split : log=pre++(stretch++post)
  nonempty : stretch≠[]
  same : ∀e∈stretch,e.ssrc=ssrc
  before : ∀e∈pre.getLast?,e.ssrc≠ssrc
  after : ∀e∈post.head?,e.ssrc≠ssrc

/-- Inside every stretch the true timestamps stay within 2^31 of each other. -/
def StretchesWithinHalfRange (calls : List TimedCall) : Prop :=
  ∀pre stretch post ssrc,IsStretch (sentLog calls) pre stretch post ssrc →
    ∀e∈stretch,∀f∈stretch,e.trueTimestamp≤f.trueTimestamp+2^31

/-- The first packet after a switch is newer than the newest one of the stretch before,
and a stretch is shifted by a constant. -/
def TimestampContinuity (calls : List TimedCall) : Prop :=
  (∀pre stretch next post ssrc,IsStretch (sentLog calls) pre stretch (next::post) ssrc →
    ∀newest∈stretch,(∀e∈stretch,e.trueTimestamp≤newest.trueTimestamp) →
      Newer next.outgoing newest.outgoing) ∧
  (∀pre stretch post ssrc,IsStretch (sentLog calls) pre stretch post ssrc →
    ∀e∈stretch,∀f∈stretch,e.outgoing-e.incoming=f.outgoing-f.incoming)

/-- At every switch the packet forwarded last was the newest of its stretch. -/
def SwitchesAtNewest (calls : List TimedCall) : Prop :=
  ∀pre stretch next post ssrc,IsStretch (sentLog calls) pre stretch (next::post) ssrc →
    ∀last∈stretch.getLast?,∀e∈stretch,e.trueTimestamp≤last.trueTimestamp

/-- How a forwarded packet follows the one forwarded before it. -/
structure Continues (e f : Sent) : Prop where
  shift : f.ssrc=e.ssrc → f.outgoing-f.incoming=e.outgoing-e.incoming
  resume : f.ssrc≠e.ssrc → f.outgoing=e.outgoing+1

/-- The mapper remembers the source, the shift and the timestamp of the last packet. -/
structure MapperRemembers (m : TimestampMapper) (e : Sent) : Prop where
  ssrc : m.incomingSsrc=some e.ssrc
  last : m.lastOutgoing=some e.outgoing
  bases : ∃baseIncoming baseOutgoing,m.baseIncoming=some baseIncoming ∧
    m.baseOutgoing=some baseOutgoing ∧ e.outgoing-e.incoming=baseOutgoing-baseIncoming

theorem mapperRemembers_start {f : Sent} (out : UInt32) (hout : f.outgoing=out) :
    MapperRemembers (start f.ssrc f.incoming out) f :=
  ⟨rfl,by rw [hout]; rfl,f.incoming,out,rfl,rfl,by rw [hout]⟩

variable {m : TimestampMapper}

theorem TimestampMapper.map_first (hm : m.incomingSsrc=none) {f : Sent}
    (hf : f.outgoing=(m.map f.ssrc f.incoming).1) :
    MapperRemembers (m.map f.ssrc f.incoming).2 f := by
  simp only [map,hm] at hf ⊢
  exact mapperRemembers_start _ hf

/-- One mapped packet continues the one the mapper remembers and is remembered next. -/
theorem TimestampMapper.map_next {e f : Sent} (he : MapperRemembers m e)
    (hf : f.outgoing=(m.map f.ssrc f.incoming).1) :
    Continues e f ∧ MapperRemembers (m.map f.ssrc f.incoming).2 f := by
  obtain ⟨hss,hl,baseIncoming,baseOutgoing,hin,hout,hsh⟩ := he
  by_cases hs : e.ssrc=f.ssrc
  · simp only [map,hss,hin,hout,hs,if_true] at hf ⊢
    have hf' : f.outgoing-f.incoming=baseOutgoing-baseIncoming := by grind
    refine ⟨⟨fun _ => hf'.trans hsh.symm,fun h => absurd hs.symm h⟩,?_⟩
    exact ⟨rfl,by rw [hf],baseIncoming,baseOutgoing,rfl,rfl,hf'⟩
  · simp only [map,hss,hin,hout,hs,hl,if_false] at hf ⊢
    exact ⟨⟨fun h => absurd h.symm hs,fun _ => hf⟩,mapperRemembers_start _ hf⟩

variable {s : SubscriberRtpState} {call : TimedCall}

theorem TimedCall.rewrite_forwarded {out : Packet} (h : (call.rewrite s).1=some out) :
    out.header.timestamp=(s.timestampMapper.map call.ssrc call.packet.header.timestamp).1 ∧
      (call.rewrite s).2.timestampMapper =
        (s.timestampMapper.map call.ssrc call.packet.header.timestamp).2 := by
  obtain ⟨hf,rfl⟩ := rewritePacket_output _ _ h
  obtain ⟨_,_,_,hr⟩ := rewritePacket_of_fresh call.targetSsrc call.negotiatedPayloadType hf
  refine ⟨rfl,?_⟩
  rw [rewrite,rewriteCall,hr]
  rfl

theorem TimedCall.rewrite_dropped
    (h : (call.rewrite s).1=none) : (call.rewrite s).2.timestampMapper=s.timestampMapper := by
  rw [rewrite,rewriteCall,rewritePacket_eq_none_iff] at h
  obtain ⟨_,_,hf⟩ :=
    s.extendSequenceNumber_frame call.packet.header.ssrc call.packet.header.sequenceNumber
  rw [rewrite,rewriteCall,rewritePacket_of_duplicate _ _ h,hf]
  rfl

theorem sentLog_concat (calls : List TimedCall) (call : TimedCall) :
    sentLog (calls++[call])=sentLog calls ++
      (call.rewrite (exec rewrite default calls)).1.toList.map (Prod.mk call) :=
  emitted_concat _ _ _ _

/-- The log is linked packet by packet, and the mapper remembers its last entry. -/
structure LogMapped (calls : List TimedCall) : Prop where
  chain : (sentLog calls).IsChain Continues
  empty : sentLog calls=[] →
    (exec TimedCall.rewrite default calls).timestampMapper.incomingSsrc=none
  last : ∀e∈(sentLog calls).getLast?,MapperRemembers
    (exec TimedCall.rewrite default calls).timestampMapper e

theorem logMapped (calls : List TimedCall) : LogMapped calls := by
  induction calls using reverseRecOn with
  | nil => exact ⟨by simp [sentLog],fun _ => rfl,by simp [sentLog]⟩
  | append_singleton calls call ih =>
    cases hout : (call.rewrite (exec rewrite default calls)).1 with
    | none =>
      have hlog : sentLog (calls++[call])=sentLog calls := by
        simp [sentLog_concat,hout]
      have hm := rewrite_dropped hout
      refine ⟨?_,?_,?_⟩
      · rw [hlog]
        exact ih.chain
      · rw [hlog,exec_concat,hm]
        exact ih.empty
      · rw [hlog,exec_concat,hm]
        exact ih.last
    | some out =>
      have hlog : sentLog (calls++[call])=sentLog calls++[(call,out)] := by
        simp [sentLog_concat,hout]
      obtain ⟨ht,hm⟩ := rewrite_forwarded hout
      rw [← exec_concat] at hm
      have ht' : Sent.outgoing (call,out)=((exec rewrite default
        calls).timestampMapper.map (Sent.ssrc (call,out)) (Sent.incoming (call,out))).1 := ht
      rcases eq_nil_or_concat (sentLog calls) with hnil | ⟨log,e,hc⟩
      · have hfi := map_first (ih.empty hnil) ht'
        refine ⟨by simp [hlog,hnil],by simp [hlog],?_⟩
        intro f hf
        obtain rfl : (call,out)=f := by simpa [hlog] using hf
        rw [hm]
        exact hfi
      · have he : e∈(sentLog calls).getLast? := by simp [hc]
        obtain ⟨hco,hrem⟩ := map_next (ih.last e he) ht'
        refine ⟨?_,by simp [hlog],?_⟩
        · rw [hlog]
          refine ih.chain.append (List.IsChain.singleton _) ?_
          intro x hx y hy
          obtain rfl : x=e := by
            rw [hc] at hx
            simpa using hx.symm
          obtain rfl : (call,out)=y := by simpa using hy
          exact hco
        · intro f hf
          obtain rfl : (call,out)=f := by simpa [hlog] using hf
          rw [hm]
          exact hrem

variable {ssrc : UInt32}

/-- Linked packets of one source are shifted by one constant. -/
theorem shift_eq_of_isChain {log : List Sent} (hc : log.IsChain Continues)
    (hs : ∀e∈log,e.ssrc=ssrc) (first : Sent) (hfi : first∈log.head?) :
    ∀e∈log,e.outgoing-e.incoming=first.outgoing-first.incoming := by
  induction log generalizing first with
  | nil => simp
  | cons e log ih =>
    obtain rfl : e=first := by simpa using hfi
    intro f hf
    rcases mem_cons.mp hf with rfl | hf
    · rfl
    · cases log with
      | nil => simp at hf
      | cons g log =>
        have hl := (isChain_cons_cons.mp hc).1
        have hg : g.ssrc=e.ssrc := by rw [hs g (by simp),hs e (by simp)]
        rw [ih hc.tail (fun x hx => hs x (by simp [hx])) g rfl f hf,hl.shift hg]

variable {calls : List TimedCall} {pre stretch post : List Sent}

theorem IsStretch.shift_const (h : IsStretch (sentLog calls) pre stretch post ssrc) :
    ∀e∈stretch,∀f∈stretch,e.outgoing-e.incoming=f.outgoing-f.incoming := by
  have hc := (logMapped calls).chain
  rw [h.split] at hc
  have hst := hc.right_of_append.left_of_append
  obtain ⟨first,hfi⟩ : ∃first,first∈stretch.head? := by
    cases hs : stretch with
    | nil => exact absurd hs h.nonempty
    | cons first rest => exact ⟨first,rfl⟩
  have hsh := shift_eq_of_isChain hst h.same first hfi
  intro e he f hf
  rw [hsh e he,hsh f hf]

/-- At a switch the mapper resumes one tick after the packet sent last. -/
theorem IsStretch.resume {next last : Sent}
    (h : IsStretch (sentLog calls) pre stretch (next::post) ssrc) (hl : last∈stretch.getLast?) :
    next.outgoing=last.outgoing+1 := by
  have hc := (logMapped calls).chain
  rw [h.split] at hc
  have hli := (isChain_append.mp hc.right_of_append).2.2 last hl next rfl
  apply hli.resume
  rw [h.same last (mem_of_getLast? hl)]
  exact h.after next rfl

/-- One tick after the last packet is newer than a packet at most half the range away
exactly when that packet is not ahead of the last one. -/
theorem newer_resumed_iff {last e : Sent} (hs : last.outgoing-last.incoming=e.outgoing-e.incoming)
    (ha : last.trueTimestamp≤e.trueTimestamp) (hr : e.trueTimestamp≤last.trueTimestamp+2^31) :
    Newer (last.outgoing+1) e.outgoing ↔ e.trueTimestamp≤last.trueTimestamp := by
  have hd : last.outgoing+1-e.outgoing=last.incoming-e.incoming+1 := by grind
  have hl : last.trueTimestamp % 2^32=last.incoming.toNat := last.1.trueTimestamp_low
  have he : e.trueTimestamp % 2^32=e.incoming.toNat := e.1.trueTimestamp_low
  rw [Newer,hd,UInt32.toNat_add,UInt32.toNat_sub]
  simp only [UInt32.toNat_one]
  omega

/-- The outgoing timeline is continuous at the switches of a run exactly when each switch
follows the newest packet of its stretch. -/
theorem timestampContinuity_iff (calls : List TimedCall) (hrange : StretchesWithinHalfRange calls) :
    TimestampContinuity calls ↔ SwitchesAtNewest calls := by
  constructor
  · rintro ⟨hsw,-⟩ pre stretch next post ssrc hs last hl e he
    obtain ⟨newest,hn,hmax⟩ := Multiset.exists_max_image Sent.trueTimestamp
      (s := (stretch : Multiset Sent)) (by simpa using hs.nonempty)
    have hmem := mem_of_getLast? hl
    have hne := hsw pre stretch next post ssrc hs newest hn hmax
    rw [hs.resume hl,newer_resumed_iff (hs.shift_const last hmem newest hn)
      (hmax last hmem) (hrange pre stretch _ ssrc hs newest hn last hmem)] at hne
    exact le_trans (hmax e he) hne
  · intro hla
    refine ⟨?_,fun pre stretch post ssrc hs => hs.shift_const⟩
    intro pre stretch next post ssrc hs newest hn hmax
    obtain ⟨last,hl⟩ : ∃last,last∈stretch.getLast? :=
      ⟨stretch.getLast hs.nonempty,getLast?_eq_some_getLast hs.nonempty⟩
    have hmem := mem_of_getLast? hl
    rw [hs.resume hl,newer_resumed_iff (hs.shift_const last hmem newest hn)
      (hmax last hmem) (hrange pre stretch _ ssrc hs newest hn last hmem)]
    exact hla pre stretch next post ssrc hs last hl newest hn

theorem stretchesWithinHalfRange_of_forall
    (h : ∀e∈sentLog calls,0≤e.trueTimestamp ∧ e.trueTimestamp≤2^31) :
    StretchesWithinHalfRange calls := by
  intro pre stretch post ssrc hs e he f hf
  have hlog : ∀g∈stretch,g∈sentLog calls := by
    intro g hg
    rw [hs.split]
    simp [hg]
  have := h e (hlog e he)
  have := h f (hlog f hf)
  omega

def orderedSwitch : List TimedCall :=
  [⟨.plain 1 1 1000,1000,by decide⟩,⟨.plain 1 2 3000,3000,by decide⟩,
    ⟨.plain 2 7 120,120,by decide⟩]

theorem timestampContinuity_iff_ordered : StretchesWithinHalfRange orderedSwitch ∧
    (TimestampContinuity orderedSwitch ↔ SwitchesAtNewest orderedSwitch) := by
  have hr : StretchesWithinHalfRange orderedSwitch :=
    stretchesWithinHalfRange_of_forall (by decide +kernel)
  exact ⟨hr,timestampContinuity_iff orderedSwitch hr⟩

/-- The same source with its newest packet overtaking a late one before the switch. -/
def reorderedSwitch : List TimedCall :=
  [⟨.plain 1 1 1000,1000,by decide⟩,⟨.plain 1 3 3000,3000,by decide⟩,
    ⟨.plain 1 2 2000,2000,by decide⟩,⟨.plain 2 7 120,120,by decide⟩]

/-- The switch resumes at 2001 although 3000 has been sent. -/
theorem timestampContinuity_fails_after_reordering :
    StretchesWithinHalfRange reorderedSwitch ∧ ¬ TimestampContinuity reorderedSwitch := by
  refine ⟨stretchesWithinHalfRange_of_forall (by decide +kernel),?_⟩
  intro hc
  obtain ⟨hsw,-⟩ := hc
  have hs : IsStretch (sentLog reorderedSwitch) [] ((sentLog reorderedSwitch).take 3)
      [(sentLog reorderedSwitch).get ⟨3,by decide +kernel⟩] 1 :=
    ⟨rfl,by decide +kernel,by decide +kernel,by simp,by decide +kernel⟩
  have hn := hsw _ _ _ _ _ hs ((sentLog reorderedSwitch).get ⟨1,by decide +kernel⟩)
    (by exact mem_cons_of_mem _ mem_cons_self) (by decide +kernel)
  revert hn
  decide +kernel

end OxideSfu.RtpForwarding
