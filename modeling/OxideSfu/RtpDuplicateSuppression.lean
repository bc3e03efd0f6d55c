import OxideSfu.RtpRewriteStep

/-!
# Duplicate suppression against true sequence numbers

Packets carry 16 bits of a number that never wraps. As long as they stay above the start of the
cycle of the first one, within 64 bits of it and closer than half a cycle to the highest one seen,
the duplicate window is that of the last 512 forwarded true numbers.
-/

namespace OxideSfu.RtpForwarding

open StepRuns RecencyWindow SubscriberRtpState Option List

/-- A call whose packet is given the true number its 16-bit number stands for. -/
structure NumberedCall extends RewriteCall where
  trueSeq : ℤ
  trueSeq_low : trueSeq % 2^16=packet.header.sequenceNumber.toNat

namespace NumberedCall

def rewrite (s : SubscriberRtpState) (call : NumberedCall) : Option Packet × SubscriberRtpState :=
  s.rewriteCall call.toRewriteCall

/-- The true number at which the cycle of this packet starts. -/
def cycleStart (call : NumberedCall) : ℤ :=
  call.trueSeq-call.packet.header.sequenceNumber.toNat

end NumberedCall

structure SourceHistory where
  (cycleStart highest : ℤ)

open SourceHistory

def SourceHistory.arrive (history : Option SourceHistory) (call : NumberedCall) : SourceHistory :=
  match history with
  | some h => ⟨h.cycleStart,max h.highest call.trueSeq⟩ | none => ⟨call.cycleStart,call.trueSeq⟩

def sourceHistory (ssrc : UInt32) (calls : List NumberedCall) : Option SourceHistory :=
  calls.foldl (fun history call =>
    if call.ssrc=ssrc then some (SourceHistory.arrive history call) else history) none

def forwardedCalls (calls : List NumberedCall) : List NumberedCall :=
  (emitted NumberedCall.rewrite default calls).map Prod.fst

def stateAfter (calls : List NumberedCall) : SubscriberRtpState :=
  exec NumberedCall.rewrite default calls

/-- Every packet is at most 2^15 away from the highest earlier one of its source. -/
def WithinReorderBound (calls : List NumberedCall) : Prop :=
  AtEveryStep (fun before call => ∀history,sourceHistory call.ssrc before=some history →
    call.trueSeq≤history.highest+2^15 ∧ history.highest≤call.trueSeq+2^15) calls

/-- A packet is dropped exactly when its source and true number occur among the last
512 forwarded packets. -/
def DuplicateSuppressionExact (calls : List NumberedCall) : Prop :=
  AtEveryStep (fun before call => (call.rewrite (stateAfter before)).1=none ↔
    ∃other∈(forwardedCalls before).rtake rtpDuplicateWindow,
      other.ssrc=call.ssrc ∧ other.trueSeq=call.trueSeq) calls

/-- Every packet can be told from its 16 bits: it is not below the cycle in which the
first packet of its source fell, not 2^64 or more above its start, and, if it is
exactly 2^15 ahead, nothing lies 2^15 below the highest one. -/
def StaysExtendable (calls : List NumberedCall) : Prop :=
  AtEveryStep (fun before call => ∀history,sourceHistory call.ssrc before=some history →
    history.cycleStart≤call.trueSeq ∧ call.trueSeq<history.cycleStart+2^64 ∧
      (call.trueSeq=history.highest+2^15 → history.highest<history.cycleStart+2^15))
    calls

/-- A condition on the history of a source can be checked when there is one. -/
instance {P : SourceHistory→Prop} [DecidablePred P] (history : Option SourceHistory) :
    Decidable (∀h,history=some h → P h) :=
  match history with
  | none => isTrue (by simp)
  | some h => decidable_of_iff (P h) (by simp)

instance (calls : List NumberedCall) : Decidable (WithinReorderBound calls) := by
  unfold WithinReorderBound
  infer_instance

instance (calls : List NumberedCall) : Decidable (StaysExtendable calls) := by
  unfold StaysExtendable
  infer_instance

theorem sourceHistory_concat (ssrc : UInt32) (calls : List NumberedCall) (call : NumberedCall) :
    sourceHistory ssrc (calls++[call]) =
      if call.ssrc=ssrc then some (arrive (sourceHistory ssrc calls) call)
      else sourceHistory ssrc calls := by
  simp [sourceHistory]

variable (calls : List NumberedCall)

theorem forwardedCalls_concat (call : NumberedCall) :
    forwardedCalls (calls++[call]) =
      forwardedCalls calls++(call.rewrite (stateAfter calls)).1.toList.map (fun _ => call) := by
  simp [forwardedCalls,emitted_concat,stateAfter,Function.comp_def]

theorem stateAfter_concat (call : NumberedCall) :
    stateAfter (calls++[call])=(call.rewrite (stateAfter calls)).2 := by
  simp [stateAfter]

/-- The true number counted from the source's cycle start, as the rewriter counts. -/
def SourceHistory.extend (history : SourceHistory) (trueSeq : ℤ) : ℕ :=
  (trueSeq-history.cycleStart).toNat

/-- The key the rewriter holds for a packet among the given arrivals. -/
def windowKey (calls : List NumberedCall) (call : NumberedCall) : UInt32 × ℕ :=
  (call.ssrc,(sourceHistory call.ssrc calls).elim 0 (fun history => history.extend call.trueSeq))

/-- How the arrivals determine the part of the state that decides about duplicates. -/
structure Tracks (calls : List NumberedCall) : Prop where
  reference : ∀ssrc,(stateAfter calls).reference ssrc =
    (sourceHistory ssrc calls).map (fun history => history.extend history.highest)
  order : (stateAfter calls).incomingExtSeqOrder =
    ((forwardedCalls calls).rtake rtpDuplicateWindow).map (windowKey calls)
  seen : (stateAfter calls).seenIncomingExtSeq=(stateAfter calls).incomingExtSeqOrder.toFinset
  nodup : (stateAfter calls).incomingExtSeqOrder.Nodup
  aligned : ∀ssrc history,sourceHistory ssrc calls=some history →
    history.cycleStart % 2^16=0 ∧ history.cycleStart≤history.highest ∧
      history.highest<history.cycleStart+2^64
  between : ∀call∈forwardedCalls calls,∃history,sourceHistory call.ssrc calls=some history ∧
    history.cycleStart≤call.trueSeq ∧ call.trueSeq≤history.highest

theorem tracks_nil : Tracks [] := by
  refine ⟨?_,?_,?_,?_,?_,?_⟩ <;>
    simp [stateAfter,forwardedCalls,sourceHistory,SubscriberRtpState.default,
      SubscriberRtpState.reference]

def Extendable (calls : List NumberedCall) (call : NumberedCall) : Prop :=
  ∀history,sourceHistory call.ssrc calls=some history →
    (call.trueSeq≤history.highest+2^15 ∧ history.highest≤call.trueSeq+2^15) ∧
    history.cycleStart≤call.trueSeq ∧ call.trueSeq<history.cycleStart+2^64 ∧
      (call.trueSeq=history.highest+2^15 → history.highest<history.cycleStart+2^15)

section

variable {calls : List NumberedCall} {call : NumberedCall} {hi : SourceHistory}

/-- A known source keeps its cycle start and does not lose its highest number. -/
theorem sourceHistory_concat_of_some {ssrc : UInt32} (h : sourceHistory ssrc calls=some hi)
    (call : NumberedCall) :
    ∃next,sourceHistory ssrc (calls++[call])=some next ∧
      next.cycleStart=hi.cycleStart ∧ hi.highest≤next.highest := by
  rw [sourceHistory_concat,h]
  split_ifs
  · exact ⟨_,rfl,rfl,le_max_left _ _⟩
  · exact ⟨hi,rfl,rfl,le_refl _⟩

variable {o : NumberedCall}

theorem windowKey_concat (h : sourceHistory o.ssrc calls=some hi) (call : NumberedCall) :
    windowKey (calls++[call]) o=windowKey calls o := by
  obtain ⟨next,hn,hs,_⟩ := sourceHistory_concat_of_some h call
  simp [windowKey,hn,h,extend,hs]

section

variable (ht : Tracks calls)

include ht

/-- The rewriter's extended number is the true number counted from the cycle start. -/
theorem extended_eq (he : Extendable calls call) (h : sourceHistory call.ssrc calls=some hi) :
    extended ((stateAfter calls).reference call.ssrc) call.packet.header.sequenceNumber =
      hi.extend call.trueSeq := by
  obtain ⟨⟨hup,hlow⟩,hs,hfit,htie⟩ := he hi h
  obtain ⟨ha,hle,hb⟩ := ht.aligned _ _ h
  have hl := call.trueSeq_low
  have hseq : call.packet.header.sequenceNumber.toNat=hi.extend call.trueSeq % 2^16 := by
    unfold extend
    omega
  rw [ht.reference,h,map_some,extended,hseq]
  apply extendSequenceNumberFromReference_eq <;> unfold extend <;> omega

theorem extended_eq_of_first (h : sourceHistory call.ssrc calls=none) :
    extended ((stateAfter calls).reference call.ssrc) call.packet.header.sequenceNumber =
      (arrive none call).extend call.trueSeq := by
  rw [ht.reference,h,map_none,extended]
  simp only [arrive,extend,NumberedCall.cycleStart]
  omega

section

variable (he : Extendable calls call)

include he

theorem incomingKey_eq :
    (stateAfter calls).incomingKey call.packet=windowKey (calls++[call]) call := by
  have hkey : (stateAfter calls).incomingKey call.packet=(call.ssrc,
      extended ((stateAfter calls).reference call.ssrc) call.packet.header.sequenceNumber) := rfl
  rw [hkey,windowKey,sourceHistory_concat,if_pos rfl,elim_some]
  cases h : sourceHistory call.ssrc calls with
  | none => rw [extended_eq_of_first ht h]
  | some hi =>
    rw [extended_eq ht he h]
    rfl

theorem isNewHighest_eq_false_iff :
    isNewHighest ((stateAfter calls).reference call.ssrc) call.packet.header.sequenceNumber=false ↔
      ∃hi,sourceHistory call.ssrc calls=some hi ∧ call.trueSeq≤hi.highest := by
  cases h : sourceHistory call.ssrc calls with
  | none => simp [ht.reference,h,isNewHighest]
  | some hi =>
    have hext := extended_eq ht he h
    obtain ⟨_,hle,_⟩ := ht.aligned _ _ h
    rw [ht.reference,h,map_some] at hext ⊢
    rw [isNewHighest,decide_eq_false_iff_not,hext]
    simp only [extend,some.injEq,exists_eq_left']
    omega

/-- The keys of the window stand for the source and true number of its packets. -/
theorem windowKey_mem_order_iff :
    windowKey (calls++[call]) call∈(stateAfter calls).incomingExtSeqOrder ↔
      ∃o∈(forwardedCalls calls).rtake rtpDuplicateWindow,o.ssrc=call.ssrc ∧
        o.trueSeq=call.trueSeq := by
  rw [ht.order,List.mem_map]
  constructor
  · intro hc
    obtain ⟨o,hmem,hkey⟩ := hc
    obtain ⟨hi,hh,hst,_⟩ := ht.between o (mem_of_mem_rtake hmem)
    have hs : o.ssrc=call.ssrc := congrArg Prod.fst hkey
    rw [hs] at hh
    obtain ⟨next,hn,hcs,_⟩ := sourceHistory_concat_of_some hh call
    obtain ⟨_,hs',_,_⟩ := he hi hh
    have hext := congrArg Prod.snd hkey
    simp only [windowKey,hs,hh,hn,elim_some,extend,hcs] at hext
    exact ⟨o,hmem,hs,by omega⟩
  · intro hf
    obtain ⟨o,hmem,hs,htr⟩ := hf
    obtain ⟨hi,hh,_,_⟩ := ht.between o (mem_of_mem_rtake hmem)
    refine ⟨o,hmem,?_⟩
    rw [← windowKey_concat hh call]
    simp only [windowKey,hs,htr]

theorem isDuplicate_iff :
    (stateAfter calls).IsDuplicate call.packet ↔
      ∃o∈(forwardedCalls calls).rtake rtpDuplicateWindow,o.ssrc=call.ssrc ∧
        o.trueSeq=call.trueSeq := by
  rw [SubscriberRtpState.IsDuplicate,incomingKey_eq ht he,ht.seen,List.mem_toFinset,
    windowKey_mem_order_iff ht he]
  refine and_iff_right_of_imp ?_
  intro hf
  obtain ⟨o,hmem,hs,htr⟩ := hf
  obtain ⟨hi,hh,_,hle⟩ := ht.between o (mem_of_mem_rtake hmem)
  rw [hs] at hh
  exact (isNewHighest_eq_false_iff ht he).mpr ⟨hi,hh,htr ▸ hle⟩

theorem nextReference_eq :
    nextReference ((stateAfter calls).reference call.ssrc) call.packet.header.sequenceNumber =
      (arrive (sourceHistory call.ssrc calls) call).extend
        (arrive (sourceHistory call.ssrc calls) call).highest := by
  cases h : sourceHistory call.ssrc calls with
  | none =>
    have hext := extended_eq_of_first ht h
    rw [ht.reference,h,map_none] at hext ⊢
    rw [nextReference,hext]
    rfl
  | some hi =>
    have hext := extended_eq ht he h
    rw [ht.reference,h,map_some] at hext ⊢
    rw [nextReference,hext]
    simp only [arrive,extend]
    omega

theorem aligned_concat (ssrc : UInt32) (hi : SourceHistory)
    (h : sourceHistory ssrc (calls++[call])=some hi) :
    hi.cycleStart % 2^16=0 ∧ hi.cycleStart≤hi.highest ∧ hi.highest<hi.cycleStart+2^64 := by
  rw [sourceHistory_concat] at h
  split_ifs at h with hs
  · subst hs
    have hlow := call.trueSeq_low
    cases hold : sourceHistory call.ssrc calls with
    | none =>
      rw [hold] at h
      obtain rfl := some.inj h
      simp only [arrive,NumberedCall.cycleStart]
      omega
    | some old =>
      rw [hold] at h
      obtain rfl := some.inj h
      obtain ⟨ha,hle,hb⟩ := ht.aligned _ _ hold
      obtain ⟨_,hst,hfit,_⟩ := he old hold
      simp only [arrive]
      omega
  · exact ht.aligned _ _ h

theorem between_concat (hmem : o∈forwardedCalls calls ∨ o=call) :
    ∃hi,sourceHistory o.ssrc (calls++[call])=some hi ∧ hi.cycleStart≤o.trueSeq ∧
      o.trueSeq≤hi.highest := by
  rcases hmem with hmem | rfl
  · obtain ⟨hi,hh,hs,hle⟩ := ht.between o hmem
    obtain ⟨next,hn,hcs,hhi⟩ := sourceHistory_concat_of_some hh call
    exact ⟨next,hn,by omega,by omega⟩
  · rw [sourceHistory_concat,if_pos rfl]
    refine ⟨_,rfl,?_⟩
    cases h : sourceHistory o.ssrc calls with
    | none =>
      simp only [arrive,NumberedCall.cycleStart]
      omega
    | some hi =>
      obtain ⟨_,hs,_,_⟩ := he hi h
      simp only [arrive]
      omega

theorem reference_concat (ssrc : UInt32) :
    (stateAfter (calls++[call])).reference ssrc =
      (sourceHistory ssrc (calls++[call])).map (fun hi => hi.extend hi.highest) := by
  have hn := nextReference_eq ht he
  have hss : call.packet.header.ssrc=call.ssrc := rfl
  rw [stateAfter_concat,NumberedCall.rewrite,rewriteCall,rewritePacket_reference,hss,hn,
    sourceHistory_concat]
  by_cases hs : ssrc=call.ssrc
  · subst hs
    simp
  · have hs' : call.ssrc≠ssrc := Ne.symm hs
    rw [Function.update_of_ne hs,if_neg hs',ht.reference]

end

theorem map_windowKey_concat (call : NumberedCall) :
    ((forwardedCalls calls).rtake rtpDuplicateWindow).map (windowKey (calls++[call])) =
      (stateAfter calls).incomingExtSeqOrder := by
  rw [ht.order]
  apply map_congr_left
  intro o hmem
  obtain ⟨hi,hh,_⟩ := ht.between o (mem_of_mem_rtake hmem)
  exact windowKey_concat hh call

end

theorem window_of_duplicate (hdup : (stateAfter calls).IsDuplicate call.packet) :
    forwardedCalls (calls++[call])=forwardedCalls calls ∧
      (stateAfter (calls++[call])).incomingExtSeqOrder=(stateAfter calls).incomingExtSeqOrder ∧
      (stateAfter (calls++[call])).seenIncomingExtSeq=(stateAfter calls).seenIncomingExtSeq := by
  have hc : call.rewrite (stateAfter calls)=(stateAfter calls).rewritePacket call.packet
    call.targetSsrc call.negotiatedPayloadType := rfl
  have hr := rewritePacket_of_duplicate call.targetSsrc call.negotiatedPayloadType hdup
  obtain ⟨_,_,hf⟩ := (stateAfter calls).extendSequenceNumber_frame call.packet.header.ssrc
    call.packet.header.sequenceNumber
  refine ⟨by simp [forwardedCalls_concat,hc,hr],?_⟩
  rw [stateAfter_concat,hc,hr,hf]
  exact ⟨rfl,rfl⟩

variable (ht : Tracks calls)
include ht

variable (he : Extendable calls call)
include he

variable (hdup : ¬ (stateAfter calls).IsDuplicate call.packet)
include hdup

theorem nodup_order_of_fresh :
    ((stateAfter calls).incomingExtSeqOrder++[windowKey (calls++[call]) call]).Nodup := by
  have hnew : windowKey (calls++[call]) call∉(stateAfter calls).incomingExtSeqOrder := by
    rw [windowKey_mem_order_iff ht he,← isDuplicate_iff ht he]
    exact hdup
  rw [nodup_append_comm]
  exact nodup_cons.mpr ⟨hnew,ht.nodup⟩

theorem window_of_fresh :
    forwardedCalls (calls++[call])=forwardedCalls calls++[call] ∧
      (stateAfter (calls++[call])).incomingExtSeqOrder =
        ((stateAfter calls).incomingExtSeqOrder ++
          [windowKey (calls++[call]) call]).rtake rtpDuplicateWindow ∧
      (stateAfter (calls++[call])).seenIncomingExtSeq =
        (((stateAfter calls).incomingExtSeqOrder ++
          [windowKey (calls++[call]) call]).rtake rtpDuplicateWindow).toFinset := by
  have hc : call.rewrite (stateAfter calls)=(stateAfter calls).rewritePacket call.packet
    call.targetSsrc call.negotiatedPayloadType := rfl
  obtain ⟨_,_,_,hr⟩ := rewritePacket_of_fresh call.targetSsrc call.negotiatedPayloadType hdup
  have hi : insert (windowKey (calls++[call]) call) (stateAfter calls).seenIncomingExtSeq =
      ((stateAfter calls).incomingExtSeqOrder++[windowKey (calls++[call]) call]).toFinset := by
    ext key
    simp [ht.seen,or_comm]
  have hev := evictBeyondWindow_eq rtpDuplicateWindow _ (nodup_order_of_fresh ht he hdup)
  refine ⟨by simp [forwardedCalls_concat,hc,hr],?_⟩
  rw [stateAfter_concat,hc,hr]
  simp only [incomingKey_eq ht he,hi,hev]
  exact ⟨trivial,trivial⟩

omit hdup

theorem Tracks.concat : Tracks (calls++[call]) := by
  have hr := reference_concat ht he
  have ha := aligned_concat ht he
  by_cases hdup : (stateAfter calls).IsDuplicate call.packet
  · obtain ⟨hf,ho,hs⟩ := window_of_duplicate hdup
    refine ⟨hr,?_,?_,?_,ha,?_⟩
    · rw [ho,hf,map_windowKey_concat ht]
    · rw [ho,hs,ht.seen]
    · rw [ho]
      exact ht.nodup
    · intro o hmem
      rw [hf] at hmem
      exact between_concat ht he (.inl hmem)
  · obtain ⟨hf,ho,hs⟩ := window_of_fresh ht he hdup
    refine ⟨hr,?_,?_,?_,ha,?_⟩
    · rw [ho,hf,← rtake_rtake_concat rtpDuplicateWindow (forwardedCalls calls),
        map_rtake,map_append,map_windowKey_concat ht]
      rfl
    · rw [ho,hs]
    · rw [ho]
      exact nodup_rtake (nodup_order_of_fresh ht he hdup)
    · intro o hmem
      rw [hf,mem_append,mem_singleton] at hmem
      exact between_concat ht he hmem

end

/-- In every run whose packets stay extendable, duplicate suppression is exact. -/
theorem duplicateSuppression_exact (calls : List NumberedCall) (hreorder : WithinReorderBound calls)
    (hextendable : StaysExtendable calls) : DuplicateSuppressionExact calls := by
  have hs : AtEveryStep Extendable calls := by
    intro before call after he history hh
    exact ⟨hreorder before call after he history hh,hextendable before call after he history hh⟩
  intro before call after he
  have hb : AtEveryStep Extendable before := AtEveryStep.of_append (he ▸ hs)
  have ht : Tracks before := hb.induction tracks_nil (fun _ _ ht he => ht.concat he)
  rw [NumberedCall.rewrite,rewriteCall,rewritePacket_eq_none_iff]
  exact isDuplicate_iff ht (hs before call after he)

/-- A source that wraps and repeats a packet from before the wrap. -/
def repeatAcrossWrap : List NumberedCall :=
  [⟨.plain 1 65535 0,65535,by decide⟩,⟨.plain 1 0 0,65536,by decide⟩,
    ⟨.plain 1 65535 0,65535,by decide⟩]

theorem duplicateSuppression_exact_across_wrap :
    WithinReorderBound repeatAcrossWrap ∧ StaysExtendable repeatAcrossWrap ∧
      DuplicateSuppressionExact repeatAcrossWrap := by
  have hr : WithinReorderBound repeatAcrossWrap := by decide
  have he : StaysExtendable repeatAcrossWrap := by decide
  exact ⟨hr,he,duplicateSuppression_exact _ hr he⟩

def repeatAcrossFirstCycle : List NumberedCall :=
  [⟨.plain 1 0 0,65536,by decide⟩,⟨.plain 1 65535 0,65535,by decide⟩,
    ⟨.plain 1 0 0,65536,by decide⟩]

/-- A packet below the cycle of the first one is extended upwards, and the repeated
first packet is then forwarded a second time. -/
theorem duplicateSuppression_fails_below_first_cycle :
    WithinReorderBound repeatAcrossFirstCycle ∧
      ¬ DuplicateSuppressionExact repeatAcrossFirstCycle := by
  constructor
  · decide
  · intro h
    have hl := h (repeatAcrossFirstCycle.take 2) _ [] rfl
    have hd := hl.mpr ⟨_,mem_cons_self,rfl,rfl⟩
    revert hd
    decide +kernel

end OxideSfu.RtpForwarding
