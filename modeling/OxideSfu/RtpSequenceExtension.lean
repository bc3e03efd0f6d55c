import OxideSfu.RtpForwardingState

/-!
# Extended incoming sequence numbers

The source rebuilds a 64-bit number from 16 bits by choosing, among the three cycles around a
reference, the closest candidate; equal distances go to the lower cycle, and there is no cycle below
zero. The reference lives in the active slot or in the map of inactive sources.
-/

namespace OxideSfu.RtpForwarding

private theorem shiftLeft_or_eq (cycle seq16 : ℕ) (h : seq16<2^16) :
    cycle <<< 16 ||| seq16=cycle*2^16+seq16 := by
  rw [← Nat.shiftLeft_add_eq_or_of_lt h,Nat.shiftLeft_eq]

/-- The candidate a cycle offers for the 16 bits on the wire, truncated to 64 bits. -/
def cycleCandidate (seq16 cycle : ℕ) : ℕ := (cycle*2^16+seq16) % 2^64

def cycleDistance (seq16 reference cycle : ℕ) : ℕ :=
  ((cycleCandidate seq16 cycle : ℤ)-(reference : ℤ)).natAbs

variable (seq16 r : ℕ)

private theorem considerCycle_neg (best : ℕ × ℕ) {cycle : ℤ}
    (h : cycle<0) : considerCycle seq16 r best cycle=best := by
  simp [considerCycle,h]

private theorem considerCycle_natCast (h : seq16<2^16) (best : ℕ × ℕ) (cycle : ℕ) :
    considerCycle seq16 r best (cycle : ℤ) =
      if cycleDistance seq16 r cycle<best.2 then
        (cycleCandidate seq16 cycle,cycleDistance seq16 r cycle)
      else best := by
  have hn : ¬ ((cycle : ℤ)<0) := by omega
  simp only [considerCycle,hn,if_false,Int.toNat_natCast,shiftLeft_or_eq cycle seq16 h,
    cycleDistance,cycleCandidate]
  rfl

private theorem foldl_considerCycle_of_le (h : seq16<2^16) (cycles : List ℕ)
    (best : ℕ × ℕ) (hle : ∀n∈cycles,best.2≤cycleDistance seq16 r n) :
    (cycles.map (fun n : ℕ => (n : ℤ))).foldl (considerCycle seq16 r) best=best := by
  induction cycles with
  | nil => rfl
  | cons n cycles ih =>
    have hn : ¬ cycleDistance seq16 r n<best.2 := Nat.not_lt.mpr (hle n (by simp))
    rw [List.map_cons,List.foldl_cons,considerCycle_natCast _ _ h,if_neg hn]
    exact ih (fun m hm => hle m (by simp [hm]))

/-- The loop settles on the first cycle at least distance. -/
private theorem foldl_considerCycle_eq (h : seq16<2^16) (pre post : List ℕ) (k : ℕ) (best : ℕ × ℕ)
    (hb : cycleDistance seq16 r k<best.2)
    (hpre : ∀n∈pre,cycleDistance seq16 r k<cycleDistance seq16 r n)
    (hp : ∀n∈post,cycleDistance seq16 r k≤cycleDistance seq16 r n) :
    (((pre++k::post).map (fun n : ℕ => (n : ℤ))).foldl
      (considerCycle seq16 r) best).1=cycleCandidate seq16 k := by
  induction pre generalizing best with
  | nil =>
    rw [List.nil_append,List.map_cons,List.foldl_cons,considerCycle_natCast _ _ h,if_pos hb,
      foldl_considerCycle_of_le _ _ h _ _ hp]
  | cons n pre ih =>
    rw [List.cons_append,List.map_cons,List.foldl_cons,considerCycle_natCast _ _ h]
    have hn := hpre n (by simp)
    have hp' : ∀m∈pre,cycleDistance seq16 r k<cycleDistance seq16 r m :=
      fun m hm => hpre m (by simp [hm])
    split_ifs
    · exact ih _ hn hp'
    · exact ih _ hb hp'

private theorem cycleCandidate_self {t : ℕ} (ht : t<2^64) :
    cycleCandidate (t % 2^16) (t / 2^16)=t := by
  unfold cycleCandidate
  omega

private theorem cycleDistance_lt {r t : ℕ} (hr : r<2^64)
    (cycle : ℕ) : cycleDistance (t % 2^16) r cycle<2^127-1 := by
  unfold cycleDistance cycleCandidate
  omega

private theorem cycleDistance_below {r t : ℕ} (ht : t<2^64) (hup : t≤r+2^15)
    (htie : t=r+2^15 → r<2^15) (cycle : ℕ) (hc : cycle<t / 2^16) :
    cycleDistance (t % 2^16) r (t / 2^16)<cycleDistance (t % 2^16) r cycle := by
  have hlow : cycleCandidate (t % 2^16) cycle+2^16≤t := by
    unfold cycleCandidate
    omega
  rw [cycleDistance,cycleDistance,cycleCandidate_self ht]
  omega

private theorem cycleDistance_above {r t : ℕ} (ht : t<2^64) (hup : t≤r+2^15)
    (hlow : r≤t+2^15) (cycle : ℕ) (hc : t / 2^16<cycle) (hn : cycle≤r / 2^16+1) :
    cycleDistance (t % 2^16) r (t / 2^16)≤cycleDistance (t % 2^16) r cycle := by
  have hh : t+2^16≤cycleCandidate (t % 2^16) cycle ∨ cycleCandidate (t % 2^16) cycle+2^16≤r := by
    unfold cycleCandidate
    omega
  rw [cycleDistance,cycleDistance,cycleCandidate_self ht]
  omega

/-- A number that fits 64 bits is recovered from its low 16 bits when it is at most
half a cycle from the reference. Exactly half a cycle ahead is recovered only while no
cycle lies half a cycle below the reference. -/
theorem extendSequenceNumberFromReference_eq {r t : ℕ} (hr : r<2^64) (ht : t<2^64)
    (hup : t≤r+2^15) (hlow : r≤t+2^15) (htie : t=r+2^15 → r<2^15) :
    extendSequenceNumberFromReference (t % 2^16) r=t := by
  have h16 : t % 2^16<2^16 := Nat.mod_lt _ (by decide)
  have hmax := cycleDistance_lt (t := t) hr (t / 2^16)
  have hb := cycleDistance_below ht hup htie
  have ha := cycleDistance_above ht hup hlow
  have hne : ((r / 2^16 : ℕ) : ℤ)+1=((r / 2^16+1 : ℕ) : ℤ) := by omega
  -- The true cycle is one of the three around the reference.
  have hca : t / 2^16=r / 2^16 ∨ t / 2^16=r / 2^16+1 ∨ t / 2^16+1=r / 2^16 := by omega
  have hl : ∀(cycles : List ℤ) (pre post : List ℕ),
      cycles=(pre++t / 2^16::post).map (fun n : ℕ => (n : ℤ)) →
      (∀n∈pre,n<t / 2^16) → (∀n∈post,t / 2^16<n ∧ n≤r / 2^16+1) →
      (cycles.foldl (considerCycle (t % 2^16) r) (r,2^127-1)).1=t := by
    rintro _ pre post rfl hpre hp
    rw [foldl_considerCycle_eq _ _ h16 pre post _ _ hmax (fun n hn => hb n (hpre n hn))
      (fun n hn => ha n (hp n hn).1 (hp n hn).2),cycleCandidate_self ht]
  simp only [extendSequenceNumberFromReference,Nat.mod_mod,Nat.shiftRight_eq_div_pow,hne]
  by_cases hc : r / 2^16=0
  · have hneg : ((r / 2^16 : ℕ) : ℤ)-1<0 := by omega
    rw [List.foldl_cons,considerCycle_neg _ _ _ hneg]
    rcases hca with hk | hk | hk
    · exact hl _ [] [r / 2^16+1] (by rw [hk]; rfl) (by simp)
        (by simp only [List.mem_singleton,forall_eq]; omega)
    · exact hl _ [r / 2^16] [] (by rw [hk]; rfl)
        (by simp only [List.mem_singleton,forall_eq]; omega) (by simp)
    · omega
  · have hpr : ((r / 2^16 : ℕ) : ℤ)-1=((r / 2^16-1 : ℕ) : ℤ) := by
      omega
    rw [hpr]
    rcases hca with hk | hk | hk
    · exact hl _ [r / 2^16-1] [r / 2^16+1] (by rw [hk]; rfl)
        (by simp only [List.mem_singleton,forall_eq]; omega)
        (by simp only [List.mem_singleton,forall_eq]; omega)
    · exact hl _ [r / 2^16-1,r / 2^16] [] (by rw [hk]; rfl)
        (by simp only [List.mem_cons,List.not_mem_nil,or_false,forall_eq_or_imp,forall_eq]; omega)
        (by simp)
    · have hk' : t / 2^16=r / 2^16-1 := by omega
      exact hl _ [] [r / 2^16,r / 2^16+1] (by rw [hk']; rfl) (by simp)
        (by simp only [List.mem_cons,List.not_mem_nil,or_false,forall_eq_or_imp,forall_eq]; omega)

namespace SubscriberRtpState

def reference (s : SubscriberRtpState) (ssrc : UInt32) : Option ℕ :=
  match s.activeIncomingExtSeq with
  | some (activeSsrc,activeReference) =>
    if activeSsrc=ssrc then some activeReference else s.highestIncomingExtSeqBySsrc ssrc
  | none => s.highestIncomingExtSeqBySsrc ssrc

def extended (reference : Option ℕ) (sequenceNumber : UInt16) : ℕ :=
  match reference with
  | some reference => extendSequenceNumberFromReference sequenceNumber.toNat reference
  | none => sequenceNumber.toNat

def isNewHighest (reference : Option ℕ) (sequenceNumber : UInt16) : Bool :=
  match reference with
  | some r => r<extended (some r) sequenceNumber | none => true

def nextReference (reference : Option ℕ) (sequenceNumber : UInt16) : ℕ :=
  match reference with
  | some r => max r (extended (some r) sequenceNumber) | none => extended none sequenceNumber

variable (s : SubscriberRtpState) (ssrc : UInt32) (seq : UInt16)

private theorem activateSource_result :
    (s.activateSource ssrc seq.toNat).1 =
      (extended (s.highestIncomingExtSeqBySsrc ssrc) seq,
        isNewHighest (s.highestIncomingExtSeqBySsrc ssrc) seq) := by
  cases h : s.highestIncomingExtSeqBySsrc ssrc with
  | none => simp [activateSource,extended,isNewHighest,h]
  | some r =>
    simp only [activateSource,extended,isNewHighest,h]
    rfl

private theorem activateSource_active :
    (s.activateSource ssrc seq.toNat).2.activeIncomingExtSeq =
      some (ssrc,nextReference (s.highestIncomingExtSeqBySsrc ssrc) seq) := by
  cases h : s.highestIncomingExtSeqBySsrc ssrc with
  | none => simp [activateSource,nextReference,extended,h]
  | some r =>
    simp only [activateSource,nextReference,extended,h,decide_eq_true_eq,Option.getD_some]
    split_ifs with hlt
    · rw [max_eq_right (Nat.le_of_lt hlt)]
    · rw [max_eq_left (Nat.le_of_not_lt hlt)]

/-- `extend_sequence_number` depends on the source's reference only. -/
theorem extendSequenceNumber_result :
    (s.extendSequenceNumber ssrc seq).1 =
      (extended (s.reference ssrc) seq,isNewHighest (s.reference ssrc) seq) := by
  cases ha : s.activeIncomingExtSeq with
  | none => simp only [extendSequenceNumber,reference,ha,activateSource_result]
  | some active =>
    obtain ⟨activeSsrc,activeReference⟩ := active
    by_cases hs : activeSsrc=ssrc
    · simp only [extendSequenceNumber,reference,ha,hs,if_true,extended,isNewHighest]
      split_ifs with hlt <;> simp [hlt]
    · have hs' : ssrc≠activeSsrc := Ne.symm hs
      simp [extendSequenceNumber,reference,ha,hs,activateSource_result,Function.update_of_ne hs']

theorem extendSequenceNumber_frame :
    ∃highest active,(s.extendSequenceNumber ssrc seq).2={s with
      highestIncomingExtSeqBySsrc := highest
      activeIncomingExtSeq := active} := by
  cases ha : s.activeIncomingExtSeq with
  | none =>
    simp only [extendSequenceNumber,ha,activateSource]
    exact ⟨_,_,rfl⟩
  | some active =>
    obtain ⟨activeSsrc,activeReference⟩ := active
    by_cases hs : activeSsrc=ssrc
    · simp only [extendSequenceNumber,ha,hs,if_true]
      split_ifs
      · exact ⟨_,_,rfl⟩
      · exact ⟨_,_,rfl⟩
    · simp only [extendSequenceNumber,ha,hs,if_false,activateSource]
      exact ⟨_,_,rfl⟩

theorem extendSequenceNumber_reference :
    (s.extendSequenceNumber ssrc seq).2.reference =
      Function.update s.reference ssrc (some (nextReference (s.reference ssrc) seq)) := by
  funext o
  cases ha : s.activeIncomingExtSeq with
  | none =>
    rw [reference,show (s.extendSequenceNumber ssrc seq)=s.activateSource ssrc seq.toNat by
      simp only [extendSequenceNumber,ha],activateSource_active]
    by_cases ho : o=ssrc
    · subst ho
      simp [reference,ha]
    · have ho' : ssrc≠o := Ne.symm ho
      simp [activateSource,reference,ha,ho,ho',Function.update_of_ne]
  | some active =>
    obtain ⟨activeSsrc,activeReference⟩ := active
    by_cases hs : activeSsrc=ssrc
    · subst hs
      by_cases ho : o=activeSsrc
      · subst ho
        simp only [extendSequenceNumber,reference,ha,if_true,Function.update_self,nextReference,
          extended]
        split_ifs with hlt
        · simp [max_eq_right (Nat.le_of_lt hlt)]
        · simp [ha,max_eq_left (Nat.le_of_not_lt hlt)]
      · have ho' : activeSsrc≠o := Ne.symm ho
        simp only [extendSequenceNumber,ha,if_true,Function.update_of_ne ho]
        split_ifs <;> simp [reference,ha,ho']
    · have hs' : ssrc≠activeSsrc := Ne.symm hs
      rw [reference,show (s.extendSequenceNumber ssrc seq)=activateSource {s with
          highestIncomingExtSeqBySsrc :=
            Function.update s.highestIncomingExtSeqBySsrc activeSsrc (some activeReference)}
          ssrc seq.toNat by simp only [extendSequenceNumber,ha,hs,if_false],
        activateSource_active]
      by_cases ho : o=ssrc
      · subst ho
        simp [reference,ha,hs,Function.update_of_ne hs']
      · have ho' : ssrc≠o := Ne.symm ho
        by_cases hoa : o=activeSsrc
        · subst hoa
          simp [activateSource,reference,ha,ho,ho']
        · have hoa' : activeSsrc≠o := Ne.symm hoa
          simp [activateSource,reference,ha,ho,ho',hoa,hoa',Function.update_of_ne]

end SubscriberRtpState

end OxideSfu.RtpForwarding
