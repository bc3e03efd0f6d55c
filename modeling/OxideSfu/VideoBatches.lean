import OxideSfu.RtpRewriteStep

/-!
# What a forwarding target writes

The last part of `forward_publisher_remote_track` (`router/session.rs`): the SSRC and the payload
type of the sender are looked up and kept, the packet is rewritten, and video packets wait in a
batch until their frame is complete, once the sender is bound. A target lives under one
incarnation, so it has one transport.
-/

namespace OxideSfu.RtpForwarding

open StepRuns SubscriberRtpState List Nat RewriteCall

inductive ForwardTrackBindResult | pending
  | compatible (payloadType : UInt8)
  | unsupportedCodec deriving DecidableEq

namespace ForwardTrackBindResult

def isCompatible : ForwardTrackBindResult → Bool
  | compatible _ => true | _ => false

def payloadType : ForwardTrackBindResult → Option UInt8
  | compatible payloadType => some payloadType | _ => none

end ForwardTrackBindResult

/-- What a transport is created with; its binding comes later. -/
structure LocalRtpTrack where
  primarySsrc : Option UInt32
  forwardingMid : Option String

def maxPreparedVideoRtpBatchSize : ℕ := 64

/-- Whether a batch may be used, and what is kept of it. -/
def preparedVideoBatchingIsReady (cachedCompatible : Option Bool) (forwardingMid : Option String)
    (bindingCompatible : Bool) : Bool × Option Bool :=
  if cachedCompatible=some true then (true,cachedCompatible)
  else
    let ready := forwardingMid.any (· ≠ "") && bindingCompatible
    (ready,if ready then some true else cachedCompatible)

structure PendingVideoRtpBatch where
  packets : List Packet := []
  timestamp : Option UInt32 := none
  payloadBytes : ℕ := 0
  wireBytes : ℕ := 0

namespace PendingVideoRtpBatch

def needsFlushBefore (b : PendingVideoRtpBatch) (timestamp : UInt32) : Bool :=
  b.timestamp.any (· ≠ timestamp) || maxPreparedVideoRtpBatchSize≤b.packets.length

def push (b : PendingVideoRtpBatch) (packet : Packet) (wireBytes : ℕ) :
    Bool × PendingVideoRtpBatch :=
  (packet.header.marker || b.packets.length+1=maxPreparedVideoRtpBatchSize,
    { packets := b.packets++[packet]
      timestamp := if b.packets=[] then some packet.header.timestamp else b.timestamp
      payloadBytes := saturatingAdd 64 b.payloadBytes packet.payload.length
      wireBytes := saturatingAdd 64 b.wireBytes wireBytes})

end PendingVideoRtpBatch

structure ForwardingRtpWindow where
  packets : ℕ := 0
  wireBytes : ℕ := 0

/-- Called once for a write, not once for a packet. -/
def ForwardingRtpWindow.recordSuccessfulWrite (w : ForwardingRtpWindow) (wireBytes : ℕ) :
    ForwardingRtpWindow :=
  ⟨saturatingAdd 64 w.packets 1,saturatingAdd 64 w.wireBytes wireBytes⟩

/-- The counters of a target, with the windows it has reported. A write of one packet adds to two
of them without saturation, which makes a difference from `2 ^ 64` packets on. -/
structure WriteCounters where
  successfulRtpPackets : ℕ := 0
  successfulRtpPayloadBytes : ℕ := 0
  videoWriteErrors : ℕ := 0
  rtpWindow : ForwardingRtpWindow := {}
  reported : List ForwardingRtpWindow := []

namespace WriteCounters

variable (c : WriteCounters)

def record (packets payloadBytes wireBytes : ℕ) : Bool → WriteCounters
  | true =>
    {c with
      successfulRtpPackets := saturatingAdd 64 c.successfulRtpPackets packets
      successfulRtpPayloadBytes := saturatingAdd 64 c.successfulRtpPayloadBytes payloadBytes
      rtpWindow := c.rtpWindow.recordSuccessfulWrite wireBytes}
  | false => {c with videoWriteErrors := saturatingAdd 64 c.videoWriteErrors packets}

def finishWindow : WriteCounters :=
  {c with rtpWindow := {},reported := c.reported++[c.rtpWindow]}

/-- What was counted in a batch of one packet is counted like the packet. -/
theorem record_saturated (packets a b : ℕ) (succeeded : Bool) :
    c.record packets (saturatingAdd 64 0 a) (saturatingAdd 64 0 b) succeeded =
      c.record packets a b succeeded := by
  have hs : ∀m n,saturatingAdd 64 m (saturatingAdd 64 0 n)=saturatingAdd 64 m n := by
    simp only [saturatingAdd]
    omega
  cases succeeded <;> simp only [record,ForwardingRtpWindow.recordSuccessfulWrite,hs]

end WriteCounters

structure RtpWrite where
  packets : List Packet
  succeeded : Bool

structure ForwardingSender where
  localForwardTrack : LocalRtpTrack
  bindResult : ForwardTrackBindResult := .pending

structure SenderLatch extends ForwardingSender where
  preparedVideoBatchingCompatible : Option Bool := none

/-- A packet comes, the sender is bound, the targets are listed again, which hands a target that is
kept its own transport, the window is reported, or the reader ends. -/
inductive WriteEvent
  | packet (packet : Packet)
  | bound (result : ForwardTrackBindResult)
  | refresh | finishWindow | exit

def ForwardingSender.step (s : ForwardingSender) : WriteEvent → ForwardingSender
  | .bound result => {s with bindResult := result} | _ => s

def arrivals (events : List WriteEvent) : List Packet :=
  events.filterMap fun | .packet packet => some packet | _ => none

theorem arrivals_cons (e : WriteEvent) (es : List WriteEvent) :
    arrivals (e::es)=arrivals [e]++arrivals es :=
  filterMap_append (l := [e])

namespace SenderLatch

variable (s : SenderLatch)

def ready : Bool × Option Bool :=
  preparedVideoBatchingIsReady s.preparedVideoBatchingCompatible s.localForwardTrack.forwardingMid
    s.bindResult.isCompatible

def step (e : WriteEvent) : SenderLatch where
  toForwardingSender := s.toForwardingSender.step e
  preparedVideoBatchingCompatible :=
    match e with
    | .packet _ => s.ready.2 | .refresh => none | _ => s.preparedVideoBatchingCompatible

def kept (kept : Option UInt32) : WriteEvent → Option UInt32
  | .packet p => if s.ready.1 && !p.header.marker then some p.header.timestamp else none
  | .bound _ | .finishWindow => kept | .refresh | .exit => none

end SenderLatch

/-- Neither another packet of the frame that waits nor the end of the window. -/
def WriteEvent.Clear (kept : Option UInt32) : WriteEvent → Prop
  | .packet p => kept≠some p.header.timestamp
  | .finishWindow => kept=none | _ => True

/-- While a packet waits, no other one of its frame comes and no window ends. -/
def SenderLatch.Separate : SenderLatch → Option UInt32 → List WriteEvent → Prop
  | _, _, [] => True
  | s, kept, e::es => e.Clear kept ∧ Separate (s.step e) (s.kept kept e) es

/-- The writing side of a target; `written` is what the transport has seen. -/
structure VideoWriter extends SenderLatch where
  pending : PendingVideoRtpBatch := {}
  counters : WriteCounters := {}
  written : List RtpWrite := []

namespace VideoWriter

variable (wireBytes : Packet → ℕ) (succeeds : ℕ → Bool) (t : VideoWriter)

def write (packets : List Packet) (payloadBytes wireBytes : ℕ) : VideoWriter :=
  let succeeded := succeeds t.written.length
  {t with
    counters := t.counters.record packets.length payloadBytes wireBytes succeeded
    written := t.written++[⟨packets,succeeded⟩]}

def flushPendingVideoRtpBatch : VideoWriter :=
  if t.pending.packets=[] then t
  else {t with pending := {}}.write succeeds t.pending.packets t.pending.payloadBytes
    t.pending.wireBytes

def flushBefore (timestamp : UInt32) : VideoWriter :=
  if t.pending.needsFlushBefore timestamp then t.flushPendingVideoRtpBatch succeeds else t

def push (packet : Packet) : VideoWriter :=
  let (flushAfter,pending) := t.pending.push packet (wireBytes packet)
  if flushAfter then {t with pending}.flushPendingVideoRtpBatch succeeds else {t with pending}

/-- `refresh_forward_targets_for_track` flushes before `replace_transport`; the report of a window
does not flush. -/
def step (e : WriteEvent) : VideoWriter :=
  match e with
  | .packet p =>
    let s := {t with toSenderLatch := t.toSenderLatch.step e}
    if t.ready.1 then (s.flushBefore succeeds p.header.timestamp).push wireBytes succeeds p
    else s.write succeeds [p] p.payload.length (wireBytes p)
  | .bound _ => {t with toSenderLatch := t.toSenderLatch.step e}
  | .refresh =>
    {t.flushPendingVideoRtpBatch succeeds with toSenderLatch := t.toSenderLatch.step e}
  | .finishWindow => {t with counters := t.counters.finishWindow}
  | .exit => t.flushPendingVideoRtpBatch succeeds

def run (events : List WriteEvent) : VideoWriter :=
  events.foldl (fun t e => t.step wireBytes succeeds e) t

def sent : List (Packet × Bool) :=
  t.written.flatMap (fun w => w.packets.map (fun packet => (packet,w.succeeded)))

/-- The packets of one frame, as many as fit. -/
structure Frame (packets : List Packet) : Prop where
  length : packets.length ≤ maxPreparedVideoRtpBatchSize
  timestamp : ∃timestamp,∀p∈packets,p.header.timestamp=timestamp

/-- Direct writing: every packet is written when it comes; `n` packets were written before. -/
def directStep (results : ℕ → Bool) : WriteCounters × ℕ → WriteEvent → WriteCounters × ℕ
  | (c,n), .packet p => (c.record 1 p.payload.length (wireBytes p) (results n),n+1)
  | (c,n), .finishWindow => (c.finishWindow,n)
  | (c,n), .bound _ | (c,n), .refresh | (c,n), .exit => (c,n)

/-- The subscriber, the counters and the reports cannot tell that packets have waited. -/
structure Invisible (events : List WriteEvent) : Prop where
  order : t.sent.map Prod.fst=arrivals events
  frames : ∀w∈t.written,Frame w.packets
  counters : t.counters = (events.foldl
    (directStep wireBytes (fun n => (t.sent.map Prod.snd).getD n true)) ({},0)).1

theorem frame_single (p : Packet) : Frame [p] :=
  ⟨succ_le_succ (zero_le 63),p.header.timestamp,by simp⟩

structure Batched : Prop where
  frames : ∀w∈t.written,Frame w.packets
  results : ∀w∈t.written,∃n,w.succeeded=succeeds n
  empty : t.pending.packets=[] → t.pending={}
  single : ∀p,t.pending.packets=[p] → t.pending=(PendingVideoRtpBatch.push {} p (wireBytes p)).2
  room : t.pending.packets.length ≤ maxPreparedVideoRtpBatchSize
  timestamp : ∀p∈t.pending.packets,t.pending.timestamp=some p.header.timestamp
  latched : t.pending.packets≠[] → t.preparedVideoBatchingCompatible=some true

/-- The packets so far, in the order in which the transport sees them. -/
def order (t : VideoWriter) : List Packet := t.sent.map Prod.fst++t.pending.packets

/-- Direct writing after the packets of `t`, those that wait included. -/
def direct (results : ℕ → Bool) : WriteCounters × ℕ :=
  (t.pending.packets.map .packet).foldl (directStep wireBytes results) (t.counters,t.sent.length)

/-- The results are those that the packets got. -/
def Agrees (results : ℕ → Bool) : Prop :=
  ∀n b,(t.sent.map Prod.snd)[n]?=some b → results n=b

variable {wireBytes succeeds t}

theorem sent_write (packets : List Packet) (a b : ℕ) : (t.write succeeds packets a b).sent =
    t.sent++packets.map (fun packet => (packet,succeeds t.written.length)) := by
  simp [sent,VideoWriter.write]

theorem direct_write (he : t.pending.packets=[]) {p : Packet} {results : ℕ → Bool}
    (hr : (t.write succeeds [p] p.payload.length (wireBytes p)).Agrees results) :
    (t.write succeeds [p] p.payload.length (wireBytes p)).direct wireBytes results =
      directStep wireBytes results (t.direct wireBytes results) (.packet p) := by
  have hn : results t.sent.length=succeeds t.written.length := hr _ _ (by simp [sent_write])
  rw [direct,sent_write,direct,he]
  simp [VideoWriter.write,he,directStep,hn]

/-- The batch with one packet more. -/
def pushed (wireBytes : Packet → ℕ) (t : VideoWriter) (p : Packet) : VideoWriter :=
  {t with pending := (t.pending.push p (wireBytes p)).2}

theorem push_eq (p : Packet) : t.push wireBytes succeeds p =
    if (t.pending.push p (wireBytes p)).1 then
      (t.pushed wireBytes p).flushPendingVideoRtpBatch succeeds
    else t.pushed wireBytes p := rfl

theorem direct_pushed (p : Packet) (results : ℕ → Bool) :
    (t.pushed wireBytes p).direct wireBytes results =
      directStep wireBytes results (t.direct wireBytes results) (.packet p) := by
  simp [direct,pushed,PendingVideoRtpBatch.push,sent]

theorem latched_of_ready {s : SenderLatch} (hr : s.ready.1) : s.ready.2=some true := by
  rw [SenderLatch.ready,preparedVideoBatchingIsReady] at hr ⊢
  by_cases hc : s.preparedVideoBatchingCompatible=some true
  · rw [if_pos hc]
    exact hc
  · rw [if_neg hc] at hr ⊢
    exact if_pos hr

theorem Agrees.mono {u : VideoWriter} {results : ℕ → Bool} (h : u.Agrees results)
    (hs : t.sent <+: u.sent) : t.Agrees results :=
  fun n b hb => h n b (by
    obtain ⟨later,hlater⟩ := hs
    rw [← hlater,map_append,getElem?_append_left (List.getElem?_eq_some_iff.mp hb).1,hb])

variable (h : Batched wireBytes succeeds t)
include h

theorem Batched.write {packets : List Packet}
    (hf : Frame packets) (a b : ℕ) : Batched wireBytes succeeds (t.write succeeds packets a b) := by
  refine {h with frames := ?_,results := ?_}
  · intro w hw
    rcases mem_append.mp hw with hw | hw
    · exact h.frames w hw
    · rw [mem_singleton.mp hw]
      exact hf
  · intro w hw
    rcases mem_append.mp hw with hw | hw
    · exact h.results w hw
    · exact ⟨_,by rw [mem_singleton.mp hw]⟩

theorem flush_spec :
    let u := t.flushPendingVideoRtpBatch succeeds
    Batched wireBytes succeeds u ∧ u.pending={} ∧ u.toSenderLatch=t.toSenderLatch ∧
      u.order=t.order ∧ t.sent <+: u.sent := by
  dsimp only
  rw [flushPendingVideoRtpBatch]
  split_ifs with he
  · exact ⟨h,h.empty he,rfl,rfl,prefix_rfl⟩
  · have hf : Frame t.pending.packets := ⟨h.room,by
      obtain ⟨p,hp⟩ := exists_mem_of_ne_nil _ he
      refine ⟨p.header.timestamp,fun q hq => ?_⟩
      exact Option.some.inj ((h.timestamp q hq).symm.trans (h.timestamp p hp))⟩
    have hs : Batched wireBytes succeeds {t with pending := {}} :=
      {h with
        empty := fun _ => rfl
        single := by simp
        room := zero_le _
        timestamp := by simp
        latched := by simp}
    refine ⟨hs.write hf _ _,rfl,rfl,?_,?_⟩
    · rw [order,sent_write]
      simp [order,sent,VideoWriter.write,Function.comp_def]
    · rw [sent_write]
      exact prefix_append _ _

/-- Writing one packet that waited alone is writing it directly. -/
theorem direct_flush (hl : t.pending.packets.length≤1)
    {results : ℕ → Bool} (hr : (t.flushPendingVideoRtpBatch succeeds).Agrees results) :
    (t.flushPendingVideoRtpBatch succeeds).direct wireBytes results=t.direct wireBytes results := by
  rw [flushPendingVideoRtpBatch] at hr ⊢
  split_ifs at hr ⊢ with he
  · rfl
  · obtain ⟨p,hp⟩ := length_eq_one_iff.mp (le_antisymm hl (length_pos_of_ne_nil he))
    have hw : {t with pending := {}}.write succeeds t.pending.packets t.pending.payloadBytes
        t.pending.wireBytes={t with pending := {}}.write succeeds [p] p.payload.length
          (wireBytes p) := by
      rw [h.single p hp,write,write]
      exact congrArg (fun c => VideoWriter.mk _ _ c _) (t.counters.record_saturated ..)
    rw [hw] at hr ⊢
    rw [direct_write rfl hr,direct,direct,hp]
    rfl

theorem flushBefore_spec (ts : UInt32) :
    let u := t.flushBefore succeeds ts
    (Batched wireBytes succeeds u ∧ u.toSenderLatch=t.toSenderLatch ∧ u.order=t.order ∧
      t.sent <+: u.sent) ∧ u.pending.packets.length < maxPreparedVideoRtpBatchSize ∧
      ∀p∈u.pending.packets,p.header.timestamp=ts := by
  obtain ⟨hb,hp,hs,ho,hse⟩ := flush_spec h
  dsimp only
  rw [flushBefore,PendingVideoRtpBatch.needsFlushBefore]
  split_ifs with hn
  · exact ⟨⟨hb,hs,ho,hse⟩,by rw [hp]; decide,by simp [hp]⟩
  · simp only [Bool.or_eq_true,Option.any_eq_true,decide_eq_true_eq,not_or,not_exists,
      not_and,not_not,not_le] at hn
    exact ⟨⟨h,rfl,rfl,prefix_rfl⟩,hn.2,fun p hp => hn.1 _ (h.timestamp p hp)⟩

theorem Batched.pushed {p : Packet} (hr : t.pending.packets.length < maxPreparedVideoRtpBatchSize)
    (ht : ∀q∈t.pending.packets,q.header.timestamp=p.header.timestamp)
    (hl : t.preparedVideoBatchingCompatible=some true) :
    Batched wireBytes succeeds (t.pushed wireBytes p) := by
  refine {h with empty := ?_,single := ?_,room := ?_,timestamp := ?_,latched := fun _ => hl}
  · simp [VideoWriter.pushed,PendingVideoRtpBatch.push]
  · intro q hq
    change t.pending.packets++[p]=[]++[q] at hq
    obtain ⟨he,hpq⟩ := append_inj' hq rfl
    rw [VideoWriter.pushed,h.empty he,(cons.inj hpq).1]
  · simpa [VideoWriter.pushed,PendingVideoRtpBatch.push,succ_le_iff] using hr
  · intro q hq
    have hq : q.header.timestamp=p.header.timestamp := by
      rcases mem_append.mp hq with hq | hq
      · exact ht q hq
      · rw [mem_singleton.mp hq]
    rw [hq]
    simp only [VideoWriter.pushed,PendingVideoRtpBatch.push]
    split_ifs with he
    · rfl
    · obtain ⟨r,hr⟩ := exists_mem_of_ne_nil _ he
      rw [h.timestamp r hr,ht r hr]

theorem push_spec {p : Packet} (hr : t.pending.packets.length < maxPreparedVideoRtpBatchSize)
    (ht : ∀q∈t.pending.packets,q.header.timestamp=p.header.timestamp)
    (hl : t.preparedVideoBatchingCompatible=some true) :
    let u := t.push wireBytes succeeds p
    Batched wireBytes succeeds u ∧ u.toSenderLatch=t.toSenderLatch ∧ u.order=t.order++[p] ∧
      t.sent <+: u.sent := by
  have hb := h.pushed hr ht hl
  have ho : (t.pushed wireBytes p).order=t.order++[p] := by
    simp [order,sent,VideoWriter.pushed,PendingVideoRtpBatch.push]
  obtain ⟨hf,-,hs,hfo,hse⟩ := flush_spec hb
  dsimp only
  rw [push_eq]
  split_ifs
  · exact ⟨hf,hs,hfo.trans ho,hse⟩
  · exact ⟨hb,rfl,ho,prefix_rfl⟩

theorem Batched.empty_of_not_ready (hr : ¬t.ready.1) :
    t.pending={} := by
  refine h.empty (by_contra fun hn => hr ?_)
  simp [SenderLatch.ready,preparedVideoBatchingIsReady,h.latched hn]

theorem step_spec (e : WriteEvent) :
    let u := t.step wireBytes succeeds e
    Batched wireBytes succeeds u ∧ u.toSenderLatch=t.toSenderLatch.step e ∧
      u.order=t.order++arrivals [e] ∧ t.sent <+: u.sent := by
  obtain ⟨hf,hp,hs,ho,hse⟩ := flush_spec h
  cases e with
  | packet p =>
    dsimp only [step]
    split_ifs with hr
    · have hl : (t.toSenderLatch.step (.packet p)).preparedVideoBatchingCompatible=some true :=
        latched_of_ready hr
      obtain ⟨⟨hb,hs,ho,hse⟩,hlt,hts⟩ := @flushBefore_spec wireBytes succeeds
        {t with toSenderLatch := t.toSenderLatch.step (.packet p)}
        {h with latched := fun _ => hl} p.header.timestamp
      obtain ⟨hb',hs',ho',hse'⟩ := push_spec hb hlt hts (by rw [hs]; exact hl)
      exact ⟨hb',hs'.trans hs,by rw [ho',ho]; rfl,hse.trans hse'⟩
    · have he := h.empty_of_not_ready hr
      have hb : Batched wireBytes succeeds {t with
          toSenderLatch := t.toSenderLatch.step (.packet p)} :=
        {h with latched := fun hn => absurd (by rw [he]) hn}
      refine ⟨hb.write (frame_single p) _ _,rfl,?_,?_⟩
      · rw [order,sent_write,order,write,he]
        simp [sent,arrivals]
      · rw [sent_write]
        exact prefix_append _ _
  | bound | finishWindow => exact ⟨{h with},rfl,(append_nil _).symm,prefix_rfl⟩
  | refresh =>
    refine ⟨{hf with latched := fun hn => absurd ?_ hn},rfl,ho.trans (append_nil _).symm,hse⟩
    rw [step,hp]
  | exit => exact ⟨hf,hs,ho.trans (append_nil _).symm,hse⟩

theorem Batched.empty_of_timestamp
    (hn : ∀p∈t.pending.packets,t.pending.timestamp≠some p.header.timestamp) : t.pending={} := by
  refine h.empty (by_contra fun he => ?_)
  obtain ⟨p,hp⟩ := exists_mem_of_ne_nil _ he
  exact hn p hp (h.timestamp p hp)

theorem flushBefore_of_clear {ts : UInt32} (hc : t.pending.timestamp≠some ts) :
    t.flushBefore succeeds ts=t.flushPendingVideoRtpBatch succeeds := by
  rw [flushBefore,PendingVideoRtpBatch.needsFlushBefore]
  split_ifs with hn
  · rfl
  · have he := h.empty_of_timestamp (fun p hp heq => hn (by simp_all))
    rw [flushPendingVideoRtpBatch,he,if_pos rfl]

/-- A packet that meets no other one in the batch is written as if directly. -/
theorem push_direct (he : t.pending={}) (hl : t.preparedVideoBatchingCompatible=some true)
    {p : Packet} {results : ℕ → Bool} (hr : (t.push wireBytes succeeds p).Agrees results) :
    let u := t.push wireBytes succeeds p
    u.direct wireBytes results=directStep wireBytes results (t.direct wireBytes results)
      (.packet p) ∧
      u.pending.packets.length≤1 ∧
      u.pending.timestamp=if p.header.marker then none else some p.header.timestamp := by
  have hb := h.pushed (p := p) (by rw [he]; decide) (by simp [he]) hl
  have hp : (t.pushed wireBytes p).pending=(PendingVideoRtpBatch.push {} p (wireBytes p)).2 := by
    rw [pushed,he]
  have hlen : (t.pushed wireBytes p).pending.packets.length≤1 := by rw [hp]; exact le_rfl
  rw [push_eq,he] at hr ⊢
  cases hm : p.header.marker with
  | true =>
    have hpf := (flush_spec hb).2.1
    simp only [PendingVideoRtpBatch.push,hm,Bool.true_or,if_true] at hr ⊢
    exact ⟨(direct_flush hb hlen hr).trans (direct_pushed p results),by simp [hpf],by rw [hpf]⟩
  | false =>
    have hn : ¬(({} : PendingVideoRtpBatch).push p (wireBytes p)).1 := by
      simp [PendingVideoRtpBatch.push,hm,maxPreparedVideoRtpBatchSize]
    rw [if_neg hn]
    exact ⟨direct_pushed p results,hlen,by rw [hp]; rfl⟩

/-- A step that disturbs no packet that waits is a step of direct writing. -/
theorem step_direct (hl : t.pending.packets.length≤1)
    {e : WriteEvent} (hc : e.Clear t.pending.timestamp) {results : ℕ → Bool}
    (hr : (t.step wireBytes succeeds e).Agrees results) :
    let u := t.step wireBytes succeeds e
    u.direct wireBytes results=directStep wireBytes results (t.direct wireBytes results) e ∧
      u.pending.packets.length≤1 ∧
      u.pending.timestamp=t.toSenderLatch.kept t.pending.timestamp e := by
  obtain ⟨-,hp,-⟩ := flush_spec h
  cases e with
  | packet p =>
    dsimp only [step] at hr ⊢
    split_ifs at hr ⊢ with hready
    · have hlatch := latched_of_ready hready
      have hb : Batched wireBytes succeeds {t with
          toSenderLatch := t.toSenderLatch.step (.packet p)} := {h with latched := fun _ => hlatch}
      rw [flushBefore_of_clear hb hc] at hr ⊢
      obtain ⟨hbf,hpf,hs,-⟩ := flush_spec hb
      have hlf := (congrArg SenderLatch.preparedVideoBatchingCompatible hs).trans hlatch
      obtain ⟨-,-,-,hse⟩ := push_spec hbf (by rw [hpf]; decide) (by simp [hpf]) hlf
      obtain ⟨hd,hlen,ht⟩ := push_direct hbf hpf hlf hr
      refine ⟨hd.trans ?_,hlen,ht.trans ?_⟩
      · rw [direct_flush hb hl (hr.mono hse)]
        rfl
      · cases hm : p.header.marker <;> simp [SenderLatch.kept,hready,hm]
    · have he := h.empty_of_not_ready hready
      refine ⟨direct_write (by rw [he]) hr,by simp [write,he],?_⟩
      simp [write,he,SenderLatch.kept,hready]
  | bound => exact ⟨rfl,hl,rfl⟩
  | finishWindow =>
    have he := h.empty_of_timestamp (fun p _ heq => by rw [hc] at heq; cases heq)
    refine ⟨?_,hl,rfl⟩
    simp [direct,step,he,directStep,sent]
  | refresh | exit =>
    exact ⟨direct_flush h hl hr,by simp [step,hp],by simp [step,hp,SenderLatch.kept]⟩

theorem run_spec (es : List WriteEvent) :
    let u := t.run wireBytes succeeds es
    Batched wireBytes succeeds u ∧ u.order=t.order++arrivals es ∧ t.sent <+: u.sent := by
  induction es generalizing t with
  | nil => exact ⟨h,(append_nil _).symm,prefix_rfl⟩
  | cons e es ih =>
    obtain ⟨hb,-,ho,hs⟩ := step_spec h e
    obtain ⟨hb',ho',hs'⟩ := ih hb
    refine ⟨hb',?_,hs.trans hs'⟩
    refine ho'.trans ?_
    rw [ho,append_assoc,← arrivals_cons]

/-- While nothing that waits is disturbed, the run is one of direct writing. -/
theorem run_direct (hl : t.pending.packets.length≤1)
    (es : List WriteEvent) (hsep : t.toSenderLatch.Separate t.pending.timestamp es)
    {results : ℕ → Bool} (hr : (t.run wireBytes succeeds es).Agrees results) :
    (t.run wireBytes succeeds es).direct wireBytes results =
      es.foldl (directStep wireBytes results) (t.direct wireBytes results) := by
  induction es generalizing t with
  | nil => rfl
  | cons e es ih =>
    obtain ⟨hb,hs,-,-⟩ := step_spec h e
    obtain ⟨hd,hl',ht⟩ := step_direct h hl hsep.1 (hr.mono (run_spec hb es).2.2)
    rw [foldl_cons,← hd]
    refine ih hb hl' ?_ hr
    rw [hs,ht]
    exact hsep.2

omit h

/-- The writes of this window, with the one that a batch has still to make. -/
def weight (t : VideoWriter) : ℕ := t.counters.rtpWindow.packets+min 1 t.pending.packets.length

theorem weight_write (packets : List Packet) (a b : ℕ) :
    (t.write succeeds packets a b).weight≤t.weight+1 ∧
      (t.write succeeds packets a b).counters.reported=t.counters.reported := by
  simp only [weight,write]
  cases succeeds t.written.length with
  | false => exact ⟨le_succ _,rfl⟩
  | true =>
    refine ⟨?_,rfl⟩
    simp only [WriteCounters.record,ForwardingRtpWindow.recordSuccessfulWrite,saturatingAdd]
    omega

theorem weight_flush : (t.flushPendingVideoRtpBatch succeeds).weight≤t.weight ∧
    (t.flushPendingVideoRtpBatch succeeds).counters.reported=t.counters.reported := by
  rw [flushPendingVideoRtpBatch]
  split_ifs with he
  · exact ⟨le_rfl,rfl⟩
  · obtain ⟨hw,hr⟩ := @weight_write succeeds {t with pending := {}} t.pending.packets
      t.pending.payloadBytes t.pending.wireBytes
    refine ⟨hw.trans ?_,hr⟩
    have hp := length_pos_of_ne_nil he
    simp only [weight,length_nil]
    omega

theorem weight_push (p : Packet) :
    (t.push wireBytes succeeds p).weight≤t.counters.rtpWindow.packets+1 ∧
      (t.push wireBytes succeeds p).counters.reported=t.counters.reported := by
  have hw : (t.pushed wireBytes p).weight≤t.counters.rtpWindow.packets+1 :=
    Nat.add_le_add_left (min_le_left _ _) _
  obtain ⟨hf,hr⟩ := @weight_flush succeeds (t.pushed wireBytes p)
  rw [push_eq]
  by_cases ha : (t.pending.push p (wireBytes p)).1
  · rw [if_pos ha]
    exact ⟨hf.trans hw,hr⟩
  · rw [if_neg ha]
    exact ⟨hw,rfl⟩

theorem weight_step (e : WriteEvent) :
    (t.step wireBytes succeeds e).weight≤t.weight+(arrivals [e]).length ∧ (e≠.finishWindow →
      (t.step wireBytes succeeds e).counters.reported=t.counters.reported) := by
  cases e with
  | packet p =>
    dsimp only [step]
    split_ifs
    · rw [flushBefore]
      have hle : ∀u : VideoWriter,u.counters.rtpWindow.packets+1≤u.weight+1 := fun u =>
        Nat.add_le_add_right (le_add_right _ _) 1
      split_ifs
      · obtain ⟨hf,hfr⟩ := @weight_flush succeeds
          {t with toSenderLatch := t.toSenderLatch.step (.packet p)}
        obtain ⟨hp,hr⟩ := @weight_push wireBytes succeeds _ p
        exact ⟨(hp.trans (hle _)).trans (Nat.add_le_add_right hf 1),fun _ => hr.trans hfr⟩
      · obtain ⟨hp,hr⟩ := @weight_push wireBytes succeeds _ p
        exact ⟨hp.trans (hle t),fun _ => hr⟩
    · obtain ⟨hw,hr⟩ := @weight_write succeeds
        {t with toSenderLatch := t.toSenderLatch.step (.packet p)} [p] p.payload.length
          (wireBytes p)
      exact ⟨hw,fun _ => hr⟩
  | bound => exact ⟨le_rfl,fun _ => rfl⟩
  | refresh | exit => exact ⟨weight_flush.1,fun _ => weight_flush.2⟩
  | finishWindow => exact ⟨Nat.add_le_add_right (zero_le _) _,fun hn => absurd rfl hn⟩

theorem directStep_window (d : WriteCounters × ℕ) (e : WriteEvent) :
    let d' := directStep wireBytes (fun _ => true) d e
    d'.1.rtpWindow.packets≤d.1.rtpWindow.packets+(arrivals [e]).length ∧
      (e≠.finishWindow → d'.1.reported=d.1.reported ∧
        (d.1.rtpWindow.packets+(arrivals [e]).length < 2^64 →
          d'.1.rtpWindow.packets=d.1.rtpWindow.packets+(arrivals [e]).length)) := by
  cases e with
  | packet p => exact ⟨min_le_left _ _,fun _ => ⟨rfl,fun hlt => min_eq_left (le_sub_one_of_lt hlt)⟩⟩
  | finishWindow => exact ⟨zero_le _,fun hn => absurd rfl hn⟩
  | bound | refresh | exit => exact ⟨le_rfl,fun _ => ⟨rfl,fun _ => rfl⟩⟩

/-- A report differs, or this window counts too few packets. -/
def Behind (t : VideoWriter) (c : WriteCounters) : Prop :=
  t.counters.reported≠c.reported ∨ t.weight < c.rtpWindow.packets

theorem Behind.step {d : WriteCounters × ℕ} (h : t.Behind d.1) (e : WriteEvent)
    (hd : d.1.rtpWindow.packets+(arrivals [e]).length < 2^64) :
    (t.step wireBytes succeeds e).Behind (directStep wireBytes (fun _ => true) d e).1 := by
  by_cases hf : e = .finishWindow
  · subst hf
    refine .inl fun heq => ?_
    obtain ⟨hr,hw⟩ := append_inj' heq rfl
    refine h.elim (absurd hr) (fun hlt => ?_)
    have hp := congrArg ForwardingRtpWindow.packets (cons.inj hw).1
    rw [weight] at hlt
    omega
  · obtain ⟨hw,hr⟩ := @weight_step wireBytes succeeds t e
    obtain ⟨-,hs⟩ := @directStep_window wireBytes d e
    obtain ⟨hsr,hsw⟩ := hs hf
    refine h.imp (fun hn => ?_) (fun hlt => ?_)
    · rwa [hr hf,hsr]
    · rw [hsw hd]
      omega

theorem Behind.run {d : WriteCounters × ℕ} (h : t.Behind d.1) (es : List WriteEvent)
    (hd : d.1.rtpWindow.packets+(arrivals es).length < 2^64) :
    (t.run wireBytes succeeds es).Behind (es.foldl (directStep wireBytes (fun _ => true)) d).1 := by
  induction es generalizing t d with
  | nil => exact h
  | cons e es ih =>
    rw [arrivals_cons,length_append] at hd
    have hle := (@directStep_window wireBytes d e).1
    exact ih (h.step e (by omega)) (by omega)

/-- Direct writing has counted a packet that waits alone. -/
theorem direct_window (hl : t.pending.packets.length≤1) (hw : t.weight < 2^64) :
    (t.direct wireBytes (fun _ => true)).1.rtpWindow.packets=t.weight := by
  rw [weight] at hw ⊢
  rw [direct]
  match hp : t.pending.packets with
  | [] => rfl
  | [p] =>
    refine min_eq_left ?_
    rw [hp,length_singleton] at hw
    omega
  | p::q::ps => simp [hp] at hl

/-- A packet joins another one of its frame, or a window ends while one waits. -/
theorem behind_of_not_clear (h : Batched wireBytes succeeds t) (hl : t.pending.packets.length≤1)
    {e : WriteEvent} (hc : ¬e.Clear t.pending.timestamp)
    (hw : t.weight+(arrivals [e]).length < 2^64) :
    (t.step wireBytes succeeds e).Behind
      (directStep wireBytes (fun _ => true) (t.direct wireBytes (fun _ => true)) e).1 := by
  have hd := @direct_window wireBytes _ hl (by omega)
  generalize t.direct wireBytes (fun _ => true)=d at hd ⊢
  have hn : t.pending.packets.length=1 := by
    refine le_antisymm hl (length_pos_of_ne_nil fun he => hc ?_)
    rw [h.empty he]
    cases e <;> simp [WriteEvent.Clear]
  rw [weight,hn] at hd
  cases e with
  | packet p =>
    have hready : t.ready.1 := by_contra fun hn' => by simp [h.empty_of_not_ready hn'] at hn
    have hts : t.pending.timestamp=some p.header.timestamp := not_not.mp hc
    have hkeep : ¬t.pending.needsFlushBefore p.header.timestamp := by
      simp [PendingVideoRtpBatch.needsFlushBefore,hts,hn,maxPreparedVideoRtpBatchSize]
    refine .inr ?_
    rw [step,if_pos hready,flushBefore,if_neg hkeep]
    refine (weight_push p).1.trans_lt ?_
    change t.counters.rtpWindow.packets+1 < _
    have hlt : d.1.rtpWindow.packets+1 < 2^64 := by
      rw [weight,hn] at hw
      exact hd ▸ hw
    rw [((directStep_window d (.packet p)).2 nofun).2 hlt,hd]
    exact lt_succ_self _
  | finishWindow =>
    refine .inl fun heq => ?_
    have hp := congrArg ForwardingRtpWindow.packets (cons.inj (append_inj' heq rfl).2).1
    omega
  | bound | refresh | exit => exact absurd trivial hc

theorem Batched.agrees (h : Batched wireBytes (fun _ => true) t) : t.Agrees (fun _ => true) := by
  intro n b hb
  obtain ⟨x,hx,rfl⟩ := mem_map.mp (mem_of_getElem? hb)
  obtain ⟨w,hw,hx⟩ := mem_flatMap.mp hx
  obtain ⟨p,-,rfl⟩ := mem_map.mp hx
  obtain ⟨_,hs⟩ := h.results w hw
  exact hs.symm

theorem Agrees.getD_eq (h : t.Agrees (fun _ => true)) :
    (fun n => (t.sent.map Prod.snd).getD n true)=fun _ => true := by
  funext n
  rw [getD_eq_getElem?_getD]
  cases hs : (t.sent.map Prod.snd)[n]? with
  | none => rfl
  | some b => exact (h n b hs).symm

/-- A run that is not separate leaves the counters behind, although every write succeeds. -/
theorem run_behind (h : Batched wireBytes (fun _ => true) t) (hl : t.pending.packets.length≤1)
    (es : List WriteEvent) (hsep : ¬t.toSenderLatch.Separate t.pending.timestamp es)
    (hw : t.weight+(arrivals es).length < 2^64) :
    (t.run wireBytes (fun _ => true) es).Behind
      (es.foldl (directStep wireBytes (fun _ => true)) (t.direct wireBytes (fun _ => true))).1 := by
  induction es generalizing t with
  | nil => exact absurd trivial hsep
  | cons e es ih =>
    rw [arrivals_cons,length_append] at hw
    by_cases hc : e.Clear t.pending.timestamp
    · obtain ⟨hb,hst,-,-⟩ := step_spec h e
      obtain ⟨hd,hl',ht⟩ := step_direct h hl hc hb.agrees
      have hle := (@weight_step wireBytes (fun _ => true) t e).1
      rw [foldl_cons,← hd]
      refine ih hb hl' (fun hsep' => hsep ⟨hc,?_⟩) (lt_of_le_of_lt ?_ hw)
      · rw [← hst,← ht]
        exact hsep'
      · rw [← Nat.add_assoc]
        exact Nat.add_le_add_right hle _
    · have hle := (@directStep_window wireBytes (t.direct wireBytes (fun _ => true)) e).1
      rw [direct_window hl (by omega)] at hle
      exact (behind_of_not_clear h hl hc (by omega)).run es (by omega)

/-- Batches go unnoticed, whichever writes succeed, as long as no packet comes and no window ends
while another packet of the frame waits: the window counts writes. -/
theorem invisible_iff_separate (wireBytes : Packet → ℕ) (track : LocalRtpTrack)
    (events : List WriteEvent) (hcount : (arrivals events).length < 2 ^ 64)
    (hflushed : ∀succeeds,(run wireBytes succeeds {localForwardTrack := track} events
      ).pending.packets = []) :
    (∀succeeds,(run wireBytes succeeds {localForwardTrack := track} events).Invisible wireBytes
      events) ↔
      SenderLatch.Separate {localForwardTrack := track} none events := by
  have hi : ∀succeeds,Batched wireBytes succeeds {localForwardTrack := track} := fun _ =>
    ⟨by simp,by simp,fun _ => rfl,by simp,zero_le _,by simp,by simp⟩
  constructor
  · intro h
    by_contra hsep
    have hall := (run_spec (hi (fun _ => true)) events).1.agrees
    have hb := run_behind (hi _) (zero_le _) events hsep (by simpa [weight] using hcount)
    have hc := (h (fun _ => true)).counters
    rw [hall.getD_eq] at hc
    rw [Behind,weight,hflushed,hc] at hb
    simp [direct,sent] at hb
  · intro hsep succeeds
    obtain ⟨hb,ho,-⟩ := run_spec (hi succeeds) events
    have he := hflushed succeeds
    have hagrees : (run wireBytes succeeds {localForwardTrack := track} events).Agrees fun n =>
        ((run wireBytes succeeds {localForwardTrack := track} events).sent.map Prod.snd).getD n
          true := fun n b hb => by simp [hb]
    have hd := run_direct (hi succeeds) (zero_le _) events hsep hagrees
    refine ⟨by simpa [order,he,sent] using ho,hb.frames,?_⟩
    rw [direct,he] at hd
    exact congrArg Prod.fst hd

def boundThen (events : List WriteEvent) :
    List WriteEvent := .bound (.compatible 96)::events++[.exit]

/-- Two frames of one packet each, the second one in the next window. -/
theorem separate_frames_invisible :
    let events := boundThen [.packet (plain 1 1 100).packet,.refresh,.finishWindow,
      .packet (plain 1 2 200).packet]
    (run (·.payload.length) (fun _ => true) {localForwardTrack := ⟨some 7,some "0"⟩} events
      ).Invisible (·.payload.length) events :=
  (invisible_iff_separate _ _ _ (by decide) (fun _ => rfl)).mpr (by
    simp [boundThen,SenderLatch.Separate,SenderLatch.kept,WriteEvent.Clear,plain]) _

/-- A frame of two packets is one packet for the window. -/
theorem frame_counts_once :
    let events := boundThen [.packet (plain 1 1 100).packet,.packet (plain 1 2 100).packet]
    let u := run (·.payload.length) (fun _ => true) {localForwardTrack := ⟨some 7,some "0"⟩} events
    u.pending.packets = [] ∧ u.counters.successfulRtpPackets = 2 ∧
      u.counters.rtpWindow.packets = 1 ∧
      (events.foldl (directStep (·.payload.length) (fun _ => true)) ({},0)).1.rtpWindow.packets =
        2 := by
  decide

end VideoWriter

/-- The lookups of a target; `replace_transport` keeps both. -/
structure SenderLookups extends ForwardingSender where
  rtpState : SubscriberRtpState := .default
  targetPrimarySsrc : Option (Option UInt32) := none
  targetPayloadType : Option (Option UInt8) := none

namespace SenderLookups

variable (isVideoTrack : Bool) (t : SenderLookups)

def ssrc : Option UInt32 := t.targetPrimarySsrc.getD t.localForwardTrack.primarySsrc

def payloadType : Option UInt8 :=
  if isVideoTrack then none else t.targetPayloadType.getD t.bindResult.payloadType

/-- The packet that is handed to the transport or to the batch. -/
def step : WriteEvent → Option Packet × SenderLookups
  | .packet p =>
    let (rewritten,rtpState) := t.rtpState.rewritePacket p t.ssrc (t.payloadType isVideoTrack)
    (rewritten,{t with
      rtpState
      targetPrimarySsrc := some t.ssrc
      targetPayloadType :=
        if isVideoTrack then t.targetPayloadType else some (t.payloadType isVideoTrack)})
  | e => (none,{t with toForwardingSender := t.toForwardingSender.step e})

/-- The sender at the moment of the first packet, or now if none has come. -/
def firstSender : ForwardingSender → List WriteEvent → ForwardingSender
  | s, [] => s | s, .packet _::_ => s | s, e::es => firstSender (s.step e) es

variable {isVideoTrack t}

/-- The SSRC is that of the transport, whenever it was looked up. -/
theorem ssrc_run (events : List WriteEvent) (h : t.ssrc=t.localForwardTrack.primarySsrc) :
    (exec (step isVideoTrack) t events).ssrc=t.localForwardTrack.primarySsrc := by
  refine (exec_invariant (step isVideoTrack) (fun u => u.ssrc=t.localForwardTrack.primarySsrc ∧
    u.localForwardTrack=t.localForwardTrack) ?_ ⟨h,rfl⟩ events).1
  rintro u e ⟨hs,ht⟩
  cases e with
  | packet p => exact ⟨hs,ht⟩
  | bound | refresh | finishWindow | exit => exact ⟨hs,ht⟩

/-- Once looked up, the payload type stays, whatever happens to the sender. -/
theorem payloadType_kept {y : Option UInt8} (hy : t.targetPayloadType=some y)
    (events : List WriteEvent) : (exec (step false) t events).payloadType false=y := by
  have h := exec_invariant (step false) (fun u => u.targetPayloadType=some y) ?_ hy events
  · rw [payloadType,h]
    rfl
  · intro u e hu
    cases e with
    | packet p => simp [step,payloadType,hu]
    | bound | refresh | finishWindow | exit => exact hu

theorem payloadType_run (s : ForwardingSender) (events : List WriteEvent) :
    (exec (step false) {toForwardingSender := s} events).payloadType false =
      (firstSender s events).bindResult.payloadType := by
  induction events generalizing s with
  | nil => rfl
  | cons e es ih =>
    cases e with
    | packet p => exact payloadType_kept rfl es
    | bound | refresh | finishWindow | exit => exact ih _

/-- A packet carries the SSRC of the transport; an audio packet carries the payload type that is
bound now exactly if this was found at the first packet, or if nothing was found then and the
packet came with it. -/
theorem carries_binding_iff (s : ForwardingSender) (events : List WriteEvent) {packet out : Packet}
    {ssrc : UInt32} (hssrc : s.localForwardTrack.primarySsrc = some ssrc)
    (hout : (step isVideoTrack (exec (step isVideoTrack) {toForwardingSender := s} events)
      (.packet packet)).1 = some out) :
    out.header.ssrc = ssrc ∧ (isVideoTrack = false →
        some out.header.payloadType = (events.foldl .step s).bindResult.payloadType) ↔
      (isVideoTrack = false →
        some ((firstSender s events).bindResult.payloadType.getD packet.header.payloadType) =
          (events.foldl .step s).bindResult.payloadType) := by
  have hs := @ssrc_run isVideoTrack {toForwardingSender := s} events rfl
  obtain ⟨-,rfl⟩ := rewritePacket_output _ _ hout
  rw [hs]
  refine (and_iff_right (by rw [hssrc]; rfl)).trans (forall_congr' fun hv => ?_)
  subst hv
  rw [← payloadType_run]
  rfl

/-- Opus with payload type 111 for a sender that was bound in time. -/
theorem carries_binding_when_bound :
    let events : List WriteEvent :=
      [.bound (.compatible 111),.packet (plain 1 0 90).packet,.refresh]
    ((step false (exec (step false) {localForwardTrack := ⟨some 7,none⟩} events)
      (.packet (plain 1 1 100).packet)).1.map
        (fun out => (out.header.ssrc,out.header.payloadType))) = some (7,111) := by
  intro events
  obtain ⟨out,hout⟩ : ∃out,(step false (exec (step false) {localForwardTrack := ⟨some 7,none⟩}
      events) (.packet (plain 1 1 100).packet)).1=some out :=
    Option.isSome_iff_exists.mp (by decide +kernel)
  obtain ⟨hs,hp⟩ := (carries_binding_iff ⟨⟨some 7,none⟩,.pending⟩ events rfl hout).mpr
    (fun _ => rfl)
  rw [hout,Option.map_some,hs,Option.some.inj (hp rfl)]

/-- The first packet comes while the binding is pending, and the next one after it is known. -/
theorem pending_binding_carried :
    let events : List WriteEvent := [.packet (plain 1 0 90).packet,.bound (.compatible 111)]
    let s : ForwardingSender := events.foldl .step {localForwardTrack := ⟨some 7,none⟩}
    s.bindResult = .compatible 111 ∧
      ((step false (exec (step false) {localForwardTrack := ⟨some 7,none⟩} events)
        (.packet (plain 1 1 100).packet)).1.map
          (fun out => (out.header.ssrc,out.header.payloadType))) = some (7,96) := by
  decide +kernel

end SenderLookups

end OxideSfu.RtpForwarding
