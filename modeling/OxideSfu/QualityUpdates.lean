import OxideSfu.ForwardingDecisions
import OxideSfu.RtcpExecutionPlan
import OxideSfu.StepRuns
import Mathlib.Algebra.Order.BigOperators.Ring.Finset
import Mathlib.Data.List.Destutter

/-!
# Quality updates from receiver feedback

The reader of a track hands RTCP feedback to each of its targets. A target that reports heavy losses
leads to a quality update that the publisher receives for all subscribers
(`maybe_emit_recommended_subscribed_quality_update_in` in `router/session.rs`).
-/

namespace OxideSfu.Signaling

open Rooms StepRuns RtpForwarding RoomStore MediaFeedbackAdaptationState MediaFeedbackState Option
  List

structure SubscribedQuality where
  quality : VideoQuality
  enabled : Bool

structure SubscribedCodec where
  codec : String
  qualities : List SubscribedQuality

structure SubscribedQualityUpdate where
  trackSid : String
  subscribedQualities : List SubscribedQuality
  subscribedCodecs : List SubscribedCodec

def subscribedQualities (maxQuality : Option VideoQuality) : List SubscribedQuality :=
  [VideoQuality.low,.medium,.high].map (fun quality =>
    ⟨quality,maxQuality.any (fun maximum => quality.number ≤ maximum.number)⟩)

def subscribedQualityUpdateForTrackWithCodecs (trackSid : String) (codecMimeTypes : List String)
    (maxQuality : Option VideoQuality) : SubscribedQualityUpdate where
  trackSid
  subscribedQualities := subscribedQualities maxQuality
  subscribedCodecs :=
    (if codecMimeTypes.isEmpty then ["video/vp8"] else codecMimeTypes).map (fun codec =>
      ⟨codec,subscribedQualities maxQuality⟩)

/-- The codecs of a track in order and without repetitions; a track without any is taken to
have its own mime type, or VP8. -/
def codecMimeTypesForTrack (track : TrackInfo) : List String :=
  let normalize := fun mimeType => toAsciiLowercase (trim mimeType)
  let named := (track.codecs.map (fun codec => normalize codec.mimeType)).filter (· ≠ "")
  let fallback := [normalize track.mimeType].filter (· ≠ "")
  let mimeTypes :=
    if named.isEmpty then (if fallback.isEmpty then ["video/vp8"] else fallback) else named
  (mimeTypes.insertionSort (·≤·)).destutter (· ≠ ·)

def supportsAutoRecommendedQualityUpdates (track : TrackInfo) : Bool :=
  track.simulcast || track.layers.length > 1

def RecommendedVideoQuality.toVideoQuality : RecommendedVideoQuality → VideoQuality
  | .low => .low | .medium => .medium | .high => .high

/-- What the reader sees of the server when feedback arrives. -/
structure SignalView where
  context : ForwardingDecisionContext
  signalConnections : Finset ParticipantKey

def publishedTrack (rooms : RoomStore) (room publisher trackSid : String) : Option TrackInfo :=
  (rooms.getParticipant room publisher).toOption.bind (fun participant =>
    participant.tracks.find? (·.sid=trackSid))

/-- The update that a recommendation for one subscriber leads to. Explicit settings of this
subscriber suppress it. -/
def maybeEmitRecommendedSubscribedQualityUpdate (view : SignalView) (key : MediaTrackKey)
    (recommended : RecommendedVideoQuality) : Option SubscribedQualityUpdate :=
  if (view.context.settingsFor key).isSome then none
  else if (⟨key.room,key.publisher⟩ : ParticipantKey)∉view.signalConnections then none
  else
    match publishedTrack view.context.rooms key.room key.publisher key.trackSid with
    | none => none
    | some track =>
      if supportsAutoRecommendedQualityUpdates track then
        some (subscribedQualityUpdateForTrackWithCodecs key.trackSid (codecMimeTypesForTrack track)
          (some (RecommendedVideoQuality.toVideoQuality recommended)))
      else none

structure TrackReader where
  (room publisher : String)
  trackInfo : TrackInfo

/-- A target of the reader: its subscriber and what feedback has done to its RTP state. -/
structure FeedbackTarget where
  subscriber : String
  rtpState : SubscriberRtpState

def TrackReader.key (reader : TrackReader) (subscriber : String) : MediaTrackKey :=
  ⟨reader.room,reader.publisher,reader.trackInfo.sid,subscriber⟩

def forwardedTo (reader : TrackReader) (view : SignalView) (subscriber : String) : Bool :=
  view.context.shouldForwardMediaForSubscriberWithTrackSettings (reader.key subscriber) &&
  view.context.subscriberWithinTrackTypeSubscriptionLimit (reader.key subscriber)
    (some reader.trackInfo)

def feedTarget (reader : TrackReader) (view : SignalView) (actions : List RtcpForwardAction)
    (now : ℤ) (target : FeedbackTarget) : Option SubscribedQualityUpdate × FeedbackTarget :=
  if forwardedTo reader view target.subscriber then
    let (plan,rtpState) := buildRtcpExecutionPlan target.rtpState actions now
    let update :=
      if reader.trackInfo.type = .video then
        plan.recommendedVideoQuality.bind
          (maybeEmitRecommendedSubscribedQualityUpdate view (reader.key target.subscriber))
      else none
    (update,{target with rtpState})
  else (none,target)

inductive ReaderEvent
  | rtcp (view : SignalView) (actions : List RtcpForwardAction) (now : ℤ)
  | opened (subscriber : String)
  | closed (subscriber : String)

/-- Feedback without actions is not handed on. -/
def readerStep (reader : TrackReader) (targets : List FeedbackTarget) :
    ReaderEvent → List FeedbackTarget
  | .rtcp view actions now =>
    if actions.isEmpty then targets
    else targets.map (fun target => (feedTarget reader view actions now target).2)
  | .opened subscriber => targets++[⟨subscriber,.default⟩]
  | .closed subscriber => targets.filter (·.subscriber≠subscriber)

def targetsOf (reader : TrackReader) (events : List ReaderEvent) : List FeedbackTarget :=
  events.foldl (readerStep reader) []

/-- The updates that an event sends to the publisher, each with the subscriber that it was
recommended for. -/
def updatesSent (reader : TrackReader) (targets : List FeedbackTarget) :
    ReaderEvent → List (String × SubscribedQualityUpdate)
  | .rtcp view actions now =>
    if actions.isEmpty then []
    else targets.filterMap (fun target =>
      (feedTarget reader view actions now target).1.map (Prod.mk target.subscriber))
  | .opened _ | .closed _ => []

def requestedQuality (reader : TrackReader) (view : SignalView) (subscriber : String) :
    VideoQuality :=
  (requestedVideoQualityFromSettings (view.context.settingsFor (reader.key subscriber))
    (publishedTrack view.context.rooms reader.room reader.publisher reader.trackInfo.sid)).getD
      .high

def KeepsEnabled (update : SubscribedQualityUpdate) (quality : VideoQuality) : Prop :=
  (∀entry∈update.subscribedQualities,entry.quality=quality → entry.enabled) ∧
  ∀codec∈update.subscribedCodecs,∀entry∈codec.qualities,
    entry.quality=quality → entry.enabled
  deriving Decidable

def SparesOthers (reader : TrackReader) (targets : List FeedbackTarget) (event : ReaderEvent) :
    Prop :=
  ∀view actions now,event = .rtcp view actions now →
    ∀sent∈updatesSent reader targets event,∀other∈targets,
      other.subscriber≠sent.1 → forwardedTo reader view other.subscriber →
        KeepsEnabled sent.2 (requestedQuality reader view other.subscriber)

variable {recommended : RecommendedVideoQuality} {quality : VideoQuality}

/-- What a batch of actions reports to the feedback windows. -/
def observeAction (now : ℕ) (m : MediaFeedbackState) : RtcpForwardAction → MediaFeedbackState
  | .receiverReportObserved ssrc maxFractionLost reportCount =>
    m.observeReceiverReport now ssrc maxFractionLost reportCount
  | .transportWideCcObserved mediaSsrc packetStatusCount =>
    m.observeTransportWideCc now mediaSsrc packetStatusCount
  | _ => m

/-- The receiver reports that count when a batch has been handed to a target. -/
def reportWindow (s : SubscriberRtpState) (actions : List RtcpForwardAction) (now : ℤ) :
    MediaFeedbackState :=
  (actions.foldl (observeAction now.toNat) s.mediaFeedback).refreshRrWindow now.toNat

variable (m : MediaFeedbackState) (now : ℕ)

theorem executeAction_mediaFeedback (acc : RtcpExecutionPlan × SubscriberRtpState)
    (action : RtcpForwardAction) :
    (executeAction now acc action).2.mediaFeedback =
      observeAction now acc.2.mediaFeedback action := by
  obtain ⟨plan,s⟩ := acc
  cases action with
  | retransmitSequence outgoingSequenceNumber =>
    simp only [executeAction,observeAction]
    split <;> rfl
  | keyFrameRequest kind mediaSsrc =>
    have hg : (s.shouldForwardKeyframeRequest kind now
        keyframeRequestMinGapMillis).2.mediaFeedback=s.mediaFeedback := rfl
    simp only [executeAction,observeAction]
    generalize s.shouldForwardKeyframeRequest kind now keyframeRequestMinGapMillis=gated at *
    obtain ⟨forward,t⟩ := gated
    cases forward with
    | false => exact hg
    | true =>
      cases kind with
      | fir => exact hg
      | pli => exact hg
  | senderReport report => rfl
  | receiverReportObserved ssrc maxFractionLost reportCount => rfl
  | transportWideCcObserved mediaSsrc packetStatusCount => rfl

theorem foldl_executeAction_mediaFeedback (actions : List RtcpForwardAction)
    (acc : RtcpExecutionPlan × SubscriberRtpState) :
    (actions.foldl (executeAction now) acc).2.mediaFeedback =
      actions.foldl (observeAction now) acc.2.mediaFeedback := by
  induction actions generalizing acc with
  | nil => rfl
  | cons action actions ih =>
    rw [foldl_cons,foldl_cons,ih,executeAction_mediaFeedback]

structure SameReports (m n : MediaFeedbackState) : Prop where
  start : n.rrWindowStartMillis=m.rrWindowStartMillis
  count : n.rrWindowReportCount=m.rrWindowReportCount
  maxFractionLost : n.rrWindowMaxFractionLost=m.rrWindowMaxFractionLost

theorem SameReports.trans {m n o : MediaFeedbackState} (hmn : SameReports m n)
    (hno : SameReports n o) : SameReports m o :=
  ⟨hno.start.trans hmn.start,hno.count.trans hmn.count,
    hno.maxFractionLost.trans hmn.maxFractionLost⟩

theorem sameReports_refreshTwccWindow : SameReports m (m.refreshTwccWindow now) := by
  rw [refreshTwccWindow]
  split_ifs
  · exact ⟨rfl,rfl,rfl⟩
  · exact ⟨rfl,rfl,rfl⟩

theorem windowOpen_refreshRrWindow :
    windowOpen (m.refreshRrWindow now).rrWindowStartMillis now := by
  rw [refreshRrWindow]
  split_ifs with ho
  · exact ho
  · simp [windowOpen]

theorem sameReports_summary : SameReports (m.refreshRrWindow now) (m.summary now).2 :=
  sameReports_refreshTwccWindow _ now

theorem sameReports_summary_again :
    SameReports (m.refreshRrWindow now) ((m.summary now).2.summary now).2 := by
  have hf := sameReports_summary m now
  have ho := windowOpen_refreshRrWindow m now
  rw [← hf.start] at ho
  have hs := sameReports_summary (m.summary now).2 now
  rw [refreshRrWindow,if_pos ho] at hs
  exact hf.trans hs

/-- Reports of a window that allow a quality: too few of them, or losses below the threshold
from which a lower quality is recommended. -/
def lossAllows (m : MediaFeedbackState) (quality : VideoQuality) : Bool :=
  m.rrWindowReportCount < mediaFeedbackDegradedMinReports ||
    match quality with
    | .high => m.rrWindowMaxFractionLost < mediaFeedbackModerateFractionLostThreshold
    | .medium => m.rrWindowMaxFractionLost < mediaFeedbackDegradedFractionLostThreshold
    | .low | .off => true

variable {m}

theorem lossAllows_medium_of_high (h : lossAllows m .high) :
    lossAllows m .medium := by
  simp only [lossAllows,Bool.or_eq_true,decide_eq_true_eq] at h ⊢
  rcases h with hfew | hl
  · exact .inl hfew
  · exact .inr (UInt8.lt_trans hl (by decide))

/-- A quality is recommended only up to what the losses of the window allow. -/
theorem number_le_of_desired {now : ℕ} (hd : desired (m.summary now).1=some recommended)
    (ha : lossAllows (m.summary now).2 quality) (hq : quality ≠ .off) :
    quality.number≤(RecommendedVideoQuality.toVideoQuality recommended).number := by
  have hc : (m.summary now).1.rrReportCount=(m.summary now).2.rrWindowReportCount := rfl
  have hl : (m.summary now).1.rrMaxFractionLost=(m.summary now).2.rrWindowMaxFractionLost := rfl
  have hdeg : (m.summary now).1.isDegraded =
      decide (mediaFeedbackDegradedMinReports≤(m.summary now).2.rrWindowReportCount ∧
        mediaFeedbackDegradedFractionLostThreshold≤(m.summary now).2.rrWindowMaxFractionLost) :=
    rfl
  rw [desired,hc,hl,hdeg] at hd
  generalize (m.summary now).2=window at ha hd
  simp only [decide_eq_true_eq] at hd
  split_ifs at hd with hlow hm hh
  -- A recommendation lies below a quality only when the losses exceed what this allows.
  · obtain rfl := some.inj hd
    have hde : lossAllows window .medium=false := by
      simp [lossAllows,hlow.1,hlow.2]
    cases quality with
    | low => exact le_refl _
    | medium => simp [ha] at hde
    | high => simp [lossAllows_medium_of_high ha] at hde
    | off => exact absurd rfl hq
  · obtain rfl := some.inj hd
    have hr : mediaFeedbackDegradedMinReports≤window.rrWindowReportCount := hm.1
    have hde : lossAllows window .high=false := by
      simp [lossAllows,hr,hm.2]
    cases quality with
    | high => simp [ha] at hde
    | off => exact absurd rfl hq
    | _ => decide
  · obtain rfl := some.inj hd
    cases quality with
    | off => exact absurd rfl hq
    | _ => decide

inductive FeedbackCall
  | observeReceiverReport (ssrc : UInt32) (maxFractionLost : UInt8) (reportCount : UInt16)
  | recommendVideoQuality

abbrev TimedFeedback := ℕ × FeedbackCall

def feedbackStep (s : SubscriberRtpState) :
    TimedFeedback → Option RecommendedVideoQuality × SubscriberRtpState
  | (now,.observeReceiverReport ssrc lost count) =>
    (none,s.observeReceiverReport now ssrc lost count)
  | (now,.recommendVideoQuality) => s.recommendVideoQuality now

abbrev feedbackAfter (calls : List TimedFeedback) :
    SubscriberRtpState := exec feedbackStep .default calls

/-- Losses and counts of the reports at a time or later. -/
def reportsSince (start : ℕ) (calls : List TimedFeedback) : List (UInt8 × ℕ) :=
  (calls.filter (start ≤ ·.1)).filterMap (fun
    | (_,.observeReceiverReport _ lost count) => some (lost,count.toNat) | _ => none)

def total (reports : List (UInt8 × ℕ)) : ℕ := (reports.map (·.2)).sum

/-- The lowest quality is recommended for losses within `mediaFeedbackWindowMillis`, the highest
for a window without any. -/
def Justified (earlier : List TimedFeedback) (call : TimedFeedback) : Prop :=
  let (recommended,s) := feedbackStep (feedbackAfter earlier) call
  let recent := reportsSince (call.1-mediaFeedbackWindowMillis) earlier
  (recommended=some .low → mediaFeedbackDegradedMinReports≤total recent ∧
    ∃r∈recent,mediaFeedbackDegradedFractionLostThreshold≤r.1) ∧
  (recommended=some .high → ∃start∈s.mediaFeedback.rrWindowStartMillis,
    ∀r∈reportsSince start earlier,¬mediaFeedbackModerateFractionLostThreshold≤r.1)

def Paced (a b : TimedFeedback × RecommendedVideoQuality) : Prop :=
  a.2≠b.2 ∧ a.1.1+mediaFeedbackQualityRecommendationMinGapMillis≤b.1.1

variable {now} {calls : List TimedFeedback}

/-- A recommendation differs from the last one and keeps its distance to it. -/
theorem maybeRecommend_cases (a : MediaFeedbackAdaptationState) (summary : MediaFeedbackSummary)
    (now : ℕ) :
    a.maybeRecommend summary now=(none,a) ∨ ∃q,desired summary=some q ∧
      a.maybeRecommend summary now=(some q,⟨some q,some now⟩) ∧
        ∀last,a=⟨some last.2,some last.1.1⟩ →
        Paced last ((now,.recommendVideoQuality),q) := by
  rw [maybeRecommend]
  cases desired summary with
  | none => exact .inl rfl
  | some q =>
    dsimp only
    split_ifs with hq ht
    · exact .inl rfl
    · exact .inl rfl
    · refine .inr ⟨q,rfl,rfl,?_⟩
      rintro last rfl
      have hpos : 0 < mediaFeedbackQualityRecommendationMinGapMillis := by decide
      simp only [some.injEq,decide_eq_true_eq] at hq ht
      exact ⟨hq,by dsimp only; omega⟩

theorem recommendations_paced (calls : List TimedFeedback) :
    (∀last∈(emitted feedbackStep .default calls).getLast?,
      (feedbackAfter calls).mediaFeedbackAdaptation=⟨some last.2,some last.1.1⟩) ∧
    (emitted feedbackStep .default calls).IsChain Paced := by
  induction calls using reverseRecOn with
  | nil => exact ⟨nofun,.nil⟩
  | append_singleton calls call ih =>
    rw [feedbackAfter,exec_concat,emitted_concat]
    obtain ⟨now,_ | _⟩ := call
    · simpa [feedbackStep,SubscriberRtpState.observeReceiverReport] using ih
    · obtain he | ⟨q,-,he,hp⟩ := maybeRecommend_cases (feedbackAfter calls).mediaFeedbackAdaptation
        ((feedbackAfter calls).mediaFeedback.summary now).1 now
      · simpa [feedbackStep,SubscriberRtpState.recommendVideoQuality,he] using ih
      · simp only [feedbackStep,SubscriberRtpState.recommendVideoQuality,he]
        refine ⟨by simp,isChain_append.mpr ⟨ih.2,.singleton _,fun a ha b hb => ?_⟩⟩
        obtain rfl : (_,q)=b := by simpa using hb
        exact hp a (ih.1 a ha)

theorem exists_of_windowOpen {start : Option ℕ} (h : windowOpen start now) :
    ∃s∈start,now ≤ s+mediaFeedbackWindowMillis := by
  cases start with
  | none => cases h
  | some s => exact ⟨s,rfl,Nat.sub_le_iff_le_add'.mp (of_decide_eq_true h)⟩

/-- The window counts the reports since its start, and there is none after its end. -/
@[mk_iff] structure WindowCounts (calls : List TimedFeedback) (now : ℕ) (m : MediaFeedbackState) :
    Prop where
  ended : ∀t,(∀start∈m.rrWindowStartMillis,start+mediaFeedbackWindowMillis<t) →
    reportsSince t calls=[]
  counted : ∀start∈m.rrWindowStartMillis,start≤now ∧
    m.rrWindowReportCount≤total (reportsSince start calls) ∧
    ∀x≠0,(x ≤ m.rrWindowMaxFractionLost ↔ ∃r∈reportsSince start calls,x≤r.1)

variable (h : WindowCounts calls now m)
include h

theorem WindowCounts.refresh : WindowCounts calls now (m.refreshRrWindow now) := by
  rw [refreshRrWindow]
  split_ifs with ho
  · exact h
  · have hn : ∀t,now≤t → reportsSince t calls=[] := by
      refine fun t ht => h.ended t (fun start hs => ?_)
      simp only [mem_def.mp hs,windowOpen,decide_eq_true_eq] at ho
      omega
    refine ⟨fun t ht => hn t ((Nat.le_add_right _ _).trans (ht now rfl).le),?_⟩
    rintro start ⟨⟩
    refine ⟨le_rfl,Nat.zero_le _,fun x hx => ?_⟩
    simpa [hn] using hx

theorem WindowCounts.summary : WindowCounts calls now (m.summary now).2 := by
  have hs := sameReports_summary m now
  rw [windowCounts_iff,hs.start,hs.count,hs.maxFractionLost]
  exact (windowCounts_iff ..).mp h.refresh

theorem WindowCounts.report (ssrc : UInt32) (lost : UInt8) (count : UInt16) :
    WindowCounts (calls++[(now,.observeReceiverReport ssrc lost count)]) now
      (m.observeReceiverReport now ssrc lost count) := by
  have hsince : ∀t,reportsSince t (calls++[(now,.observeReceiverReport ssrc lost count)]) =
      reportsSince t calls++if t ≤ now then [(lost,count.toNat)] else [] := by
    intro t
    rw [reportsSince,filter_append,filterMap_append]
    by_cases ht : t ≤ now <;> simp [reportsSince,ht]
  obtain ⟨s,hs,ho⟩ := exists_of_windowOpen (windowOpen_refreshRrWindow m now)
  have hr := h.refresh
  rw [observeReceiverReport]
  generalize m.refreshRrWindow now=n at *
  refine ⟨fun t ht => ?_,fun start hs => ?_⟩
  · rw [hsince,hr.ended t ht,if_neg (ho.trans_lt (ht s hs)).not_ge,append_nil]
  · obtain ⟨hle,hc,hl⟩ := hr.counted start hs
    have hmax : ∀x,x ≤ max n.rrWindowMaxFractionLost lost ↔ x≤n.rrWindowMaxFractionLost ∨
      x≤lost := by
      intro x
      change x≤(if _≤_ then _ else _) ↔ _
      split_ifs <;> grind [UInt8.le_iff_toNat_le]
    rw [hsince,if_pos hle]
    refine ⟨hle,?_,fun x hx => ?_⟩
    · rw [total,map_append,sum_append]
      exact (min_le_left _ _).trans (by simpa [total] using hc)
    · simp [hmax,hl x hx,or_and_right,exists_or]

omit h

theorem windowCounts_exec (h : calls.Pairwise (·.1≤·.1)) (hn : ∀call∈calls,call.1≤now) :
    WindowCounts calls now (feedbackAfter calls).mediaFeedback := by
  induction calls using reverseRecOn generalizing now with
  | nil => exact ⟨fun _ _ => rfl,nofun⟩
  | append_singleton calls call ih =>
    obtain ⟨hc,-,hle⟩ := pairwise_append.mp h
    have hw := ih hc (fun c hc => hle c hc call mem_cons_self)
    have hs : WindowCounts (calls++[call]) call.1
      (feedbackAfter (calls++[call])).mediaFeedback := by
      rw [feedbackAfter,exec_concat]
      obtain ⟨at_,_ | _⟩ := call
      · exact hw.report _ _ _
      · have hsame : ∀t,reportsSince t
          (calls++[(at_,.recommendVideoQuality)])=reportsSince t calls := by
          simp [reportsSince]
        simp only [windowCounts_iff,hsame]
        exact (windowCounts_iff ..).mp hw.summary
    exact ⟨hs.ended,fun start hst => (hs.counted start hst).imp_left (·.trans (hn call (by simp)))⟩

/-- Under a clock that does not go back, recommendations change and are paced, and each is justified
by the reports before it. -/
theorem recommendations_justified (calls : List TimedFeedback) (hclock : calls.Pairwise (·.1≤·.1)) :
    (emitted feedbackStep .default calls).IsChain Paced ∧ AtEveryStep Justified calls := by
  refine ⟨(recommendations_paced calls).2,?_⟩
  rintro earlier ⟨now,_ | _⟩ later rfl
  · exact ⟨nofun,nofun⟩
  obtain ⟨hc,-,hle⟩ := pairwise_append.mp hclock
  have hw := (windowCounts_exec hc (fun c hc => hle c hc _ mem_cons_self)).summary
  have ho := windowOpen_refreshRrWindow (feedbackAfter earlier).mediaFeedback now
  rw [← (sameReports_summary _ now).start] at ho
  obtain ⟨start,hs,hn⟩ := exists_of_windowOpen ho
  rcases maybeRecommend_cases (feedbackAfter earlier).mediaFeedbackAdaptation
    ((feedbackAfter earlier).mediaFeedback.summary now).1 now with he | ⟨q,hq,he,-⟩
  · simp [Justified,feedbackStep,SubscriberRtpState.recommendVideoQuality,he]
  simp only [Justified,feedbackStep,SubscriberRtpState.recommendVideoQuality,he]
  generalize (feedbackAfter earlier).mediaFeedback=m at *
  obtain ⟨-,hcount,hl⟩ := hw.counted start hs
  have hsub : reportsSince start earlier <+ reportsSince
    (now-mediaFeedbackWindowMillis) earlier := by
    refine (monotone_filter_right _ (fun c hc => ?_)).filterMap _
    simp only [decide_eq_true_eq] at hc ⊢
    omega
  have hdeg : (m.summary now).1.isDegraded =
      decide (mediaFeedbackDegradedMinReports≤(m.summary now).2.rrWindowReportCount ∧
        mediaFeedbackDegradedFractionLostThreshold≤(m.summary now).2.rrWindowMaxFractionLost) := rfl
  rw [desired,hdeg] at hq
  split_ifs at hq with hlow hm hh <;> obtain rfl := some.inj hq
  · obtain ⟨hn,hf⟩ := of_decide_eq_true hlow
    obtain ⟨r,hr,hx⟩ := (hl _ (by decide)).mp hf
    refine ⟨fun _ => ⟨hn.trans (hcount.trans ?_),r,hsub.subset hr,hx⟩,nofun⟩
    exact (hsub.map _).sum_le_sum (fun _ _ => Nat.zero_le _)
  · exact ⟨nofun,nofun⟩
  · exact ⟨nofun,fun _ => ⟨start,hs,fun r hr hx => hm ⟨hh,(hl _ (by decide)).mpr ⟨r,hr,hx⟩⟩⟩⟩

theorem losses_recommend_low :
    let calls := [(0,.observeReceiverReport 7 100 2),(1,.recommendVideoQuality)]
    (emitted feedbackStep .default calls).map (·.2)=[.low] ∧ AtEveryStep Justified calls :=
  ⟨by decide,(recommendations_justified _ (by decide)).2⟩

variable {reader : TrackReader} {view : SignalView} {actions : List RtcpForwardAction} {now : ℤ}

theorem desired_of_maybeRecommend {a : MediaFeedbackAdaptationState}
    {summary : MediaFeedbackSummary}
    {now : ℕ} (h : (a.maybeRecommend summary now).1=some recommended) :
    desired summary=some recommended := by
  rw [maybeRecommend] at h
  cases hd : desired summary with
  | none => simp [hd] at h
  | some quality =>
    simp only [hd] at h
    split_ifs at h
    exact h

theorem recommended_of_plan {s : SubscriberRtpState}
    (h : (buildRtcpExecutionPlan s actions now).1.recommendedVideoQuality=some recommended) :
    ∃m : MediaFeedbackState,SameReports (reportWindow s actions now) (m.summary now.toNat).2 ∧
      desired (m.summary now.toNat).1=some recommended := by
  let observed := actions.foldl (observeAction now.toNat) s.mediaFeedback
  have ho := foldl_executeAction_mediaFeedback now.toNat actions (RtcpExecutionPlan.default,s)
  refine ⟨(observed.summary now.toNat).2,sameReports_summary_again observed now.toNat,?_⟩
  apply desired_of_maybeRecommend
  rw [← h]
  simp only [buildRtcpExecutionPlan,SubscriberRtpState.mediaFeedbackSummary,
    SubscriberRtpState.recommendVideoQuality]
  rw [ho]

/-- A target that could make the publisher lower its quality: nothing suppresses an update
that is recommended for it. -/
def mayEmit (reader : TrackReader) (view : SignalView) (subscriber : String) : Bool :=
  forwardedTo reader view subscriber && (view.context.settingsFor (reader.key subscriber)).isNone

/-- The condition on an event: whenever feedback arrives, the losses that count for a target
without settings of its own allow what every other subscriber of the track requests. -/
def LossesAllowOthers (reader : TrackReader) (targets : List FeedbackTarget) :
    ReaderEvent→Prop
  | .rtcp view actions now => ∀target∈targets,mayEmit reader view target.subscriber →
    ∀other∈targets,other.subscriber≠target.subscriber →
      forwardedTo reader view other.subscriber →
        lossAllows (reportWindow target.rtpState actions now)
          (requestedQuality reader view other.subscriber)
  | .opened _ | .closed _ => True

instance (reader : TrackReader) (targets : List FeedbackTarget) :
    (event : ReaderEvent)→Decidable (LossesAllowOthers reader targets event)
  | .rtcp _ _ _ => inferInstanceAs (Decidable (∀target∈targets,_ → ∀other∈targets,_))
  | .opened _ | .closed _ => isTrue trivial

/-- An update that comes from a recommendation keeps the qualities up to the recommended one. -/
theorem keepsEnabled_of_number_le {sid : String} {codecs : List String}
    {maximum : VideoQuality} (h : quality ≠ .off → quality.number ≤ maximum.number) :
    KeepsEnabled (subscribedQualityUpdateForTrackWithCodecs sid codecs (some maximum)) quality := by
  have he : ∀e∈subscribedQualities (some maximum),e.quality=quality → e.enabled := by
    intro e hen hs
    obtain ⟨candidate,hc,rfl⟩ := mem_map.mp hen
    obtain rfl : candidate=quality := hs
    have hoff : candidate ≠ .off := by
      rintro rfl
      simp at hc
    simpa using h hoff
  refine ⟨he,fun codec hco => ?_⟩
  obtain ⟨name,-,rfl⟩ := mem_map.mp hco
  exact he

theorem feedTarget_eq_some {k : FeedbackTarget} {u : SubscribedQualityUpdate}
    (h : (feedTarget reader view actions now k).1=some u) :
    mayEmit reader view k.subscriber ∧ ∃recommended codecs,
      (buildRtcpExecutionPlan k.rtpState actions now).1.recommendedVideoQuality=some recommended ∧
        u=subscribedQualityUpdateForTrackWithCodecs reader.trackInfo.sid codecs
          (some (RecommendedVideoQuality.toVideoQuality recommended)) := by
  rw [feedTarget] at h
  split_ifs at h with hf
  obtain ⟨recommended,hr,hu⟩ := bind_eq_some_iff.mp h
  rw [maybeEmitRecommendedSubscribedQualityUpdate] at hu
  split_ifs at hu with hs hc
  split at hu
  · cases hu
  · split_ifs at hu
    refine ⟨?_,recommended,_,hr,(some.inj hu).symm⟩
    rw [mayEmit,hf,Bool.true_and,isNone_iff_eq_none]
    exact not_isSome_iff_eq_none.mp hs

theorem lossAllows_congr {m n : MediaFeedbackState} (h : SameReports m n)
    (quality : VideoQuality) : lossAllows n quality=lossAllows m quality := by
  simp only [lossAllows,h.count,h.maxFractionLost]

theorem sparesOthers_of_lossesAllow {targets : List FeedbackTarget} {e : ReaderEvent}
    (h : LossesAllowOthers reader targets e) : SparesOthers reader targets e := by
  rintro view actions now rfl ⟨u,up⟩ hs o ho hd hf
  rw [updatesSent] at hs
  split_ifs at hs
  · cases hs
  · obtain ⟨k,ht,hfed⟩ := mem_filterMap.mp hs
    obtain ⟨sent,hso,hp⟩ := map_eq_some_iff.mp hfed
    obtain ⟨rfl,rfl⟩ := Prod.mk.inj hp
    obtain ⟨he,recommended,codecs,hr,rfl⟩ := feedTarget_eq_some hso
    obtain ⟨m,hre,hde⟩ := recommended_of_plan hr
    have ha := h k ht he o ho hd hf
    rw [← lossAllows_congr hre] at ha
    exact keepsEnabled_of_number_le (number_le_of_desired hde ha)

/-- In every run of feedback in which the losses that count for a target allow what the other
subscribers request, every update keeps what the others request. -/
theorem sparesOthers_of_run (reader : TrackReader) (events : List ReaderEvent)
    (h : AtEveryStep (fun earlier event =>
      LossesAllowOthers reader (targetsOf reader earlier) event) events) :
    AtEveryStep (fun earlier event =>
      SparesOthers reader (targetsOf reader earlier) event) events := by
  intro earlier event later hs
  exact sparesOthers_of_lossesAllow (h earlier event later hs)

def cameraOfAlice : TrackInfo := {sid := "TV",type := .video,simulcast := true}

def readerOfAlice : TrackReader := ⟨"room","alice",cameraOfAlice⟩

def viewOfRoom (settings : List UpdateTrackSettings) : SignalView where
  context := {
    mediaSubscriptions := .empty,autoSubscribePreferences := .empty
    trackSettings := settings.foldl (fun store request =>
      store.upsertFromRequest "room" "carol" request) .empty
    trackAllocations := .empty
    rooms := storeAfter {} (["alice","bob","carol"].map (fun identity =>
      .joinParticipantWithPermission ⟨"room",identity,"","",.empty,none⟩ 0) ++
        [.addParticipantTrack "room" "alice" cameraOfAlice])
    subscriptionLimits := ⟨none,none⟩}
  signalConnections := {⟨"room","alice"⟩}

def lossyReports (fractionLost : UInt8) : List RtcpForwardAction :=
  [.receiverReportObserved 7 fractionLost 2]

/-- carol requests the medium quality, and moderate losses make the server recommend this for
bob. -/
theorem sparesOthers_moderate_losses :
    let events := [.opened "bob",.opened "carol",.rtcp
      (viewOfRoom [{trackSids := ["TV"],quality := 1}]) (lossyReports 30) 0]
    (updatesSent readerOfAlice (targetsOf readerOfAlice (events.take 2)) events[2]).map Prod.fst =
        ["bob"] ∧
      AtEveryStep (fun earlier event =>
        SparesOthers readerOfAlice (targetsOf readerOfAlice earlier) event) events := by
  intro events
  exact ⟨by decide +kernel,sparesOthers_of_run readerOfAlice events (by decide +kernel)⟩

/-- Heavy losses: the update for bob disables the high quality, which carol requests. -/
theorem losses_of_one_degrade_others :
    let targets := targetsOf readerOfAlice [.opened "bob",.opened "carol"]
    let view := viewOfRoom [{trackSids := ["TV"],quality := 2}]
    ∃sent∈updatesSent readerOfAlice targets (.rtcp view (lossyReports 100) 0),
      ∃other∈targets,other.subscriber≠sent.1 ∧
        forwardedTo readerOfAlice view other.subscriber ∧
        ¬KeepsEnabled sent.2 (requestedQuality readerOfAlice view other.subscriber) := by
  decide +kernel

end OxideSfu.Signaling
