import OxideSfu.QualityUpdates
import OxideSfu.RoomSubscriptions
import OxideSfu.ServiceData

/-!
# The quality that all subscribers need

`aggregate_requested_quality_for_track` (`router/session.rs`) takes the highest quality that the
subscribers of a track request. It leaves out who has neither subscribed explicitly nor a signal
connection; the decision to forward knows no such rule.
-/

namespace OxideSfu.Signaling

open FiniteMaps Rooms RoomStore ForwardingDecisionContext MediaSubscriptionStore

variable (reader : TrackReader) (view : SignalView) (order : Iteration String)

def heardOf (subscriber : String) : Bool :=
  (view.context.mediaSubscriptions.explicitSubscription (reader.key subscriber)).isSome ||
    ⟨reader.room,subscriber⟩∈view.signalConnections

def activeReceiver (subscriber : String) : Bool :=
  decide (subscriber≠reader.publisher ∧
    view.context.mediaSubscriptions.explicitSubscription (reader.key subscriber)≠some false) &&
  heardOf reader view subscriber &&
  view.context.rooms.isMediaTrackSubscribed (reader.key subscriber)

def hasActiveMediaSubscriberForTrack : Bool :=
  match participantsInOrder view.context.rooms reader.room order with
  | .error _ => false
  | .ok participants => participants.any (fun p => activeReceiver reader view p.identity)

def raisedTo (current : Option VideoQuality) (requested : VideoQuality) : VideoQuality :=
  match current with
  | none => requested
  | some current => if requested.number≤current.number then current else requested

def aggregateStep (maxQuality : Option VideoQuality) (subscriber : String) : Option VideoQuality :=
  if activeReceiver reader view subscriber &&
      !(view.context.settingsFor (reader.key subscriber)).any (·.disabled) then
    some (raisedTo maxQuality (requestedQuality reader view subscriber))
  else maxQuality

def aggregateRequestedQualityForTrack : Option VideoQuality :=
  match participantsInOrder view.context.rooms reader.room order with
  | .error _ => none
  | .ok participants => (participants.map (·.identity)).foldl (aggregateStep reader view) none

def emitAggregateSubscribedQualityUpdateForTrack (emitWhenNoActiveReceiver : Bool) :
    Option SubscribedQualityUpdate :=
  if reader.trackInfo.type = .video ∧
      (publishedTrack view.context.rooms reader.room reader.publisher
        reader.trackInfo.sid).isSome ∧
      ⟨reader.room,reader.publisher⟩∈view.signalConnections ∧
      (hasActiveMediaSubscriberForTrack reader view order || emitWhenNoActiveReceiver) then
    some (subscribedQualityUpdateForTrackWithCodecs reader.trackInfo.sid
      (codecMimeTypesForTrack reader.trackInfo)
      (aggregateRequestedQualityForTrack reader view order))
  else none

variable {reader view order} {u : String} {q : VideoQuality}

theorem activeReceiver_of_forwardedTo (h : forwardedTo reader view u)
    (hp : u≠reader.publisher) (hh : heardOf reader view u) :
    activeReceiver reader view u ∧
      (view.context.settingsFor (reader.key u)).any (·.disabled)=false := by
  rw [forwardedTo,shouldForwardMediaForSubscriberWithTrackSettings,
    shouldForwardMediaForSubscriberWithSettingsValue,subscribedTo,canSubscribeToMediaTrack_eq] at h
  simp only [Bool.and_eq_true,Bool.not_eq_true'] at h
  obtain ⟨⟨hd,hs,-,hm⟩,-⟩ := h
  have he : view.context.mediaSubscriptions.explicitSubscription (reader.key u)≠some false := by
    intro he
    rw [isSubscribedWithDefault,he] at hs
    cases hs
  rw [activeReceiver,hh,isMediaTrackSubscribed,hm,decide_eq_true ⟨hp,he⟩]
  exact ⟨rfl,hd⟩

theorem le_raisedTo (current : Option VideoQuality) :
    q.number≤(raisedTo current q).number ∧ ∀m∈current,m.number≤(raisedTo current q).number := by
  cases current with
  | none => simp [raisedTo]
  | some m =>
    rw [raisedTo]
    split_ifs with hm
    · simp [hm]
    · simpa using Nat.le_of_not_le hm

variable {m : VideoQuality}

theorem le_aggregateStep (hq : q.number ≤ m.number) :
    ∃n,aggregateStep reader view (some m) u=some n ∧ q.number≤n.number := by
  rw [aggregateStep]
  split_ifs
  · exact ⟨_,rfl,hq.trans ((le_raisedTo _).2 m rfl)⟩
  · exact ⟨m,rfl,hq⟩

theorem le_foldl_aggregateStep (hq : q.number ≤ m.number) (us : List String) :
    ∃n,us.foldl (aggregateStep reader view) (some m)=some n ∧ q.number≤n.number := by
  induction us generalizing m with
  | nil => exact ⟨m,rfl,hq⟩
  | cons u us ih =>
    obtain ⟨n,hn,hl⟩ := le_aggregateStep (u := u) hq
    rw [List.foldl_cons,hn]
    exact ih hl

/-- Whoever is counted has its quality covered, wherever it stands in the list. -/
theorem requested_le_foldl {us : List String} (hu : u∈us) (ha : activeReceiver reader view u)
    (hd : (view.context.settingsFor (reader.key u)).any (·.disabled)=false)
    (acc : Option VideoQuality) :
    ∃n,us.foldl (aggregateStep reader view) acc=some n ∧
      (requestedQuality reader view u).number≤n.number := by
  induction us generalizing acc with
  | nil => cases hu
  | cons v us ih =>
    rw [List.foldl_cons]
    rcases List.mem_cons.mp hu with rfl | hu
    · rw [aggregateStep,ha,hd]
      exact le_foldl_aggregateStep (le_raisedTo acc).1 us
    · exact ih hu _

/-- For a participant that has subscribed explicitly or is connected, what is forwarded stays
enabled. -/
theorem aggregate_covers_forwarded {ps : List ParticipantInfo}
    (hl : participantsInOrder view.context.rooms reader.room order = .ok ps)
    (hu : u ∈ ps.map (·.identity)) (hp : u ≠ reader.publisher)
    (hf : forwardedTo reader view u) (hh : heardOf reader view u) :
    (∃n,aggregateRequestedQualityForTrack reader view order = some n ∧
      (requestedQuality reader view u).number≤n.number) ∧
    ∀emits update,emitAggregateSubscribedQualityUpdateForTrack reader view order emits =
      some update → KeepsEnabled update (requestedQuality reader view u) := by
  obtain ⟨ha,hd⟩ := activeReceiver_of_forwardedTo hf hp hh
  obtain ⟨n,hn,hq⟩ := requested_le_foldl hu ha hd none
  have he : aggregateRequestedQualityForTrack reader view order=some n := by
    rw [aggregateRequestedQualityForTrack,hl]
    exact hn
  refine ⟨⟨n,he,hq⟩,fun emits update hs => ?_⟩
  rw [emitAggregateSubscribedQualityUpdateForTrack,Option.ite_none_right_eq_some,he] at hs
  exact Option.some.inj hs.2 ▸ keepsEnabled_of_number_le fun _ => hq

def connectedView : SignalView :=
  {viewOfRoom [{trackSids := ["TV"],quality := 1}] with
    signalConnections := {⟨"room","alice"⟩,⟨"room","bob"⟩,⟨"room","carol"⟩}}

theorem carol_covered :
    ∃n,aggregateRequestedQualityForTrack readerOfAlice connectedView (.sorted String) = some n ∧
      (requestedQuality readerOfAlice connectedView "carol").number≤n.number := by
  have hl : (participantsInOrder connectedView.context.rooms "room" (.sorted String)).toOption.any
      (fun ps => "carol" ∈ ps.map (·.identity)) := by decide +kernel
  cases hp : participantsInOrder connectedView.context.rooms "room" (.sorted String) with
  | error e =>
    rw [hp] at hl
    cases hl
  | ok ps =>
    rw [hp] at hl
    exact (aggregate_covers_forwarded hp (of_decide_eq_true hl) (by decide) (by decide +kernel)
      (by decide +kernel)).1

/-- bob has no signal connection and is subscribed by default: the camera is forwarded to bob in
high quality, and the aggregate is empty. -/
theorem default_subscriber_not_counted :
    forwardedTo readerOfAlice (viewOfRoom []) "bob" = true ∧
      requestedQuality readerOfAlice (viewOfRoom []) "bob" = .high ∧
      aggregateRequestedQualityForTrack readerOfAlice (viewOfRoom []) (.sorted String) = none := by
  decide +kernel

end OxideSfu.Signaling
