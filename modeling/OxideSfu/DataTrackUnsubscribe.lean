import OxideSfu.DataTrackReconciliation
import OxideSfu.StepRuns

/-!
# Giving up a data track

A participant that unsubscribes from a data track is subscribed again by the next reconciliation:
nothing remembers that it gave the track up, as `media_subscriptions` does for media tracks.
-/

namespace OxideSfu.Signaling

open Rooms StepRuns

instance (s : DataSessionState) (subscriber : ParticipantKey) :
    (event : DataTrackEvent)→Decidable (ReconcilesOwn s subscriber event)
  | .reconcile _ _ => inferInstanceAs (Decidable (_ ∧ _))
  | .session (.join _ _ _ _) _ _ => inferInstanceAs (Decidable (_ ∧ _))
  | .session (.close _ _ _) _ _ | .session (.abandon _) _ _ | .session (.graceExpired _ _ _) _ _
  | .session (.openPeerConnection _) _ _ | .session (.closePeerConnections _) _ _
  | .session (.updateParticipant _ _) _ _ | .session (.muteTrack _ _ _) _ _
  | .session (.updateMetadata _ _ _ _) _ _ | .session (.changeTracks _ _ _ _) _ _
  | .session (.leave _ _) _ _ | .session (.disconnect _ _) _ _ | .session (.relayJoin _ _) _ _
  | .session (.relayConnect _) _ _ | .session (.relayTerminate _ _ _) _ _
  | .publish .. | .unpublish .. | .update .. => isFalse id

instance (s : DataSessionState) (subscriber : ParticipantKey) (event : DataTrackEvent) :
    Decidable (Reconciles s subscriber event) :=
  inferInstanceAs (Decidable (_ ∨ _))

instance (entry : DataTrackSubscriptionKey) :
    (event : DataTrackEvent)→Decidable (AsksForTrack entry event)
  | .update _ _ _ => inferInstanceAs (Decidable (_ ∧ _))
  | .session .. | .publish .. | .unpublish .. | .reconcile .. => isFalse id

variable {s : DataSessionState} {en : DataTrackSubscriptionKey}

theorem not_has_updateDataSubscription {us : List DataSubscriptionUpdate}
    (h : GivesUp us en.trackSid) (orders : MapOrders) :
    ¬(s.updateDataSubscription en.owner us orders).subscriptions.Has en := by
  rw [DataSessionState.updateDataSubscription]
  cases s.canSubscribe en.owner with
  | true => exact not_has_update en.owner s.dataTracks s.sessions.rooms orders.publisher h _
  | false =>
    exact not_has_update en.owner s.dataTracks s.sessions.rooms orders.publisher h.filter _

/-- Nobody is subscribed by an event that neither asks for the track nor reconciles. -/
theorem not_has_step (hk : Keyed s.sessions.rooms) {e : DataTrackEvent}
    (hb : ¬s.subscriptions.Has en) (hs : ¬AsksForTrack en e) (hq : ¬Reconciles s en.owner e) :
      ¬(s.step e).subscriptions.Has en := by
  intro hhas
  obtain hhas | hso := opens_step hk e en hhas
  · exact hb hhas
  · cases hso with
    | asked ha _ => exact hs ha
    | beside key hkey hbe => exact hq (.inl ⟨key,hkey,hbe⟩)
    | own hown _ => exact hq (.inr hown)

/-- A participant that has given up a data track stays unsubscribed while it does not ask for it
and nothing reconciles it. -/
theorem unsubscribed_until_asked (defaults : RoomDefaults) (autoCreate : Bool)
    (before after : List DataTrackEvent) (entry : DataTrackSubscriptionKey)
    (updates : List DataSubscriptionUpdate) (orders : MapOrders)
    (hgives : GivesUp updates entry.trackSid)
    (hsilent : ∀event ∈ after,¬AsksForTrack entry event)
    (hquiet : AtEveryStep (fun earlier event =>
      ¬Reconciles ((DataSessionState.initial defaults autoCreate).run
        (before ++ .update entry.owner updates orders :: earlier)) entry.owner event) after) :
    ¬((DataSessionState.initial defaults autoCreate).run
      (before ++ .update entry.owner updates orders :: after)).subscriptions.Has entry := by
  induction after using List.reverseRecOn with
  | nil =>
    rw [DataSessionState.run_concat]
    exact not_has_updateDataSubscription hgives orders
  | append_singleton after event ih =>
    obtain ⟨hea,hev⟩ := (atEveryStep_concat _ _ _).mp hquiet
    have hu := ih (fun e he => hsilent e (List.mem_append_left _ he)) hea
    have hrun : before ++ .update entry.owner updates orders::(after++[event]) =
        (before ++ .update entry.owner updates orders::after)++[event] := by simp
    rw [hrun,DataSessionState.run_concat]
    exact not_has_step (keyed_dataSessionRun (keyed_sessionInitial defaults autoCreate) _)
      hu (hsilent event (by simp)) hev

def bobHearsTelemetry (settings : JoinSettings) : List DataTrackEvent :=
  [.joinOf "alice" {},.joinOf "bob" settings,.joinOf "carol" {},
    .publish ⟨"room","alice"⟩ ⟨7,"telemetry"⟩ 5 .sorted]

def bobsTelemetry : DataTrackSubscriptionKey := ⟨"room","bob","DTR_00000000000000050007"⟩

def bobDropsTelemetry : DataTrackEvent :=
  .update bobsTelemetry.owner [⟨bobsTelemetry.trackSid,false,none⟩] .sorted

def carolPublishes : DataTrackEvent := .publish ⟨"room","carol"⟩ ⟨8,"positions"⟩ 6 .sorted

def bobAsksForTelemetry : DataTrackEvent :=
  .update bobsTelemetry.owner [⟨bobsTelemetry.trackSid,true,none⟩] .sorted

/-- Without auto-subscribe Bob asks for the track, drops it and stays unsubscribed when Carol
publishes. -/
theorem bob_stays_unsubscribed :
    let before := bobHearsTelemetry {autoSubscribeDataTrack := false} ++ [bobAsksForTelemetry]
    ((DataSessionState.initial {} true).run before).subscriptions.Has bobsTelemetry ∧
      ¬((DataSessionState.initial {} true).run
        (before ++ bobDropsTelemetry :: [carolPublishes])).subscriptions.Has bobsTelemetry :=
  ⟨by decide +kernel,unsubscribed_until_asked {} true _ [carolPublishes] bobsTelemetry _ _
    ⟨[],_,[],rfl,rfl,rfl,by simp⟩ (by decide +kernel) (by decide +kernel)⟩

/-- With auto-subscribe Bob is subscribed to Alice's track again when Carol publishes another. -/
theorem bob_resubscribed_by_carol :
    let unsubscribed := bobHearsTelemetry {}++[bobDropsTelemetry]
    ((DataSessionState.initial {} true).run (bobHearsTelemetry {})).subscriptions.Has
        bobsTelemetry ∧
      ¬((DataSessionState.initial {} true).run unsubscribed).subscriptions.Has bobsTelemetry ∧
      ¬AsksForTrack bobsTelemetry carolPublishes ∧
      ((DataSessionState.initial {} true).run (unsubscribed++[carolPublishes])).subscriptions.Has
        bobsTelemetry := by
  decide +kernel

end OxideSfu.Signaling
