import OxideSfu.RoomStore

/-!
# What subscribers have asked for

Subscriptions, preferences, track settings and layer allocations (`stores/media.rs`,
`stores/permissions.rs`, `media/track_settings.rs`, `media/track_allocation.rs`). Each store counts
its changes in a 64-bit number that comes round, which the readers compare.
-/

namespace OxideSfu.Signaling

open FiniteMaps Rooms

@[ext] structure ParticipantKey where
  room : String
  identity : String
  deriving DecidableEq

structure TrackSettingsKey where
  (room identity trackSid : String)
  deriving DecidableEq

/-- The explicit subscriptions; what is not in `entries` follows the subscriber's preference. -/
structure MediaSubscriptionStore where
  entries : FiniteMap MediaTrackKey Bool
  revision : UInt64

namespace MediaSubscriptionStore

def empty : MediaSubscriptionStore := ⟨.empty,0⟩

/-- The revision counts every call, also one that sets what is already set. -/
def setSubscribed (s : MediaSubscriptionStore) (key : MediaTrackKey) (subscribed : Bool) :
    MediaSubscriptionStore :=
  ⟨s.entries.insert key subscribed,s.revision+1⟩

def explicitSubscription (s : MediaSubscriptionStore) (key : MediaTrackKey) : Option Bool :=
  s.entries.lookup key

def isSubscribedWithDefault (s : MediaSubscriptionStore) (key : MediaTrackKey)
    (defaultSubscribed : Bool) : Bool :=
  (s.explicitSubscription key).getD defaultSubscribed

def isSubscribed (s : MediaSubscriptionStore) (key : MediaTrackKey) : Bool :=
  s.isSubscribedWithDefault key true

/-- Keeps the entries that satisfy a test; the revision counts when some were dropped. -/
def retain (s : MediaSubscriptionStore) (keeps : MediaTrackKey→Bool) : MediaSubscriptionStore :=
  let kept := s.entries.filter (fun key _ => keeps key)
  ⟨kept,if kept.keys.card≠s.entries.keys.card then s.revision+1 else s.revision⟩

def removeTrack (s : MediaSubscriptionStore) (room publisher trackSid : String) :
    MediaSubscriptionStore :=
  s.retain (fun key =>
    (key.room≠room ∨ key.publisher≠publisher ∨ key.trackSid≠trackSid))

def removeParticipant (s : MediaSubscriptionStore) (room identity : String) :
    MediaSubscriptionStore :=
  s.retain (RoomStore.notOfParticipant room identity)

end MediaSubscriptionStore

structure SubscribePermissionStore where
  canSubscribeData : FiniteMap ParticipantKey Bool

namespace SubscribePermissionStore

def setCanSubscribe (s : SubscribePermissionStore) (participant : ParticipantKey)
    (allowed : Bool) : SubscribePermissionStore :=
  ⟨s.canSubscribeData.insert participant allowed⟩

def canSubscribe (s : SubscribePermissionStore) (participant : ParticipantKey) : Bool :=
  (s.canSubscribeData.lookup participant).getD true

end SubscribePermissionStore

structure AutoSubscribePreferenceStore where
  (autoSubscribe autoSubscribeDataTrack : FiniteMap ParticipantKey Bool)
  revision : UInt64

namespace AutoSubscribePreferenceStore

def empty : AutoSubscribePreferenceStore := ⟨.empty,.empty,0⟩

def setAutoSubscribe (s : AutoSubscribePreferenceStore) (participant : ParticipantKey)
    (enabled : Bool) : AutoSubscribePreferenceStore :=
  {s with
    autoSubscribe := s.autoSubscribe.insert participant enabled,revision := s.revision+1}

def autoSubscribeEnabled (s : AutoSubscribePreferenceStore) (participant : ParticipantKey) : Bool :=
  (s.autoSubscribe.lookup participant).getD true

def setAutoSubscribeDataTrack (s : AutoSubscribePreferenceStore) (participant : ParticipantKey)
    (enabled : Bool) : AutoSubscribePreferenceStore :=
  {s with
    autoSubscribeDataTrack := s.autoSubscribeDataTrack.insert participant enabled
    revision := s.revision+1}

def removeParticipant (s : AutoSubscribePreferenceStore) (participant : ParticipantKey) :
    AutoSubscribePreferenceStore where
  autoSubscribe := s.autoSubscribe.erase participant
  autoSubscribeDataTrack := s.autoSubscribeDataTrack.erase participant
  revision :=
    if (s.autoSubscribe.lookup participant).isSome ||
        (s.autoSubscribeDataTrack.lookup participant).isSome then s.revision+1
    else s.revision

end AutoSubscribePreferenceStore

inductive VideoQuality | low | medium | high | off deriving DecidableEq

def VideoQuality.number : VideoQuality → ℕ
  | .low => 0 | .medium => 1 | .high => 2 | .off => 3

/-- The quality of a number; unknown numbers mean the highest quality. -/
def VideoQuality.ofNumber (number : ℤ) : VideoQuality :=
  if number=0 then .low else if number=1 then .medium else if number=3 then .off else .high

structure UpdateTrackSettings where
  trackSids : List String
  disabled : Bool := false
  quality : ℤ := 0
  width : ℕ := 0
  height : ℕ := 0
  fps : ℕ := 0
  priority : ℕ := 0
  deriving DecidableEq

/-- Settings in force and settings that wait for their debounce time, numbered by generation. -/
structure TrackSettingsStore where
  settings : FiniteMap TrackSettingsKey UpdateTrackSettings
  revisions : FiniteMap TrackSettingsKey UInt64
  pending : FiniteMap TrackSettingsKey (UInt64 × UpdateTrackSettings)
  (nextPendingGeneration revision : UInt64)

namespace TrackSettingsStore

def empty : TrackSettingsStore := ⟨.empty,.empty,.empty,0,0⟩

def getForTrack (s : TrackSettingsStore) (key : TrackSettingsKey) : Option UpdateTrackSettings :=
  s.settings.lookup key

def revisionForTrack (s : TrackSettingsStore) (key : TrackSettingsKey) : UInt64 :=
  (s.revisions.lookup key).getD 0

def markChanged (s : TrackSettingsStore) (key : TrackSettingsKey) : TrackSettingsStore :=
  {s with
    revisions := s.revisions.insert key (s.revision+1),revision := s.revision+1}

def forTrack (request : UpdateTrackSettings) (trackSid : String) : UpdateTrackSettings :=
  {request with trackSids := [trackSid]}

def upsertForTrack (room identity : String) (request : UpdateTrackSettings)
    (s : TrackSettingsStore) (trackSid : String) : TrackSettingsStore :=
  let key := ⟨room,identity,trackSid⟩
  if s.settings.lookup key=some (forTrack request trackSid) then s
  else markChanged {s with settings := s.settings.insert key (forTrack request trackSid)} key

def upsertFromRequest (s : TrackSettingsStore) (room identity : String)
    (request : UpdateTrackSettings) : TrackSettingsStore :=
  request.trackSids.foldl (upsertForTrack room identity request) s

def dropPending (s : TrackSettingsStore) (key : TrackSettingsKey) : TrackSettingsStore :=
  {s with pending := s.pending.erase key}

structure Scheduled where
  immediate : List String
  deferred : List (String × UInt64)

/-- One track of a request: what is in force cancels what waits, switching a disabled track on
takes effect at once, and everything else waits. -/
def scheduleForTrack (room identity : String) (request : UpdateTrackSettings)
    (acc : Scheduled × TrackSettingsStore) (trackSid : String) : Scheduled × TrackSettingsStore :=
  let (scheduled,s) := acc
  let key := ⟨room,identity,trackSid⟩
  let setting := forTrack request trackSid
  let current := s.getForTrack key
  if current=some setting then (scheduled,s.dropPending key)
  else if current.any (fun current => current.disabled && !setting.disabled) then
    ({scheduled with immediate := scheduled.immediate++[trackSid]},
      (s.upsertFromRequest room identity setting).dropPending key)
  else
    let generation := s.nextPendingGeneration+1
    ({scheduled with deferred := scheduled.deferred++[(trackSid,generation)]},
      {s with
        nextPendingGeneration := generation,pending := s.pending.insert key (generation,setting)})

def scheduleFromRequest (s : TrackSettingsStore) (room identity : String)
    (request : UpdateTrackSettings) : Scheduled × TrackSettingsStore :=
  request.trackSids.foldl (scheduleForTrack room identity request) (⟨[],[]⟩,s)

/-- Only the setting that was scheduled last takes effect. -/
def applyPendingForTrack (s : TrackSettingsStore) (key : TrackSettingsKey) (generation : UInt64) :
    Bool × TrackSettingsStore :=
  match s.pending.lookup key with
  | none => (false,s)
  | some (candidate,setting) =>
    if candidate=generation then
      let next := (s.dropPending key).upsertFromRequest key.room key.identity setting
      (next.revisionForTrack key≠s.revisionForTrack key,next)
    else (false,s)

def removeSetting (s : TrackSettingsStore) (key : TrackSettingsKey) : TrackSettingsStore :=
  if (s.settings.lookup key).isSome then
    markChanged {s with settings := s.settings.erase key} key
  else s

def removeForTrack (s : TrackSettingsStore) (key : TrackSettingsKey) : TrackSettingsStore :=
  (s.dropPending key).removeSetting key

/-- The settings of a participant are numbered in the order in which the map lists them. -/
def removeParticipant (s : TrackSettingsStore) (room identity : String)
    (iteration : Iteration TrackSettingsKey) : TrackSettingsStore :=
  let removed := s.settings.keys.filter (fun key => key.room=room ∧ key.identity=identity)
  (iteration.order removed).foldl removeSetting {s with
    pending := s.pending.filter (fun key _ => (key.room≠room ∨ key.identity≠identity))}

end TrackSettingsStore

/-- The layers that the allocator wants for a subscriber. -/
structure TrackAllocationStore where
  desiredQuality : FiniteMap TrackSettingsKey VideoQuality
  desiredTemporalLayer : FiniteMap TrackSettingsKey ℕ
  revisions : FiniteMap TrackSettingsKey UInt64
  revision : UInt64

namespace TrackAllocationStore

def empty : TrackAllocationStore := ⟨.empty,.empty,.empty,0⟩

def revisionForTrack (s : TrackAllocationStore) (key : TrackSettingsKey) : UInt64 :=
  (s.revisions.lookup key).getD 0

def markChanged (s : TrackAllocationStore) (key : TrackSettingsKey) : TrackAllocationStore :=
  {s with
    revisions := s.revisions.insert key (s.revision+1),revision := s.revision+1}

def setDesiredQualityForTrack (s : TrackAllocationStore) (key : TrackSettingsKey)
    (desired : Option VideoQuality) : TrackAllocationStore :=
  if s.desiredQuality.lookup key=desired then s
  else
    match desired with
    | some quality =>
      markChanged {s with desiredQuality := s.desiredQuality.insert key quality} key
    | none => markChanged {s with desiredQuality := s.desiredQuality.erase key} key

/-- Layers above the second are ignored. -/
def setDesiredTemporalLayerForTrack (s : TrackAllocationStore) (key : TrackSettingsKey)
    (desired : Option ℕ) : TrackAllocationStore :=
  let desired := desired.filter (·≤2)
  if s.desiredTemporalLayer.lookup key=desired then s
  else
    match desired with
    | some layer =>
      markChanged {s with desiredTemporalLayer := s.desiredTemporalLayer.insert key layer} key
    | none => markChanged {s with desiredTemporalLayer := s.desiredTemporalLayer.erase key} key

def removeForTrack (s : TrackAllocationStore) (key : TrackSettingsKey) : TrackAllocationStore :=
  (s.setDesiredQualityForTrack key none).setDesiredTemporalLayerForTrack key none

/-- Leaves the desired temporal layers behind. -/
def removeForParticipant (s : TrackAllocationStore) (room identity : String)
    (iteration : Iteration TrackSettingsKey) : TrackAllocationStore :=
  let keys := s.desiredQuality.keys.filter (fun key => key.room=room ∧ key.identity=identity)
  (iteration.order keys).foldl (fun s key => s.setDesiredQualityForTrack key none) s

end TrackAllocationStore

end OxideSfu.Signaling
