import OxideSfu.FiniteMaps

/-!
# The forward-track store

Transports of forwarding targets, their incarnations, the active targets with an index by published
track, and the leases of the readers (`stores/forwarding.rs`). Every operation is one step. Counters
count their `fetch_add` calls; the source reads the count in 64 bits.
-/

namespace OxideSfu.ForwardTracks

open FiniteMaps

structure ForwardTrackKey where
  (room publisher trackSid subscriber : String)
  deriving DecidableEq

structure ForwardTrackReaderKey where
  (room publisher trackSid : String)
  deriving DecidableEq

def ForwardTrackKey.readerKey (key : ForwardTrackKey) : ForwardTrackReaderKey :=
  ⟨key.room,key.publisher,key.trackSid⟩

structure ForwardTrackReaderLease where
  key : ForwardTrackReaderKey
  generation : UInt64
  deriving DecidableEq

/-- A local RTP track, of which the store reads the media section it is sent in. -/
class ForwardingTransport (T : Type) where
  forwardingMid : T→Option String

export ForwardingTransport (forwardingMid)

@[ext] structure ForwardTrackStore (T : Type) where
  tracks : FiniteMap ForwardTrackKey T
  targetIncarnations : FiniteMap ForwardTrackKey UInt64
  active : Finset ForwardTrackKey
  activeByTrack : FiniteMap ForwardTrackReaderKey (Finset ForwardTrackKey)
  started : FiniteMap ForwardTrackReaderKey UInt64
  (readerLeases insertions revisionBumps : ℕ)

namespace ForwardTrackStore

variable {T : Type}

def empty : ForwardTrackStore T := ⟨.empty,.empty,∅,.empty,.empty,0,0,0⟩

def revision (s : ForwardTrackStore T) : UInt64 := UInt64.ofNat s.revisionBumps

def nextTargetIncarnation (s : ForwardTrackStore T) : UInt64 := UInt64.ofNat s.insertions

def nextReaderLease (s : ForwardTrackStore T) : UInt64 := UInt64.ofNat s.readerLeases

def bumpRevision (s : ForwardTrackStore T) : ForwardTrackStore T :=
  {s with revisionBumps := s.revisionBumps+1}

def bumpRevisionIf (s : ForwardTrackStore T) (changed : Bool) : ForwardTrackStore T :=
  if changed then s.bumpRevision else s

def setActiveIndexForKey (s : ForwardTrackStore T) (key : ForwardTrackKey) (active : Bool) :
    ForwardTrackStore T :=
  {s with activeByTrack :=
      if active then addToGroup ForwardTrackKey.readerKey s.activeByTrack key
      else removeFromGroup ForwardTrackKey.readerKey s.activeByTrack key}

def setActiveIndexForKeys (s : ForwardTrackStore T) (keys : Finset ForwardTrackKey)
    (active : Bool) : ForwardTrackStore T :=
  {s with activeByTrack :=
      if active then addAllToGroups ForwardTrackKey.readerKey s.activeByTrack keys
      else removeAllFromGroups ForwardTrackKey.readerKey s.activeByTrack keys}

def indexOfActive (active : Finset ForwardTrackKey) :
    FiniteMap ForwardTrackReaderKey (Finset ForwardTrackKey) :=
  addAllToGroups ForwardTrackKey.readerKey .empty active

def rebuildActiveIndexFromActiveSet (s : ForwardTrackStore T) : ForwardTrackStore T :=
  {s with activeByTrack := indexOfActive s.active}

def insertWithActive (s : ForwardTrackStore T) (key : ForwardTrackKey) (track : T)
    (active : Bool) : ForwardTrackStore T :=
  let s := {s with
    targetIncarnations := s.targetIncarnations.insert key s.nextTargetIncarnation
    insertions := s.insertions+1,tracks := s.tracks.insert key track
    active := if active then Insert.insert key s.active else s.active.erase key}
  (s.setActiveIndexForKey key active).bumpRevision

def activate (s : ForwardTrackStore T) (keys : Finset ForwardTrackKey) : ForwardTrackStore T :=
  (({s with active := s.active ∪ keys}).setActiveIndexForKeys keys true).bumpRevisionIf
    (decide keys.Nonempty)

def activateSubscriber (s : ForwardTrackStore T) (room subscriber : String) :
    ForwardTrackStore T :=
  s.activate (s.tracks.keys.filter (fun key => key.room=room ∧ key.subscriber=subscriber))

def activateSubscriberTrackSids (s : ForwardTrackStore T) (room subscriber : String)
    (trackSids : Finset String) : ForwardTrackStore T :=
  if trackSids=∅ then s
  else s.activate (s.tracks.keys.filter (fun key =>
    key.room=room ∧ key.subscriber=subscriber ∧ key.trackSid∈trackSids))

/-- The state after `remove`; the transport it returns is the one stored before. -/
def remove (s : ForwardTrackStore T) (key : ForwardTrackKey) : ForwardTrackStore T :=
  let removedIncarnation := s.targetIncarnations.lookup key
  let removed := s.tracks.lookup key
  let s := ({s with active := s.active.erase key}).setActiveIndexForKey key false
  ({s with
      targetIncarnations := s.targetIncarnations.erase key
      tracks := s.tracks.erase key}).bumpRevisionIf (removed.isSome || removedIncarnation.isSome)

def keysOfTrack (s : ForwardTrackStore T) (track : ForwardTrackReaderKey) :
    Finset ForwardTrackKey :=
  s.tracks.keys.filter (·.readerKey=track)

/-- Removes targets from the transports, the active set and the index, but leaves their
incarnations behind. -/
def dropTargets (s : ForwardTrackStore T) (keys : Finset ForwardTrackKey) : ForwardTrackStore T :=
  ({s with
      tracks := s.tracks.eraseAll keys,active := s.active \ keys}).setActiveIndexForKeys keys false

def removeSubscriberMid [ForwardingTransport T] (s : ForwardTrackStore T)
    (room subscriber mid : String) : ForwardTrackStore T :=
  let keys := s.tracks.keys.filter (fun key => key.room=room ∧ key.subscriber=subscriber ∧
    (s.tracks.lookup key).bind forwardingMid=some mid)
  (s.dropTargets keys).bumpRevisionIf (decide keys.Nonempty)

def removeTrack (s : ForwardTrackStore T) (track : ForwardTrackReaderKey) : ForwardTrackStore T :=
  let keys := s.keysOfTrack track
  let s := (s.dropTargets keys).bumpRevisionIf (decide keys.Nonempty)
  {s with started := s.started.erase track}

def removeAllForPublisher (s : ForwardTrackStore T) (room publisher : String) :
    ForwardTrackStore T :=
  let keys := s.tracks.keys.filter (fun key => key.room=room ∧ key.publisher=publisher)
  let s := {s with tracks := s.tracks.eraseAll keys}
  let s := (s.setActiveIndexForKeys keys false).bumpRevisionIf (decide keys.Nonempty)
  let keeps := fun key : ForwardTrackKey => ¬(key.room=room ∧ key.publisher=publisher)
  let s := {s with active := s.active.filter keeps}
  let s := s.rebuildActiveIndexFromActiveSet
  {s with started := s.started.filter (fun key _ =>
      !(key.room=room ∧ key.publisher=publisher))}

def removeParticipant (s : ForwardTrackStore T) (room identity : String) : ForwardTrackStore T :=
  let keeps := fun key : ForwardTrackKey =>
    key.room≠room ∨ (key.publisher≠identity ∧ key.subscriber≠identity)
  let s := {s with tracks := s.tracks.filter (fun key _ => keeps key)}
  let s := {s with active := s.active.filter keeps}
  let s := s.rebuildActiveIndexFromActiveSet.bumpRevision
  {s with started := s.started.filter (fun key _ =>
      (key.room≠room ∨ key.publisher≠identity))}

variable (s : ForwardTrackStore T) (changed : Bool)

@[simp] theorem bumpRevisionIf_tracks : (s.bumpRevisionIf changed).tracks=s.tracks := by
  cases changed <;> rfl

@[simp] theorem bumpRevisionIf_targetIncarnations :
    (s.bumpRevisionIf changed).targetIncarnations=s.targetIncarnations := by
  cases changed <;> rfl

@[simp] theorem bumpRevisionIf_active : (s.bumpRevisionIf changed).active=s.active := by
  cases changed <;> rfl

@[simp] theorem bumpRevisionIf_activeByTrack :
    (s.bumpRevisionIf changed).activeByTrack=s.activeByTrack := by
  cases changed <;> rfl

@[simp] theorem bumpRevisionIf_started : (s.bumpRevisionIf changed).started=s.started := by
  cases changed <;> rfl

@[simp] theorem bumpRevisionIf_readerLeases :
    (s.bumpRevisionIf changed).readerLeases=s.readerLeases := by
  cases changed <;> rfl

@[simp] theorem bumpRevisionIf_insertions : (s.bumpRevisionIf changed).insertions=s.insertions := by
  cases changed <;> rfl

@[simp] theorem bumpRevisionIf_revisionBumps :
    (s.bumpRevisionIf changed).revisionBumps=s.revisionBumps+changed.toNat := by
  cases changed <;> rfl

/-- The order in which two targets are removed does not matter. -/
instance : RightCommutative (remove : ForwardTrackStore T → ForwardTrackKey → _) where
  right_comm s a b := by
    by_cases hab : a=b
    · rw [hab]
    · have hba : ¬ b=a := Ne.symm hab
      ext1
      · simp [remove,setActiveIndexForKey,FiniteMap.erase_comm _ a b]
      · simp [remove,setActiveIndexForKey,FiniteMap.erase_comm _ a b]
      · simp [remove,setActiveIndexForKey,Finset.erase_right_comm]
      · simp [remove,setActiveIndexForKey,RightCommutative.right_comm]
      · simp [remove,setActiveIndexForKey]
      · simp [remove,setActiveIndexForKey]
      · simp [remove,setActiveIndexForKey]
      · simp [remove,setActiveIndexForKey,hab,hba]
        omega

def removeAllForTrack (s : ForwardTrackStore T) (track : ForwardTrackReaderKey) :
    ForwardTrackStore T :=
  (s.keysOfTrack track).val.foldl remove s

/-- Every call takes a generation, also one that finds the reader taken. -/
def acquireTrackReader (s : ForwardTrackStore T) (key : ForwardTrackReaderKey) :
    Option ForwardTrackReaderLease × ForwardTrackStore T :=
  let generation := s.nextReaderLease
  let s := {s with readerLeases := s.readerLeases+1}
  match s.started.lookup key with
  | none => (some ⟨key,generation⟩,{s with started := s.started.insert key generation})
  | some _ => (none,s)

def ownsTrackReader (s : ForwardTrackStore T) (lease : ForwardTrackReaderLease) : Bool :=
  s.started.lookup lease.key=some lease.generation

def revokeTrackReader (s : ForwardTrackStore T) (key : ForwardTrackReaderKey) :
    Bool × ForwardTrackStore T :=
  ((s.started.lookup key).isSome,{s with started := s.started.erase key})

def releaseTrackReader (s : ForwardTrackStore T) (lease : ForwardTrackReaderLease) :
    Bool × ForwardTrackStore T :=
  if s.ownsTrackReader lease then (true,{s with started := s.started.erase lease.key})
  else (false,s)

def clearTrackReadersForPublisher (s : ForwardTrackStore T) (room publisher : String) :
    ForwardTrackStore T :=
  {s with started := s.started.filter (fun key _ =>
      (key.room≠room ∨ key.publisher≠publisher))}

def activeKeys (s : ForwardTrackStore T) (track : ForwardTrackReaderKey) :
    Finset ForwardTrackKey :=
  (s.activeByTrack.lookup track).getD ∅

def listForTrack (s : ForwardTrackStore T) (track : ForwardTrackReaderKey) :
    FiniteMap ForwardTrackKey T :=
  .ofKeys (s.activeKeys track) s.tracks.lookup

def listForTrackWithIncarnation (s : ForwardTrackStore T) (track : ForwardTrackReaderKey) :
    FiniteMap ForwardTrackKey (T × UInt64) :=
  .ofKeys (s.activeKeys track) (fun key => (s.tracks.lookup key).bind (fun track =>
    (s.targetIncarnations.lookup key).map (fun incarnation => (track,incarnation))))

end ForwardTrackStore

variable {T : Type}

inductive StoreOperation (T : Type)
  | insert (key : ForwardTrackKey) (track : T) (active : Bool)
  | activateSubscriber (room subscriber : String)
  | activateSubscriberTrackSids (room subscriber : String) (trackSids : Finset String)
  | remove (key : ForwardTrackKey)
  | removeAllForTrack (track : ForwardTrackReaderKey)
  | removeTrack (track : ForwardTrackReaderKey)
  | removeSubscriberMid (room subscriber mid : String)
  | removeAllForPublisher (room publisher : String)
  | removeParticipant (room identity : String)
  | acquireTrackReader (key : ForwardTrackReaderKey)
  | revokeTrackReader (key : ForwardTrackReaderKey)
  | releaseTrackReader (lease : ForwardTrackReaderLease)
  | clearTrackReadersForPublisher (room publisher : String)

def ForwardTrackStore.apply [ForwardingTransport T] (s : ForwardTrackStore T) :
    StoreOperation T → ForwardTrackStore T
  | .insert key track active => s.insertWithActive key track active
  | .activateSubscriber room subscriber => s.activateSubscriber room subscriber
  | .activateSubscriberTrackSids room subscriber trackSids =>
    s.activateSubscriberTrackSids room subscriber trackSids
  | .remove key => s.remove key | .removeAllForTrack track => s.removeAllForTrack track
  | .removeTrack track => s.removeTrack track
  | .removeSubscriberMid room subscriber mid => s.removeSubscriberMid room subscriber mid
  | .removeAllForPublisher room publisher => s.removeAllForPublisher room publisher
  | .removeParticipant room identity => s.removeParticipant room identity
  | .acquireTrackReader key => (s.acquireTrackReader key).2
  | .revokeTrackReader key => (s.revokeTrackReader key).2
  | .releaseTrackReader lease => (s.releaseTrackReader lease).2
  | .clearTrackReadersForPublisher room publisher =>
    s.clearTrackReadersForPublisher room publisher

def storeAfter [ForwardingTransport T] (operations : List (StoreOperation T)) :
    ForwardTrackStore T :=
  operations.foldl ForwardTrackStore.apply .empty

end OxideSfu.ForwardTracks
