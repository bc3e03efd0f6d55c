import OxideSfu.RoomParticipants
import OxideSfu.SubscriptionStores

/-!
# The hub of participant updates

Every open session of a room has a receiver at the hub (`ParticipantUpdateHub` in `router.rs`). A
snapshot goes to all receivers of its room, unless the participant is hidden or one at least as new
was broadcast before. What the receivers get is recorded.
-/

namespace OxideSfu.Signaling

open FiniteMaps Rooms RoomStore List

/-- One end of a channel; `owner` says whose session listens at the other one. -/
structure UpdateReceiver where
  channel : ℕ
  owner : ParticipantKey

structure Delivery where
  owner : ParticipantKey
  room : String
  participant : ParticipantInfo

structure ParticipantUpdateHub where
  rooms : FiniteMap String (List UpdateReceiver)
  latestVersions : FiniteMap (String × String) ℕ
  closed : Finset ℕ
  delivered : List Delivery

def participantUpdateVersionKey (participant : ParticipantInfo) : Option String :=
  if participant.sid ≠ "" then some ("sid:" ++ participant.sid)
  else if participant.identity ≠ "" then some ("identity:" ++ participant.identity)
  else none

namespace ParticipantUpdateHub

def empty : ParticipantUpdateHub := ⟨.empty,.empty,∅,[]⟩

def listening (hub : ParticipantUpdateHub) (room : String) : List UpdateReceiver :=
  ((hub.rooms.lookup room).getD []).filter (·.channel∉hub.closed)

def register (hub : ParticipantUpdateHub) (room : String) (receiver : UpdateReceiver) :
    ParticipantUpdateHub :=
  {hub with rooms := hub.rooms.insert room (hub.listening room++[receiver])}

def deliver (hub : ParticipantUpdateHub) (room : String) (participant : ParticipantInfo) :
    ParticipantUpdateHub :=
  {hub with
    delivered := hub.delivered ++
      (hub.listening room).map (fun receiver => ⟨receiver.owner,room,participant⟩)}

/-- The others learn of a join unless it is hidden; the joining session listens from now on. -/
def registerAndBroadcastJoin (hub : ParticipantUpdateHub) (room : String)
    (participant : ParticipantInfo) (receiver : UpdateReceiver) : ParticipantUpdateHub :=
  if participantIsHidden participant then hub.register room receiver
  else (hub.deliver room participant).register room receiver

/-- A version is broadcast once; what is older than the newest one is not. -/
def shouldBroadcastUpdate (hub : ParticipantUpdateHub) (room : String)
    (participant : ParticipantInfo) : Bool × ParticipantUpdateHub :=
  match participantUpdateVersionKey participant with
  | none => (true,hub)
  | some key =>
    if (hub.latestVersions.lookup (room,key)).all (·<participant.version) then
      (true,{hub with latestVersions := hub.latestVersions.insert (room,key) participant.version})
    else (false,hub)

def retainListening (hub : ParticipantUpdateHub) (room : String) : ParticipantUpdateHub :=
  match hub.rooms.lookup room with
  | none => hub
  | some _ => {hub with rooms := hub.rooms.insert room (hub.listening room)}

def broadcastUpdate (hub : ParticipantUpdateHub) (room : String) (participant : ParticipantInfo) :
    ParticipantUpdateHub :=
  if participantIsHidden participant ∧ participant.state ≠ .disconnected then hub
  else
    match hub.shouldBroadcastUpdate room participant with
    | (false,hub) => hub | (true,hub) => (hub.deliver room participant).retainListening room

def close (hub : ParticipantUpdateHub) (channel : ℕ) : ParticipantUpdateHub :=
  {hub with closed := insert channel hub.closed}

end ParticipantUpdateHub

open ParticipantUpdateHub

variable {p : ParticipantInfo} {hub : ParticipantUpdateHub} {room o : String} {v : UpdateReceiver}

def membersOf (hub : ParticipantUpdateHub) (room : String) : List UpdateReceiver :=
  (hub.rooms.lookup room).getD []

theorem mem_listening : v∈hub.listening room ↔ v∈membersOf hub room ∧ v.channel∉hub.closed := by
  rw [listening,mem_filter,decide_eq_true_iff]
  rfl

variable (hub)

theorem membersOf_register (room o : String) (v : UpdateReceiver) :
    membersOf (hub.register room v) o =
      if o=room then hub.listening room++[v] else membersOf hub o := by
  rw [membersOf,register,FiniteMap.lookup_insert]
  split_ifs
  · rfl
  · rfl

theorem membersOf_retainListening (room o : String) :
    membersOf (hub.retainListening room) o =
      if o=room then hub.listening room else membersOf hub o := by
  rw [retainListening]
  cases hr : hub.rooms.lookup room with
  | none =>
    have hn : hub.listening room=[] := by rw [listening,hr]; rfl
    split_ifs with ho
    · rw [ho,membersOf,hr,hn]
      rfl
    · rfl
  | some receivers =>
    rw [membersOf,FiniteMap.lookup_insert]
    split_ifs
    · rfl
    · rfl

theorem closed_retainListening (room : String) :
    (hub.retainListening room).closed=hub.closed := by
  rw [retainListening]
  split <;> rfl

variable {hub}

theorem mem_listening_retainListening :
    v∈(hub.retainListening room).listening o ↔ v∈hub.listening o := by
  rw [mem_listening,mem_listening,closed_retainListening,membersOf_retainListening]
  refine and_congr_left fun hop => ?_
  split_ifs with ho
  · rw [ho,mem_listening]
    exact and_iff_left hop
  · rfl

variable {new : UpdateReceiver}

theorem listening_of_register (h : v∈(hub.register room new).listening o) :
    v∈hub.listening o ∨ v=new ∧ o=room := by
  obtain ⟨hm,hop⟩ := mem_listening.mp h
  rw [membersOf_register] at hm
  split_ifs at hm with ho
  · obtain hold | hnew := mem_append.mp hm
    · rw [ho]
      exact .inl hold
    · exact .inr ⟨mem_singleton.mp hnew,ho⟩
  · exact .inl (mem_listening.mpr ⟨hm,hop⟩)

theorem listening_of_registerAndBroadcastJoin
    (h : v∈(hub.registerAndBroadcastJoin room p new).listening o) :
    v∈hub.listening o ∨ v=new ∧ o=room := by
  rw [registerAndBroadcastJoin] at h
  split_ifs at h
  · exact listening_of_register h
  · exact listening_of_register h

theorem listening_of_close {c : ℕ} (h : v∈(hub.close c).listening room) : v∈hub.listening room := by
  obtain ⟨hm,ho⟩ := mem_listening.mp h
  exact mem_listening.mpr ⟨hm,fun hc => ho (Finset.mem_insert_of_mem hc)⟩

theorem listening_of_broadcastUpdate (h : v∈(hub.broadcastUpdate room p).listening o) :
    v∈hub.listening o := by
  have hch : ∀r checked,hub.shouldBroadcastUpdate room p=(r,checked) →
      membersOf checked=membersOf hub ∧ checked.closed=hub.closed := by
    intro r checked heq
    rw [shouldBroadcastUpdate] at heq
    split at heq
    · cases heq
      exact ⟨rfl,rfl⟩
    · split_ifs at heq <;> · cases heq; exact ⟨rfl,rfl⟩
  rw [broadcastUpdate] at h
  split_ifs at h
  · exact h
  · split at h
    · next checked heq =>
      obtain ⟨hm,hc⟩ := hch _ _ heq
      rw [mem_listening,hm,hc] at h
      exact mem_listening.mpr h
    · next checked heq =>
      obtain ⟨hm,hc⟩ := hch _ _ heq
      rw [mem_listening_retainListening] at h
      have hl : v∈checked.listening o := h
      rw [mem_listening,hm,hc] at hl
      exact mem_listening.mpr hl

/-- What the hub delivers from one state to a later one. -/
def Delivers (hub hub' : ParticipantUpdateHub) (P : Delivery→Prop) : Prop :=
  ∃new,hub'.delivered=hub.delivered++new ∧ ∀delivery∈new,P delivery

variable {hub' hub'' : ParticipantUpdateHub} {P Q : Delivery→Prop}

theorem Delivers.of_same (h : hub'.delivered=hub.delivered) : Delivers hub hub' P :=
  ⟨[],by rw [h,append_nil],fun _ hmem => by cases hmem⟩

variable (h : Delivers hub hub' P)
include h

theorem Delivers.trans (h' : Delivers hub' hub'' P) : Delivers hub hub'' P := by
  obtain ⟨new,heq,hnew⟩ := h
  obtain ⟨new',heq',hn'⟩ := h'
  refine ⟨new++new',by rw [heq',heq,append_assoc],?_⟩
  intro d hmem
  obtain hmem | hmem := mem_append.mp hmem
  · exact hnew d hmem
  · exact hn' d hmem

theorem Delivers.mono (himp : ∀d,P d → Q d) : Delivers hub hub' Q := by
  obtain ⟨new,heq,hnew⟩ := h
  exact ⟨new,heq,fun d hmem => himp d (hnew d hmem)⟩

theorem Delivers.mem {d : Delivery} (hmem : d∈hub'.delivered) : d∈hub.delivered ∨ P d := by
  obtain ⟨new,heq,hnew⟩ := h
  rw [heq,mem_append] at hmem
  exact hmem.imp_right (hnew d)

omit h

def Announces (room : String) (participant : ParticipantInfo) (delivery : Delivery) : Prop :=
  delivery.room=room ∧ delivery.participant=participant ∧
    (participantIsHidden participant=false ∨ participant.state = .disconnected)

variable (hub) (room)

theorem delivers_deliver (h : participantIsHidden p=false ∨ p.state = .disconnected) :
    Delivers hub (hub.deliver room p) (Announces room p) := by
  refine ⟨_,rfl,fun d hmem => ?_⟩
  obtain ⟨v,-,rfl⟩ := mem_map.mp hmem
  exact ⟨rfl,rfl,h⟩

theorem delivered_retainListening :
    (hub.retainListening room).delivered=hub.delivered := by
  rw [retainListening]
  split <;> rfl

theorem delivers_broadcastUpdate (p : ParticipantInfo) :
    Delivers hub (hub.broadcastUpdate room p) (Announces room p) := by
  rw [broadcastUpdate]
  split_ifs with hh
  · exact .of_same rfl
  · have hsh : participantIsHidden p=false ∨ p.state = .disconnected := by
      by_cases hs : p.state = .disconnected
      · exact .inr hs
      · exact .inl (by simpa [hs] using hh)
    have hv : (hub.shouldBroadcastUpdate room p).2.delivered=hub.delivered := by
      rw [shouldBroadcastUpdate]
      split
      · rfl
      · split_ifs <;> rfl
    split
    · next hub' heq =>
      rw [heq] at hv
      exact .of_same hv
    · next hub' heq =>
      rw [heq] at hv
      refine (Delivers.of_same hv).trans ?_
      refine (delivers_deliver hub' room hsh).trans ?_
      exact .of_same (delivered_retainListening _ room)

theorem delivers_registerAndBroadcastJoin (p : ParticipantInfo) (v : UpdateReceiver) :
    Delivers hub (hub.registerAndBroadcastJoin room p v) (Announces room p) := by
  rw [registerAndBroadcastJoin]
  split_ifs with hh
  · exact .of_same rfl
  · refine (delivers_deliver hub room (.inl (by simpa using hh))).trans ?_
    exact .of_same rfl

variable {room} {hub}

theorem delivered_registerAndBroadcastJoin {room : String} (hv : participantIsHidden p=false)
    {v : UpdateReceiver} (hl : v∈hub.listening room) (new : UpdateReceiver) :
    ⟨v.owner,room,p⟩∈(hub.registerAndBroadcastJoin room p new).delivered := by
  rw [registerAndBroadcastJoin,hv]
  exact mem_append_right _ (mem_map_of_mem hl)

end OxideSfu.Signaling
