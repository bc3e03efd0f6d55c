import OxideSfu.SessionOutcomes

/-!
# Hidden participants

Who is hidden is filtered out of the list of others in a local join response, the broadcast of a
join and every later update except the last one. What gets through was visible at some time,
goodbyes apart.
-/

namespace OxideSfu.Signaling

open Rooms RoomStore SessionState List

def SeenVisible (start : SessionState) (events : List SessionEvent) (room : String)
    (snapshot : ParticipantInfo) : Prop :=
  ∃earlier participant,earlier <+: events ∧
    participantOf (start.run earlier) ⟨room,snapshot.identity⟩=some participant ∧
    participant.sid=snapshot.sid ∧ participantIsHidden participant=false

/-- In every state of a run, the participant with this sid is hidden if it is in the room. -/
def HiddenThroughout (start : SessionState) (events : List SessionEvent)
    (room identity sid : String) : Prop :=
  ∀earlier∈events.inits,
    (participantOf (start.run earlier) ⟨room,identity⟩).all
      (fun participant => participant.sid≠sid || participantIsHidden participant)
  deriving Decidable

variable {start s : SessionState} {es : List SessionEvent} {room : String}
  {key : ParticipantKey} {n : ParticipantInfo}

theorem SeenVisible.append (h : SeenVisible start es room n)
    (l : List SessionEvent) : SeenVisible start (es++l) room n := by
  obtain ⟨e,p,he,hs⟩ := h
  exact ⟨e,p,he.trans (prefix_append es l),hs⟩

theorem SeenVisible.not_hiddenThroughout (h : SeenVisible start es room n) :
    ¬ HiddenThroughout start es room n.identity n.sid := by
  obtain ⟨e,p,he,hp,hsid,hv⟩ := h
  intro hh
  have hall := hh e ((mem_inits _ _).mpr he)
  rw [hp] at hall
  simp [hsid,hv] at hall

theorem seenVisible_of_current (hk : Keyed (start.run es).rooms)
    (hc : Current (start.run es) key n) (hv : participantIsHidden n=false) :
    SeenVisible start es key.room n := by
  obtain ⟨p,hp,hs⟩ := hc
  have hi := hs.identity.trans (identity_of_keyed hk hp)
  refine ⟨es,p,prefix_rfl,?_,hs.sid.symm,?_⟩
  · rw [hi]
    exact hp
  · rw [← hv,participantIsHidden,participantIsHidden,hs.permission]

variable {e : SessionEvent} {shown : ParticipantInfo→Prop} {left : Option ParticipantInfo}
  {ps : PermissionStores}

/-- A snapshot that an event shows is a goodbye, or is of the participant that was there before or
is there afterwards. -/
theorem Outcome.shown_cases (h : Outcome s e key shown left ps) {n : ParticipantInfo}
    (hs : shown n) :
    n.state = .disconnected ∨ Current s key n ∨ ∃p,left=some p ∧ SameSession p n := by
  cases h with
  | kept => exact .inr (.inl hs)
  | left => exact .inl hs.1
  | resumed => exact hs.elim
  | joined =>
    obtain hg | hsame := hs
    · exact .inl hg.1
    · exact .inr (.inr ⟨_,rfl,hsame⟩)
  | updated => exact .inr (.inr ⟨_,rfl,hs⟩)
  | muted => exact .inr (.inl hs)
  | relayed => exact .inr (.inr ⟨_,rfl,hs⟩)
  | terminated => exact .inl hs.1

/-- Whatever receivers and the responses of local joins got in a run was visible at some time,
except for goodbyes. -/
structure OnlyVisibleShown (start : SessionState) (events : List SessionEvent) : Prop where
  delivered : ∀delivery∈(start.run events).updates.delivered,
    delivery.participant.state = .disconnected ∨
      SeenVisible start events delivery.room delivery.participant
  responses : ∀response∈(start.run events).joinResponses,response.relayed=false →
    ∀identity other,response.otherParticipants.lookup identity=some other →
      SeenVisible start events response.key.room other

variable {events : List SessionEvent}

theorem OnlyVisibleShown.delivered_step (h : OnlyVisibleShown start events)
    (hk : Keyed (start.run events).rooms)
    {d : Delivery} (hmem : d∈(start.run (events++[e])).updates.delivered) :
    d.participant.state = .disconnected ∨ SeenVisible start (events++[e]) d.room d.participant := by
  obtain ⟨key,shown,left,ps,ho,he⟩ := step_hasOutcome hk e
  have hk' := he.keyed hk
  rw [← run_concat] at he hk'
  obtain hold | ⟨n,hs,hr,rfl,hv⟩ := he.delivered.mem hmem
  · exact (h.delivered d hold).imp_right (fun hse => hse.append [e])
  rw [hr]
  -- What is not a goodbye is of a participant that is visible before or after the event.
  obtain hv | hg := hv
  · obtain hg | hc | ⟨p,rfl,hsame⟩ := ho.shown_cases hs
    · exact .inl hg
    · exact .inr ((seenVisible_of_current hk hc hv).append [e])
    · exact .inr (seenVisible_of_current hk' ⟨p,he.self,hsame⟩ hv)
  · exact .inl hg

theorem OnlyVisibleShown.responses_step (h : OnlyVisibleShown start events)
    (hk : Keyed (start.run events).rooms) {r : JoinResponse}
    (hmem : r∈(start.run (events++[e])).joinResponses) (hlo : r.relayed=false) {i : String}
    {o : ParticipantInfo} (ho : r.otherParticipants.lookup i=some o) :
    SeenVisible start (events++[e]) r.key.room o := by
  obtain ⟨key,shown,left,ps,hou,he⟩ := step_hasOutcome hk e
  obtain ⟨new,hr,hli⟩ := he.responses
  rw [run_concat,hr] at hmem
  obtain hold | hnew := mem_append.mp hmem
  · exact (h.responses r hold hlo i o ho).append [e]
  · obtain ⟨rfl,hl⟩ := hli r hnew
    obtain ⟨-,hv,hc⟩ := hl hlo i o ho
    have hl : Current (start.run events) ⟨r.key.room,i⟩ o := ⟨o,hc,.refl o⟩
    exact (seenVisible_of_current hk hl hv).append [e]

theorem onlyVisibleShown_run (defaults : RoomDefaults) (autoCreate : Bool)
    (es : List SessionEvent) : OnlyVisibleShown (initial defaults autoCreate) es := by
  induction es using reverseRecOn with
  | nil =>
    constructor
    · intro d hmem
      cases hmem
    · intro r hmem
      cases hmem
  | append_singleton es e ih =>
    have hk := keyed_sessionRun (keyed_sessionInitial defaults autoCreate) es
    exact ⟨fun d hmem => ih.delivered_step hk hmem,
      fun r hmem hl i o ho =>
        ih.responses_step hk hmem hl ho⟩

/-- What a run keeps from the others of a participant that is hidden all the time. -/
structure StaysHidden (start : SessionState) (events : List SessionEvent) : Prop where
  delivered : ∀delivery∈(start.run events).updates.delivered,
    HiddenThroughout start events delivery.room delivery.participant.identity
      delivery.participant.sid → delivery.participant.state = .disconnected
  responses : ∀response∈(start.run events).joinResponses,response.relayed=false →
    ∀identity other,response.otherParticipants.lookup identity=some other →
      ¬ HiddenThroughout start events response.key.room other.identity other.sid

/-- Of a participant that is hidden all the time, receivers get at most the goodbye, and the
responses of local joins do not list it. -/
theorem hidden_stays_hidden (defaults : RoomDefaults) (autoCreate : Bool)
    (events : List SessionEvent) : StaysHidden (initial defaults autoCreate) events := by
  have hs := onlyVisibleShown_run defaults autoCreate events
  constructor
  · intro delivery hmem hh
    exact (hs.delivered delivery hmem).resolve_right (fun hse => hse.not_hiddenThroughout hh)
  · intro response hmem hl identity other ho
    exact (hs.responses response hmem hl identity other ho).not_hiddenThroughout

def bobToken : AuthContext where
  apiKey := "key"
  claims := {sub := "bob",video := {roomJoin := true,room := "room"}}

def hiddenAlice : AuthContext where
  apiKey := "key"
  claims := {sub := "alice",video := {roomJoin := true,room := "room",hidden := true}}

/-- Alice, hidden from its join on, leaves, and Bob is told. -/
theorem hidden_goodbye_delivered :
    let events : List SessionEvent :=
      [.join bobToken {} true 0,.join hiddenAlice {} true 1,.leave alice 2]
    HiddenThroughout (initial {} true) events "room" "alice" "PA_0000000000000002" ∧
      (⟨"room","bob"⟩,"alice","PA_0000000000000002") ∈
        ((initial {} true).run events).updates.delivered.map (fun delivery =>
          (delivery.owner,delivery.participant.identity,delivery.participant.sid)) := by
  decide +kernel

end OxideSfu.Signaling
