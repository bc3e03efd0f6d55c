import OxideSfu.JoinInterleaving
import OxideSfu.SessionOutcomes

/-!
# Joins and who learns of them

Of two participants that join one room, the one that enters the room store second lists the first
one in its join response. The first one learns of the second from the broadcast with the second's
registration, provided that it is registered itself by then.
-/

namespace OxideSfu.Signaling

open FiniteMaps Rooms RoomStore CriticalSections StepRuns FiniteMap Option List

def InRoom (s : SessionState) (key : ParticipantKey) : Prop := (participantOf s key).isSome
  deriving Decidable

def Listens (s : SessionState) (key : ParticipantKey) : Prop :=
  ∃receiver∈s.updates.listening key.room,receiver.owner=key
  deriving Decidable

def Answered (s : SessionState) (key other : ParticipantKey) : Prop :=
  ∃response∈s.joinResponses,response.key=key ∧
    (response.otherParticipants.lookup other.identity).isSome
  deriving Decidable

def Updated (s : SessionState) (key other : ParticipantKey) : Prop :=
  ∃delivery∈s.updates.delivered,delivery.owner=key ∧ delivery.room=other.room ∧
    delivery.participant.identity=other.identity
  deriving Decidable

/-- Whoever is in a room and connected has learned of all others in the room. -/
def NoneMissed (s : SessionState) : Prop :=
  ∀key other,key≠other → key.room=other.room → InRoom s key → Listens s key →
    InRoom s other → Answered s key other ∨ Updated s key other

def joiningAt (running : FiniteMap ℕ RosterPoint) (thread : ℕ) : Option ParticipantKey :=
  (running.lookup thread).bind RosterPoint.joining

def Waits (c : Threads SessionState RosterPoint) (key : ParticipantKey) : Prop :=
  ∃thread∈c.running.keys,joiningAt c.running thread=some key
  deriving Decidable

/-- Everybody in the room whom the response of a participant lists has registered. -/
def ListedRegistered (c : Threads SessionState RosterPoint) (key : ParticipantKey) : Prop :=
  ∀response∈c.shared.joinResponses,response.key=key →
    ∀identity∈response.otherParticipants.keys,InRoom c.shared ⟨key.room,identity⟩ →
      ¬ Waits c ⟨key.room,identity⟩
  deriving Decidable

/-- Join responses can be sent, and a join registers after all who were in the room before it. -/
def RegistersInOrder (c : Threads SessionState RosterPoint) : Event RosterCall→Prop
  | .enter _ (.join _ _ delivered _) => delivered | .enter _ (.leave _ _) => True
  | .enter _ (.drop _) => True
  | .resume thread => ∀key∈(c.running.lookup thread).bind RosterPoint.registers,
      ListedRegistered c key

instance (c : Threads SessionState RosterPoint) :
    (event : Event RosterCall)→Decidable (RegistersInOrder c event)
  | .enter _ (.join _ _ delivered _) => inferInstanceAs (Decidable (delivered))
  | .enter _ (.leave ..) | .enter _ (.drop _) => isTrue trivial
  | .resume _ => inferInstanceAs (Decidable (∀key∈_,_))

def joinKeyOf : Event RosterCall→Option ParticipantKey
  | .enter _ (.join auth _ _ _) => some auth.key | _ => none

def JoinsHidden : Event RosterCall→Prop
  | .enter _ (.join auth _ _ _) => auth.claims.video.hidden | _ => False

instance : (event : Event RosterCall)→Decidable (JoinsHidden event)
  | .enter _ (.join auth _ _ _) => inferInstanceAs (Decidable (auth.claims.video.hidden))
  | .enter _ (.leave ..) | .enter _ (.drop _) | .resume _ => isFalse id

def rosterRun (defaults : RoomDefaults) (autoCreate : Bool) (events : List (Event RosterCall)) :
    Threads SessionState RosterPoint :=
  rosterMachine.run (.idle (.initial defaults autoCreate)) events

section

variable {running : FiniteMap ℕ RosterPoint} {c d : Threads SessionState RosterPoint}
  {thread : ℕ} {key : ParticipantKey}

theorem waits_iff : Waits c key ↔ ∃t,joiningAt c.running t=some key := by
  constructor
  · rintro ⟨t,-,hj⟩
    exact ⟨t,hj⟩
  · rintro ⟨t,hj⟩
    obtain ⟨x,hr,-⟩ := bind_eq_some_iff.mp hj
    exact ⟨t,mem_keys_of_lookup hr,hj⟩

theorem joiningAt_insert (x : RosterPoint) (o : ℕ) :
    joiningAt (running.insert thread x) o =
      if o=thread then x.joining else joiningAt running o := by
  rw [joiningAt,lookup_insert]
  split_ifs <;> rfl

theorem joiningAt_erase (o : ℕ) :
    joiningAt (running.erase thread) o =
      if o=thread then none else joiningAt running o := by
  rw [joiningAt,lookup_erase]
  split_ifs <;> rfl

theorem joiningAt_of_lookup {x : RosterPoint} (h : running.lookup thread=some x) :
    joiningAt running thread=x.joining := by
  rw [joiningAt,h,bind_some]

theorem joiningAt_insert_same {x : RosterPoint} (h : joiningAt running thread=x.joining) :
    joiningAt (running.insert thread x)=joiningAt running := by
  funext o
  rw [joiningAt_insert]
  split_ifs with ho
  · rw [ho,h]
  · rfl

theorem joiningAt_erase_same (h : joiningAt running thread=none) :
    joiningAt (running.erase thread)=joiningAt running := by
  funext o
  rw [joiningAt_erase]
  split_ifs with ho
  · rw [ho,h]
  · rfl

theorem waits_congr (h : joiningAt d.running=joiningAt c.running) : Waits d key ↔ Waits c key := by
  rw [waits_iff,waits_iff,h]

variable {K K' : List ParticipantKey} {s t : SessionState}

/-- Only visible participants of known keys are in the rooms, in join responses and at the hub. -/
structure RosterKnown (K : List ParticipantKey) (s : SessionState) : Prop where
  keyed : Keyed s.rooms
  visible : ∀key participant,participantOf s key=some participant →
    participantIsHidden participant=false
  known : ∀key,InRoom s key → key∈K
  responses : ∀key other,Answered s key other → ⟨key.room,other.identity⟩∈K
  listeners : ∀key,Listens s key → key∈K

section

variable (h : RosterKnown K s)

include h

theorem RosterKnown.mono (hg : K⊆K') : RosterKnown K' s where
  keyed := h.keyed
  visible := h.visible
  known key ht := hg (h.known key ht)
  responses key other ha := hg (h.responses key other ha)
  listeners key hl := hg (h.listeners key hl)

theorem RosterKnown.roster {p : Option ParticipantInfo}
    (hr : Roster s t key p) (hp : ∀present∈p,participantIsHidden present=false ∧ key∈K) :
    RosterKnown K t where
  keyed := hr.keyed h.keyed
  visible other present ht := by
    by_cases ho : other=key
    · rw [ho,hr.self] at ht
      exact (hp present ht).1
    · rw [hr.other ho] at ht
      exact h.visible other present ht
  known other ht := by
    by_cases ho : other=key
    · rw [InRoom,ho,hr.self] at ht
      obtain ⟨present,hs⟩ := isSome_iff_exists.mp ht
      rw [ho]
      exact (hp present hs).2
    · rw [InRoom,hr.other ho] at ht
      exact h.known other ht
  responses first second ha := by
    rw [Answered,hr.responses] at ha
    exact h.responses first second ha
  listeners other hl := by
    rw [Listens,hr.updates] at hl
    exact h.listeners other hl

theorem RosterKnown.listen (hr : t.rooms=s.rooms) (hre : t.joinResponses=s.joinResponses)
    (hli : ∀key,Listens t key → Listens s key ∨ key∈K) : RosterKnown K t where
  keyed := hr ▸ h.keyed
  visible key participant ht := by
    rw [participantOf,hr] at ht
    exact h.visible key participant ht
  known key ht := by
    rw [InRoom,participantOf,hr] at ht
    exact h.known key ht
  responses key other ha := by
    rw [Answered,hre] at ha
    exact h.responses key other ha
  listeners key hl := (hli key hl).elim (h.listeners key) id

theorem RosterKnown.answer {r : JoinResponse}
    (ho : ∀i,(r.otherParticipants.lookup i).isSome → ⟨r.key.room,i⟩∈K) :
    RosterKnown K {s with joinResponses := s.joinResponses++[r]} where
  keyed := h.keyed
  visible := h.visible
  known := h.known
  responses key other ha := by
    obtain ⟨an,hmem,hkey,hl⟩ := ha
    obtain hold | hnew := mem_append.mp hmem
    · exact h.responses key other ⟨an,hold,hkey,hl⟩
    · rw [mem_singleton.mp hnew] at hkey hl
      rw [← hkey]
      exact ho other.identity hl
  listeners := h.listeners

end

def RosterPoint.Sound (K : List ParticipantKey) : RosterPoint→Prop
  | .stored auth joined delivered => auth.key∈K ∧ delivered ∧
      ∀identity other,joined.existing.lookup identity=some other →
        participantIsHidden other=false ∧ ⟨auth.key.room,identity⟩∈K
  | .answered auth => auth.key∈K
  | .registering auth participant => auth.key∈K ∧
      participant.identity=auth.key.identity ∧ participantIsHidden participant=false
  | .leaving _ _ => True

variable {x : RosterPoint}

theorem RosterPoint.Sound.mono (h : x.Sound K) (hg : K⊆K') : x.Sound K' := by
  cases x with
  | stored auth j d =>
    exact ⟨hg h.1,h.2.1,fun i o ho =>
      ⟨(h.2.2 i o ho).1,hg (h.2.2 i o ho).2⟩⟩
  | answered auth => exact hg h
  | registering auth p => exact ⟨hg h.1,h.2⟩
  | leaving room p => trivial

theorem RosterPoint.Sound.known (h : x.Sound K) (hj : x.joining=some key) : key∈K := by
  cases x with
  | stored | registering => exact some.inj hj ▸ h.1
  | answered auth => exact some.inj hj ▸ h
  | leaving room p => cases hj

/-- No two threads are in joins of one participant. -/
structure RosterSound (K : List ParticipantKey) (c : Threads SessionState RosterPoint) : Prop where
  roster : RosterKnown K c.shared
  points : ∀thread point,c.running.lookup thread=some point → point.Sound K
  alone : ∀thread other key,joiningAt c.running thread=some key →
    joiningAt c.running other=some key → thread=other

variable {event : Event RosterCall} (h : RosterSound K c)

include h

theorem RosterSound.known_of_waits (hw : Waits c key) : key∈K := by
  obtain ⟨t,hj⟩ := waits_iff.mp hw
  obtain ⟨x,hr,hkey⟩ := bind_eq_some_iff.mp hj
  exact (h.points t x hr).known hkey

/-- A thread stays in its join, is in none, or starts one of a new participant. -/
theorem RosterSound.insert (hg : K⊆K') (ht : RosterKnown K' t) {thread : ℕ} (hso : x.Sound K')
    (hj : joiningAt c.running thread=x.joining ∨ ∃key∉K,x.joining=some key) :
    RosterSound K' ⟨t,c.running.insert thread x⟩ where
  roster := ht
  points o present hr := by
    obtain ⟨-,rfl⟩ | ⟨-,hb⟩ := lookup_of_insert hr
    · exact hso
    · exact (h.points o present hb).mono hg
  alone := by
    obtain hsame | ⟨new,hnew,hp⟩ := hj
    · rw [joiningAt_insert_same hsame]
      exact h.alone
    · have hold : ∀o,joiningAt c.running o≠some new := fun o ho =>
        hnew (h.known_of_waits (waits_iff.mpr ⟨o,ho⟩))
      intro first b key hfi hse
      rw [joiningAt_insert] at hfi hse
      split_ifs at hfi hse with hf hs hs
      · rw [hf,hs]
      · rw [hp] at hfi
        exact absurd (hse.trans hfi.symm) (hold b)
      · rw [hp] at hse
        exact absurd (hfi.trans hse.symm) (hold first)
      · exact h.alone first b key hfi hse

theorem RosterSound.erase (ht : RosterKnown K t) (thread : ℕ) :
    RosterSound K ⟨t,c.running.erase thread⟩ where
  roster := ht
  points other present hr := by
    exact h.points other present (lookup_of_erase hr).2
  alone first second key hf hs := by
    rw [joiningAt_erase] at hf hs
    split_ifs at hf hs
    exact h.alone first second key hf hs

theorem RosterSound.mono (hg : K⊆K') : RosterSound K' c :=
  ⟨h.roster.mono hg,fun t x hr => (h.points t x hr).mono hg,h.alone⟩

def JoinsNew (K K' : List ParticipantKey) (event : Event RosterCall) : Prop :=
  ∀thread auth request delivered now,event = .enter thread (.join auth request delivered now) →
    auth.key∉K ∧ auth.key∈K' ∧ auth.claims.video.hidden=false ∧ delivered

theorem RosterSound.step (hg : K⊆K') (hj : JoinsNew K K' event)
    (hst : RosterStep c event d) : RosterSound K' d := by
  have h' := h.mono hg
  cases hst with
  | nothing => exact h'
  | refused _ t key hroom =>
    exact ⟨h'.roster.roster hroom (fun _ hn => by cases hn),h'.points,h'.alone⟩
  | stored thread auth r delivered now j t hroom hp he hi =>
    obtain ⟨hnew,hk,hv,hd⟩ := hj thread auth r delivered now rfl
    have hh : participantIsHidden j.participant=false := by
      rw [participantIsHidden,hp]
      exact hv
    refine h.insert hg (h'.roster.roster hroom ?_) ⟨hk,hd,?_⟩ (.inr ⟨auth.key,hnew,rfl⟩)
    · rintro _ ⟨⟩
      exact ⟨hh,hk⟩
    · intro i o hot
      rw [he] at hot
      refine ⟨h'.roster.visible _ o hot,h'.roster.known _ ?_⟩
      rw [InRoom,hot]
      rfl
  | left thread key now p t hroom hi =>
    refine h'.insert (fun _ => id) (h'.roster.roster hroom (fun _ hn => by cases hn)) trivial
      (.inl ?_)
    rw [joiningAt,hi]
    rfl
  | dropped _ ch =>
    refine ⟨h'.roster.listen rfl rfl ?_,h'.points,h'.alone⟩
    rintro key ⟨v,hmem,ho⟩
    exact .inl ⟨v,listening_of_close hmem,ho⟩
  | answered thread auth j delivered hr t present response hsame hroom hkey hoth =>
    obtain ⟨hk,rfl,he⟩ := h'.points thread _ hr
    have hpr : RosterKnown K' t := by
      refine h'.roster.roster hroom (fun p hmem => ⟨?_,hk⟩)
      rw [mem_def.mp hmem] at hsame
      obtain ⟨e,hea,hs⟩ := exists_of_sameParticipant hsame
      rw [participantIsHidden,hs.permission]
      exact h'.roster.visible _ e hea
    refine h'.insert (fun _ => id) (hpr.answer ?_) hk (.inl ?_)
    · intro i hl
      rw [hoth] at hl
      obtain ⟨o,hot⟩ := isSome_iff_exists.mp hl
      rw [hkey]
      exact (he i o (filter_eq_some_iff.mp hot).1).2
    · rw [joiningAt_of_lookup hr]
      rfl
  | gone thread auth hr hno => exact h'.erase h'.roster thread
  | read thread auth hr p ht =>
    have hk : auth.key∈K' := h'.points thread _ hr
    refine h'.insert (fun _ => id) h'.roster ⟨hk,?_,h'.roster.visible _ _ ht⟩ (.inl ?_)
    · exact identity_of_keyed h'.roster.keyed ht
    · rw [joiningAt_of_lookup hr]
      rfl
  | registered thread auth p hr =>
    obtain ⟨hk,-⟩ := h'.points thread _ hr
    refine h'.erase (t := c.shared.registerJoin auth p) (h'.roster.listen rfl rfl ?_) thread
    rintro key ⟨v,hmem,ho⟩
    obtain hold | ⟨rfl,-⟩ := listening_of_registerAndBroadcastJoin hmem
    · exact .inl ⟨v,hold,ho⟩
    · rw [← ho]
      exact .inr hk
  | goodbye thread room p hr =>
    refine h'.erase (t := c.shared.broadcastUpdate room p) (h'.roster.listen rfl rfl ?_) thread
    rintro key ⟨v,hmem,ho⟩
    exact .inl ⟨v,listening_of_broadcastUpdate hmem,ho⟩

end

variable {K : List ParticipantKey} {c d : Threads SessionState RosterPoint} {e : Event RosterCall}

/-- A participant found somebody in the room when it entered the room store. -/
def Found (c : Threads SessionState RosterPoint) (key other : ParticipantKey) : Prop :=
  (∃thread auth joined delivered,
    c.running.lookup thread=some (.stored auth joined delivered) ∧ auth.key=key ∧
      (joined.existing.lookup other.identity).isSome) ∨ Answered c.shared key other

/-- Of two participants in a room one found the other; whoever is found by somebody who has
registered has registered; and whoever listens has learned of all who have registered. -/
structure RosterOrdered (c : Threads SessionState RosterPoint) : Prop where
  total : ∀key other,key≠other → key.room=other.room → InRoom c.shared key →
    InRoom c.shared other → Found c key other ∨ Found c other key
  settled : ∀key other,key≠other → key.room=other.room → InRoom c.shared key →
    InRoom c.shared other → ¬ Waits c key → Found c key other → ¬ Waits c other
  learned : ∀key other,key≠other → key.room=other.room → InRoom c.shared key →
    Listens c.shared key → InRoom c.shared other → ¬ Waits c other →
    Answered c.shared key other ∨ Updated c.shared key other

/-- A step after which nobody new is in a room or listens, and nobody has joined or registered. -/
theorem RosterOrdered.of_quiet (h : RosterOrdered c)
    (ht : ∀key,InRoom d.shared key → InRoom c.shared key)
    (hf : ∀key o,Found d key o ↔ Found c key o)
    (hw : ∀key,InRoom d.shared key → (Waits d key ↔ Waits c key))
    (hli : ∀key,Listens d.shared key → Listens c.shared key)
    (hle : ∀key o,Answered c.shared key o ∨ Updated c.shared key o →
      Answered d.shared key o ∨ Updated d.shared key o) : RosterOrdered d where
  total key o hne hroom hkey ho := by
    rw [hf,hf]
    exact h.total key o hne hroom (ht key hkey) (ht o ho)
  settled key o hne hroom hkey ho hr := by
    rw [hf,hw o ho]
    rw [hw key hkey] at hr
    exact h.settled key o hne hroom (ht key hkey) (ht o ho) hr
  learned key o hne hroom hkey hl ho hr := by
    rw [hw o ho] at hr
    exact hle key o (h.learned key o hne hroom (ht key hkey) (hli key hl) (ht o ho) hr)

variable {s t : SessionState} {key o : ParticipantKey} {running : FiniteMap ℕ RosterPoint}
  {thread : ℕ} {auth : AuthContext} {j : Joined}

theorem Roster.inRoom (h : Roster s t key none) (ht : InRoom t o) : InRoom s o := by
  by_cases ho : o=key
  · rw [InRoom,ho,h.self] at ht
    cases ht
  · rwa [InRoom,h.other ho] at ht

variable {p : Option ParticipantInfo} {delivered : Bool} {present : Option ParticipantInfo}
  {b first : ParticipantKey} {r : JoinResponse} (h : Roster s t key p)
include h

theorem Roster.answered_iff : Answered t first b ↔ Answered s first b := by
  rw [Answered,h.responses,Answered]

theorem Roster.updated_iff : Updated t first b ↔ Updated s first b := by
  rw [Updated,h.updates,Updated]

theorem Roster.listens_iff : Listens t o ↔ Listens s o := by
  rw [Listens,h.updates,Listens]

omit h

theorem Updated.mono {P : Delivery→Prop} (h : Updated s key o)
    (hd : Delivers s.updates t.updates P) : Updated t key o := by
  obtain ⟨d,hmem,hde⟩ := h
  obtain ⟨new,heq,-⟩ := hd
  refine ⟨d,?_,hde⟩
  rw [heq]
  exact mem_append_left new hmem

theorem found_congr
    (hs : ∀t auth j delivered, d.running.lookup t=some (.stored auth j delivered) ↔
      c.running.lookup t=some (.stored auth j delivered))
    (ha : ∀key o,Answered d.shared key o ↔ Answered c.shared key o)
    (key o : ParticipantKey) : Found d key o ↔ Found c key o := by
  simp only [Found,hs,ha]

section

variable (hb : ∀auth j d,running.lookup thread ≠ some (.stored auth j d))

include hb

theorem lookup_insert_stored {x : RosterPoint} (hp : ∀auth j d,x ≠ .stored auth j d) (o : ℕ)
    (auth : AuthContext) (j : Joined) (d : Bool) :
    (running.insert thread x).lookup o=some (.stored auth j d) ↔
      running.lookup o=some (.stored auth j d) := by
  rw [lookup_insert]
  split_ifs with ho
  · rw [ho]
    exact iff_of_false (fun h => hp _ _ _ (some.inj h)) (hb _ _ _)
  · rfl

theorem lookup_erase_stored (o : ℕ) (auth : AuthContext) (j : Joined) (d : Bool) :
    (running.erase thread).lookup o=some (.stored auth j d) ↔
      running.lookup o=some (.stored auth j d) := by
  rw [lookup_erase]
  split_ifs with ho
  · rw [ho]
    exact iff_of_false (fun h => by cases h) (hb _ _ _)
  · rfl

end

theorem RosterSound.known_of_found (h : RosterSound K c) (hroom : key.room=o.room)
    (hf : Found c key o) : o∈K := by
  have ho : (⟨key.room,o.identity⟩ : ParticipantKey)=o := by rw [hroom]
  rw [← ho]
  obtain ⟨t,auth,j,d,hr,rfl,hl⟩ | ha := hf
  · obtain ⟨present,hp⟩ := isSome_iff_exists.mp hl
    exact ((h.points t _ hr).2.2 o.identity present hp).2
  · exact h.roster.responses key o ha

theorem waits_insert_stored {t : SessionState} (hi : c.running.lookup thread=none)
    (key : ParticipantKey) :
    Waits ⟨t,c.running.insert thread (.stored auth j delivered)⟩ key ↔ key=auth.key ∨
      Waits c key := by
  have hj : ∀o,joiningAt (c.running.insert thread (.stored auth j delivered)) o =
      if o=thread then some auth.key else joiningAt c.running o := joiningAt_insert _
  rw [waits_iff,waits_iff]
  constructor
  · rintro ⟨o,ho⟩
    rw [hj] at ho
    split_ifs at ho
    · exact .inl (some.inj ho).symm
    · exact .inr ⟨o,ho⟩
  · rintro (rfl | ⟨o,ho⟩)
    · exact ⟨thread,by rw [hj,if_pos rfl]⟩
    · refine ⟨o,?_⟩
      rw [hj,if_neg]
      · exact ho
      · rintro rfl
        rw [joiningAt,hi] at ho
        cases ho

/-- A join that has entered the room store has found those that its snapshot has. -/
theorem found_insert_stored {t : SessionState}
    (hroom : Roster c.shared t auth.key (some j.participant))
    (hi : c.running.lookup thread=none) (key o : ParticipantKey) :
    Found ⟨t,c.running.insert thread (.stored auth j delivered)⟩ key o ↔
      (auth.key=key ∧ (j.existing.lookup o.identity).isSome) ∨ Found c key o := by
  constructor
  · rintro (⟨e,auth',joined',delivered',hr,hkey,hl⟩ | ha)
    · obtain ⟨-,hp⟩ | ⟨-,hb⟩ := lookup_of_insert hr
      · cases hp
        exact .inl ⟨hkey,hl⟩
      · exact .inr (.inl ⟨e,auth',joined',delivered',hb,hkey,hl⟩)
    · exact .inr (.inr (hroom.answered_iff.mp ha))
  · rintro (⟨hkey,hl⟩ | ⟨e,auth',joined',delivered',hr,hkey,hl⟩ | ha)
    · refine .inl ⟨thread,auth,j,delivered,?_,hkey,hl⟩
      rw [lookup_insert,if_pos rfl]
    · refine .inl ⟨e,auth',joined',delivered',?_,hkey,hl⟩
      rw [lookup_insert,if_neg]
      · exact hr
      · rintro rfl
        rw [hi] at hr
        cases hr
    · exact .inr (hroom.answered_iff.mpr ha)

theorem RosterOrdered.stored (h : RosterOrdered c) (hs : RosterSound K c)
    (hros : Roster c.shared t auth.key (some j.participant)) (hnew : auth.key∉K)
    (he : ∀i,j.existing.lookup i = participantOf c.shared ⟨auth.key.room,i⟩)
    (hi : c.running.lookup thread=none) :
    RosterOrdered ⟨t,c.running.insert thread (.stored auth j delivered)⟩ := by
  have hw := @waits_insert_stored c thread auth j delivered t hi
  have hf := @found_insert_stored c thread auth j delivered t hros hi
  have ht : ∀key,key≠auth.key → InRoom t key → InRoom c.shared key := by
    intro key hne hkey
    rwa [InRoom,hros.other hne] at hkey
  -- The new participant finds all who are in its room.
  have hfi : ∀o,o≠auth.key → auth.key.room=o.room → InRoom t o →
    (j.existing.lookup o.identity).isSome := by
    intro o hne hroom hot
    rw [he,hroom]
    exact ht o hne hot
  constructor
  · intro key o hne hroom hkey hot
    rw [hf,hf]
    by_cases hk : key=auth.key
    · subst hk
      exact .inl (.inl ⟨rfl,hfi o hne.symm hroom hot⟩)
    · by_cases ho : o=auth.key
      · subst ho
        exact .inr (.inl ⟨rfl,hfi key hne hroom.symm hkey⟩)
      · exact (h.total key o hne hroom (ht key hk hkey) (ht o ho hot)).imp .inr .inr
  · intro key o hne hroom hkey hot hr hfin
    rw [hw,not_or] at hr ⊢
    have hb : Found c key o := ((hf key o).mp hfin).resolve_left (fun hse => hr.1 hse.1.symm)
    have ho : o≠auth.key := by
      rintro rfl
      exact hnew (hs.known_of_found hroom hb)
    exact ⟨ho,h.settled key o hne hroom (ht key hr.1 hkey) (ht o ho hot) hr.2 hb⟩
  · intro key o hne hroom hkey hli hot hr
    rw [hw,not_or] at hr
    have hl := hros.listens_iff.mp hli
    have hk : key≠auth.key := by
      rintro rfl
      exact hnew (hs.roster.listeners _ hl)
    exact (h.learned key o hne hroom (ht key hk hkey) hl
      (ht o hr.1 hot) hr.2).imp hros.answered_iff.mpr hros.updated_iff.mpr

/-- After a join has registered, the others wait that waited before. -/
theorem RosterSound.waits_erase_registering (h : RosterSound K c) {p : ParticipantInfo}
    (hr : c.running.lookup thread=some (.registering auth p)) (key : ParticipantKey) :
    Waits ⟨t,c.running.erase thread⟩ key ↔ key≠auth.key ∧ Waits c key := by
  have hj : joiningAt c.running thread=some auth.key := joiningAt_of_lookup hr
  rw [waits_iff,waits_iff]
  constructor
  · rintro ⟨o,ho⟩
    rw [joiningAt_erase] at ho
    split_ifs at ho with hne
    refine ⟨?_,o,ho⟩
    rintro rfl
    exact hne (h.alone o thread auth.key ho hj)
  · rintro ⟨hne,o,ho⟩
    refine ⟨o,?_⟩
    rw [joiningAt_erase,if_neg]
    · exact ho
    · rintro rfl
      exact hne (some.inj (ho.symm.trans hj))

/-- A join that is about to register has sent its response, which lists all that it found. -/
theorem RosterSound.answered_of_found (h : RosterSound K c) {p : ParticipantInfo}
    (hr : c.running.lookup thread=some (.registering auth p)) (hf : Found c auth.key o) :
    Answered c.shared auth.key o := by
  obtain ⟨e,auth',joined',delivered',hs,hkey,-⟩ | ha := hf
  · have he : joiningAt c.running e=some auth.key := by
      rw [joiningAt_of_lookup hs,← hkey]
      rfl
    rw [h.alone e thread auth.key he (joiningAt_of_lookup hr),hr] at hs
    cases hs
  · exact ha

theorem RosterOrdered.registered (h : RosterOrdered c) (hs : RosterSound K c) {p : ParticipantInfo}
    (hr : c.running.lookup thread=some (.registering auth p))
    (hlist : ListedRegistered c auth.key) :
    RosterOrdered ⟨c.shared.registerJoin auth p,c.running.erase thread⟩ := by
  obtain ⟨-,hi,hv⟩ := hs.points thread _ hr
  have hwai : Waits c auth.key := waits_iff.mpr ⟨thread,joiningAt_of_lookup hr⟩
  have hwa := fun key => hs.waits_erase_registering hr (t := c.shared.registerJoin auth p) key
  have hfo : ∀key o,Found ⟨c.shared.registerJoin auth p,c.running.erase thread⟩ key o ↔
    Found c key o :=
    found_congr (lookup_erase_stored (by simp [hr])) (fun _ _ => Iff.rfl)
  constructor
  · intro key o hne hroom hkey hot
    rw [hfo,hfo]
    exact h.total key o hne hroom hkey hot
  · intro key o hne hroom hkey hot hre hf hw'
    rw [hfo] at hf
    rw [hwa] at hre hw'
    by_cases hk : key=auth.key
    · subst hk
      obtain ⟨r,hmem,hres,hlists⟩ := hs.answered_of_found hr hf
      have hse : (⟨auth.key.room,o.identity⟩ : ParticipantKey)=o := by rw [hroom]
      have hd := hlist r hmem hres o.identity ((r.otherParticipants.mem_keys o.identity).mpr hlists)
      rw [hse] at hd
      exact hd hot hw'.2
    · exact h.settled key o hne hroom hkey hot (fun hw => hre ⟨hk,hw⟩) hf hw'.2
  · intro key o hne hroom hkey hlis hot hre
    have hli : Listens c.shared key ∨ key=auth.key := by
      obtain ⟨v,hmem,how⟩ := hlis
      obtain hold | ⟨rfl,-⟩ := listening_of_registerAndBroadcastJoin hmem
      · exact .inl ⟨v,hold,how⟩
      · exact .inr how.symm
    by_cases ho : o=auth.key
    · subst ho
      obtain ⟨v,hmem,how⟩ := hli.resolve_right hne
      rw [hroom] at hmem
      exact .inr ⟨_,delivered_registerAndBroadcastJoin hv hmem _,how,rfl,hi⟩
    · have hd : ¬ Waits c o := fun hw => hre ((hwa o).mpr ⟨ho,hw⟩)
      by_cases hk : key=auth.key
      · subst hk
        obtain hfi | hfou := h.total _ o hne hroom hkey hot
        · exact .inl (hs.answered_of_found hr hfi)
        · exact absurd hwai (h.settled o _ hne.symm hroom.symm hot hkey hd hfou)
      · obtain hl | hl := h.learned key o hne hroom hkey (hli.resolve_right hk) hot hd
        · exact .inl hl
        · exact .inr (hl.mono (delivers_registerAndBroadcastJoin _ _ p _))

/-- The response takes the place of the snapshot that it lists. -/
theorem found_insert_answered (hru : c.running.lookup thread=some (.stored auth j true))
    (hr : t.joinResponses=c.shared.joinResponses)
    (hkey : r.key=auth.key)
    (hli : ∀i,(r.otherParticipants.lookup i).isSome ↔
      (j.existing.lookup i).isSome) (key o : ParticipantKey) :
    Found ⟨{t with joinResponses := t.joinResponses++[r]},
      c.running.insert thread (.answered auth)⟩ key o ↔ Found c key o := by
  constructor
  · rintro (⟨e,auth',joined',delivered',hs,hk',hl⟩ | ⟨an,hmem,hk',hl⟩)
    · obtain ⟨-,hp⟩ | ⟨-,hb⟩ := lookup_of_insert hs
      · cases hp
      · exact .inl ⟨e,auth',joined',delivered',hb,hk',hl⟩
    · obtain hold | hnew := mem_append.mp hmem
      · rw [hr] at hold
        exact .inr ⟨an,hold,hk',hl⟩
      · rw [mem_singleton.mp hnew] at hk' hl
        exact .inl ⟨thread,auth,j,true,hru,hkey.symm.trans hk',(hli _).mp hl⟩
  · rintro (⟨e,auth',joined',delivered',hs,hk',hl⟩ | ⟨an,hmem,hk',hl⟩)
    · by_cases he : e=thread
      · rw [he,hru] at hs
        cases hs
        exact .inr ⟨r,mem_append_right _ mem_cons_self,hkey.trans hk',(hli _).mpr hl⟩
      · refine .inl ⟨e,auth',joined',delivered',?_,hk',hl⟩
        rw [lookup_insert,if_neg he]
        exact hs
    · rw [← hr] at hmem
      exact .inr ⟨an,mem_append_left _ hmem,hk',hl⟩

theorem Roster.inRoom_of_rel (h : Roster s t key present)
    (hs : Option.Rel SameSession (participantOf s key) present) (ht : InRoom t o) :
    InRoom s o := by
  by_cases ho : o=key
  · rw [InRoom,ho,h.self] at ht
    obtain ⟨l,hl⟩ := isSome_iff_exists.mp ht
    rw [hl] at hs
    obtain ⟨e,he,-⟩ := exists_of_sameParticipant hs
    rw [ho,InRoom,he]
    rfl
  · rwa [InRoom,h.other ho] at ht

theorem RosterOrdered.answered (h : RosterOrdered c) (hs : RosterSound K c)
    (hru : c.running.lookup thread=some (.stored auth j true))
    (hsame : Option.Rel SameSession (participantOf c.shared auth.key) present)
    (hr : Roster c.shared t auth.key present) (hkey : r.key=auth.key)
    (ho : r.otherParticipants=j.existing.filter (fun _ o => !participantIsHidden o)) :
    RosterOrdered ⟨{t with joinResponses := t.joinResponses++[r]},
      c.running.insert thread (.answered auth)⟩ := by
  obtain ⟨-,-,he⟩ := hs.points thread _ hru
  have hj : joiningAt c.running thread=some auth.key := joiningAt_of_lookup hru
  have hli : ∀i,(r.otherParticipants.lookup i).isSome ↔ (j.existing.lookup i).isSome := by
    intro i
    rw [ho,lookup_filter]
    cases hl : j.existing.lookup i with
    | none => rfl
    | some o => simp [(he i o hl).1]
  refine h.of_quiet (fun _ ht => hr.inRoom_of_rel hsame ht)
    (found_insert_answered hru hr.responses hkey hli)
    (fun _ _ => waits_congr (joiningAt_insert_same hj))
    (fun _ => hr.listens_iff.mp) ?_
  rintro key o (⟨an,hmem,ha⟩ | hu)
  · rw [← hr.responses] at hmem
    exact .inl ⟨an,mem_append_left _ hmem,ha⟩
  · exact .inr (hr.updated_iff.mpr hu)

theorem RosterOrdered.step {K' : List ParticipantKey} (h : RosterOrdered c) (hs : RosterSound K c)
    (hjo : JoinsNew K K' e) (hor : RegistersInOrder c e) (hst : RosterStep c e d) :
      RosterOrdered d := by
  cases hst with
  | nothing => exact h
  | refused _ t key hroom =>
    exact h.of_quiet (fun _ => hroom.inRoom)
      (found_congr (fun _ _ _ _ => Iff.rfl) (fun _ _ => hroom.answered_iff))
      (fun _ _ => waits_congr rfl) (fun _ => hroom.listens_iff.mp)
      (fun _ _ => Or.imp hroom.answered_iff.mpr hroom.updated_iff.mpr)
  | stored thread auth r delivered now j t hroom hp he hi =>
    exact h.stored hs hroom (hjo thread auth r delivered now rfl).1 he hi
  | left thread key now p t hroom hi =>
    have hj : joiningAt c.running thread=none := by
      rw [joiningAt,hi]
      rfl
    exact h.of_quiet (fun _ => hroom.inRoom)
      (found_congr (lookup_insert_stored (by simp [hi]) (by simp)) (fun _ _ => hroom.answered_iff))
      (fun _ _ => waits_congr (joiningAt_insert_same hj)) (fun _ => hroom.listens_iff.mp)
      (fun _ _ => Or.imp hroom.answered_iff.mpr hroom.updated_iff.mpr)
  | dropped _ ch =>
    refine h.of_quiet (fun _ => id) (fun _ _ => Iff.rfl) (fun _ _ => Iff.rfl) ?_ (fun _ _ => id)
    rintro key ⟨v,hmem,ho⟩
    exact ⟨v,listening_of_close hmem,ho⟩
  | answered thread auth j delivered hr t present response hsame hroom hkey hot =>
    obtain ⟨-,rfl,-⟩ := hs.points thread _ hr
    exact h.answered hs hr hsame hroom hkey hot
  | gone thread auth hr hn =>
    refine h.of_quiet (fun _ => id)
      (found_congr (lookup_erase_stored (by simp [hr])) (fun _ _ => Iff.rfl)) ?_ (fun _ => id)
      (fun _ _ => id)
    intro key ht
    have hne : auth.key≠key := by
      rintro rfl
      rw [InRoom,hn] at ht
      cases ht
    rw [waits_iff,waits_iff]
    refine exists_congr fun o => ?_
    rw [joiningAt_erase]
    split_ifs with hoth
    · rw [hoth,joiningAt_of_lookup hr]
      exact iff_of_false (by simp) (fun heq => hne (some.inj heq))
    · rfl
  | read thread auth hr p ht =>
    have hj : joiningAt c.running thread=some auth.key := joiningAt_of_lookup hr
    exact h.of_quiet (fun _ => id)
      (found_congr (lookup_insert_stored (by simp [hr]) (by simp)) (fun _ _ => Iff.rfl))
      (fun _ _ => waits_congr (joiningAt_insert_same hj)) (fun _ => id) (fun _ _ => id)
  | registered thread auth p hr =>
    refine h.registered hs hr (hor auth.key ?_)
    rw [hr]
    rfl
  | goodbye thread room p hr =>
    refine h.of_quiet (fun _ => id)
      (found_congr (lookup_erase_stored (by simp [hr])) (fun _ _ => Iff.rfl))
      (fun _ _ => waits_congr (joiningAt_erase_same (joiningAt_of_lookup hr))) ?_ ?_
    · rintro key ⟨v,hmem,ho⟩
      exact ⟨v,listening_of_broadcastUpdate hmem,ho⟩
    · rintro key o (ha | hu)
      · exact .inl ha
      · exact .inr (hu.mono (delivers_broadcastUpdate _ room p))

variable {defaults : RoomDefaults} {autoCreate : Bool}

theorem rosterSound_initial (defaults : RoomDefaults) (autoCreate : Bool) :
    RosterSound [] (.idle (.initial defaults autoCreate)) where
  roster := {
    keyed := keyed_sessionInitial defaults autoCreate
    visible := fun _ _ ht => by cases ht
    known := fun _ ht => by cases ht
    responses := fun _ _ ⟨_,hmem,_⟩ => by cases hmem
    listeners := fun _ ⟨_,hmem,_⟩ => by cases hmem}
  points := fun _ _ hr => by cases hr
  alone := fun _ _ _ hj => by cases hj

theorem rosterOrdered_initial (defaults : RoomDefaults) (autoCreate : Bool) :
    RosterOrdered (.idle (.initial defaults autoCreate)) where
  total := fun _ _ _ _ ht => by cases ht
  settled := fun _ _ _ _ ht => by cases ht
  learned := fun _ _ _ _ ht => by cases ht

/-- What a run of joins of visible participants with distinct keys keeps. -/
theorem rosterOrdered_run {events : List (Event RosterCall)}
    (hd : (events.filterMap joinKeyOf).Nodup) (hv : ∀event∈events,¬ JoinsHidden event)
    (hor : AtEveryStep (fun earlier event =>
      RegistersInOrder (rosterRun defaults autoCreate earlier) event) events) :
    RosterSound (events.filterMap joinKeyOf) (rosterRun defaults autoCreate events) ∧
      RosterOrdered (rosterRun defaults autoCreate events) := by
  induction events using reverseRecOn with
  | nil => exact ⟨rosterSound_initial defaults autoCreate,rosterOrdered_initial defaults autoCreate⟩
  | append_singleton earlier event ih =>
    obtain ⟨hea,he⟩ := (atEveryStep_concat _ earlier event).mp hor
    rw [filterMap_append] at hd
    obtain ⟨hs,ho⟩ := ih (hd.sublist (sublist_append_left _ _))
      (fun other hmem => hv other (mem_append_left _ hmem)) hea
    have hj : JoinsNew (earlier.filterMap joinKeyOf)
      ((earlier++[event]).filterMap joinKeyOf) event := by
      rintro thread auth request delivered now rfl
      have hmem :
          auth.key∈[Event.enter thread (RosterCall.join auth request delivered now)].filterMap
          joinKeyOf := by simp [joinKeyOf]
      refine ⟨fun hold => (nodup_append.mp hd).2.2 _ hold _ hmem rfl,?_,?_,he⟩
      · rw [filterMap_append]
        exact mem_append_right _ hmem
      · have hsh := hv (.enter thread (.join auth request delivered now)) (by simp)
        simpa [JoinsHidden] using hsh
    have hg : earlier.filterMap joinKeyOf⊆(earlier++[event]).filterMap joinKeyOf := by
      rw [filterMap_append]
      exact subset_append_left _ _
    have hst := rosterStep (rosterRun defaults autoCreate earlier) event (by
      rintro thread auth request delivered now rfl
      obtain ⟨hnew,-⟩ := hj thread auth request delivered now rfl
      by_contra ht
      exact hnew (hs.roster.known auth.key (isSome_iff_ne_none.mpr ht)))
    rw [rosterRun,Machine.run_concat]
    exact ⟨hs.step hg hj hst,ho.step hs hj he hst⟩

/-- If every join registers after those that were in the room before it, nobody misses anybody. -/
theorem joins_announced (defaults : RoomDefaults) (autoCreate : Bool)
    (events : List (Event RosterCall)) (hdistinct : (events.filterMap joinKeyOf).Nodup)
    (hvisible : ∀event ∈ events,¬ JoinsHidden event)
    (horder : AtEveryStep (fun earlier event =>
      RegistersInOrder (rosterRun defaults autoCreate earlier) event) events)
    (hidle : (rosterRun defaults autoCreate events).running.keys = ∅) :
    NoneMissed (rosterRun defaults autoCreate events).shared := by
  obtain ⟨-,ho⟩ := rosterOrdered_run hdistinct hvisible horder
  intro key other hne hr hkey hl hot
  refine ho.learned key other hne hr hkey hl hot ?_
  rintro ⟨thread,hmem,-⟩
  rw [hidle] at hmem
  cases hmem

def guestToken (identity : String) : AuthContext where
  apiKey := "key"
  claims := {sub := identity,video := {roomJoin := true,room := "room"}}

def guest (identity : String) : ParticipantKey := ⟨"room",identity⟩

/-- Alice and Bob enter the room store in this order and go on in some order. -/
def twoJoins (delivered : Bool) (threads : List ℕ) : List (Event RosterCall) :=
  [.enter 1 (.join (guestToken "alice") {} true 0),
    .enter 2 (.join (guestToken "bob") {} delivered 1)]++threads.map .resume

theorem alice_and_bob_meet :
    Updated (rosterRun {} true (twoJoins true [2,1,2,1,1,2])).shared (guest "alice")
        (guest "bob") ∧
      NoneMissed (rosterRun {} true (twoJoins true [2,1,2,1,1,2])).shared :=
  ⟨by decide +kernel,joins_announced {} true _ (by decide +kernel) (by decide +kernel)
    (by decide +kernel) (by decide +kernel)⟩

/-- If Bob registers before Alice, Alice never learns of Bob; nor does it if Bob's response cannot
be sent. -/
theorem alice_misses_bob :
    ((rosterRun {} true (twoJoins true [2,2,2,1,1,1])).running.keys = ∅ ∧
      ¬ NoneMissed (rosterRun {} true (twoJoins true [2,2,2,1,1,1])).shared) ∧
    (rosterRun {} true (twoJoins false [1,1,1,2])).running.keys = ∅ ∧
      ¬ NoneMissed (rosterRun {} true (twoJoins false [1,1,1,2])).shared := by
  have hm : ∀s : SessionState,InRoom s (guest "alice") → Listens s (guest "alice") →
      InRoom s (guest "bob") →
      ¬ (Answered s (guest "alice") (guest "bob") ∨ Updated s (guest "alice") (guest "bob")) →
      ¬ NoneMissed s := fun s ha hl hbob hmi hn =>
    hmi (hn _ _ (by decide) rfl ha hl hbob)
  refine ⟨⟨by decide +kernel,hm _ ?_ ?_ ?_ ?_⟩,by decide +kernel,hm _ ?_ ?_ ?_ ?_⟩
  all_goals decide +kernel

end OxideSfu.Signaling
