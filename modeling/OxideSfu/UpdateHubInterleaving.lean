import OxideSfu.CriticalSections
import OxideSfu.ParticipantUpdates

/-!
# Interleaved calls on the hub of participant updates

`broadcast_update` gives back the lock of the versions before it takes the lock of the receivers
(`ParticipantUpdateHub` in `router.rs`); `register` and `register_and_broadcast_join` hold the
latter throughout, and the join broadcast does not look at the versions. What each receiver got and
which snapshots were passed is recorded.
-/

namespace OxideSfu.Signaling

open Rooms RoomStore CriticalSections Threads ParticipantUpdateHub List

structure RoomSnapshot where
  room : String
  participant : ParticipantInfo

def RoomSnapshot.version (snapshot : RoomSnapshot) : ℕ := snapshot.participant.version

def RoomSnapshot.SameSid (snapshot other : RoomSnapshot) : Prop :=
  snapshot.room=other.room ∧ snapshot.participant.sid=other.participant.sid
  deriving Decidable

inductive Verdict | joined | accepted | refused deriving DecidableEq

/-- A snapshot that was passed to the hub; `receivers` are the channels that listened then. -/
structure Passed extends RoomSnapshot where
  receivers : List ℕ
  verdict : Verdict

structure Sent extends RoomSnapshot where
  channel : ℕ

/-- The hub; `homes` has the room of every receiver, by channel. -/
structure HubState where
  hub : ParticipantUpdateHub
  homes : List String
  sent : List Sent
  passed : List Passed

inductive HubCall
  | register (room : String) (owner : ParticipantKey)
  | registerAndBroadcastJoin (room : String) (participant : ParticipantInfo)
    (owner : ParticipantKey)
  | broadcastUpdate (room : String) (participant : ParticipantInfo)
  | close (channel : ℕ)

namespace HubState

def initial : HubState := ⟨.empty,[],[],[]⟩

def channels (s : HubState) (room : String) : List ℕ := (s.hub.listening room).map (·.channel)

def register (s : HubState) (room : String) (owner : ParticipantKey) : HubState :=
  {s with
    hub := s.hub.register room ⟨s.homes.length,owner⟩,homes := s.homes++[room]}

def deliver (s : HubState) (snapshot : RoomSnapshot) : HubState :=
  {s with
    hub := s.hub.deliver snapshot.room snapshot.participant
    sent := s.sent++(s.channels snapshot.room).map (fun channel => ⟨snapshot,channel⟩)}

def pass (s : HubState) (snapshot : RoomSnapshot) (verdict : Verdict) : HubState :=
  {s with passed := s.passed++[⟨snapshot,s.channels snapshot.room,verdict⟩]}

def registerAndBroadcastJoin (s : HubState) (room : String) (participant : ParticipantInfo)
    (owner : ParticipantKey) : HubState :=
  if participantIsHidden participant then s.register room owner
  else ((s.pass ⟨room,participant⟩ .joined).deliver ⟨room,participant⟩).register room owner

def shouldBroadcastUpdate (s : HubState) (room : String) (participant : ParticipantInfo) :
    Bool × HubState :=
  match s.hub.shouldBroadcastUpdate room participant with
  | (true,hub) => (true,{s.pass ⟨room,participant⟩ .accepted with hub})
  | (false,hub) => (false,{s.pass ⟨room,participant⟩ .refused with hub})

def send (s : HubState) (snapshot : RoomSnapshot) : HubState :=
  {s.deliver snapshot with
    hub := (s.hub.deliver snapshot.room snapshot.participant).retainListening snapshot.room}

def close (s : HubState) (channel : ℕ) : HubState :=
  if channel<s.homes.length then {s with hub := s.hub.close channel} else s

end HubState

/-- Between its sections a broadcast has a snapshot whose version was accepted. -/
def hubMachine : Machine HubState HubCall RoomSnapshot where
  enter
    | .register room owner, s => (s.register room owner,none)
    | .registerAndBroadcastJoin room participant owner, s =>
      (s.registerAndBroadcastJoin room participant owner,none)
    | .broadcastUpdate room participant, s =>
      if participantIsHidden participant ∧ participant.state ≠ .disconnected then (s,none)
      else
        match s.shouldBroadcastUpdate room participant with
        | (true,s) => (s,some ⟨room,participant⟩) | (false,s) => (s,none)
    | .close channel, s => (s.close channel,none)
  resume snapshot s := (s.send snapshot,none)

def hubRun (events : List (Event HubCall)) : Threads HubState RoomSnapshot :=
  hubMachine.run (.idle .initial) events

def recordVersion (hub : ParticipantUpdateHub) (snapshot : RoomSnapshot) : ParticipantUpdateHub :=
  match participantUpdateVersionKey snapshot.participant with
  | none => hub
  | some key =>
    {hub with latestVersions := hub.latestVersions.insert (snapshot.room,key) snapshot.version}

variable {hub : ParticipantUpdateHub} {p o : ParticipantInfo}
  {n : RoomSnapshot}

theorem participantUpdateVersionKey_of_sid (h : p.sid ≠ "") :
    participantUpdateVersionKey p=some ("sid:" ++ p.sid) :=
  if_pos h

theorem sid_ne_of_participantUpdateVersionKey {sid : String} (h : p.sid = "") :
    participantUpdateVersionKey p≠some ("sid:" ++ sid) := by
  intro hkey
  rw [participantUpdateVersionKey,if_neg (not_not.mpr h)] at hkey
  split_ifs at hkey
  have hf := congrArg (fun key => key.toList.head?) (Option.some.inj hkey)
  simp at hf

theorem sid_eq_of_participantUpdateVersionKey
    (h : participantUpdateVersionKey p=participantUpdateVersionKey o) :
    p.sid=o.sid := by
  by_cases hsid : p.sid = ""
  · by_cases ho : o.sid = ""
    · rw [hsid,ho]
    · rw [participantUpdateVersionKey_of_sid ho] at h
      exact absurd h (sid_ne_of_participantUpdateVersionKey hsid)
  · rw [participantUpdateVersionKey_of_sid hsid] at h
    by_cases ho : o.sid = ""
    · exact absurd h.symm (sid_ne_of_participantUpdateVersionKey ho)
    · rw [participantUpdateVersionKey_of_sid ho] at h
      have heq := congrArg String.toList (Option.some.inj h)
      rw [String.toList_append,String.toList_append,append_cancel_left_eq] at heq
      exact String.toList_inj.mp heq

@[simp] theorem rooms_recordVersion : (recordVersion hub n).rooms=hub.rooms := by
  rw [recordVersion]
  split <;> rfl

@[simp] theorem closed_recordVersion : (recordVersion hub n).closed=hub.closed := by
  rw [recordVersion]
  split <;> rfl

theorem lookup_recordVersion (room key : String) :
    (recordVersion hub n).latestVersions.lookup (room,key) =
      if room=n.room ∧ participantUpdateVersionKey n.participant=some key then
        some n.version
      else hub.latestVersions.lookup (room,key) := by
  rw [recordVersion]
  cases participantUpdateVersionKey n.participant with
  | none => simp
  | some recorded =>
    refine if_congr ?_ rfl rfl
    rw [Prod.mk.injEq,Option.some_inj,eq_comm (a := key)]

/-- A version is accepted and recorded if it is newer than the recorded one, and else refused. -/
theorem shouldBroadcastUpdate_cases (hub : ParticipantUpdateHub) (n : RoomSnapshot) :
    (hub.shouldBroadcastUpdate n.room n.participant=(true,recordVersion hub n) ∧
        ∀key∈participantUpdateVersionKey n.participant,
          ∀latest∈hub.latestVersions.lookup (n.room,key),latest<n.version) ∨
      hub.shouldBroadcastUpdate n.room n.participant=(false,hub) ∧
        ∃key∈participantUpdateVersionKey n.participant,
          ∃latest∈hub.latestVersions.lookup (n.room,key),n.version≤latest := by
  rw [shouldBroadcastUpdate,recordVersion]
  cases participantUpdateVersionKey n.participant with
  | none => exact .inl ⟨rfl,fun key hkey => by cases hkey⟩
  | some key =>
    dsimp only
    split_ifs with hn
    · refine .inl ⟨rfl,?_⟩
      rintro _ ⟨⟩ latest hl
      rw [Option.mem_def.mp hl] at hn
      simpa [RoomSnapshot.version] using hn
    · refine .inr ⟨rfl,key,rfl,?_⟩
      cases hl : hub.latestVersions.lookup (n.room,key) with
      | none =>
        rw [hl] at hn
        exact absurd rfl hn
      | some latest =>
        rw [hl] at hn
        exact ⟨latest,rfl,by simpa [RoomSnapshot.version] using hn⟩

inductive HubStep (c : Threads HubState RoomSnapshot) :
    Event HubCall → Threads HubState RoomSnapshot→Prop
  | nothing (event : Event HubCall) : HubStep c event c
  | registered (event : Event HubCall) (room : String) (owner : ParticipantKey) :
      HubStep c event ⟨c.shared.register room owner,c.running⟩
  | closed (event : Event HubCall) (channel : ℕ) :
      HubStep c event ⟨c.shared.close channel,c.running⟩
  | joined (thread : ℕ) (snapshot : RoomSnapshot) (owner : ParticipantKey)
      (hvisible : participantIsHidden snapshot.participant=false) :
      HubStep c (.enter thread (.registerAndBroadcastJoin snapshot.room snapshot.participant owner))
        ⟨((c.shared.pass snapshot .joined).deliver snapshot).register snapshot.room owner,c.running⟩
  | refused (thread : ℕ) (snapshot : RoomSnapshot)
      (hannounced : participantIsHidden snapshot.participant=false ∨
        snapshot.participant.state = .disconnected)
      (hold : ∃key∈participantUpdateVersionKey snapshot.participant,
        ∃latest∈c.shared.hub.latestVersions.lookup (snapshot.room,key),
          snapshot.version≤latest) :
      HubStep c (.enter thread (.broadcastUpdate snapshot.room snapshot.participant))
        ⟨c.shared.pass snapshot .refused,c.running⟩
  | accepted (thread : ℕ) (snapshot : RoomSnapshot)
      (hannounced : participantIsHidden snapshot.participant=false ∨
        snapshot.participant.state = .disconnected)
      (hnew : ∀key∈participantUpdateVersionKey snapshot.participant,
        ∀latest∈c.shared.hub.latestVersions.lookup (snapshot.room,key),
          latest<snapshot.version)
      (hidle : c.running.lookup thread=none) :
      HubStep c (.enter thread (.broadcastUpdate snapshot.room snapshot.participant))
        ⟨{c.shared.pass snapshot .accepted with hub := recordVersion c.shared.hub snapshot},
          c.running.insert thread snapshot⟩
  | sent (thread : ℕ) (snapshot : RoomSnapshot) (hrunning : c.running.lookup thread=some snapshot) :
      HubStep c (.resume thread) ⟨c.shared.send snapshot,c.running.erase thread⟩

variable (c : Threads HubState RoomSnapshot)

theorem hubStep_enter {t : ℕ} (hi : c.running.lookup t=none) (call : HubCall) :
    HubStep c (.enter t call) (c.moveTo t (hubMachine.enter call c.shared)) := by
  cases call with
  | register room owner =>
    rw [hubMachine,moveTo_of_idle hi]
    exact .registered _ room owner
  | registerAndBroadcastJoin room p owner =>
    rw [hubMachine,moveTo_of_idle hi,HubState.registerAndBroadcastJoin]
    split_ifs with hh
    · exact .registered _ room owner
    · exact .joined t ⟨room,p⟩ owner (by simpa using hh)
  | broadcastUpdate room p =>
    rw [hubMachine]
    dsimp only
    split_ifs with hd
    · rw [moveTo_of_idle hi]
      exact .nothing _
    have ha : participantIsHidden p=false ∨ p.state = .disconnected := by
      by_cases hs : p.state = .disconnected
      · exact .inr hs
      · exact .inl (by simpa [hs] using hd)
    rw [HubState.shouldBroadcastUpdate]
    obtain ⟨heq,hnew⟩ | ⟨heq,hold⟩ := shouldBroadcastUpdate_cases c.shared.hub ⟨room,p⟩
    · rw [heq]
      exact .accepted t ⟨room,p⟩ ha hnew hi
    · rw [heq]
      rw [moveTo_of_idle hi]
      exact .refused t ⟨room,p⟩ ha hold
  | close ch =>
    rw [hubMachine,moveTo_of_idle hi]
    exact .closed _ ch

theorem hubStep (e : Event HubCall) : HubStep c e (hubMachine.step c e) := by
  obtain hs | ⟨r,hran,hs⟩ := hubMachine.step_cases c e
  · rw [hs]
    exact .nothing e
  rw [hs]
  cases e with
  | enter t call =>
    rw [Machine.ran] at hran
    split at hran
    · next hi =>
      rw [← Option.some.inj hran]
      exact hubStep_enter c hi call
    · cases hran
  | resume t =>
    obtain ⟨n,hr,rfl⟩ := Option.map_eq_some_iff.mp hran
    exact .sent t n hr

/-- A receiver belongs to one room and got snapshots of that room only. Whoever listened when a
snapshot was passed listens unless it was closed. -/
structure Registered (s : HubState) : Prop where
  home : ∀room,∀receiver∈membersOf s.hub room,s.homes[receiver.channel]?=some room
  distinct : ∀room,((membersOf s.hub room).map (·.channel)).Nodup
  sentHome : ∀sent∈s.sent,s.homes[sent.channel]?=some sent.room
  listens : ∀entry∈s.passed,∀channel∈entry.receivers,channel∉s.hub.closed →
    channel∈s.channels entry.room

variable {s : HubState} {room : String} {ch : ℕ}

theorem mem_channels :
    ch∈s.channels room ↔ ch∉s.hub.closed ∧ ∃v∈membersOf s.hub room,v.channel=ch := by
  rw [HubState.channels,mem_map]
  constructor
  · rintro ⟨v,hmem,rfl⟩
    obtain ⟨hm,ho⟩ := mem_listening.mp hmem
    exact ⟨ho,v,hm,rfl⟩
  · rintro ⟨ho,v,hm,rfl⟩
    exact ⟨v,mem_listening.mpr ⟨hm,ho⟩,rfl⟩

variable (h : Registered s)
include h

theorem Registered.home_of_channel (hc : ch∈s.channels room) : s.homes[ch]?=some room := by
  obtain ⟨-,v,hm,rfl⟩ := mem_channels.mp hc
  exact h.home room v hm

theorem Registered.distinct_channels (room : String) : (s.channels room).Nodup :=
  (h.distinct room).sublist (filter_sublist.map _)

theorem Registered.of_members {t : HubState} (hh : t.homes=s.homes)
    (hcl : s.hub.closed⊆t.hub.closed)
    (hm : ∀room,List.Sublist (membersOf t.hub room) (membersOf s.hub room))
    (hk : ∀room,∀c∈s.channels room,c∉t.hub.closed → c∈t.channels room)
    (hs : ∀sent∈t.sent,sent∈s.sent ∨ sent.channel∈s.channels sent.room)
    (hp : ∀e∈t.passed,e∈s.passed ∨ e.receivers=s.channels e.room) :
    Registered t where
  home room receiver hmem := by
    rw [hh]
    exact h.home room receiver ((hm room).subset hmem)
  distinct room := (h.distinct room).sublist ((hm room).map _)
  sentHome sent hmem := by
    rw [hh]
    obtain hold | hnew := hs sent hmem
    · exact h.sentHome sent hold
    · exact h.home_of_channel hnew
  listens e hmem c hc ho := by
    obtain hold | hnew := hp e hmem
    · have hb := h.listens e hold c hc (fun hmem => ho (hcl hmem))
      exact hk _ c hb ho
    · rw [hnew] at hc
      exact hk _ c hc ho

theorem Registered.register (room : String) (owner : ParticipantKey) :
    Registered (s.register room owner) := by
  have hk : ∀(c : ℕ) home,s.homes[c]?=some home → (s.homes++[room])[c]?=some home := by
    intro c home hh
    rw [List.getElem?_append_left (List.getElem?_eq_some_iff.mp hh).1]
    exact hh
  -- The channel of the new receiver is the first one that nobody has.
  have hf : s.homes.length∉s.channels room := by
    intro hmem
    exact absurd (List.getElem?_eq_some_iff.mp (h.home_of_channel hmem)).1 (Nat.lt_irrefl _)
  constructor
  · intro o v hmem
    rw [HubState.register,membersOf_register] at hmem
    split_ifs at hmem with ho
    · obtain hold | hnew := mem_append.mp hmem
      · rw [ho]
        exact hk _ _ (h.home room v (mem_listening.mp hold).1)
      · rw [mem_singleton.mp hnew,ho]
        exact getElem?_concat_length
    · exact hk _ _ (h.home o v hmem)
  · intro o
    rw [HubState.register,membersOf_register]
    split_ifs
    · rw [map_append]
      exact (h.distinct_channels room).append (nodup_singleton _) (disjoint_singleton.mpr hf)
    · exact h.distinct o
  · intro sent hmem
    exact hk _ _ (h.sentHome sent hmem)
  · intro e hmem c hc hop
    have hl := h.listens e hmem c hc hop
    obtain ⟨-,v,hm,rfl⟩ := mem_channels.mp hl
    refine mem_channels.mpr ⟨hop,v,?_,rfl⟩
    rw [HubState.register,membersOf_register]
    split_ifs with ho
    · rw [ho] at hm
      exact mem_append_left _ (mem_listening.mpr ⟨hm,hop⟩)
    · exact hm

omit h

theorem channels_recordVersion (n : RoomSnapshot) (room : String) :
    HubState.channels {s with hub := recordVersion s.hub n} room=s.channels room := by
  simp only [HubState.channels,listening,rooms_recordVersion,closed_recordVersion]

theorem mem_passed_pass {verdict : Verdict} {e : Passed} (h : e∈(s.pass n verdict).passed) :
    e∈s.passed ∨ e=⟨n,s.channels n.room,verdict⟩ := by
  obtain hold | hnew := mem_append.mp h
  · exact .inl hold
  · exact .inr (mem_singleton.mp hnew)

theorem mem_sent_deliver {sent : Sent} :
    sent∈(s.deliver n).sent ↔ sent∈s.sent ∨ sent.toRoomSnapshot=n ∧
      sent.channel∈s.channels n.room := by
  rw [HubState.deliver,mem_append,mem_map]
  refine or_congr_right ?_
  constructor
  · rintro ⟨c,hmem,rfl⟩
    exact ⟨rfl,hmem⟩
  · obtain ⟨o,c⟩ := sent
    rintro ⟨rfl,hmem⟩
    exact ⟨c,hmem,rfl⟩

theorem Registered.pass (h : Registered s) (n : RoomSnapshot) (verdict : Verdict) :
    Registered (s.pass n verdict) := by
  refine h.of_members rfl (fun _ => id) (fun _ => List.Sublist.refl _) (fun _ _ hmem _ => hmem)
    (fun _ => .inl) (fun e hmem => ?_)
  obtain hold | rfl := mem_passed_pass hmem
  · exact .inl hold
  · exact .inr rfl

theorem Registered.deliver (h : Registered s) (n : RoomSnapshot) : Registered (s.deliver n) := by
  refine h.of_members rfl (fun _ => id) (fun _ => List.Sublist.refl _) (fun _ _ hmem _ => hmem)
    (fun sent hmem => ?_) (fun _ => .inl)
  obtain hold | ⟨hs,hc⟩ := mem_sent_deliver.mp hmem
  · exact .inl hold
  · rw [← hs] at hc
    exact .inr hc

theorem Registered.record (h : Registered s) (n : RoomSnapshot) :
    Registered {s with hub := recordVersion s.hub n} := by
  refine h.of_members rfl ?_ (fun room => ?_) (fun room c hmem _ => ?_) (fun _ => .inl)
    (fun _ => .inl)
  · rw [closed_recordVersion]
  · rw [membersOf,rooms_recordVersion]
    exact List.Sublist.refl _
  · rw [channels_recordVersion]
    exact hmem

theorem Registered.close (h : Registered s) (c : ℕ) : Registered (s.close c) := by
  rw [HubState.close]
  split_ifs
  · refine h.of_members rfl (Finset.subset_insert c _) (fun _ => List.Sublist.refl _)
      (fun room o hmem ho => ?_) (fun _ => .inl) (fun _ => .inl)
    exact mem_channels.mpr ⟨ho,(mem_channels.mp hmem).2⟩
  · exact h

theorem closed_send (n : RoomSnapshot) :
    (s.send n).hub.closed=s.hub.closed := closed_retainListening _ _

theorem mem_channels_send : ch∈(s.send n).channels room ↔ ch∈s.channels room := by
  rw [HubState.channels,HubState.channels,mem_map,mem_map]
  exact exists_congr fun v => and_congr_left' mem_listening_retainListening

theorem Registered.send (h : Registered s) (n : RoomSnapshot) : Registered (s.send n) := by
  refine (h.deliver n).of_members rfl ?_ (fun room => ?_) (fun room c hmem _ => ?_) (fun _ => .inl)
    (fun _ => .inl)
  · rw [closed_send]
    exact fun _ => id
  · change List.Sublist (membersOf (retainListening _ _) room) _
    rw [membersOf_retainListening]
    split_ifs with hr
    · rw [hr]
      exact filter_sublist
    · exact List.Sublist.refl _
  · exact mem_channels_send.mpr hmem

theorem Registered.step {c d : Threads HubState RoomSnapshot} {e : Event HubCall}
    (h : Registered c.shared) (hs : HubStep c e d) : Registered d.shared := by
  cases hs with
  | nothing => exact h
  | registered _ room owner => exact h.register room owner
  | closed _ ch => exact h.close ch
  | joined _ n owner =>
    exact ((h.pass n .joined).deliver n).register n.room owner
  | refused _ n => exact h.pass n .refused
  | accepted _ n => exact (h.pass n .accepted).record n
  | sent _ n => exact h.send n

end OxideSfu.Signaling
