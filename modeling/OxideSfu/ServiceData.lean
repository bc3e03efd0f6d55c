import OxideSfu.DataPackets
import Mathlib.Data.List.TakeWhile

/-!
# Data sent by the service

`DataChannelStore` (`data_channel_store.rs`) sends bytes to the channels of a room one after the
other and stops at the first failure. `SendData` requests go through it (`send_data.rs`,
`state.rs`). A channel is known by its key; the packet is left out.
-/

namespace OxideSfu.Signaling

open FiniteMaps Rooms List

inductive DataChannelTransportTarget | publisher | subscriber deriving DecidableEq

@[ext]
structure DataChannelKey where
  (room identity : String)
  target : DataChannelTransportTarget
  kind : DataChannelKind
  deriving DecidableEq

/-- The open channels in the order in which a loop visits them, and which sends succeed. -/
structure DataChannelStore where
  channels : List DataChannelKey
  nodup : channels.Nodup
  sends : DataChannelKey→Bool

namespace DataChannelStore

variable (st : DataChannelStore) (room : String) (target : DataChannelTransportTarget)
  (kind : DataChannelKind)

def channelsForRoomExceptWithKindForTarget (excludedIdentity : Option String) :
    List DataChannelKey :=
  st.channels.filter (fun c => c.room=room ∧ c.target=target ∧ c.kind=kind ∧
    excludedIdentity≠some c.identity)

def getWithKindForTarget (identity : String) : Option DataChannelKey :=
  if ⟨room,identity,target,kind⟩∈st.channels then some ⟨room,identity,target,kind⟩ else none

/-- The channels that get the bytes, and the count returned unless a send fails. -/
def sendBytes (channels : List DataChannelKey) : List DataChannelKey × Option ℕ :=
  (channels.takeWhile st.sends,if channels.all st.sends then some channels.length else none)

def sendBytesToRoomWithKindForTarget : List DataChannelKey × Option ℕ :=
  st.sendBytes (st.channelsForRoomExceptWithKindForTarget room target kind none)

def sendBytesToRoomExceptWithKindForTarget (excludedIdentity : String) :
    List DataChannelKey × Option ℕ :=
  st.sendBytes (st.channelsForRoomExceptWithKindForTarget room target kind (some excludedIdentity))

def sendBytesToIdentitiesWithKindForTarget (identities : List String) :
    List DataChannelKey × Option ℕ :=
  if identities=[] then st.sendBytesToRoomWithKindForTarget room target kind
  else st.sendBytes (identities.filterMap (st.getWithKindForTarget room target kind))

/-- No channel whose send fails is visited before one whose send succeeds. -/
def FailuresLast (channels : List DataChannelKey) : Prop :=
  channels.Pairwise (fun a b => st.sends b → st.sends a)

theorem sendBytes_eq_filter_iff (cs : List DataChannelKey) :
    (st.sendBytes cs).1=cs.filter st.sends ↔ st.FailuresLast cs := by
  induction cs with
  | nil => exact iff_of_true rfl List.Pairwise.nil
  | cons c cs ih =>
    rw [sendBytes] at ih ⊢
    rw [FailuresLast,pairwise_cons]
    by_cases hc : st.sends c
    · rw [takeWhile_cons_of_pos hc,filter_cons_of_pos hc,cons.injEq,ih]
      exact ⟨fun h => ⟨fun _ _ _ => hc,h.2⟩,fun h => ⟨rfl,h.2⟩⟩
    · rw [takeWhile_cons_of_neg hc,filter_cons_of_neg hc,eq_comm,filter_eq_nil_iff]
      refine ⟨fun h => ⟨fun b hb hs => absurd hs (h b hb),?_⟩,fun h b hb hs => hc (h.1 b hb hs)⟩
      exact pairwise_of_forall_mem_list fun a _ b hb hs => absurd hs (h b hb)

/-- A room-wide or an addressed send gets through to every channel that works just when the failing
ones come last. -/
theorem reaches_working_channels_iff :
    ((st.sendBytesToRoomWithKindForTarget room target kind).1 =
        (st.channelsForRoomExceptWithKindForTarget room target kind none).filter st.sends ↔
      st.FailuresLast (st.channelsForRoomExceptWithKindForTarget room target kind none)) ∧
    (∀x,(st.sendBytesToRoomExceptWithKindForTarget room target kind x).1 =
        (st.channelsForRoomExceptWithKindForTarget room target kind (some x)).filter st.sends ↔
      st.FailuresLast (st.channelsForRoomExceptWithKindForTarget room target kind (some x))) ∧
    ∀i is,(st.sendBytesToIdentitiesWithKindForTarget room target kind (i :: is)).1 =
        ((i :: is).filterMap (st.getWithKindForTarget room target kind)).filter st.sends ↔
      st.FailuresLast ((i :: is).filterMap (st.getWithKindForTarget room target kind)) := by
  refine ⟨st.sendBytes_eq_filter_iff _,fun x => st.sendBytes_eq_filter_iff _,fun i is => ?_⟩
  exact st.sendBytes_eq_filter_iff _

/-- bob's channel works and gets nothing, since alice's fails before it. -/
theorem failure_silences_bob :
    let alice : DataChannelKey := ⟨"room", "alice",.publisher,.reliable⟩
    let bob : DataChannelKey := ⟨"room", "bob",.publisher,.reliable⟩
    let st : DataChannelStore := ⟨[alice,bob],by decide,fun c => c=bob⟩
    st.sendBytesToRoomWithKindForTarget "room" .publisher .reliable=([],none) ∧
      st.sendBytesToIdentitiesWithKindForTarget "room" .publisher .reliable ["alice", "bob"] =
        ([],none) := by
  decide

variable {st room target kind} {i : String}

theorem sendBytes_of_sends (hs : ∀c,st.sends c) (cs : List DataChannelKey) :
    (st.sendBytes cs).1=cs :=
  takeWhile_eq_self_iff.mpr fun c _ => hs c

theorem count_channelsForRoom :
    ((st.channelsForRoomExceptWithKindForTarget room target kind none).map (·.identity)).count i =
      if ⟨room,i,target,kind⟩∈st.channels then 1 else 0 := by
  have hc : ((st.channelsForRoomExceptWithKindForTarget room target kind none).map
      (·.identity)).count i=st.channels.count ⟨room,i,target,kind⟩ := by
    rw [channelsForRoomExceptWithKindForTarget,count,countP_map,countP_filter]
    refine countP_congr fun c _ => ?_
    simp [DataChannelKey.ext_iff,and_left_comm]
  rw [hc]
  split_ifs with hm
  · exact count_eq_one_of_mem st.nodup hm
  · exact count_eq_zero.mpr hm

theorem count_filterMap_get (is : List String) :
    ((is.filterMap (st.getWithKindForTarget room target kind)).map (·.identity)).count i =
      if ⟨room,i,target,kind⟩∈st.channels then is.count i else 0 := by
  induction is with
  | nil => simp
  | cons j is ih =>
    rw [filterMap_cons,getWithKindForTarget]
    by_cases hj : ⟨room,j,target,kind⟩∈st.channels
    · rw [if_pos hj,map_cons,count_cons,count_cons,ih]
      by_cases he : j=i
      · subst he
        rw [if_pos hj,if_pos hj]
      · simp [he]
    · rw [if_neg hj,ih]
      by_cases he : j=i
      · subst he
        rw [if_neg hj,if_neg hj]
      · rw [count_cons_of_ne he]

end DataChannelStore

structure SendDataRequest where
  room : String
  kind : ℤ
  destinationIdentities : List String := []
  destinationSids : List String := []

namespace SendDataRequest

variable (request : SendDataRequest) (ps : List ParticipantInfo) (st : DataChannelStore)

def channelKind : DataChannelKind :=
  if request.kind=1 then .lossy else .reliable

/-- Of participants with the same sid the map keeps the one listed last. -/
def identityBySid (sid : String) : Option String :=
  (ps.reverse.find? (·.sid=sid)).map (·.identity)

def pushUnvisited (resolved : List String) (identity : String) : List String :=
  if identity∈resolved then resolved else resolved++[identity]

def resolveDestinationIdentities : List String :=
  if request.destinationSids=[] then request.destinationIdentities
  else
    (request.destinationIdentities++request.destinationSids.filterMap (identityBySid ps)).foldl
      pushUnvisited []

def hasExplicitDestinations : Prop :=
  request.destinationIdentities≠[] ∨ request.destinationSids≠[]
  deriving Decidable

/-- The store's functions without a target use the publisher transport. -/
def sendDataPacket : List DataChannelKey × Option ℕ :=
  if request.hasExplicitDestinations then
    if request.resolveDestinationIdentities ps=[] then ([],some 0)
    else st.sendBytesToIdentitiesWithKindForTarget request.room .publisher request.channelKind
      (request.resolveDestinationIdentities ps)
  else st.sendBytesToRoomWithKindForTarget request.room .publisher request.channelKind

/-- An open channel of the kind asked for. -/
def HasChannel (target : DataChannelTransportTarget) (identity : String) : Prop :=
  ⟨request.room,identity,target,request.channelKind⟩∈st.channels
  deriving Decidable

def Addresses (p : ParticipantInfo) : Prop :=
  request.hasExplicitDestinations →
    p.identity∈request.destinationIdentities ∨ p.sid∈request.destinationSids

/-- Who should get the packet: addressed participants with a channel on either transport. -/
def Wanted (identity : String) : Prop :=
  (∃p∈ps,p.identity=identity ∧ request.Addresses p) ∧
    (request.HasChannel st .subscriber identity ∨ request.HasChannel st .publisher identity)

/-- Those who should get the packet get it once, and nobody else does. -/
def ReachesOnce (delivered : List DataChannelKey) : Prop :=
  (∀c∈delivered,c.room=request.room) ∧ ∀i,
    (request.Wanted ps st i → (delivered.map (·.identity)).count i=1) ∧
      (¬ request.Wanted ps st i → (delivered.map (·.identity)).count i=0)

structure Deliverable : Prop where
  onPublisher : ∀p∈ps,request.Addresses p → request.HasChannel st .subscriber p.identity →
    request.HasChannel st .publisher p.identity
  participants : ∀i,request.HasChannel st .publisher i →
    i∈request.destinationIdentities ∨ ¬ request.hasExplicitDestinations → ∃p∈ps,p.identity=i
  once : request.destinationSids=[] →
    ∀i,request.HasChannel st .publisher i → request.destinationIdentities.count i≤1
  found : ∀p∈ps,request.HasChannel st .publisher p.identity → p.sid∈request.destinationSids →
    p.identity∈request.destinationIdentities ∨
      ∃sid∈request.destinationSids,identityBySid ps sid=some p.identity

variable {request ps st} {i : String}

theorem exists_of_identityBySid {sid : String} (h : identityBySid ps sid=some i) :
    ∃p∈ps,p.identity=i ∧ p.sid=sid := by
  obtain ⟨p,hp,rfl⟩ := Option.map_eq_some_iff.mp h
  exact ⟨p,mem_reverse.mp (mem_of_find?_eq_some hp),rfl,by simpa using find?_some hp⟩

theorem foldl_pushUnvisited {is acc : List String} (ha : acc.Nodup) :
    (is.foldl pushUnvisited acc).Nodup ∧ (i∈is.foldl pushUnvisited acc ↔ i∈acc ∨ i∈is) := by
  induction is generalizing acc with
  | nil => exact ⟨ha,by simp⟩
  | cons j is ih =>
    rw [foldl_cons,pushUnvisited]
    split_ifs with hj
    · refine ⟨(ih ha).1,(ih ha).2.trans ?_⟩
      rw [mem_cons]
      exact ⟨Or.imp_right .inr,fun h => h.elim .inl (Or.rec (fun he => .inl (he ▸ hj)) .inr)⟩
    · have hn : (acc++[j]).Nodup := by
        simpa [nodup_append] using ⟨ha,fun a ha he => hj (he ▸ ha)⟩
      refine ⟨(ih hn).1,(ih hn).2.trans ?_⟩
      rw [mem_append,mem_singleton,mem_cons,or_assoc]

theorem mem_resolveDestinationIdentities :
    i∈request.resolveDestinationIdentities ps ↔ i∈request.destinationIdentities ∨
      ∃sid∈request.destinationSids,identityBySid ps sid=some i := by
  rw [resolveDestinationIdentities]
  split_ifs with hs
  · simp [hs]
  · rw [(foldl_pushUnvisited nodup_nil).2]
    simp

theorem count_resolveDestinationIdentities (h : request.destinationSids≠[]) :
    (request.resolveDestinationIdentities ps).count i≤1 := by
  rw [resolveDestinationIdentities,if_neg h]
  exact nodup_iff_count_le_one.mp (foldl_pushUnvisited (i := i) nodup_nil).1 i

/-- How often somebody is reached if every send succeeds. -/
theorem count_sendDataPacket (hs : ∀c,st.sends c) :
    ((request.sendDataPacket ps st).1.map (·.identity)).count i =
      if request.HasChannel st .publisher i then
        if request.hasExplicitDestinations then
          (request.resolveDestinationIdentities ps).count i else 1
      else 0 := by
  rw [sendDataPacket]
  by_cases he : request.hasExplicitDestinations
  · rw [if_pos he,if_pos he]
    by_cases hr : request.resolveDestinationIdentities ps=[]
    · simp [hr]
    · rw [if_neg hr,DataChannelStore.sendBytesToIdentitiesWithKindForTarget,if_neg hr,
        DataChannelStore.sendBytes_of_sends hs,DataChannelStore.count_filterMap_get]
      rfl
  · rw [if_neg he,if_neg he,DataChannelStore.sendBytesToRoomWithKindForTarget,
      DataChannelStore.sendBytes_of_sends hs,DataChannelStore.count_channelsForRoom]
    rfl

theorem room_of_mem_sendDataPacket {c : DataChannelKey} (h : c∈(request.sendDataPacket ps st).1) :
    c.room=request.room := by
  rw [sendDataPacket] at h
  split_ifs at h with he hr
  · cases h
  · rw [DataChannelStore.sendBytesToIdentitiesWithKindForTarget,if_neg hr] at h
    obtain ⟨i,-,hi⟩ := mem_filterMap.mp ((takeWhile_sublist _).subset h)
    rw [DataChannelStore.getWithKindForTarget,Option.ite_none_right_eq_some] at hi
    exact Option.some.inj hi.2 ▸ rfl
  · have hm := mem_filter.mp ((takeWhile_sublist _).subset h)
    exact (of_decide_eq_true hm.2).1

theorem sendDataPacket_reachesOnce_iff (hs : ∀c,st.sends c) :
    request.ReachesOnce ps st (request.sendDataPacket ps st).1 ↔ request.Deliverable ps st := by
  simp only [ReachesOnce,count_sendDataPacket hs]
  constructor
  · rintro ⟨-,h⟩
    -- whoever has a channel on the publisher transport and is named is reached
    have hw : ∀i,request.HasChannel st .publisher i →
        i∈request.resolveDestinationIdentities ps ∨ ¬ request.hasExplicitDestinations →
          request.Wanted ps st i := by
      intro i hp hi
      by_contra hn
      have hc := (h i).2 hn
      split_ifs at hc with he
      exact count_eq_zero.mp hc (hi.resolve_right (not_not.mpr he))
    refine ⟨fun p hp ha hc => ?_,fun i hp hi => ?_,fun hn i hp => ?_,fun p hp hc hsid => ?_⟩
    · by_contra hn
      have hc := (h p.identity).1 ⟨⟨p,hp,rfl,ha⟩,.inl hc⟩
      rw [if_neg hn] at hc
      cases hc
    · obtain ⟨⟨p,hm,he,-⟩,-⟩ := hw i hp (hi.imp_left
        fun hm => mem_resolveDestinationIdentities.mpr (.inl hm))
      exact ⟨p,hm,he⟩
    · by_contra hl
      have hm : i∈request.destinationIdentities := count_pos_iff.mp (by omega)
      have hc := (h i).1 (hw i hp (.inl (mem_resolveDestinationIdentities.mpr (.inl hm))))
      rw [if_pos hp,if_pos (.inl (ne_nil_of_mem hm)),resolveDestinationIdentities,if_pos hn] at hc
      omega
    · have he : request.hasExplicitDestinations := .inr (ne_nil_of_mem hsid)
      have hc := (h p.identity).1 ⟨⟨p,hp,rfl,fun _ => .inr hsid⟩,.inr hc⟩
      rw [if_pos ‹_›,if_pos he] at hc
      exact mem_resolveDestinationIdentities.mp (count_pos_iff.mp (by omega))
  · intro h
    refine ⟨fun c hc => room_of_mem_sendDataPacket hc,fun i => ⟨?_,fun hn => ?_⟩⟩
    · rintro ⟨⟨p,hp,rfl,ha⟩,ho⟩
      have hc := ho.elim (h.onPublisher p hp ha) id
      split_ifs with he
      · have hm : p.identity∈request.resolveDestinationIdentities ps :=
          mem_resolveDestinationIdentities.mpr ((ha he).elim .inl (h.found p hp hc))
        have hl := count_pos_iff.mpr hm
        by_cases hn : request.destinationSids=[]
        · have hu := h.once hn _ hc
          rw [resolveDestinationIdentities,if_pos hn] at hl ⊢
          omega
        · have hu : (request.resolveDestinationIdentities ps).count p.identity≤1 :=
            count_resolveDestinationIdentities hn
          omega
      · rfl
    · split_ifs with hp he
      · refine count_eq_zero.mpr fun hm => hn ?_
        obtain hi | ⟨sid,hsid,hi⟩ := mem_resolveDestinationIdentities.mp hm
        · obtain ⟨p,hq,rfl⟩ := h.participants i hp (.inl hi)
          exact ⟨⟨p,hq,rfl,fun _ => .inl hi⟩,.inr hp⟩
        · obtain ⟨p,hq,rfl,rfl⟩ := exists_of_identityBySid hi
          exact ⟨⟨p,hq,rfl,fun _ => .inr hsid⟩,.inr hp⟩
      · obtain ⟨p,hq,rfl⟩ := h.participants i hp (.inr he)
        exact absurd ⟨⟨p,hq,rfl,fun hx => absurd hx he⟩,.inr hp⟩ hn
      · rfl

end SendDataRequest

/-- `list_participants`, in the order in which the map is visited. -/
def participantsInOrder (rooms : RoomStore) (room : String) (order : Iteration String) :
    Except RoomStoreError (List ParticipantInfo) :=
  match rooms.rooms.lookup room with
  | none => .error .roomNotFound
  | some record => .ok ((record.participants.entries order).map Prod.snd)

def sendData (rooms : RoomStore) (order : Iteration String) (st : DataChannelStore)
    (request : SendDataRequest) : Except RoomStoreError (List DataChannelKey × Option ℕ) :=
  (participantsInOrder rooms request.room order).map (fun ps => request.sendDataPacket ps st)

def sendDataFromService := sendData

theorem sendData_reachesOnce_iff {rooms : RoomStore} {order : Iteration String}
    {st : DataChannelStore} {request : SendDataRequest} {ps : List ParticipantInfo}
    (hs : ∀c,st.sends c) (hl : participantsInOrder rooms request.room order = .ok ps) :
    ∃out,sendData rooms order st request = .ok out ∧ sendDataFromService rooms order st request =
      .ok out ∧
      (request.ReachesOnce ps st out.1 ↔ request.Deliverable ps st) := by
  have he : sendData rooms order st request = .ok (request.sendDataPacket ps st) := by
    rw [sendData,hl]
    rfl
  exact ⟨_,he,he,SendDataRequest.sendDataPacket_reachesOnce_iff hs⟩

theorem participantsInOrder_packetContext :
    ∃ps,participantsInOrder (packetContext false).rooms "room" (.sorted String) = .ok ps ∧
      ps.map (·.identity)=["alice","carol"] := by
  have hl : (participantsInOrder (packetContext false).rooms "room" (.sorted String)).toOption.map
      (·.map (·.identity))=some ["alice","carol"] := by decide +kernel
  obtain ⟨ps,ho,hi⟩ := Option.map_eq_some_iff.mp hl
  cases hp : participantsInOrder (packetContext false).rooms "room" (.sorted String) with
  | error e =>
    rw [hp] at ho
    cases ho
  | ok qs =>
    rw [hp] at ho
    exact ⟨qs,rfl,Option.some.inj ho ▸ hi⟩

/-- Everyone in the room has a channel on the publisher transport. -/
theorem alice_and_carol_reached :
    let key (i : String) : DataChannelKey := ⟨"room",i,.publisher,.reliable⟩
    let st : DataChannelStore := ⟨[key "alice",key "carol"],by decide,fun _ => true⟩
    ∃ps out,participantsInOrder (packetContext false).rooms "room" (.sorted String) = .ok ps ∧
      sendData (packetContext false).rooms (.sorted String) st ⟨"room",0,[],[]⟩ = .ok out ∧
      SendDataRequest.ReachesOnce ⟨"room",0,[],[]⟩ ps st out.1 := by
  intro key st
  obtain ⟨ps,hl,hi⟩ := participantsInOrder_packetContext
  obtain ⟨out,ho,-,h⟩ := @sendData_reachesOnce_iff _ _ st ⟨"room",0,[],[]⟩ _ (fun _ => rfl) hl
  refine ⟨ps,out,hl,ho,h.mpr ⟨fun p _ _ hc => ?_,fun i hc _ => ?_,fun _ _ _ => Nat.zero_le 1,
    fun _ _ _ hm => nomatch hm⟩⟩
  · exact absurd hc (by simp [SendDataRequest.HasChannel,st,key])
  · have hm : i∈ps.map (·.identity) := by
      simpa [hi,SendDataRequest.HasChannel,SendDataRequest.channelKind,st,key] using hc
    obtain ⟨p,hp,he⟩ := mem_map.mp hm
    exact ⟨p,hp,he⟩

/-- carol's channel is on the subscriber transport, and a message to everyone misses it. -/
theorem subscriber_transport_missed :
    let st : DataChannelStore :=
      ⟨[⟨"room", "carol",.subscriber,.reliable⟩],by decide,fun _ => true⟩
    ∃ps,participantsInOrder (packetContext false).rooms "room" (.sorted String) = .ok ps ∧
      SendDataRequest.Wanted ⟨"room",0,[],[]⟩ ps st "carol" ∧
      sendData (packetContext false).rooms (.sorted String) st ⟨"room",0,[],[]⟩ =
        .ok ([],some 0) := by
  intro st
  obtain ⟨ps,hl,hi⟩ := participantsInOrder_packetContext
  have hm : "carol" ∈ ps.map (·.identity) := hi ▸ by decide
  obtain ⟨p,hp,he⟩ := mem_map.mp hm
  refine ⟨ps,hl,⟨⟨p,hp,he,fun hx => absurd hx (by decide)⟩,.inl (by decide)⟩,?_⟩
  rfl

end OxideSfu.Signaling
