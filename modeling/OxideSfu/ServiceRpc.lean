import OxideSfu.DataPackets
import OxideSfu.StepRuns

/-!
# Requests of the room service to participants

The room service sends a request to a participant over its data channel and waits for the response
(`perform_rpc_from_service` in `state.rs`). Pending requests are found by their numbered ids alone.
Steps are what is done under the lock of the pending requests; packets come from anybody.
-/

namespace OxideSfu.Signaling

open FiniteMaps Rooms RoomStore StepRuns FiniteMap List Prod Option

inductive ServiceRpcResponse
  | payload (payload : String)
  | error (code : ℕ) (message : String)
  | compressedPayload

/-- How far a request has come. After its time is over it still has to give up its entry. -/
inductive RpcPhase | sending | waiting | expired
  | returned (result : Except RoomStoreError String)
  deriving DecidableEq

def RpcPhase.isReturned : RpcPhase→Bool
  | .returned _ => true | _ => false

/-- A request that was sent out. `response` is what its channel holds, `closed` tells that the other
end of the channel is gone. -/
structure ServiceRpcCall where
  destination : ParticipantKey
  requestId : String
  request : DataPacket
  phase : RpcPhase := .sending
  response : Option ServiceRpcResponse := none
  closed : Bool := false

/-- The pending requests by their ids. Requests are numbered in the order in which they were made,
and it is recorded which ones were completed by a packet of whom. -/
structure ServiceRpcState where
  pending : FiniteMap String ℕ
  nextServiceRpcRequestId : ℕ
  calls : List ServiceRpcCall
  completions : List (ℕ × ParticipantKey)

namespace ServiceRpcState

def initial : ServiceRpcState := ⟨.empty,1,[],[]⟩

def modifyCall (s : ServiceRpcState) (call : ℕ) (f : ServiceRpcCall → ServiceRpcCall) :
    ServiceRpcState :=
  {s with calls := s.calls.modify call f}

def dropSender (s : ServiceRpcState) (requestId : String) : ServiceRpcState :=
  match s.pending.lookup requestId with
  | none => s
  | some call =>
    ({s with pending := s.pending.erase requestId}).modifyCall call
      (fun call => {call with closed := true})

end ServiceRpcState

structure PerformRpcRequest where
  destination : ParticipantKey
  (method payload : String)
  responseTimeoutMs : ℕ

def rpcRequestPacket (request : PerformRpcRequest) (requestId : String) : DataPacket where
  kind := 0
  participantIdentity := requestId
  value := some (.rpcRequest {
    id := requestId,method := request.method,payload := request.payload
    responseTimeoutMs := if request.responseTimeoutMs=0 then 10000 else request.responseTimeoutMs
    version := 1})

namespace ServiceRpcState

/-- The first part of a request: it is refused, or it gets an id and an entry. `hasChannel` tells
whether the destination has a reliable channel. -/
def performRpcFromService (s : ServiceRpcState) (rooms : RoomStore) (request : PerformRpcRequest)
    (hasChannel : Bool) : Except RoomStoreError Unit × ServiceRpcState :=
  match rooms.getParticipant request.destination.room request.destination.identity with
  | .error error => (.error error,s)
  | .ok _ =>
    if request.method.utf8ByteSize > 64 then
      (.error (.invalidArgument "rpc method must be at most 64 bytes"),s)
    else if request.payload.utf8ByteSize > 15*1024 then
      (.error (.invalidArgument "rpc payload must be at most 15KiB"),s)
    else if !hasChannel then (.error .participantNotFound,s)
    else
      let requestId := "rpc-" ++ hex16 s.nextServiceRpcRequestId
      -- The counter wraps around, so an entry of the same id may be there.
      let s := {s.dropSender requestId with
        nextServiceRpcRequestId := (s.nextServiceRpcRequestId+1) % 2^64}
      (.ok (),{s with
        pending := s.pending.insert requestId s.calls.length
        calls := s.calls ++
          [⟨request.destination,requestId,rpcRequestPacket request requestId,.sending,none,false⟩]})

def sendFinished (s : ServiceRpcState) (call : ℕ) (error : Option String) : ServiceRpcState :=
  match s.calls[call]? with
  | some ⟨_,requestId,_,.sending,_,_⟩ =>
    match error with
    | none => s.modifyCall call (fun call => {call with phase := .waiting})
    | some error =>
      (s.dropSender requestId).modifyCall call (fun call => {call with
        phase := .returned (.error (.invalidArgument ("failed to send rpc request: " ++ error)))})
  | _ => s

def rpcResult : ServiceRpcResponse→Except RoomStoreError String
  | .payload payload => .ok payload
  | .error code message =>
    .error (.invalidArgument (if message = "" then "rpc error code " ++ toString code
      else "rpc error " ++ toString code ++ ": " ++ message))
  | .compressedPayload =>
    .error (.invalidArgument "compressed rpc response payload is not supported")

def receive (s : ServiceRpcState) (call : ℕ) : ServiceRpcState :=
  match s.calls[call]? with
  | some ⟨_,_,_,.waiting,some response,_⟩ =>
    s.modifyCall call (fun call => {call with phase := .returned (rpcResult response)})
  | some ⟨_,_,_,.waiting,none,true⟩ =>
    s.modifyCall call (fun call => {call with phase := .returned (.error .participantNotFound)})
  | _ => s

def expire (s : ServiceRpcState) (call : ℕ) : ServiceRpcState :=
  match s.calls[call]? with
  | some ⟨_,_,_,.waiting,_,_⟩ => s.modifyCall call (fun call => {call with phase := .expired})
  | _ => s

def giveUp (s : ServiceRpcState) (call : ℕ) : ServiceRpcState :=
  match s.calls[call]? with
  | some ⟨_,requestId,_,.expired,_,_⟩ =>
    (s.dropSender requestId).modifyCall call (fun call => {call with
      phase := .returned (.error (.invalidArgument "rpc response timeout"))})
  | _ => s

def serviceRpcResponse (response : RpcResponse) : ServiceRpcResponse :=
  match response.value with
  | some (.payload payload) => .payload payload | some (.error code message) => .error code message
  | some (.compressedPayload _) => .compressedPayload | none => .payload ""

/-- A response is sent into the channel of the pending request with its id. Nobody listens there
any more if the time of the request is over. -/
def consumeServiceRpcDataPacket (s : ServiceRpcState) (sender : ParticipantKey)
    (packet : DataPacket) : Bool × ServiceRpcState :=
  match packet.value with
  | some (.rpcAck requestId) => ((s.pending.lookup requestId).isSome,s)
  | some (.rpcResponse response) =>
    match s.pending.lookup response.requestId with
    | none => (false,s)
    | some call =>
      (true,{({s with pending := s.pending.erase response.requestId}).modifyCall call
          (fun call => {call with response := some (serviceRpcResponse response)}) with
        completions := s.completions++[(call,sender)]})
  | _ => (false,s)

def receivePacket (s : ServiceRpcState) (rooms : RoomStore) (permissions : PublishPermissionStore)
    (sender : ParticipantKey) (channelKind : DataChannelKind) (packet : DataPacket) :
    ServiceRpcState :=
  if !permissions.canPublishData sender then s
  else
    (s.consumeServiceRpcDataPacket sender
      (normalizeIncomingDataPacket rooms sender channelKind packet)).2

end ServiceRpcState

inductive ServiceRpcEvent
  | perform (rooms : RoomStore) (request : PerformRpcRequest) (hasChannel : Bool)
  | sendFinished (call : ℕ) (error : Option String)
  | receive (call : ℕ)
  | expire (call : ℕ)
  | giveUp (call : ℕ)
  | packet (rooms : RoomStore) (permissions : PublishPermissionStore) (sender : ParticipantKey)
      (channelKind : DataChannelKind) (packet : DataPacket)

namespace ServiceRpcState

def step (s : ServiceRpcState) : ServiceRpcEvent → ServiceRpcState
  | .perform rooms request hasChannel => (s.performRpcFromService rooms request hasChannel).2
  | .sendFinished call error => s.sendFinished call error | .receive call => s.receive call
  | .expire call => s.expire call | .giveUp call => s.giveUp call
  | .packet rooms permissions sender channelKind packet =>
    s.receivePacket rooms permissions sender channelKind packet

def run (s : ServiceRpcState) (events : List ServiceRpcEvent) : ServiceRpcState :=
  events.foldl step s

@[simp] theorem run_concat (s : ServiceRpcState) (es : List ServiceRpcEvent)
    (e : ServiceRpcEvent) : s.run (es++[e])=(s.run es).step e :=
  foldl_append

end ServiceRpcState

variable {i : ℕ}

def NotPending (s : ServiceRpcState) (call : ℕ) : Prop :=
  ∀requestId,s.pending.lookup requestId≠some call

/-- What holds of the requests in every run: an entry belongs to a request that is still under way
and was not completed, and what is recorded as completed was completed once, by the destination. -/
structure RpcInvariant (s : ServiceRpcState) : Prop where
  pending : ∀requestId i,s.pending.lookup requestId=some i → ∃call,s.calls[i]?=some call ∧
    call.requestId=requestId ∧ call.phase.isReturned=false ∧ call.response=none ∧
    call.closed=false ∧ i∉s.completions.map fst
  once : (s.completions.map fst).Nodup
  authentic : ∀i sender,(i,sender)∈s.completions →
    ∃call,s.calls[i]?=some call ∧ call.destination=sender
  answered : ∀(i : ℕ) (call : ServiceRpcCall),s.calls[i]?=some call → call.response.isSome →
    i∈s.completions.map fst
  results : ∀(i : ℕ) (call : ServiceRpcCall) payload,s.calls[i]?=some call →
    call.phase = .returned (.ok payload) →
    call.response.isSome

variable {s : ServiceRpcState}

theorem getElem?_modifyCall (s : ServiceRpcState) (i j : ℕ) (f : ServiceRpcCall → ServiceRpcCall) :
    (s.modifyCall i f).calls[j]?=if i=j then s.calls[j]?.map f else s.calls[j]? := by
  rw [ServiceRpcState.modifyCall,getElem?_modify]
  split_ifs <;> simp

theorem rpcInvariant_initial : RpcInvariant .initial where
  pending := fun id i h => by cases h
  once := nodup_nil
  authentic := fun i sd h => by cases h
  answered := fun i call h => by cases h
  results := fun i call payload h => by cases h

/-- A request that returns must not be pending, and its result comes from a response. -/
theorem RpcInvariant.setPhase (h : RpcInvariant s) {phase : RpcPhase}
    (hf : phase.isReturned → NotPending s i)
    (hresu : ∀payload,phase = .returned (.ok payload) → ∀call,s.calls[i]?=some call →
      call.response.isSome) :
    RpcInvariant (s.modifyCall i (fun call => {call with phase})) := by
  have hca := fun j => getElem?_modifyCall s i j (fun call => {call with phase})
  constructor
  · intro id j hpe
    obtain ⟨call,hc,hid,hp,hres⟩ := h.pending id j hpe
    rw [hca,hc]
    split_ifs with hij
    · subst hij
      refine ⟨_,rfl,hid,?_,hres⟩
      by_contra hre
      exact hf (by simpa using hre) id hpe
    · exact ⟨call,rfl,hid,hp,hres⟩
  · exact h.once
  · intro j sd hmem
    obtain ⟨call,hc,hd⟩ := h.authentic j sd hmem
    rw [hca,hc]
    split_ifs
    · exact ⟨_,rfl,hd⟩
    · exact ⟨call,rfl,hd⟩
  · intro j call hc hr
    rw [hca] at hc
    split_ifs at hc
    · obtain ⟨b,hb,rfl⟩ := map_eq_some_iff.mp hc
      exact h.answered j b hb hr
    · exact h.answered j call hc hr
  · intro j call payload hc hp
    rw [hca] at hc
    split_ifs at hc with hij
    · obtain ⟨b,hb,rfl⟩ := map_eq_some_iff.mp hc
      subst hij
      exact hresu payload hp b hb
    · exact h.results j call payload hc hp

variable (s)

theorem lookup_dropSender (id o : String) :
    (s.dropSender id).pending.lookup o =
      if o=id then none else s.pending.lookup o := by
  rw [ServiceRpcState.dropSender]
  cases hp : s.pending.lookup id with
  | none =>
    split_ifs with ho
    · rw [ho,hp]
    · rfl
  | some call => exact lookup_erase _ _ _

theorem getElem?_dropSender (id : String) (j : ℕ) :
    (s.dropSender id).calls[j]?=s.calls[j]? ∨
      s.pending.lookup id=some j ∧
        (s.dropSender id).calls[j]? = s.calls[j]?.map (fun call => {call with closed := true}) := by
  rw [ServiceRpcState.dropSender]
  cases s.pending.lookup id with
  | none => exact .inl rfl
  | some i =>
    rw [getElem?_modifyCall]
    split_ifs with hij
    · exact .inr ⟨by rw [hij],rfl⟩
    · exact .inl rfl

theorem completions_dropSender (id : String) :
    (s.dropSender id).completions=s.completions := by
  rw [ServiceRpcState.dropSender]
  split <;> rfl

variable {s}

theorem RpcInvariant.dropSender (h : RpcInvariant s) (id : String) :
    RpcInvariant (s.dropSender id) := by
  constructor
  · intro o i hp
    rw [lookup_dropSender] at hp
    split_ifs at hp with ho
    obtain ⟨call,hc,hid,hre⟩ := h.pending o i hp
    rw [completions_dropSender]
    obtain hs | ⟨hdr,-⟩ := getElem?_dropSender s id i
    · exact ⟨call,hs.trans hc,hid,hre⟩
    · -- The request of the dropped entry has no other entry.
      obtain ⟨call',hc',hid',-⟩ := h.pending id i hdr
      cases hc.symm.trans hc'
      exact absurd (hid.symm.trans hid') ho
  · rw [completions_dropSender]
    exact h.once
  · intro i sd hmem
    rw [completions_dropSender] at hmem
    obtain ⟨call,hc,hd⟩ := h.authentic i sd hmem
    obtain hs | ⟨-,hcl⟩ := getElem?_dropSender s id i
    · exact ⟨call,hs.trans hc,hd⟩
    · rw [hcl,hc]
      exact ⟨_,rfl,hd⟩
  · intro i call hc hr
    rw [completions_dropSender]
    obtain hs | ⟨-,hcl⟩ := getElem?_dropSender s id i
    · exact h.answered i call (hs.symm.trans hc) hr
    · rw [hcl] at hc
      obtain ⟨b,hb,rfl⟩ := map_eq_some_iff.mp hc
      exact h.answered i b hb hr
  · intro i call payload hc hph
    obtain hs | ⟨-,hcl⟩ := getElem?_dropSender s id i
    · exact h.results i call payload (hs.symm.trans hc) hph
    · rw [hcl] at hc
      obtain ⟨b,hb,rfl⟩ := map_eq_some_iff.mp hc
      exact h.results i b payload hb hph

theorem RpcInvariant.notPending_dropSender (h : RpcInvariant s) {call : ServiceRpcCall}
    (hc : s.calls[i]?=some call) : NotPending (s.dropSender call.requestId) i := by
  intro id hp
  rw [lookup_dropSender] at hp
  split_ifs at hp with ho
  obtain ⟨call',hc',hid,-⟩ := h.pending id i hp
  cases hc.symm.trans hc'
  exact ho hid.symm

section

variable (h : RpcInvariant s)

include h

theorem RpcInvariant.lt_length (hi : i∈s.completions.map fst) : i<s.calls.length := by
  obtain ⟨⟨j,sd⟩,hmem,rfl⟩ := List.mem_map.mp hi
  obtain ⟨call,hc,-⟩ := h.authentic j sd hmem
  exact (List.getElem?_eq_some_iff.mp hc).1

theorem RpcInvariant.insert (call : ServiceRpcCall) (hph : call.phase.isReturned=false)
    (hr : call.response=none) (hcl : call.closed=false) :
    RpcInvariant {s with
      pending := s.pending.insert call.requestId s.calls.length
      calls := s.calls++[call]} := by
  have hc : ∀j,(s.calls++[call])[j]? =
      if j=s.calls.length then some call else s.calls[j]? := by
    intro j
    split_ifs with hj
    · rw [hj,List.getElem?_concat_length]
    · rw [List.getElem?_append]
      split_ifs with hlt
      · rfl
      · rw [List.getElem?_eq_none (Nat.not_lt.mp hlt),List.getElem?_singleton,if_neg (by omega)]
  constructor
  · intro id i hp
    rw [lookup_insert] at hp
    split_ifs at hp with hid
    · obtain rfl := some.inj hp
      refine ⟨call,by rw [hc,if_pos rfl],hid.symm,hph,hr,hcl,?_⟩
      exact fun hmem => Nat.lt_irrefl _ (h.lt_length hmem)
    · obtain ⟨b,hb,hres⟩ := h.pending id i hp
      have hlt := (List.getElem?_eq_some_iff.mp hb).1
      exact ⟨b,by rw [hc,if_neg (by omega),hb],hres⟩
  · exact h.once
  · intro i sd hmem
    obtain ⟨b,hb,hd⟩ := h.authentic i sd hmem
    have hlt := (List.getElem?_eq_some_iff.mp hb).1
    exact ⟨b,by rw [hc,if_neg (by omega),hb],hd⟩
  · intro i found hf hs
    rw [hc] at hf
    split_ifs at hf
    · cases hf
      rw [hr] at hs
      cases hs
    · exact h.answered i found hf hs
  · intro i found payload hf hre
    rw [hc] at hf
    split_ifs at hf
    · cases hf
      rw [hre] at hph
      cases hph
    · exact h.results i found payload hf hre

variable {sender : ParticipantKey}

theorem RpcInvariant.complete {id : String} (hp : s.pending.lookup id=some i)
    (hs : ∀call,s.calls[i]?=some call → call.destination=sender) (r : ServiceRpcResponse) :
    RpcInvariant {({s with pending := s.pending.erase id}).modifyCall i
      (fun call => {call with response := some r}) with
      completions := s.completions++[(i,sender)]} := by
  obtain ⟨completed,hco,hid,hph,-,-,hnew⟩ := h.pending id i hp
  have hca := fun j => getElem?_modifyCall {s with pending := s.pending.erase id} i j
    (fun call => {call with response := some r})
  have hfst : (s.completions++[(i,sender)]).map fst=s.completions.map fst++[i] := by
    simp
  constructor
  · intro o j ho
    have ho : (s.pending.erase id).lookup o=some j := ho
    rw [lookup_erase] at ho
    split_ifs at ho with hsame
    obtain ⟨call,hc,hid',hres,hr,hcl,hf⟩ := h.pending o j ho
    have hij : i≠j := by
      rintro rfl
      cases hc.symm.trans hco
      exact hsame (hid'.symm.trans hid)
    refine ⟨call,?_,hid',hres,hr,hcl,?_⟩
    · exact (hca j).trans (by rw [if_neg hij]; exact hc)
    · rw [hfst,mem_append,mem_singleton]
      rintro (hmem | rfl)
      · exact hf hmem
      · exact hij rfl
  · rw [hfst]
    exact List.Nodup.append h.once (nodup_singleton i) (by simpa using hnew)
  · intro j sender' hmem
    obtain hmem | hmem := mem_append.mp hmem
    · obtain ⟨call,hc,hd⟩ := h.authentic j sender' hmem
      rw [hca]
      rw [hc]
      split_ifs
      · exact ⟨_,rfl,hd⟩
      · exact ⟨call,rfl,hd⟩
    · obtain ⟨rfl,rfl⟩ := mk.inj (mem_singleton.mp hmem)
      refine ⟨{completed with response := some r},?_,hs completed hco⟩
      rw [hca,if_pos rfl]
      rw [hco]
      rfl
  · intro j call hc hso
    rw [hfst,mem_append,mem_singleton]
    rw [hca] at hc
    split_ifs at hc with hij
    · exact .inr hij.symm
    · exact .inl (h.answered j call hc hso)
  · intro j call payload hc hre
    rw [hca] at hc
    split_ifs at hc
    · obtain ⟨b,hb,rfl⟩ := map_eq_some_iff.mp hc
      rfl
    · exact h.results j call payload hc hre

/-- Whoever sends a response with the id of a request is the one that was asked. -/
def AnswersOwnRequests (s : ServiceRpcState) : ServiceRpcEvent→Prop
  | .packet _ _ sender _ ⟨_,_,_,some (.rpcResponse response)⟩ =>
    ∀call∈s.calls,call.requestId=response.requestId → call.destination=sender
  | _ => True

namespace RpcInvariant

theorem perform (rooms : RoomStore) (r : PerformRpcRequest) (hasChannel : Bool) :
    RpcInvariant (s.performRpcFromService rooms r hasChannel).2 := by
  rw [ServiceRpcState.performRpcFromService]
  split
  · exact h
  split_ifs
  · exact h
  · exact h
  · exact h
  · have hd := h.dropSender ("rpc-" ++ hex16 s.nextServiceRpcRequestId)
    have hc : RpcInvariant {s.dropSender ("rpc-" ++ hex16 s.nextServiceRpcRequestId) with
        nextServiceRpcRequestId := (s.nextServiceRpcRequestId+1) % 2^64} :=
      ⟨hd.pending,hd.once,hd.authentic,hd.answered,hd.results⟩
    exact hc.insert ⟨r.destination,_,rpcRequestPacket r _,.sending,none,false⟩ rfl rfl rfl

theorem sendFinished (i : ℕ) (e : Option String) : RpcInvariant (s.sendFinished i e) := by
  rw [ServiceRpcState.sendFinished]
  split
  · next hc =>
    cases e with
    | none => exact h.setPhase (fun hr => by cases hr) (fun _ hp => by cases hp)
    | some e =>
      refine (h.dropSender _).setPhase (fun _ => ?_) (fun _ hp => by cases hp)
      exact h.notPending_dropSender hc
  · exact h

theorem receive (i : ℕ) : RpcInvariant (s.receive i) := by
  -- A request with an entry has an empty channel that is open.
  have he : ∀id call,s.pending.lookup id=some i → s.calls[i]?=some call →
      call.response=none ∧ call.closed=false := by
    intro id call hp hc
    obtain ⟨found,hf,-,-,hr,hcl,-⟩ := h.pending id i hp
    cases hc.symm.trans hf
    exact ⟨hr,hcl⟩
  rw [ServiceRpcState.receive]
  split
  · next r _ hc =>
    refine h.setPhase (fun _ id hp => ?_) (fun payload hph call hs => ?_)
    · cases (he id _ hp hc).1
    · cases hc.symm.trans hs
      rfl
  · next hc =>
    refine h.setPhase (fun _ id hp => ?_) (fun payload hph => by cases hph)
    cases (he id _ hp hc).2
  · exact h

theorem expire (i : ℕ) : RpcInvariant (s.expire i) := by
  rw [ServiceRpcState.expire]
  split
  · exact h.setPhase (fun hr => by cases hr) (fun _ hp => by cases hp)
  · exact h

theorem giveUp (i : ℕ) : RpcInvariant (s.giveUp i) := by
  rw [ServiceRpcState.giveUp]
  split
  · next hc =>
    refine (h.dropSender _).setPhase (fun _ => ?_) (fun _ hp => by cases hp)
    exact h.notPending_dropSender hc
  · exact h

theorem receivePacket {rooms : RoomStore} {ps : PublishPermissionStore}
    {channelKind : DataChannelKind}
    {p : DataPacket} (ho : AnswersOwnRequests s (.packet rooms ps sender channelKind p)) :
    RpcInvariant (s.receivePacket rooms ps sender channelKind p) := by
  rw [ServiceRpcState.receivePacket]
  split_ifs
  · exact h
  obtain ⟨kind,identity,destinations,v⟩ := p
  rw [ServiceRpcState.consumeServiceRpcDataPacket]
  match v with
  | none => exact h
  | some (.user user) => exact h
  | some (.rpcRequest request) => exact h
  | some (.rpcAck id) => exact h
  | some (.other content) => exact h
  | some (.rpcResponse r) =>
    dsimp only [normalizeIncomingDataPacket]
    cases hp : s.pending.lookup r.requestId with
    | none => exact h
    | some i =>
      obtain ⟨asked,ha,hid,-⟩ := h.pending r.requestId i hp
      refine h.complete hp (fun call hc => ?_) _
      cases ha.symm.trans hc
      exact ho asked (mem_of_getElem? ha) hid

theorem step {e : ServiceRpcEvent} (ho : AnswersOwnRequests s e) : RpcInvariant (s.step e) := by
  cases e with
  | perform rooms r hasChannel => exact h.perform rooms r hasChannel
  | sendFinished call er => exact h.sendFinished call er
  | receive call => exact h.receive call
  | expire call => exact h.expire call
  | giveUp call => exact h.giveUp call
  | packet rooms ps sd channelKind p => exact h.receivePacket ho

end RpcInvariant

end

/-- A completed request was completed by its destination and once, a request that has returned has
no entry left, and one that returned a payload was completed. -/
structure RpcSound (s : ServiceRpcState) : Prop where
  authentic : ∀i sender,(i,sender)∈s.completions →
    ∃call,s.calls[i]?=some call ∧ call.destination=sender
  once : (s.completions.map fst).Nodup
  clean : ∀(i : ℕ) (call : ServiceRpcCall),s.calls[i]?=some call →
    call.phase.isReturned → NotPending s i
  answered : ∀(i : ℕ) (call : ServiceRpcCall) payload,s.calls[i]?=some call →
    call.phase = .returned (.ok payload) → i∈s.completions.map fst

theorem RpcInvariant.sound {s : ServiceRpcState} (h : RpcInvariant s) : RpcSound s where
  authentic := h.authentic
  once := h.once
  clean := by
    intro i call hc hr id hpe
    obtain ⟨found,hf,-,hp,-⟩ := h.pending id i hpe
    cases hc.symm.trans hf
    rw [hr] at hp
    cases hp
  answered := fun i call payload hc hp =>
    h.answered i call hc (h.results i call payload hc hp)

/-- If nobody sends a response with the id of a request to somebody else, the requests of the
service are completed by their destinations, once, and leave no entry. -/
theorem rpc_sound_of_own_answers (events : List ServiceRpcEvent)
    (howns : AtEveryStep (fun earlier event =>
      AnswersOwnRequests (ServiceRpcState.initial.run earlier) event) events) :
    RpcSound (ServiceRpcState.initial.run events) := by
  have hi : RpcInvariant (ServiceRpcState.initial.run events) := by
    refine howns.induction rpcInvariant_initial (fun events event hi hev => ?_)
    rw [ServiceRpcState.run_concat]
    exact hi.step hev
  exact hi.sound

def aliceAlone : RoomStore :=
  ((RoomStore.withDefaults {}).joinParticipantWithPermission
    ⟨"room","alice","Alice","",.empty,none⟩ 0).2

def pingAnsweredBy (sender : ParticipantKey) : List ServiceRpcEvent :=
  [.perform aliceAlone ⟨alice,"ping","",0⟩ true,.sendFinished 0 none,
    .packet aliceAlone (PublishPermissionStore.empty.setCanPublishData sender true) sender .reliable
      {value := some (.rpcResponse ⟨"rpc-0000000000000001",some (.payload "pong")⟩)},
    .receive 0]

theorem alice_answers_ping :
    RpcSound (ServiceRpcState.initial.run (pingAnsweredBy alice)) := by
  refine rpc_sound_of_own_answers (pingAnsweredBy alice) ?_
  change AtEveryStep _ ((((([]++[_])++[_])++[_]))++[_])
  simp only [atEveryStep_concat]
  refine ⟨⟨⟨⟨atEveryStep_nil _,trivial⟩,trivial⟩,?_⟩,trivial⟩
  intro call hc _
  have ha : (ServiceRpcState.initial.run ((pingAnsweredBy alice).take 2)).calls.map
      (·.destination)=[alice] := by decide +kernel
  exact mem_singleton.mp (ha ▸ mem_map_of_mem hc)

/-- Mallory, in another room, answers for Alice. -/
theorem mallory_answers_ping :
    let s := ServiceRpcState.initial.run (pingAnsweredBy ⟨"elsewhere","mallory"⟩)
    s.completions=[(0,⟨"elsewhere","mallory"⟩)] ∧
      s.calls.map (·.destination)=[alice] ∧
      s.calls.map (·.phase)=[.returned (.ok "pong")] := by
  decide +kernel

end OxideSfu.Signaling
