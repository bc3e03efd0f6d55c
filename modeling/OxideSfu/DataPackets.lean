import OxideSfu.ParticipantPermissions
import OxideSfu.RoomParticipants

/-!
# Packets on data channels

What a participant sends on a data channel is decoded, completed with its identity and sid, and sent
on; bytes that do not decode are wrapped (`forward_peer_connection_events` in `router/session.rs`).
The decoder is a parameter; fields that the server does not look at are left out.
-/

namespace OxideSfu.Signaling

open FiniteMaps Rooms List

inductive DataChannelKind | reliable | lossy | dataTrack deriving DecidableEq

structure UserPacket where
  payload : List UInt8
  participantSid : String := ""
  participantIdentity : String := ""
  destinationIdentities : List String := []
  deriving DecidableEq

structure RpcRequest where
  (id method payload : String)
  (responseTimeoutMs version : ℕ)
  deriving DecidableEq

inductive RpcResponseValue
  | payload (payload : String)
  | error (code : ℕ) (message : String)
  | compressedPayload (payload : List UInt8)
  deriving DecidableEq

structure RpcResponse where
  requestId : String
  value : Option RpcResponseValue
  deriving DecidableEq

/-- The content of a packet; kinds of content that the server does not look into are one case. -/
inductive PacketValue
  | user (user : UserPacket)
  | rpcRequest (request : RpcRequest)
  | rpcAck (requestId : String)
  | rpcResponse (response : RpcResponse)
  | other (content : List UInt8)
  deriving DecidableEq

structure DataPacket where
  kind : ℤ := 0
  participantIdentity : String := ""
  destinationIdentities : List String := []
  value : Option PacketValue := none
  deriving DecidableEq

def protoKindFromChannelKind : DataChannelKind → ℤ
  | .lossy => 1 | .reliable => 0 | .dataTrack => 0

def senderHidden (rooms : RoomStore) (sender : ParticipantKey) : Bool :=
  ((rooms.getParticipant sender.room sender.identity).toOption.bind (·.permission)).any (·.hidden)

def senderSid (rooms : RoomStore) (sender : ParticipantKey) : String :=
  (((rooms.getParticipant sender.room sender.identity).toOption).map (·.sid)).getD ""

/-- A sender field after normalization: what the client wrote stays unless it is empty or the
sender is hidden. -/
def normalizedField (hiddenSender : Bool) (own claimed : String) : String :=
  if claimed = "" ∨ hiddenSender then (if hiddenSender then "" else own) else claimed

def normalizeIncomingDataPacket (rooms : RoomStore) (sender : ParticipantKey)
    (channelKind : DataChannelKind) (packet : DataPacket) : DataPacket :=
  let hiddenSender := senderHidden rooms sender
  {packet with
    kind := protoKindFromChannelKind channelKind
    participantIdentity := normalizedField hiddenSender sender.identity packet.participantIdentity
    value :=
      match packet.value with
      | some (.user user) => some (.user {user with
          participantSid :=
            normalizedField hiddenSender (senderSid rooms sender) user.participantSid
          participantIdentity :=
            normalizedField hiddenSender sender.identity user.participantIdentity
          destinationIdentities :=
            if user.destinationIdentities=[] ∧ packet.destinationIdentities≠[] then
              packet.destinationIdentities
            else user.destinationIdentities})
      | value => value}

def rawReliablePayloadDataPacket (rooms : RoomStore) (sender : ParticipantKey)
    (bytes : List UInt8) : DataPacket where
  kind := 0
  participantIdentity := sender.identity
  value := some (.user {
    payload := bytes,participantSid := senderSid rooms sender,participantIdentity :=
      sender.identity})

def resolvedDestinationIdentitiesForPacket (packet : DataPacket) : List String :=
  if packet.destinationIdentities≠[] then packet.destinationIdentities
  else
    match packet.value with
    | some (.user user) => user.destinationIdentities | _ => []

def relayTargetIdentities (rooms : RoomStore) (sender : ParticipantKey)
    (destinationIdentities : List String) (order : Iteration String) : List String :=
  if destinationIdentities=[] then
    match rooms.rooms.lookup sender.room with
    | none => []
    | some record =>
      ((record.participants.entries order).map (·.2.identity)).filter
        (·≠sender.identity)
  else destinationIdentities.filter (·≠sender.identity)

def consumedByServiceRpc {α : Type} (pending : FiniteMap String α) (packet : DataPacket) : Bool :=
  match packet.value with
  | some (.rpcAck requestId) => (pending.lookup requestId).isSome
  | some (.rpcResponse response) => (pending.lookup response.requestId).isSome | _ => false

/-- What the loop of a channel reads when bytes arrive: the room store, the permissions, the pending
requests of the service, and whose channel of a kind is open and takes the packet. -/
structure ChannelContext (α : Type) where
  rooms : RoomStore
  permissions : PublishPermissionStore
  pending : FiniteMap String α
  order : Iteration String
  isOpen : String → DataChannelKind→Bool

variable {α : Type}

def relayedPackets (decode : List UInt8→Option DataPacket) (c : ChannelContext α)
    (sender : ParticipantKey) (channelKind : DataChannelKind) (bytes : List UInt8) :
    List (String × DataPacket) :=
  if !c.permissions.canPublishData sender then []
  else
    match decode bytes with
    | some packet =>
      let packet := normalizeIncomingDataPacket c.rooms sender channelKind packet
      if consumedByServiceRpc c.pending packet then []
      else
        ((relayTargetIdentities c.rooms sender (resolvedDestinationIdentitiesForPacket packet)
          c.order).filter (c.isOpen · channelKind)).map (·,packet)
    | none =>
      ((relayTargetIdentities c.rooms sender [] c.order).filter (c.isOpen · .reliable)).map
        (·,rawReliablePayloadDataPacket c.rooms sender bytes)

/-- The packet names the sender in all its sender fields, or nobody if the sender is hidden. -/
def NamesSender (rooms : RoomStore) (sender : ParticipantKey) (packet : DataPacket) : Prop :=
  let own := fun field => if senderHidden rooms sender then "" else field
  packet.participantIdentity=own sender.identity ∧
    ∀user,packet.value=some (.user user) →
      user.participantIdentity=own sender.identity ∧
        user.participantSid=own (senderSid rooms sender)

/-- The client has left the sender fields empty or written its own identity and sid. -/
def ClaimsNobodyElse (rooms : RoomStore) (sender : ParticipantKey) (packet : DataPacket) : Prop :=
  packet.participantIdentity∈["",sender.identity] ∧
    ∀user,packet.value=some (.user user) →
      user.participantIdentity∈["",sender.identity] ∧
        user.participantSid∈["",senderSid rooms sender]

/-- The bytes decode and come from a hidden sender or claim nobody else, or they do not decode and
come from a sender that is not hidden. -/
def HonestBytes (decode : List UInt8→Option DataPacket) (rooms : RoomStore)
    (sender : ParticipantKey) (bytes : List UInt8) : Prop :=
  match decode bytes with
  | some packet => senderHidden rooms sender ∨ ClaimsNobodyElse rooms sender packet
  | none => senderHidden rooms sender=false ∨ (sender.identity = "" ∧ senderSid rooms sender = "")

def ReachesSomebody (decode : List UInt8→Option DataPacket) (c : ChannelContext α)
    (sender : ParticipantKey) (channelKind : DataChannelKind) (bytes : List UInt8) : Prop :=
  c.permissions.canPublishData sender ∧
    match decode bytes with
    | some packet =>
      consumedByServiceRpc c.pending packet=false ∧
        ∃target∈relayTargetIdentities c.rooms sender
          (resolvedDestinationIdentitiesForPacket packet) c.order,c.isOpen target channelKind
    | none => ∃target∈relayTargetIdentities c.rooms sender [] c.order,
        c.isOpen target .reliable

theorem normalizedField_eq_iff (hiddenSender : Bool) (own claimed : String) :
    normalizedField hiddenSender own claimed=(if hiddenSender then "" else own) ↔
      hiddenSender ∨ claimed∈["",own] := by
  cases hiddenSender with
  | true => simp [normalizedField]
  | false =>
    by_cases he : claimed = ""
    · simp [normalizedField,he]
    · simp [normalizedField,he]

variable (rooms : RoomStore) (sd : ParticipantKey) (channelKind : DataChannelKind)

theorem namesSender_normalize_iff (p : DataPacket) :
    NamesSender rooms sd (normalizeIncomingDataPacket rooms sd channelKind p) ↔
      senderHidden rooms sd ∨ ClaimsNobodyElse rooms sd p := by
  have hou := normalizedField_eq_iff (senderHidden rooms sd) sd.identity p.participantIdentity
  have hu : (∀user,(normalizeIncomingDataPacket rooms sd channelKind p).value = some (.user user) →
      user.participantIdentity=(if senderHidden rooms sd then "" else sd.identity) ∧
        user.participantSid=(if senderHidden rooms sd then "" else senderSid rooms sd)) ↔
      senderHidden rooms sd ∨ ∀user,p.value=some (.user user) →
        user.participantIdentity∈["",sd.identity] ∧
          user.participantSid∈["",senderSid rooms sd] := by
    rw [normalizeIncomingDataPacket]
    split
    · next user hv =>
      have hi := normalizedField_eq_iff (senderHidden rooms sd) sd.identity user.participantIdentity
      have hsid := normalizedField_eq_iff (senderHidden rooms sd)
        (senderSid rooms sd) user.participantSid
      constructor
      · intro h
        obtain ⟨hi',hs'⟩ := h _ rfl
        obtain hh | hi := hi.mp hi'
        · exact .inl hh
        obtain hh | hsid := hsid.mp hs'
        · exact .inl hh
        refine .inr fun o ho => ?_
        cases hv.symm.trans ho
        exact ⟨hi,hsid⟩
      · rintro (hh | hc) o ho
        · cases ho
          exact ⟨hi.mpr (.inl hh),hsid.mpr (.inl hh)⟩
        · cases ho
          exact ⟨hi.mpr (.inr (hc user hv).1),hsid.mpr (.inr (hc user hv).2)⟩
    · next hnot =>
      constructor
      · exact fun _ => .inr fun user hu => absurd hu (hnot user)
      · exact fun _ user hu => absurd hu (hnot user)
  rw [ClaimsNobodyElse]
  change normalizedField _ _ _=_ ∧ _ ↔ _
  rw [hou,hu,or_and_left]

theorem namesSender_raw_iff (bytes : List UInt8) :
    NamesSender rooms sd (rawReliablePayloadDataPacket rooms sd bytes) ↔
      senderHidden rooms sd=false ∨ (sd.identity = "" ∧ senderSid rooms sd = "") := by
  cases hh : senderHidden rooms sd with
  | true | false => simp [NamesSender,rawReliablePayloadDataPacket,hh]

theorem destinations_normalize (p : DataPacket) :
    resolvedDestinationIdentitiesForPacket (normalizeIncomingDataPacket rooms sd channelKind p) =
      resolvedDestinationIdentitiesForPacket p := by
  by_cases hn : p.destinationIdentities=[]
  · cases hv : p.value with
    | none => simp [resolvedDestinationIdentitiesForPacket,normalizeIncomingDataPacket,hv]
    | some v =>
      cases v <;> simp [resolvedDestinationIdentitiesForPacket,normalizeIncomingDataPacket,hv,hn]
  · simp [resolvedDestinationIdentitiesForPacket,normalizeIncomingDataPacket,hn]

theorem consumed_normalize (pending : FiniteMap String α) (rooms : RoomStore)
    (sd : ParticipantKey) (channelKind : DataChannelKind) (p : DataPacket) :
    consumedByServiceRpc pending (normalizeIncomingDataPacket rooms sd channelKind p) =
      consumedByServiceRpc pending p := by
  cases hv : p.value with
  | none => simp [consumedByServiceRpc,normalizeIncomingDataPacket,hv]
  | some v => cases v <;> simp [consumedByServiceRpc,normalizeIncomingDataPacket,hv]

theorem forall_sent_iff (targets : List String) (opened : String→Bool) (p : DataPacket) :
    (∀sent∈(targets.filter opened).map (·,p),NamesSender rooms sd sent.2) ↔
      ((∃k∈targets,opened k) → NamesSender rooms sd p) := by
  constructor
  · rintro h ⟨k,hmem,ho⟩
    exact h (k,p) (mem_map.mpr ⟨k,mem_filter.mpr ⟨hmem,ho⟩,rfl⟩)
  · rintro h sent hs
    obtain ⟨k,hmem,rfl⟩ := mem_map.mp hs
    exact h ⟨k,mem_filter.mp hmem⟩

/-- The packets that are relayed for some bytes name the sender exactly if they reach nobody or the
bytes are honest. -/
theorem relayed_name_sender_iff (decode : List UInt8→Option DataPacket) (c : ChannelContext α)
    (sender : ParticipantKey) (channelKind : DataChannelKind) (bytes : List UInt8) :
    (∀sent ∈ relayedPackets decode c sender channelKind bytes,
        NamesSender c.rooms sender sent.2) ↔
      (ReachesSomebody decode c sender channelKind bytes →
        HonestBytes decode c.rooms sender bytes) := by
  rw [relayedPackets,ReachesSomebody,HonestBytes]
  cases c.permissions.canPublishData sender with
  | false => simp
  | true =>
    rw [Bool.not_true,if_neg Bool.false_ne_true]
    cases decode bytes with
    | none =>
      rw [forall_sent_iff,namesSender_raw_iff]
      simp
    | some packet =>
      dsimp only
      rw [consumed_normalize,destinations_normalize]
      cases consumedByServiceRpc c.pending packet with
      | true => simp
      | false =>
        rw [if_neg Bool.false_ne_true,forall_sent_iff,namesSender_normalize_iff]
        simp

def packetContext (hidden : Bool) : ChannelContext Unit where
  rooms :=
    let permission : ParticipantPermission := {
      canSubscribe := true,canPublish := true,canPublishData := true,hidden
      canUpdateMetadata := false,canSubscribeMetrics := false,canManageAgentSession := false}
    (((RoomStore.withDefaults {}).joinParticipantWithPermission
      ⟨"room","alice","Alice","",.empty,some permission⟩ 0).2.joinParticipantWithPermission
      ⟨"room","carol","Carol","",.empty,none⟩ 0).2
  permissions := PublishPermissionStore.empty.setCanPublishData ⟨"room","alice"⟩ true
  pending := .empty
  order := .sorted String
  isOpen _ _ := true

def forgedPacket : DataPacket where
  participantIdentity := "bob"
  value := some (.user {payload := [104,105],participantIdentity := "bob"})

variable {decode : List UInt8→Option DataPacket} {bytes : List UInt8}

/-- Alice's message with Bob's name reaches Carol as it is, whatever its encoding. -/
theorem forgedPacket_relayed (hf : decode bytes=some forgedPacket) :
    ("carol",normalizeIncomingDataPacket (packetContext false).rooms ⟨"room","alice"⟩ .reliable
      forgedPacket) ∈ relayedPackets decode (packetContext false)
        ⟨"room","alice"⟩ .reliable bytes := by
  rw [relayedPackets,hf]
  dsimp only
  decide +kernel

/-- Bytes that do not decode reach Carol under Alice's name even if Alice is hidden. -/
theorem undecodable_relayed (hu : decode bytes=none) :
    ("carol",rawReliablePayloadDataPacket (packetContext true).rooms ⟨"room","alice"⟩ bytes) ∈
      relayedPackets decode (packetContext true) ⟨"room","alice"⟩ .reliable bytes := by
  rw [relayedPackets,hu]
  have ht : "carol" ∈ (relayTargetIdentities (packetContext true).rooms
      ⟨"room","alice"⟩ [] (packetContext true).order).filter
        ((packetContext true).isOpen · .reliable) := by decide +kernel
  exact mem_map.mpr ⟨"carol",ht,rfl⟩

def forgedBytes : List UInt8 :=
  [18,9,18,2,104,105,42,3,98,111,98,34,3,98,111,98]

def decodeForged (bytes : List UInt8) : Option DataPacket :=
  if bytes=forgedBytes then some forgedPacket else none

/-- Alice's message with Bob's name reaches Carol under Bob's name, and a byte that does not decode
reaches Carol under Alice's name even if Alice is hidden. -/
theorem packets_misname_sender :
    (∃packet,
      ("carol",packet) ∈
          relayedPackets decodeForged (packetContext false)
            ⟨"room", "alice"⟩ .reliable forgedBytes ∧
        packet.participantIdentity = "bob" ∧
        ¬NamesSender (packetContext false).rooms ⟨"room", "alice"⟩ packet) ∧
    (∃packet,
      ("carol",packet) ∈
          relayedPackets decodeForged (packetContext true) ⟨"room", "alice"⟩ .reliable [255] ∧
        packet.participantIdentity = "alice" ∧
        ¬NamesSender (packetContext true).rooms ⟨"room", "alice"⟩ packet) := by
  refine ⟨⟨_,forgedPacket_relayed rfl,by decide +kernel,?_⟩,⟨_,undecodable_relayed rfl,rfl,?_⟩⟩
  · rw [namesSender_normalize_iff]
    rintro (hh | ⟨hi,-⟩)
    · exact absurd hh (by decide +kernel)
    · exact absurd hi (by decide)
  · rw [namesSender_raw_iff]
    decide +kernel

end OxideSfu.Signaling
