import OxideSfu.FiniteMaps
import OxideSfu.StepRuns
import Mathlib.Data.String.Basic

/-!
# Directories of nodes

A room is placed on a registered node. One directory lives in the memory of a process, the other
in three hashes of Redis; both answer the calls of one interface.
-/

namespace OxideSfu.Nodes

open FiniteMaps FiniteMap Finset Option

structure RegisteredNode where
  (id region : String)
deriving DecidableEq

inductive RoomNodeRegistryError | lockPoisoned | nodeNotFound
  | backend (message : String)
deriving DecidableEq

/-- A policy that places rooms: it takes one of the nodes it is offered, or none. -/
structure NodeSelector where
  selectNodeForAssignment : String → List RegisteredNode→Option RegisteredNode
  mem_candidates : ∀{room candidates node},
    selectNodeForAssignment room candidates=some node → node∈candidates

inductive DirectoryCall
  | registerNode (node : RegisteredNode)
  | unregisterNode (nodeId : String)
  | listNodes
  | setNodeForRoom (room nodeId : String)
  | clearRoomState (room : String)
  | getNodeForRoom (room : String)
  | selectOrAssignNodeForRoom (room : String)
  | setNodeDraining (nodeId : String) (draining : Bool)
  | isNodeDraining (nodeId : String)

inductive Answer | done
  | node (node : RegisteredNode)
  | nodes (nodes : List RegisteredNode)
  | draining (draining : Bool)
deriving DecidableEq

abbrev Answered := Except RoomNodeRegistryError Answer

def found (node : Option RegisteredNode) : Answered :=
  (node.map Answer.node).elim (.error .nodeNotFound) .ok

def nodesIn (nodes : FiniteMap String RegisteredNode) (order : Iteration String) :
    List RegisteredNode :=
  (order.order nodes.keys).filterMap nodes.lookup

variable {nodes : FiniteMap String RegisteredNode} {node : RegisteredNode}

theorem mem_nodesIn {order : Iteration String} :
    node∈nodesIn nodes order ↔ ∃id,nodes.lookup id=some node := by
  rw [nodesIn,List.mem_filterMap]
  constructor
  · rintro ⟨id,-,hid⟩
    exact ⟨id,hid⟩
  · rintro ⟨id,hid⟩
    exact ⟨id,order.mem_order.mpr (mem_keys_of_lookup hid),hid⟩

def Keyed (nodes : FiniteMap String RegisteredNode) : Prop :=
  ∀id node,nodes.lookup id=some node → node.id=id

theorem Keyed.insert (h : Keyed nodes) (node : RegisteredNode) :
    Keyed (nodes.insert node.id node) := by
  intro id o ho
  obtain ⟨rfl,rfl⟩ | ⟨-,ho⟩ := lookup_of_insert ho
  · rfl
  · exact h id o ho

theorem Keyed.erase (h : Keyed nodes) (nodeId : String) : Keyed (nodes.erase nodeId) :=
  fun id node hn => h id node (lookup_of_erase hn).2

structure RoomNodeRegistry where
  nodes : FiniteMap String RegisteredNode
  roomNodes : FiniteMap String String
  nodeDraining : FiniteMap String Bool
  nodeLastHeartbeatMs : FiniteMap String ℤ

namespace RoomNodeRegistry

def default : RoomNodeRegistry := ⟨empty,empty,empty,empty⟩

variable (selector : NodeSelector) (order : Iteration String) (r : RoomNodeRegistry)

def registerNode (node : RegisteredNode) (nowUnixMs : ℤ) : RoomNodeRegistry where
  nodes := r.nodes.insert node.id node
  roomNodes := r.roomNodes
  nodeDraining := r.nodeDraining.insert node.id false
  nodeLastHeartbeatMs := r.nodeLastHeartbeatMs.insert node.id nowUnixMs

def unregisterNode (nodeId : String) : RoomNodeRegistry where
  nodes := r.nodes.erase nodeId
  roomNodes := r.roomNodes.filter (fun _ mappedNodeId => mappedNodeId≠nodeId)
  nodeDraining := r.nodeDraining.erase nodeId
  nodeLastHeartbeatMs := r.nodeLastHeartbeatMs.erase nodeId

def getNodeForRoom (room : String) : Option RegisteredNode :=
  (r.roomNodes.lookup room).bind r.nodes.lookup

def draining (nodeId : String) : Bool := (r.nodeDraining.lookup nodeId).getD false

def candidates : List RegisteredNode :=
  (nodesIn r.nodes order).filter (fun node => !r.draining node.id)

def selectOrAssignNodeForRoom (room : String) : Answered × RoomNodeRegistry :=
  match r.getNodeForRoom room with
  | some node => (.ok (.node node),r)
  | none =>
    match selector.selectNodeForAssignment room (r.candidates order) with
    | none => (.error .nodeNotFound,r)
    | some selected =>
      (.ok (.node selected),{r with roomNodes := r.roomNodes.insert room selected.id})

def markNodeHeartbeat (nodeId : String) (heartbeatUnixMs : ℤ) : Answered × RoomNodeRegistry :=
  if nodeId∈r.nodes.keys then
    (.ok .done,
      {r with nodeLastHeartbeatMs := r.nodeLastHeartbeatMs.insert nodeId heartbeatUnixMs})
  else (.error .nodeNotFound,r)

def staleNodeIds (minHeartbeatUnixMs : ℤ) : Finset String :=
  (r.nodeLastHeartbeatMs.filter (fun _ heartbeatMs =>
    heartbeatMs < minHeartbeatUnixMs)).keys

def expireNodesWithHeartbeatOlderThan (minHeartbeatUnixMs : ℤ) : RoomNodeRegistry where
  nodes := r.nodes.eraseAll (r.staleNodeIds minHeartbeatUnixMs)
  roomNodes := r.roomNodes.filter (fun _ mappedNodeId =>
    mappedNodeId∉r.staleNodeIds minHeartbeatUnixMs)
  nodeDraining := r.nodeDraining.eraseAll (r.staleNodeIds minHeartbeatUnixMs)
  nodeLastHeartbeatMs := r.nodeLastHeartbeatMs.eraseAll (r.staleNodeIds minHeartbeatUnixMs)

def serve (nowUnixMs : ℤ) : DirectoryCall → Answered × RoomNodeRegistry
  | .registerNode node => (.ok .done,r.registerNode node nowUnixMs)
  | .unregisterNode nodeId => (.ok .done,r.unregisterNode nodeId)
  | .listNodes => (.ok (.nodes (nodesIn r.nodes (.sorted String))),r)
  | .setNodeForRoom room nodeId =>
    (.ok .done,{r with roomNodes := r.roomNodes.insert room nodeId})
  | .clearRoomState room => (.ok .done,{r with roomNodes := r.roomNodes.erase room})
  | .getNodeForRoom room => (found (r.getNodeForRoom room),r)
  | .selectOrAssignNodeForRoom room => r.selectOrAssignNodeForRoom selector order room
  | .setNodeDraining nodeId draining =>
    if nodeId∈r.nodes.keys then
      (.ok .done,{r with nodeDraining := r.nodeDraining.insert nodeId draining})
    else (.error .nodeNotFound,r)
  | .isNodeDraining nodeId =>
    if nodeId∈r.nodes.keys then (.ok (.draining (r.draining nodeId)),r)
    else (.error .nodeNotFound,r)

end RoomNodeRegistry

/-- What happens to the directory of a process: calls of the interface, each at a time and with
an order of the nodes in memory, and its own upkeep. -/
inductive RegistryEvent
  | call (nowUnixMs : ℤ) (order : Iteration String) (call : DirectoryCall)
  | markNodeHeartbeat (nodeId : String) (heartbeatUnixMs : ℤ)
  | expireNodesWithHeartbeatOlderThan (minHeartbeatUnixMs : ℤ)

namespace RegistryEvent

def overrides : RegistryEvent→Bool
  | .call _ _ (.setNodeForRoom ..) => true | _ => false

def clears (room : String) : RegistryEvent→Bool
  | .call _ _ (.clearRoomState cleared) => cleared=room | _ => false

def removes (r : RoomNodeRegistry) (nodeId : String) : RegistryEvent→Bool
  | .call _ _ (.unregisterNode removed) => removed=nodeId
  | .expireNodesWithHeartbeatOlderThan minHeartbeatUnixMs =>
    nodeId∈r.staleNodeIds minHeartbeatUnixMs
  | _ => false

/-- Draining is switched off, or the node is registered again, which makes it serve. -/
def makesServe (nodeId : String) : RegistryEvent→Bool
  | .call _ _ (.setNodeDraining served false) => served=nodeId
  | .call _ _ (.registerNode node) => node.id=nodeId | _ => false

end RegistryEvent

namespace RoomNodeRegistry

def apply (selector : NodeSelector) (r : RoomNodeRegistry) : RegistryEvent → RoomNodeRegistry
  | .call nowUnixMs order call => (r.serve selector order nowUnixMs call).2
  | .markNodeHeartbeat nodeId heartbeatUnixMs => (r.markNodeHeartbeat nodeId heartbeatUnixMs).2
  | .expireNodesWithHeartbeatOlderThan minHeartbeatUnixMs =>
    r.expireNodesWithHeartbeatOlderThan minHeartbeatUnixMs

def after (selector : NodeSelector) (events : List RegistryEvent) : RoomNodeRegistry :=
  events.foldl (apply selector) default

/-- What a room and a node can rely on when an event takes the directory from `r` to `t`. -/
structure Follows (r : RoomNodeRegistry) (event : RegistryEvent) (t : RoomNodeRegistry) : Prop where
  sticky : ∀room id,r.roomNodes.lookup room=some id → event.clears room=false →
    event.removes r id=false → t.roomNodes.lookup room=some id
  assigned : ∀room id,t.roomNodes.lookup room=some id → r.roomNodes.lookup room=some id ∨
    id∈r.nodes.keys ∧ r.draining id=false
  drains : ∀id∈r.nodes.keys,r.draining id → event.makesServe id=false →
    event.removes r id=false → id∈t.nodes.keys ∧ t.draining id
  registered : ∀room id,t.roomNodes.lookup room=some id → id∈t.nodes.keys

structure Placed (r : RoomNodeRegistry) : Prop where
  keyed : Keyed r.nodes
  registered : ∀room id,r.roomNodes.lookup room=some id → id∈r.nodes.keys

variable {selector : NodeSelector} {order : Iteration String} {r t : RoomNodeRegistry}
  {e : RegistryEvent}

theorem Placed.follows_of_rooms (h : r.Placed) (hroom : t.roomNodes=r.roomNodes)
    (hn : r.nodes.keys⊆t.nodes.keys)
    (hd : ∀id,e.makesServe id=false → r.draining id → t.draining id) :
    Follows r e t where
  sticky _ _ hr _ _ := hroom ▸ hr
  assigned _ _ hr := .inl (hroom ▸ hr)
  drains id hid ht hs _ := ⟨hn hid,hd id hs ht⟩
  registered room id hr := hn (h.registered room id (hroom ▸ hr))

theorem Placed.follows_self (h : r.Placed) : Follows r e r :=
  h.follows_of_rooms rfl (Finset.Subset.refl _) (fun _ _ ht => ht)

/-- Nodes leave, and the rooms that were on them are free. -/
theorem Placed.follows_removal (h : r.Placed) (gone : Finset String)
    (hn : ∀id,id∈t.nodes.keys ↔ id∈r.nodes.keys ∧ id∉gone)
    (hroom : ∀room,t.roomNodes.lookup room = (r.roomNodes.lookup room).filter (·∉gone))
    (hd : ∀id,id∉gone → t.draining id=r.draining id)
    (hre : ∀id,e.removes r id=false → id∉gone) : Follows r e t where
  sticky room id hr _ hid := by
    rw [hroom,hr,filter_some,if_pos (decide_eq_true (hre id hid))]
  assigned room id hr := by
    rw [hroom,filter_eq_some_iff] at hr
    exact .inl hr.1
  drains id hid ht _ hg := ⟨(hn id).mpr ⟨hid,hre id hg⟩,(hd id (hre id hg)).trans ht⟩
  registered room id hr := by
    rw [hroom,filter_eq_some_iff] at hr
    exact (hn id).mpr ⟨h.registered room id hr.1,of_decide_eq_true hr.2⟩

theorem mem_candidates (hk : Keyed r.nodes)
    (hn : node∈r.candidates order) : node.id∈r.nodes.keys ∧ r.draining node.id=false := by
  obtain ⟨hl,hs⟩ := List.mem_filter.mp hn
  obtain ⟨id,hid⟩ := mem_nodesIn.mp hl
  rw [hk id node hid] at hs ⊢
  exact ⟨mem_keys_of_lookup hid,by simpa using hs⟩

theorem Placed.follows_selectOrAssignNodeForRoom (h : r.Placed) (room : String) :
    Follows r e (r.selectOrAssignNodeForRoom selector order room).2 := by
  rw [selectOrAssignNodeForRoom]
  split
  · exact h.follows_self
  next hn =>
    split
    · exact h.follows_self
    next node hs =>
      obtain ⟨hmem,hse⟩ := mem_candidates h.keyed (selector.mem_candidates hs)
      -- a room that has a node is on a registered one, so it is not placed again
      have hf : r.roomNodes.lookup room=none := by
        cases hr : r.roomNodes.lookup room with
        | none => rfl
        | some id =>
          have hid := h.registered room id hr
          rw [getNodeForRoom,hr] at hn
          exact absurd hid (lookup_eq_none_iff.mp hn)
      refine ⟨fun o id ho _ _ => ?_,fun o id ho => ?_,
        fun id hid ht _ _ => ⟨hid,ht⟩,fun o id ho => ?_⟩
      · rw [lookup_insert,if_neg,ho]
        rintro rfl
        rw [hf] at ho
        cases ho
      · obtain ⟨-,rfl⟩ | ⟨-,ho⟩ := lookup_of_insert ho
        · exact .inr ⟨hmem,hse⟩
        · exact .inl ho
      · obtain ⟨-,rfl⟩ | ⟨-,ho⟩ := lookup_of_insert ho
        · exact hmem
        · exact h.registered o id ho

theorem Placed.follows_apply (h : r.Placed) (hov : e.overrides=false) :
    Follows r e (r.apply selector e) := by
  cases e with
  | markNodeHeartbeat nodeId heartbeatUnixMs =>
    rw [apply,markNodeHeartbeat]
    split_ifs
    · exact h.follows_of_rooms rfl (Finset.Subset.refl _) (fun _ _ ht => ht)
    · exact h.follows_self
  | expireNodesWithHeartbeatOlderThan minHeartbeatUnixMs =>
    refine h.follows_removal (r.staleNodeIds minHeartbeatUnixMs) (fun id => ?_)
      (fun _ => rfl) (fun id hid => ?_) (fun id hid => of_decide_eq_false hid)
    · rw [apply,expireNodesWithHeartbeatOlderThan,keys_eraseAll,mem_sdiff]
    · rw [apply,expireNodesWithHeartbeatOlderThan,draining,lookup_eraseAll,if_neg hid,draining]
  | call nowUnixMs order call =>
    cases call with
    | registerNode node =>
      refine h.follows_of_rooms rfl (subset_insert _ _) (fun id hid ht => ?_)
      have hne : id≠node.id := fun heq => of_decide_eq_false hid heq.symm
      rw [apply,serve,registerNode,draining,lookup_insert,if_neg hne]
      exact ht
    | unregisterNode nodeId =>
      refine h.follows_removal {nodeId} (fun id => ?_) (fun room => ?_) (fun id hid => ?_)
        (fun id hid hmem => of_decide_eq_false hid (mem_singleton.mp hmem).symm)
      · rw [apply,serve,unregisterNode,keys_erase,mem_erase,mem_singleton,and_comm]
      · simp only [apply,serve,unregisterNode,lookup_filter,mem_singleton]
      · rw [apply,serve,unregisterNode,draining,lookup_erase,
          if_neg (fun heq => hid (mem_singleton.mpr heq)),draining]
    | clearRoomState room =>
      refine ⟨fun o id ho hc _ => ?_,fun o id ho => ?_,
        fun id hid ht _ _ => ⟨hid,ht⟩,fun o id ho => ?_⟩
      · rw [apply,serve,lookup_erase,if_neg (fun heq => of_decide_eq_false hc heq.symm),ho]
      · exact .inl (lookup_of_erase ho).2
      · exact h.registered o id (lookup_of_erase ho).2
    | setNodeForRoom room nodeId => cases hov
    | selectOrAssignNodeForRoom room => exact h.follows_selectOrAssignNodeForRoom room
    | setNodeDraining nodeId drain =>
      rw [apply,serve]
      split_ifs
      · refine h.follows_of_rooms rfl (Finset.Subset.refl _) (fun id hid ht => ?_)
        rw [draining,lookup_insert]
        split_ifs with heq
        · cases drain with
          | true => rfl
          | false => exact absurd heq.symm (of_decide_eq_false hid)
        · exact ht
      · exact h.follows_self
    | isNodeDraining nodeId =>
      rw [apply,serve]
      split_ifs <;> exact h.follows_self
    | listNodes => exact h.follows_self
    | getNodeForRoom room => exact h.follows_self

theorem keyed_apply (h : Keyed r.nodes) (e : RegistryEvent) : Keyed (r.apply selector e).nodes := by
  cases e with
  | markNodeHeartbeat nodeId heartbeatUnixMs =>
    rw [apply,markNodeHeartbeat]
    split_ifs <;> exact h
  | expireNodesWithHeartbeatOlderThan minHeartbeatUnixMs =>
    intro id node hn
    rw [apply,expireNodesWithHeartbeatOlderThan,lookup_eraseAll] at hn
    split_ifs at hn
    exact h id node hn
  | call nowUnixMs order call =>
    cases call with
    | registerNode node => exact h.insert node
    | unregisterNode nodeId => exact h.erase nodeId
    | selectOrAssignNodeForRoom room =>
      rw [apply,serve,selectOrAssignNodeForRoom]
      split
      · exact h
      · split <;> exact h
    | setNodeDraining _ _ | isNodeDraining _ =>
      rw [apply,serve]
      split_ifs <;> exact h
    | listNodes | setNodeForRoom _ _ | clearRoomState _ | getNodeForRoom _ => exact h

theorem placed_after (selector : NodeSelector) (es : List RegistryEvent)
    (ho : ∀e∈es,e.overrides=false) : (after selector es).Placed := by
  have hd : default.Placed := ⟨by simp [Keyed,default],by simp [default]⟩
  refine List.foldlRecOn es _ hd (fun r h e hmem => ?_)
  exact ⟨keyed_apply h.keyed e,(h.follows_apply (ho e hmem)).registered⟩

/-- At every step of a run without overrides rooms stay, new rooms go to nodes that serve, and
draining nodes drain until they are made to serve. -/
theorem follows_after (selector : NodeSelector) (events : List RegistryEvent)
    (event : RegistryEvent) (hoverrides : ∀e ∈ events ++ [event],e.overrides = false) :
    Follows (after selector events) event (after selector (events ++ [event])) := by
  have hp := placed_after selector events (fun e he => hoverrides e (List.mem_append_left _ he))
  have hs : after selector (events++[event])=(after selector events).apply selector event :=
    List.foldl_append
  rw [hs]
  exact hp.follows_apply (hoverrides event (by simp))

end RoomNodeRegistry

def firstSelector : NodeSelector where
  selectNodeForAssignment _ candidates := candidates.head?
  mem_candidates := List.mem_of_mem_head?

def onCall (call : DirectoryCall) : RegistryEvent := .call 0 (.sorted String) call

open RoomNodeRegistry in
/-- The lobby is on a node that has begun to drain, and a hall is placed. -/
theorem follows_after_drain :
    let events := [.registerNode ⟨"a", "eu"⟩,.registerNode ⟨"b", "eu"⟩,
      .selectOrAssignNodeForRoom "lobby",.setNodeDraining "a" true].map onCall
    let event := onCall (.selectOrAssignNodeForRoom "hall")
    let before := after firstSelector events
    let later := after firstSelector (events ++ [event])
    before.roomNodes.lookup "lobby" = some "a" ∧ before.draining "a" = true ∧
      later.roomNodes.lookup "hall" = some "b" ∧ Follows before event later := by
  intro events event before later
  refine ⟨by decide,by decide,by decide,follows_after firstSelector events event ?_⟩
  simp [events,event,onCall,RegistryEvent.overrides]

open RoomNodeRegistry in
/-- A node that drains and is registered again serves. -/
theorem registration_ends_draining :
    let events := [.registerNode ⟨"a", "eu"⟩,.setNodeDraining "a" true].map onCall
    (after firstSelector events).draining "a" = true ∧
      (after firstSelector (events ++ [onCall (.registerNode ⟨"a", "eu"⟩)])).draining "a" =
        false := by
  decide

end OxideSfu.Nodes
