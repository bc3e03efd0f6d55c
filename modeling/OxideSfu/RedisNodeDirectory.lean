import OxideSfu.NodeDirectory

/-!
# The directory in Redis

It answers like the directory in memory as long as no node comes back for a room that was on it
when it left: only the directory in memory forgets such rooms.
-/

namespace OxideSfu.Nodes

open FiniteMaps StepRuns FiniteMap RoomNodeRegistry List

def drainingText (draining : Bool) : String := if draining then "1" else "0"

/-- The hashes `oxidesfu:nodes`, `oxidesfu:room_node_map` and `oxidesfu:node_draining`. -/
structure RedisRoomNodeDirectory where
  nodes : FiniteMap String RegisteredNode
  (roomNodeMap nodeDraining : FiniteMap String String)

namespace RedisRoomNodeDirectory

variable (selector : NodeSelector) (d : RedisRoomNodeDirectory)

def listNodes : List RegisteredNode := nodesIn d.nodes (.sorted String)

def getNodeForRoom (room : String) : Option RegisteredNode :=
  (d.roomNodeMap.lookup room).bind d.nodes.lookup

def setNodeForRoom (room nodeId : String) : RedisRoomNodeDirectory :=
  {d with roomNodeMap := d.roomNodeMap.insert room nodeId}

def hasDrainingText (nodeId : String) : Bool :=
  (d.nodeDraining.lookup nodeId).getD (drainingText false)=drainingText true

def isNodeDraining (nodeId : String) : Except RoomNodeRegistryError Bool :=
  if nodeId∈d.nodes.keys then .ok (d.hasDrainingText nodeId) else .error .nodeNotFound

def candidates : List RegisteredNode :=
  d.listNodes.filter (fun node => !(d.isNodeDraining node.id).toOption.getD true)

def selectOrAssignNodeForRoom (room : String) : Answered × RedisRoomNodeDirectory :=
  match d.getNodeForRoom room with
  | some node => (.ok (.node node),d)
  | none =>
    match selector.selectNodeForAssignment room d.candidates with
    | none => (.error .nodeNotFound,d)
    | some selected => (.ok (.node selected),d.setNodeForRoom room selected.id)

def serve : DirectoryCall → Answered × RedisRoomNodeDirectory
  | .registerNode node =>
    (.ok .done,{d with
      nodes := d.nodes.insert node.id node
      nodeDraining := d.nodeDraining.insert node.id (drainingText false)})
  | .unregisterNode nodeId =>
    (.ok .done,{d with
      nodes := d.nodes.erase nodeId,nodeDraining := d.nodeDraining.erase nodeId})
  | .listNodes => (.ok (.nodes d.listNodes),d)
  | .setNodeForRoom room nodeId => (.ok .done,d.setNodeForRoom room nodeId)
  | .clearRoomState room => (.ok .done,{d with roomNodeMap := d.roomNodeMap.erase room})
  | .getNodeForRoom room => (found (d.getNodeForRoom room),d)
  | .selectOrAssignNodeForRoom room => d.selectOrAssignNodeForRoom selector room
  | .setNodeDraining nodeId draining =>
    if nodeId∈d.nodes.keys then
      (.ok .done,
        {d with nodeDraining := d.nodeDraining.insert nodeId (drainingText draining)})
    else (.error .nodeNotFound,d)
  | .isNodeDraining nodeId => ((d.isNodeDraining nodeId).map Answer.draining,d)

def after (calls : List (ℤ × DirectoryCall)) : RedisRoomNodeDirectory :=
  calls.foldl (fun d call => (d.serve selector call.2).2) ⟨empty,empty,empty⟩

end RedisRoomNodeDirectory

/-- The directory in memory after the same calls, its nodes taken in the order of their ids. -/
def memoryAfter (selector : NodeSelector) (calls : List (ℤ × DirectoryCall)) : RoomNodeRegistry :=
  calls.foldl (fun r call => (r.serve selector (.sorted String) call.1 call.2).2) .default

/-- A node is registered that a room is on in Redis, but not in memory any more. -/
def Revives (r : RoomNodeRegistry) (d : RedisRoomNodeDirectory) (call : DirectoryCall) : Prop :=
  ∃node room,call = .registerNode node ∧ d.roomNodeMap.lookup room=some node.id ∧
    r.roomNodes.lookup room=none

/-- The tables agree but for rooms on nodes that have left. -/
structure Mirrors (r : RoomNodeRegistry) (d : RedisRoomNodeDirectory) : Prop where
  keyed : Keyed r.nodes
  nodes : d.nodes=r.nodes
  draining : ∀id,d.nodeDraining.lookup id=(r.nodeDraining.lookup id).map drainingText
  rooms : ∀room,r.roomNodes.lookup room=d.roomNodeMap.lookup room ∨
    r.roomNodes.lookup room=none ∧ ∀id,d.roomNodeMap.lookup room=some id → id∉r.nodes.keys

variable {selector : NodeSelector} {r : RoomNodeRegistry} {d : RedisRoomNodeDirectory}

section

variable (h : Mirrors r d)

include h

namespace Mirrors

theorem getNodeForRoom (room : String) : d.getNodeForRoom room=r.getNodeForRoom room := by
  rw [RedisRoomNodeDirectory.getNodeForRoom,RoomNodeRegistry.getNodeForRoom,h.nodes]
  rcases h.rooms room with hs | ⟨hn,hg⟩
  · rw [hs]
  · rw [hn]
    cases hr : d.roomNodeMap.lookup room with
    | none => rfl
    | some id => exact lookup_eq_none_iff.mpr (hg id hr)

theorem hasDrainingText (id : String) : d.hasDrainingText id=r.draining id := by
  rw [RedisRoomNodeDirectory.hasDrainingText,RoomNodeRegistry.draining,h.draining]
  rcases r.nodeDraining.lookup id with _ | _ | _ <;> rfl

theorem candidates : d.candidates=r.candidates (.sorted String) := by
  rw [RedisRoomNodeDirectory.candidates,RedisRoomNodeDirectory.listNodes,h.nodes]
  refine filter_congr (fun node hn => ?_)
  obtain ⟨id,hid⟩ := mem_nodesIn.mp hn
  have hmem : node.id∈d.nodes.keys := by
    rw [h.nodes,h.keyed id node hid]
    exact mem_keys_of_lookup hid
  rw [RedisRoomNodeDirectory.isNodeDraining,if_pos hmem,← h.hasDrainingText]
  rfl

theorem setRoom (room nodeId : String) :
    Mirrors {r with roomNodes := r.roomNodes.insert room nodeId} (d.setNodeForRoom room nodeId) :=
  {h with
    rooms := fun o => by
      simp only [RedisRoomNodeDirectory.setNodeForRoom,lookup_insert]
      split_ifs
      · exact .inl rfl
      · exact h.rooms o}

/-- Both directories give the same answer, and go on agreeing. -/
theorem selectOrAssignNodeForRoom (room : String) :
    (d.selectOrAssignNodeForRoom selector room).1 =
      (r.selectOrAssignNodeForRoom selector (.sorted String) room).1 ∧
      Mirrors (r.selectOrAssignNodeForRoom selector (.sorted String) room).2
        (d.selectOrAssignNodeForRoom selector room).2 := by
  rw [RedisRoomNodeDirectory.selectOrAssignNodeForRoom,RoomNodeRegistry.selectOrAssignNodeForRoom,
    h.getNodeForRoom,h.candidates]
  cases r.getNodeForRoom room with
  | some node => exact ⟨rfl,h⟩
  | none =>
    cases selector.selectNodeForAssignment room (r.candidates (.sorted String)) with
    | none => exact ⟨rfl,h⟩
    | some selected => exact ⟨rfl,h.setRoom room selected.id⟩

theorem answer (nowUnixMs : ℤ) (call : DirectoryCall) :
    (d.serve selector call).1=(r.serve selector (.sorted String) nowUnixMs call).1 := by
  cases call with
  | getNodeForRoom room => exact congrArg found (h.getNodeForRoom room)
  | selectOrAssignNodeForRoom room => exact (h.selectOrAssignNodeForRoom room).1
  | listNodes =>
    rw [RedisRoomNodeDirectory.serve,RedisRoomNodeDirectory.listNodes,h.nodes]
    rfl
  | setNodeDraining nodeId draining =>
    rw [RedisRoomNodeDirectory.serve,serve,h.nodes]
    split_ifs <;> rfl
  | isNodeDraining nodeId =>
    rw [RedisRoomNodeDirectory.serve,serve,RedisRoomNodeDirectory.isNodeDraining,h.nodes,
      h.hasDrainingText]
    split_ifs <;> rfl
  | registerNode _ | unregisterNode _ | setNodeForRoom _ _ | clearRoomState _ => rfl

theorem serve {nowUnixMs : ℤ} {call : DirectoryCall} (hre : ¬Revives r d call) :
    Mirrors (r.serve selector (.sorted String) nowUnixMs call).2 (d.serve selector call).2 := by
  cases call with
  | registerNode node =>
    refine ⟨h.keyed.insert node,congrArg (·.insert node.id node) h.nodes,fun id => ?_,
      fun room => (h.rooms room).imp_right (fun hr => ⟨hr.1,fun id hid hmem => ?_⟩)⟩
    · simp only [RedisRoomNodeDirectory.serve,RoomNodeRegistry.serve, RoomNodeRegistry.registerNode,
        lookup_insert]
      split_ifs
      · rfl
      · exact h.draining id
    · rcases Finset.mem_insert.mp hmem with rfl | hmem
      · exact hre ⟨node,room,rfl,hid,hr.1⟩
      · exact hr.2 id hid hmem
  | unregisterNode nodeId =>
    refine ⟨h.keyed.erase nodeId,congrArg (·.erase nodeId) h.nodes,fun id => ?_,fun room => ?_⟩
    · simp only [RedisRoomNodeDirectory.serve,RoomNodeRegistry.serve,
        RoomNodeRegistry.unregisterNode,lookup_erase]
      split_ifs
      · rfl
      · exact h.draining id
    · simp only [RedisRoomNodeDirectory.serve,RoomNodeRegistry.serve,
        RoomNodeRegistry.unregisterNode,lookup_filter,keys_erase,Finset.mem_erase]
      rcases h.rooms room with hs | ⟨hn,hg⟩
      · rw [← hs]
        cases r.roomNodes.lookup room with
        | none => exact .inl rfl
        | some id =>
          by_cases hid : id=nodeId
          · refine .inr ⟨by simp [hid],fun o ho hmem => hmem.1 ?_⟩
            rw [← Option.some.inj ho,hid]
          · exact .inl (by simp [hid])
      · exact .inr ⟨by rw [hn]; rfl,fun id hid hmem => hg id hid hmem.2⟩
  | setNodeForRoom room nodeId => exact h.setRoom room nodeId
  | clearRoomState room =>
    refine {h with rooms := fun o => ?_}
    simp only [RedisRoomNodeDirectory.serve,RoomNodeRegistry.serve,lookup_erase]
    split_ifs
    · exact .inl rfl
    · exact h.rooms o
  | selectOrAssignNodeForRoom room => exact (h.selectOrAssignNodeForRoom room).2
  | setNodeDraining nodeId drain =>
    have hk : nodeId∈d.nodes.keys ↔ nodeId∈r.nodes.keys := by rw [h.nodes]
    simp only [RedisRoomNodeDirectory.serve,RoomNodeRegistry.serve,hk]
    split_ifs
    · refine {h with draining := fun id => ?_}
      simp only [lookup_insert]
      split_ifs
      · rfl
      · exact h.draining id
    · exact h
  | isNodeDraining nodeId =>
    rw [RoomNodeRegistry.serve]
    split_ifs <;> exact h
  | listNodes | getNodeForRoom _ => exact h

end Mirrors

end

theorem mirrors_after {calls : List (ℤ × DirectoryCall)}
    (hr : AtEveryStep (fun pre call =>
      ¬Revives (memoryAfter selector pre) (.after selector pre) call.2) calls) :
    Mirrors (memoryAfter selector calls) (.after selector calls) := by
  refine hr.induction ⟨fun _ _ hn => (nomatch hn),rfl,fun _ => rfl,fun _ => .inl rfl⟩
    (fun calls call hm hl => ?_)
  rw [memoryAfter,RedisRoomNodeDirectory.after,foldl_append,foldl_append]
  exact hm.serve hl

/-- The directories answer every call alike throughout a run exactly when no call of it registers
a node for which Redis, but not the memory, still has a room. -/
theorem redis_answers_like_memory_iff (selector : NodeSelector) (calls : List (ℤ × DirectoryCall)) :
    (∀pre,pre <+: calls → ∀nowUnixMs call,
      ((RedisRoomNodeDirectory.after selector pre).serve selector call).1 =
        ((memoryAfter selector pre).serve selector (.sorted String) nowUnixMs call).1) ↔
    AtEveryStep (fun pre call =>
      ¬Revives (memoryAfter selector pre) (.after selector pre) call.2) calls := by
  constructor
  · rintro ha pre ⟨nowUnixMs,call⟩ post rfl ⟨node,room,rfl,hroom,hf⟩
    -- the room resolves in Redis at once, and in memory it does not
    have hget := ha (pre++[(nowUnixMs,.registerNode node)]) (by simp) 0 (.getNodeForRoom room)
    rw [memoryAfter,RedisRoomNodeDirectory.after,foldl_append,foldl_append,
      ← memoryAfter,← RedisRoomNodeDirectory.after] at hget
    simp [RedisRoomNodeDirectory.serve,serve,registerNode,
      RedisRoomNodeDirectory.getNodeForRoom,getNodeForRoom,hroom,hf,
      found] at hget
  · rintro hr pre ⟨post,rfl⟩ nowUnixMs call
    exact (mirrors_after hr.of_append).answer nowUnixMs call

/-- A node that restarts gets its room back in Redis, and not in memory. -/
theorem restart_keeps_room_in_redis :
    let calls := [(0,.registerNode ⟨"a","eu"⟩),(0,.setNodeForRoom "lobby" "a"),
      (0,.unregisterNode "a"),(0,.registerNode ⟨"a","eu"⟩)]
    ((RedisRoomNodeDirectory.after firstSelector calls).serve firstSelector
        (.getNodeForRoom "lobby")).1 = .ok (.node ⟨"a","eu"⟩) ∧
      ((memoryAfter firstSelector calls).serve firstSelector (.sorted String) 0
        (.getNodeForRoom "lobby")).1 = .error .nodeNotFound := by
  decide

end OxideSfu.Nodes
