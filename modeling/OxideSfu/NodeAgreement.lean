import OxideSfu.RedisNodeDirectory

/-!
# Placing a room from several servers

A server that places a room looks the room up, lists the nodes, asks for each whether it drains
and stores its choice, each with a command of its own. Two servers agree when the room is placed
already, or when every list they can see leads to the same choice.
-/

namespace OxideSfu.Nodes

open FiniteMaps FiniteMap RedisRoomNodeDirectory List Option Function

/-- The command that a call sends next, with what it has learned before. -/
inductive SelectPoint | lookup
  | resolve (nodeId : String)
  | list
  | check (node : RegisteredNode) (rest kept : List RegisteredNode)
  | readDraining (node : RegisteredNode) (rest kept : List RegisteredNode)
  | store (selected : RegisteredNode)
  | returned (result : Except RoomNodeRegistryError RegisteredNode)
deriving DecidableEq

def continueWith (selector : NodeSelector) (room : String) :
    List RegisteredNode → List RegisteredNode → SelectPoint
  | node::rest, kept => .check node rest kept
  | [], kept => (selector.selectNodeForAssignment room kept).elim (.returned (.error .nodeNotFound))
      .store

def SelectPoint.advance (selector : NodeSelector) (room : String) (d : RedisRoomNodeDirectory) :
    SelectPoint → SelectPoint × RedisRoomNodeDirectory
  | .lookup => ((d.roomNodeMap.lookup room).elim .list .resolve,d)
  | .resolve nodeId => ((d.nodes.lookup nodeId).elim .list (.returned <| .ok ·),d)
  | .list => (continueWith selector room d.listNodes [],d)
  | .check node rest kept =>
    (if node.id∈d.nodes.keys then .readDraining node rest kept
      else continueWith selector room rest kept,d)
  | .readDraining node rest kept =>
    (continueWith selector room rest (if d.hasDrainingText node.id then kept else kept++[node]),d)
  | .store selected => (.returned (.ok selected),d.setNodeForRoom room selected.id)
  | .returned result => (.returned result,d)

/-- Calls for one room, each on a server with its own selector, and the hashes they share. -/
structure Placing where
  directory : RedisRoomNodeDirectory
  calls : ℕ → SelectPoint

/-- A call sends its next command, or a registration one of its two commands. -/
inductive PlacingEvent
  | advance (call : ℕ)
  | hsetNode (node : RegisteredNode)
  | hsetServing (nodeId : String)

variable (selectors : ℕ → NodeSelector) (room : String)

def Placing.step (s : Placing) : PlacingEvent → Placing
  | .advance call =>
    let (point,directory) := (s.calls call).advance (selectors call) room s.directory
    ⟨directory,update s.calls call point⟩
  | .hsetNode node => {s with directory.nodes := s.directory.nodes.insert node.id node}
  | .hsetServing nodeId =>
    {s with directory.nodeDraining := s.directory.nodeDraining.insert nodeId (drainingText false)}

def Placing.after (d : RedisRoomNodeDirectory) (events : List PlacingEvent) : Placing :=
  events.foldl (step selectors room) ⟨d,fun _ => .lookup⟩

def Known (d : RedisRoomNodeDirectory) (events : List PlacingEvent) (node : RegisteredNode) :
    Prop :=
  (∃id,d.nodes.lookup id=some node) ∨ .hsetNode node∈events

def RedisRoomNodeDirectory.hosts (d : RedisRoomNodeDirectory) (owner : String) : Prop :=
  d.roomNodeMap.lookup room=some owner ∧ owner∈d.nodes.keys

/-- A list that a call can see: of known nodes, with those that serve from the start. -/
structure Seen (d : RedisRoomNodeDirectory) (events : List PlacingEvent)
    (candidates : List RegisteredNode) : Prop where
  known : ∀node∈candidates,Known d events node
  complete : ∀node∈d.candidates,node.id∈candidates.map RegisteredNode.id

/-- The room is on the node already, or no selector would choose another one. -/
def Settled (d : RedisRoomNodeDirectory) (events : List PlacingEvent) (owner : String) : Prop :=
  d.hosts room owner ∨
    (∀id,d.roomNodeMap.lookup room=some id →
      id=owner ∨ ∀node,Known d events node → node.id≠id) ∧
    ∀call candidates,Seen d events candidates →
      ((selectors call).selectNodeForAssignment room candidates).map RegisteredNode.id=some owner

variable {selectors room} {d : RedisRoomNodeDirectory} {events : List PlacingEvent} {owner : String}

theorem serves_of_mem_candidates (hk : Keyed d.nodes) {node : RegisteredNode}
    (hn : node∈d.candidates) : node.id∈d.nodes.keys ∧ d.hasDrainingText node.id=false := by
  obtain ⟨hl,hs⟩ := mem_filter.mp hn
  obtain ⟨id,hid⟩ := mem_nodesIn.mp hl
  have hmem : node.id∈d.nodes.keys := hk id node hid ▸ mem_keys_of_lookup hid
  rw [isNodeDraining,if_pos hmem] at hs
  exact ⟨hmem,by simpa [Except.toOption] using hs⟩

theorem Seen.drop {node : RegisteredNode} {rest kept : List RegisteredNode}
    (h : Seen d events (kept++node::rest))
    (hn : ∀o∈d.candidates,o.id≠node.id) : Seen d events (kept++rest) where
  known o ho := h.known o (by
    rcases mem_append.mp ho with ho | ho <;> simp [ho])
  complete o ho := by
    have hmem := h.complete o ho
    simp only [map_append,map_cons,mem_append,mem_cons] at hmem ⊢
    rcases hmem with hmem | heq | hmem
    · exact .inl hmem
    · exact absurd heq (hn o ho)
    · exact .inr hmem

variable (room d events owner) in
/-- What a call knows on its way to the owner. -/
def SelectPoint.Leads : SelectPoint→Prop
  | .lookup => True | .resolve nodeId => d.roomNodeMap.lookup room = some nodeId ∨ nodeId = owner
  | .list => ¬d.hosts room owner
  | .check node rest kept | .readDraining node rest kept =>
    ¬d.hosts room owner ∧ Seen d events (kept ++ node :: rest)
  | .store selected => selected.id = owner
  | .returned result => ∃node,result = .ok node ∧ node.id = owner

theorem leads_continueWith (hse : Settled selectors room d events owner) (hf : ¬d.hosts room owner)
    (call : ℕ) {rest kept : List RegisteredNode} (hs : Seen d events (kept++rest)) :
    (continueWith (selectors call) room rest kept).Leads room d events owner := by
  cases rest with
  | cons node rest => exact ⟨hf,hs⟩
  | nil =>
    rw [append_nil] at hs
    obtain ⟨node,hn,hid⟩ := map_eq_some_iff.mp ((hse.resolve_left hf).2 call kept hs)
    rw [continueWith,hn]
    exact hid

variable (room d events owner) in
structure Agreeing (s : Placing) : Prop where
  keyed : Keyed s.directory.nodes
  known : ∀id node,s.directory.nodes.lookup id = some node → Known d events node
  registered : d.nodes.keys ⊆ s.directory.nodes.keys
  serving : ∀id,s.directory.hasDrainingText id → d.hasDrainingText id
  mapped : s.directory.roomNodeMap.lookup room = d.roomNodeMap.lookup room ∨
    s.directory.roomNodeMap.lookup room = some owner
  leads : ∀call,(s.calls call).Leads room d events owner

variable {s : Placing}

theorem Agreeing.leads_advance (h : Agreeing room d events owner s) (hk : Keyed d.nodes)
    (hs : Settled selectors room d events owner) (call : ℕ) :
    ((s.calls call).advance (selectors call) room s.directory).1.Leads room d events owner := by
  have hl := h.leads call
  generalize s.calls call=point at hl ⊢
  cases point with
  | lookup =>
    have hm := h.mapped
    rw [SelectPoint.advance]
    cases hr : s.directory.roomNodeMap.lookup room with
    | some id =>
      rw [hr] at hm
      exact hm.imp Eq.symm some.inj
    | none =>
      rintro ⟨ho,-⟩
      simp [hr,ho] at hm
  | resolve nodeId =>
    rw [SelectPoint.advance]
    cases hn : s.directory.nodes.lookup nodeId with
    | some node =>
      refine ⟨node,rfl,?_⟩
      rw [h.keyed nodeId node hn]
      rcases hl with hr | heq
      · rcases hs with ⟨ho,-⟩ | ⟨hst,-⟩
        · exact some.inj (hr.symm.trans ho)
        · refine (hst nodeId hr).resolve_right (fun hu => ?_)
          exact hu node (h.known nodeId node hn) (h.keyed nodeId node hn)
      · exact heq
    | none =>
      rintro ⟨ho,hmem⟩
      have heq : nodeId=owner := hl.elim (fun hr => some.inj (hr.symm.trans ho)) id
      exact lookup_eq_none_iff.mp hn (heq ▸ h.registered hmem)
  | list =>
    refine leads_continueWith hs hl call ⟨fun node hn => ?_,fun node hn => ?_⟩
    · obtain ⟨id,hid⟩ := mem_nodesIn.mp hn
      exact h.known id node hid
    · obtain ⟨found,hf⟩ :=
        isSome_iff_exists.mp ((mem_keys _ _).mp (h.registered (serves_of_mem_candidates hk hn).1))
      rw [← h.keyed _ found hf]
      exact mem_map_of_mem (mem_nodesIn.mpr ⟨_,hf⟩)
  | check node rest kept =>
    rw [SelectPoint.advance]
    split_ifs with hmem
    · exact hl
    · refine leads_continueWith hs hl.1 call (hl.2.drop (fun o hot heq => ?_))
      exact hmem (heq ▸ h.registered (serves_of_mem_candidates hk hot).1)
  | readDraining node rest kept =>
    refine leads_continueWith hs hl.1 call ?_
    split_ifs with hd
    · refine hl.2.drop (fun o hot heq => ?_)
      have hse := (serves_of_mem_candidates hk hot).2
      rw [heq,h.serving _ hd] at hse
      cases hse
    · rw [append_assoc]
      exact hl.2
  | store selected => exact ⟨selected,rfl,hl⟩
  | returned r => exact hl

theorem Agreeing.step (h : Agreeing room d events owner s) (hk : Keyed d.nodes)
    (hs : Settled selectors room d events owner) {e : PlacingEvent}
    (he : e∈events) : Agreeing room d events owner (s.step selectors room e) := by
  cases e with
  | hsetNode node =>
    refine {h with
      keyed := h.keyed.insert node
      known := fun id o ho => ?_
      registered := h.registered.trans (Finset.subset_insert _ _)}
    obtain ⟨-,rfl⟩ | ⟨-,ho⟩ := lookup_of_insert ho
    · exact .inr he
    · exact h.known id o ho
  | hsetServing nodeId =>
    refine {h with serving := fun id hid => ?_}
    rw [Placing.step,hasDrainingText,lookup_insert] at hid
    split_ifs at hid
    · exact absurd hid (by decide)
    · exact h.serving id hid
  | advance call =>
    have hl : ∀o,(update s.calls call ((s.calls call).advance (selectors call)
        room s.directory).1 o).Leads room d events owner := by
      intro o
      rw [update_apply]
      split_ifs
      · exact h.leads_advance hk hs call
      · exact h.leads o
    cases hp : s.calls call with
    | store selected =>
      have how : selected.id=owner := by
        have hp' := h.leads call
        rwa [hp] at hp'
      rw [Placing.step]
      rw [hp] at hl ⊢
      refine {h with mapped := .inr ?_,leads := hl}
      rw [← how]
      exact if_pos rfl
    | _ =>
      rw [Placing.step]
      rw [hp] at hl ⊢
      exact {h with leads := hl}

/-- Every call that returns, returns the owner. -/
theorem calls_return_owner (selectors : ℕ → NodeSelector) (room owner : String)
    (d : RedisRoomNodeDirectory) (events : List PlacingEvent) (hkeyed : Keyed d.nodes)
    (hsettled : Settled selectors room d events owner) (call : ℕ)
    (result : Except RoomNodeRegistryError RegisteredNode)
    (hreturned : (Placing.after selectors room d events).calls call = .returned result) :
    ∃node,result = .ok node ∧ node.id = owner := by
  have ha : Agreeing room d events owner (.after selectors room d events) :=
    foldlRecOn events _ ⟨hkeyed,fun id node hn => .inl ⟨id,hn⟩,Finset.Subset.refl _,
      fun _ hid => hid,.inl rfl,fun _ => trivial⟩
      (fun s h event he => h.step hkeyed hsettled he)
  have hl := ha.leads call
  rwa [hreturned] at hl

def serverB (roomNodeMap : FiniteMap String String) : RedisRoomNodeDirectory :=
  ⟨empty.insert "b" ⟨"b","eu"⟩,roomNodeMap,empty⟩

def preferring (id : String) : NodeSelector where
  selectNodeForAssignment _ candidates := candidates.find? (·.id = id)
  mem_candidates := mem_of_find?_eq_some

theorem preferring_seen {candidates : List RegisteredNode}
    (h : Seen (serverB empty) events candidates) :
    ((preferring "b").selectNodeForAssignment room candidates).map RegisteredNode.id =
      some "b" := by
  obtain ⟨node,hmem,hid⟩ := mem_map.mp (h.complete ⟨"b","eu"⟩ (by decide))
  obtain ⟨found,hf⟩ := isSome_iff_exists.mp
    ((find?_isSome (p := (·.id = "b"))).mpr ⟨node,hmem,decide_eq_true hid⟩)
  change (candidates.find? (·.id = "b")).map RegisteredNode.id = some "b"
  rw [hf]
  simpa using find?_some hf

/-- Two servers look at the room before either has placed it, and a node registers in between. -/
theorem calls_return_owner_contended :
    let events := [0,1,0].map .advance ++ [.hsetNode ⟨"c", "eu"⟩,.hsetServing "c"] ++
      [1,0,1,0,0,1,1,1,1].map .advance
    let s := Placing.after (fun _ => preferring "b") "lobby" (serverB empty) events
    (serverB empty).roomNodeMap.lookup "lobby" = none ∧
      (∃node,s.calls 0 = .returned (.ok node) ∧ node.id = "b") ∧
      ∃node,s.calls 1 = .returned (.ok node) ∧ node.id = "b" := by
  intro events s
  have hk : Keyed (serverB empty).nodes :=
    Keyed.insert (show Keyed empty from fun _ _ hn => nomatch hn) ⟨"b","eu"⟩
  have hreturns := calls_return_owner (fun _ => preferring "b") "lobby" "b" (serverB empty) events
    hk (.inr ⟨fun _ hm => (nomatch hm),fun _ _ => preferring_seen⟩)
  have hfirst : s.calls 0 = .returned (.ok ⟨"b","eu"⟩) := by decide
  have hsecond : s.calls 1 = .returned (.ok ⟨"b","eu"⟩) := by decide
  obtain ⟨node,hn,hid⟩ := hreturns 0 _ hfirst
  obtain ⟨node',hn',hid'⟩ := hreturns 1 _ hsecond
  exact ⟨rfl,⟨node,by rw [hfirst,hn],hid⟩,node',by rw [hsecond,hn'],hid'⟩

/-- Two servers look before either has stored its choice, and a node registers in between. -/
theorem servers_disagree :
    let s := Placing.after (fun _ => firstSelector) "lobby" (serverB empty)
      ([0,0,0,0].map .advance++[.hsetNode ⟨"a","eu"⟩,.hsetServing "a"] ++
        [1,1,1,1,1,1,1,0].map .advance)
    s.calls 0 = .returned (.ok ⟨"b","eu"⟩) ∧ s.calls 1 = .returned (.ok ⟨"a","eu"⟩) := by
  decide

end OxideSfu.Nodes
