import Mathlib.Data.List.Induction
import Ashamane.Lib.Fuel
import Ashamane.Lib.Routes

/-! The routes of flights: the graph of the nodes, and the way back along predecessors. -/
namespace Ashamane.Taxi
open Ashamane.Lib

structure TaxiNodesEntry where
  id : Nat
  conditionID : Nat
  characterBitNumber : Nat
  flags : UInt8
  deriving DecidableEq, Repr

structure TaxiPathEntry where
  id : Nat
  fromTaxiNode : Nat
  toTaxiNode : Nat
  deriving DecidableEq, Repr

structure PathLengths where
  PathNode : Type
  Length : Type
  zero : Length
  add : Length → Length → Length
  teleport : PathNode → Bool
  segment : PathNode → PathNode → Option Length
  toUInt32 : Length → Nat

structure TaxiStores (L : PathLengths) where
  taxiNodesStore : Nat → Option TaxiNodesEntry
  taxiPathStore : List TaxiPathEntry
  taxiPathNodesByPath : Nat → List L.PathNode
  id_eq : ∀ id node, taxiNodesStore id = some node → node.id = id

inductive Team
  | alliance
  | horde
  deriving DecidableEq, Repr

structure Player where
  team : Team
  meeting : Nat → Option Bool

def taxiNodeFlagAlliance : UInt8 := 0x01

def taxiNodeFlagHorde : UInt8 := 0x02

def requireFlag (player : Player) : UInt8 :=
  match player.team with
  | .alliance => taxiNodeFlagAlliance
  | .horde => taxiNodeFlagHorde

structure EdgeCost where
  toNode : TaxiNodesEntry
  distance : Nat
  deriving DecidableEq, Repr

def EdgeCost.evaluateDistance (edgeCost : EdgeCost) (player : Player) : Nat :=
  if edgeCost.toNode.flags &&& requireFlag player = 0 then 0xFFFF
  else if player.meeting edgeCost.toNode.conditionID = some false then 0xFFFF
  else edgeCost.distance

structure Edge where
  fromVertex : Nat
  toVertex : Nat
  cost : EdgeCost
  deriving DecidableEq, Repr

/-- `numVertices` is the number that the graph of the library was made with. -/
structure TaxiPathGraph where
  vertices : List (Option TaxiNodesEntry)
  numVertices : Nat
  edges : List Edge

variable {L : PathLengths}

def addSegment (nodes : List L.PathNode) (totalDist : L.Length) (i : Nat) : L.Length :=
  match nodes[i - 1]?, nodes[i]? with
  | some before, some node =>
    if L.teleport before then totalDist
    else
      match L.segment before node with
      | none => totalDist
      | some length => L.add totalDist length
  | _, _ => totalDist

def edgeDistance (nodes : List L.PathNode) : Nat :=
  if nodes.length < 2 then 0xFFFF
  else
    let last := if nodes.length > 2 then nodes.length - 1 else nodes.length
    let first := if nodes.length > 2 then 1 else 0
    let totalDist := (List.range' (first + 1) (last - (first + 1))).foldl (addSegment nodes) L.zero
    min (L.toUInt32 totalDist) 0xFFFF

def createVertexFromNodeInfoIfNeeded (vertices : List (Option TaxiNodesEntry))
    (node : TaxiNodesEntry) : List (Option TaxiNodesEntry) :=
  let vertices :=
    if vertices.length ≤ node.characterBitNumber then
      vertices ++ List.replicate (node.characterBitNumber + 1 - vertices.length) none
    else vertices
  vertices.set node.characterBitNumber (some node)

def addVerticeAndEdgeFromNodeInfo (stores : TaxiStores L) (fromNode toNode : TaxiNodesEntry)
    (pathId : Nat) (s : List (Option TaxiNodesEntry) × List Edge) :
    List (Option TaxiNodesEntry) × List Edge :=
  if fromNode ≠ toNode then
    let vertices := createVertexFromNodeInfoIfNeeded s.1 fromNode
    let vertices := createVertexFromNodeInfoIfNeeded vertices toNode
    let dist := edgeDistance (stores.taxiPathNodesByPath pathId)
    (vertices, s.2 ++ [⟨fromNode.characterBitNumber, toNode.characterBitNumber, ⟨toNode, dist⟩⟩])
  else s

def TaxiNodesEntry.ofFaction (node : TaxiNodesEntry) : Prop :=
  node.flags &&& (taxiNodeFlagAlliance ||| taxiNodeFlagHorde) ≠ 0

instance (node : TaxiNodesEntry) : Decidable node.ofFaction :=
  inferInstanceAs (Decidable (_ ≠ _))

def addPath (stores : TaxiStores L) (s : List (Option TaxiNodesEntry) × List Edge)
    (path : TaxiPathEntry) : List (Option TaxiNodesEntry) × List Edge :=
  match stores.taxiNodesStore path.fromTaxiNode, stores.taxiNodesStore path.toTaxiNode with
  | some fromNode, some toNode =>
    if fromNode.ofFaction ∧ toNode.ofFaction then
      addVerticeAndEdgeFromNodeInfo stores fromNode toNode path.id s
    else s
  | _, _ => s

namespace TaxiPathGraph

def empty : TaxiPathGraph := ⟨[], 0, []⟩

def getVertexCount (graph : TaxiPathGraph) : Nat := max graph.numVertices graph.vertices.length

/-- `Initialize`, which does nothing to a graph that has been made. -/
def initialized (stores : TaxiStores L) (graph : TaxiPathGraph) : TaxiPathGraph :=
  if graph.getVertexCount > 0 then graph
  else
    let s := stores.taxiPathStore.foldl (addPath stores) (graph.vertices, [])
    { vertices := s.1
      numVertices := max graph.numVertices s.1.length
      edges := s.2 }

def getNodeIDFromVertexID (graph : TaxiPathGraph) (vertexID : Nat) : Option Nat :=
  if vertexID < graph.vertices.length then
    graph.vertices[vertexID]?.join.map TaxiNodesEntry.id
  else some 0xFFFFFFFF

def Weighs (graph : TaxiPathGraph) (player : Player) (u v c : Nat) : Prop :=
  ∃ e ∈ graph.edges, e.fromVertex = u ∧ e.toVertex = v ∧ c = e.cost.evaluateDistance player

def backBody (graph : TaxiPathGraph) (p : Nat → Nat)
    (self : Nat × List Nat → Option (List Nat)) (s : Nat × List Nat) : Option (List Nat) := do
  let id ← graph.getNodeIDFromVertexID s.1
  let shortestPath := s.2 ++ [id]
  if s.1 = p s.1 then some shortestPath else self (p s.1, shortestPath)

end TaxiPathGraph

/-- `ObjectMgr::GetTaxiPath`: of several paths between two nodes the last one is kept; 0 is none. -/
def getTaxiPath (stores : TaxiStores L) (source destination : Nat) : Nat :=
  ((stores.taxiPathStore.reverse.find? fun path =>
    path.fromTaxiNode = source ∧ path.toTaxiNode = destination).map TaxiPathEntry.id).getD 0

/-- The call ends with the route. The search for shortest paths has left the predecessors `p`. -/
def GetCompleteNodeRoute (stores : TaxiStores L) (graph : TaxiPathGraph) (p : Nat → Nat)
    (fromNode toNode : TaxiNodesEntry) (route : List Nat) : Prop :=
  if getTaxiPath stores fromNode.id toNode.id ≠ 0 then route = [fromNode.id, toNode.id]
  else ∃ shortestPath,
    Fuel.Returns (graph.backBody p) (toNode.characterBitNumber, []) shortestPath ∧
      route = shortestPath.reverse

/-! The graph, told by the paths between nodes of factions. -/

variable {stores : TaxiStores L} {a b : TaxiNodesEntry} {d : Nat}

structure Edges (stores : TaxiStores L) (path : TaxiPathEntry) (a b : TaxiNodesEntry) (d : Nat) :
    Prop where
  fromNode : stores.taxiNodesStore path.fromTaxiNode = some a
  toNode : stores.taxiNodesStore path.toTaxiNode = some b
  from_faction : a.ofFaction
  to_faction : b.ofFaction
  ne : a ≠ b
  distance : d = edgeDistance (stores.taxiPathNodesByPath path.id)

def Linked (stores : TaxiStores L) (a b : TaxiNodesEntry) (d : Nat) : Prop :=
  ∃ path ∈ stores.taxiPathStore, Edges stores path a b d

def Occurs (stores : TaxiStores L) (a : TaxiNodesEntry) : Prop :=
  ∃ b d, Linked stores a b d ∨ Linked stores b a d

def FactionNode (stores : TaxiStores L) (a : TaxiNodesEntry) : Prop :=
  stores.taxiNodesStore a.id = some a ∧ a.ofFaction

def DistinctBits (stores : TaxiStores L) : Prop :=
  ∀ a b, FactionNode stores a → FactionNode stores b →
    a.characterBitNumber = b.characterBitNumber → a = b

theorem Edges.fromFactionNode {path : TaxiPathEntry} (h : Edges stores path a b d) :
    FactionNode stores a :=
  ⟨by rw [stores.id_eq _ _ h.fromNode]; exact h.fromNode, h.from_faction⟩

theorem Edges.toFactionNode {path : TaxiPathEntry} (h : Edges stores path a b d) :
    FactionNode stores b :=
  ⟨by rw [stores.id_eq _ _ h.toNode]; exact h.toNode, h.to_faction⟩

theorem Edges.unique {path : TaxiPathEntry} {a' b' : TaxiNodesEntry} {d' : Nat}
    (h : Edges stores path a b d) (h' : Edges stores path a' b' d') : a' = a ∧ b' = b ∧ d' = d :=
  ⟨Option.some.inj (h'.fromNode.symm.trans h.fromNode),
    Option.some.inj (h'.toNode.symm.trans h.toNode), h'.distance.trans h.distance.symm⟩

theorem Occurs.factionNode (h : Occurs stores a) : FactionNode stores a := by
  obtain ⟨b, d, ⟨path, -, hpath⟩ | ⟨path, -, hpath⟩⟩ := h
  · exact hpath.fromFactionNode
  · exact hpath.toFactionNode

theorem addPath_of_edges {path : TaxiPathEntry} (h : Edges stores path a b d)
    (s : List (Option TaxiNodesEntry) × List Edge) :
    addPath stores s path =
      (createVertexFromNodeInfoIfNeeded (createVertexFromNodeInfoIfNeeded s.1 a) b,
        s.2 ++ [⟨a.characterBitNumber, b.characterBitNumber, ⟨b, d⟩⟩]) := by
  simp only [addPath, h.fromNode, h.toNode, if_pos (And.intro h.from_faction h.to_faction),
    addVerticeAndEdgeFromNodeInfo, if_pos h.ne, h.distance]

theorem addPath_of_none {path : TaxiPathEntry} (h : ∀ a b d, ¬Edges stores path a b d)
    (s : List (Option TaxiNodesEntry) × List Edge) : addPath stores s path = s := by
  unfold addPath
  split
  · next a b hfrom hto =>
    split
    · next hfaction =>
      rw [addVerticeAndEdgeFromNodeInfo, if_neg]
      intro hne
      exact h a b _ ⟨hfrom, hto, hfaction.1, hfaction.2, hne, rfl⟩
    · rfl
  · rfl

theorem createVertex_self (vertices : List (Option TaxiNodesEntry)) (node : TaxiNodesEntry) :
    (createVertexFromNodeInfoIfNeeded vertices node)[node.characterBitNumber]? =
      some (some node) := by
  unfold createVertexFromNodeInfoIfNeeded
  dsimp only
  rw [List.getElem?_set_self]
  split
  · rw [List.length_append, List.length_replicate]
    omega
  · omega

theorem createVertex_of_ne {vertices : List (Option TaxiNodesEntry)} {node : TaxiNodesEntry}
    {bit : Nat} {x : Option TaxiNodesEntry} (hbit : bit ≠ node.characterBitNumber)
    (h : vertices[bit]? = some x) :
    (createVertexFromNodeInfoIfNeeded vertices node)[bit]? = some x := by
  unfold createVertexFromNodeInfoIfNeeded
  dsimp only
  rw [List.getElem?_set_ne (Ne.symm hbit)]
  split
  · rw [List.getElem?_append_left (List.getElem?_eq_some_iff.1 h).1, h]
  · exact h

structure Collected (stores : TaxiStores L) (paths : List TaxiPathEntry)
    (s : List (Option TaxiNodesEntry) × List Edge) : Prop where
  edges : ∀ e, e ∈ s.2 ↔ ∃ path ∈ paths, ∃ a b d, Edges stores path a b d ∧
    e = ⟨a.characterBitNumber, b.characterBitNumber, ⟨b, d⟩⟩
  vertices : ∀ path ∈ paths, ∀ a b d, Edges stores path a b d →
    s.1[a.characterBitNumber]? = some (some a) ∧ s.1[b.characterBitNumber]? = some (some b)

theorem DistinctBits.createVertex (hbits : DistinctBits stores) (ha : FactionNode stores a)
    (hb : FactionNode stores b) {vertices : List (Option TaxiNodesEntry)}
    (h : vertices[a.characterBitNumber]? = some (some a)) :
    (createVertexFromNodeInfoIfNeeded vertices b)[a.characterBitNumber]? = some (some a) := by
  by_cases hbit : a.characterBitNumber = b.characterBitNumber
  · obtain rfl := hbits a b ha hb hbit
    exact createVertex_self vertices a
  · exact createVertex_of_ne hbit h

theorem Collected.addPath {paths : List TaxiPathEntry}
    {s : List (Option TaxiNodesEntry) × List Edge} (hbits : DistinctBits stores)
    (h : Collected stores paths s) (path : TaxiPathEntry) :
    Collected stores (paths ++ [path]) (addPath stores s path) := by
  by_cases hedge : ∃ a b d, Edges stores path a b d
  · obtain ⟨a, b, d, hpath⟩ := hedge
    rw [addPath_of_edges hpath]
    constructor
    · intro e
      rw [List.mem_append, h.edges e, List.mem_singleton]
      constructor
      · rintro (⟨other, hother, hedge⟩ | rfl)
        · exact ⟨other, List.mem_append_left _ hother, hedge⟩
        · exact ⟨path, List.mem_append_right _ List.mem_cons_self, a, b, d, hpath, rfl⟩
      · rintro ⟨other, hother, a', b', d', hedge, rfl⟩
        rcases List.mem_append.1 hother with hold | hlast
        · exact .inl ⟨other, hold, a', b', d', hedge, rfl⟩
        · obtain rfl := List.mem_singleton.1 hlast
          obtain ⟨rfl, rfl, rfl⟩ := hpath.unique hedge
          exact .inr rfl
    · intro other hother a' b' d' hedge
      rcases List.mem_append.1 hother with hold | hlast
      · obtain ⟨hfrom, hto⟩ := h.vertices other hold a' b' d' hedge
        have hkeep : ∀ x, FactionNode stores x → s.1[x.characterBitNumber]? = some (some x) →
            (createVertexFromNodeInfoIfNeeded (createVertexFromNodeInfoIfNeeded s.1 a)
              b)[x.characterBitNumber]? = some (some x) := fun x hx hvertex =>
          hbits.createVertex hx hpath.toFactionNode
            (hbits.createVertex hx hpath.fromFactionNode hvertex)
        exact ⟨hkeep a' hedge.fromFactionNode hfrom, hkeep b' hedge.toFactionNode hto⟩
      · obtain rfl := List.mem_singleton.1 hlast
        obtain ⟨rfl, rfl, rfl⟩ := hpath.unique hedge
        exact ⟨hbits.createVertex hpath.fromFactionNode hpath.toFactionNode (createVertex_self _ _),
          createVertex_self _ _⟩
  · rw [addPath_of_none fun a b d hpath => hedge ⟨a, b, d, hpath⟩]
    constructor
    · intro e
      rw [h.edges e]
      constructor
      · rintro ⟨other, hother, he⟩
        exact ⟨other, List.mem_append_left _ hother, he⟩
      · rintro ⟨other, hother, a, b, d, hpath, rfl⟩
        rcases List.mem_append.1 hother with hold | hlast
        · exact ⟨other, hold, a, b, d, hpath, rfl⟩
        · obtain rfl := List.mem_singleton.1 hlast
          exact absurd ⟨a, b, d, hpath⟩ hedge
    · intro other hother a b d hpath
      rcases List.mem_append.1 hother with hold | hlast
      · exact h.vertices other hold a b d hpath
      · obtain rfl := List.mem_singleton.1 hlast
        exact absurd ⟨a, b, d, hpath⟩ hedge

theorem collected_all (hbits : DistinctBits stores) :
    Collected stores stores.taxiPathStore
      (stores.taxiPathStore.foldl (addPath stores) ([], [])) := by
  suffices hall : ∀ paths, Collected stores paths (paths.foldl (addPath stores) ([], [])) from
    hall stores.taxiPathStore
  intro paths
  induction paths using List.reverseRecOn with
  | nil => exact ⟨fun e => by simp, fun path hpath => by simp at hpath⟩
  | append_singleton paths path ih =>
    rw [List.foldl_append]
    exact ih.addPath hbits path

def graphOf (stores : TaxiStores L) : TaxiPathGraph := TaxiPathGraph.empty.initialized stores

theorem graphOf_edges (stores : TaxiStores L) : (graphOf stores).edges =
    (stores.taxiPathStore.foldl (addPath stores) ([], [])).2 := rfl

theorem graphOf_vertices (stores : TaxiStores L) : (graphOf stores).vertices =
    (stores.taxiPathStore.foldl (addPath stores) ([], [])).1 := rfl

theorem weighs_iff (hbits : DistinctBits stores) (player : Player) (u v c : Nat) :
    (graphOf stores).Weighs player u v c ↔
      ∃ a b d, Linked stores a b d ∧ a.characterBitNumber = u ∧ b.characterBitNumber = v ∧
        c = EdgeCost.evaluateDistance ⟨b, d⟩ player := by
  have hedges := (collected_all hbits).edges
  rw [TaxiPathGraph.Weighs, graphOf_edges]
  constructor
  · rintro ⟨e, he, rfl, rfl, rfl⟩
    obtain ⟨path, hpath, a, b, d, hedge, rfl⟩ := (hedges e).1 he
    exact ⟨a, b, d, ⟨path, hpath, hedge⟩, rfl, rfl, rfl⟩
  · rintro ⟨a, b, d, ⟨path, hpath, hedge⟩, rfl, rfl, rfl⟩
    exact ⟨_, (hedges _).2 ⟨path, hpath, a, b, d, hedge, rfl⟩, rfl, rfl, rfl⟩

theorem Occurs.getNodeID (hbits : DistinctBits stores) (h : Occurs stores a) :
    (graphOf stores).getNodeIDFromVertexID a.characterBitNumber = some a.id := by
  have hvertex : (graphOf stores).vertices[a.characterBitNumber]? = some (some a) := by
    rw [graphOf_vertices]
    obtain ⟨b, d, ⟨path, hpath, hedge⟩ | ⟨path, hpath, hedge⟩⟩ := h
    · exact ((collected_all hbits).vertices path hpath a b d hedge).1
    · exact ((collected_all hbits).vertices path hpath b a d hedge).2
  have hlt := (List.getElem?_eq_some_iff.1 hvertex).1
  rw [TaxiPathGraph.getNodeIDFromVertexID, if_pos hlt, hvertex]
  rfl

/-! Walks over nodes, and what a player may use. -/

def Player.mayUse (player : Player) (node : TaxiNodesEntry) : Prop :=
  node.flags &&& requireFlag player ≠ 0 ∧ player.meeting node.conditionID ≠ some false

instance (player : Player) (node : TaxiNodesEntry) : Decidable (player.mayUse node) :=
  inferInstanceAs (Decidable (_ ∧ _))

def Hop (stores : TaxiStores L) (player : Player) (a b : TaxiNodesEntry) (c : Nat) : Prop :=
  ∃ d, Linked stores a b d ∧ c = EdgeCost.evaluateDistance ⟨b, d⟩ player

variable {player : Player} {w : Nat} {ns : List TaxiNodesEntry}

theorem ofFaction_of_mayUse (h : player.mayUse a) : a.ofFaction := by
  intro hnone
  refine h.1 ?_
  have hflags : a.flags &&& requireFlag player =
      (a.flags &&& (taxiNodeFlagAlliance ||| taxiNodeFlagHorde)) &&& requireFlag player := by
    rw [UInt8.and_assoc]
    congr 1
    unfold requireFlag
    cases player.team <;> rfl
  rw [hflags, hnone, UInt8.zero_and]

theorem evaluateDistance_of_not_mayUse (h : ¬player.mayUse b) (d : Nat) :
    EdgeCost.evaluateDistance ⟨b, d⟩ player = 0xFFFF := by
  unfold EdgeCost.evaluateDistance
  split
  · rfl
  · next hflags =>
    rw [if_pos]
    by_contra hmeeting
    exact h ⟨hflags, hmeeting⟩

theorem hop_cost (a b : TaxiNodesEntry) (c : Nat) (h : Hop stores player a b c)
    (hbad : ¬player.mayUse b) : 0 < c := by
  obtain ⟨d, -, rfl⟩ := h
  rw [evaluateDistance_of_not_mayUse hbad]
  decide

theorem Hop.occurs {c : Nat} (h : Hop stores player a b c) : Occurs stores a ∧ Occurs stores b := by
  obtain ⟨d, hlinked, -⟩ := h
  exact ⟨⟨b, d, .inl hlinked⟩, ⟨a, d, .inr hlinked⟩⟩

theorem walk_occurs (h : Routes.Walk (Hop stores player) a b w ns) (ha : Occurs stores a) :
    ∀ n ∈ ns, Occurs stores n := by
  induction h with
  | start =>
    intro n hn
    rwa [List.mem_singleton.1 hn]
  | step _ hhop ih =>
    intro n hn
    rcases List.mem_append.1 hn with hn | hn
    · exact ih n hn
    · rw [List.mem_singleton.1 hn]
      exact hhop.occurs.2

theorem walk_bits (hbits : DistinctBits stores) (h : Routes.Walk (Hop stores player) a b w ns) :
    Routes.Walk ((graphOf stores).Weighs player) a.characterBitNumber b.characterBitNumber w
      (ns.map TaxiNodesEntry.characterBitNumber) := by
  induction h with
  | start => exact .start
  | step _ hhop ih =>
    obtain ⟨d, hlinked, rfl⟩ := hhop
    rw [List.map_append]
    exact ih.step ((weighs_iff hbits player _ _ _).2 ⟨_, _, d, hlinked, rfl, rfl, rfl⟩)

theorem walk_nodes (hbits : DistinctBits stores) (ha : Occurs stores a) {v : Nat} {l : List Nat}
    (h : Routes.Walk ((graphOf stores).Weighs player) a.characterBitNumber v w l) :
    ∃ b ns, Occurs stores b ∧ b.characterBitNumber = v ∧
      ns.map TaxiNodesEntry.characterBitNumber = l ∧ Routes.Walk (Hop stores player) a b w ns := by
  induction h with
  | start => exact ⟨a, [a], ha, rfl, rfl, .start⟩
  | step _ hedge ih =>
    obtain ⟨b, ns, hb, hbit, rfl, hwalk⟩ := ih
    obtain ⟨b', c, d, hlinked, hbit', rfl, rfl⟩ := (weighs_iff hbits player _ _ _).1 hedge
    have hb' : Occurs stores b' := ⟨c, d, .inl hlinked⟩
    obtain rfl := hbits b b' hb.factionNode hb'.factionNode (hbit.trans hbit'.symm)
    exact ⟨c, ns ++ [c], ⟨b, d, .inr hlinked⟩, rfl, List.map_append, hwalk.step ⟨d, hlinked, rfl⟩⟩

theorem walk_nodes_to (hbits : DistinctBits stores) (ha : Occurs stores a) (hb : Occurs stores b)
    {l : List Nat}
    (h : Routes.Walk ((graphOf stores).Weighs player) a.characterBitNumber b.characterBitNumber
      w l) :
    ∃ ns, ns.map TaxiNodesEntry.characterBitNumber = l ∧
      Routes.Walk (Hop stores player) a b w ns := by
  obtain ⟨b', ns, hb', hbit, hmap, hwalk⟩ := walk_nodes hbits ha h
  obtain rfl := hbits b' b hb'.factionNode hb.factionNode hbit
  exact ⟨ns, hmap, hwalk⟩

/-! The route that is read off the predecessors. -/

theorem backBody_of_node {p : Nat → Nat} {v id : Nat} {graph : TaxiPathGraph}
    (h : graph.getNodeIDFromVertexID v = some id) (path : List Nat)
    (self : Nat × List Nat → Option (List Nat)) :
    graph.backBody p self (v, path) =
      if v = p v then some (path ++ [id]) else self (p v, path ++ [id]) := by
  simp only [TaxiPathGraph.backBody, h, Option.bind_eq_bind, Option.bind_some]

theorem steady_backBody (graph : TaxiPathGraph) (p : Nat → Nat) :
    Fuel.Steady (graph.backBody p) := by
  refine Fuel.Steady.of_tail fun s => ?_
  obtain ⟨v, path⟩ := s
  cases hid : graph.getNodeIDFromVertexID v with
  | none => exact .inl ⟨none, fun self => by simp [TaxiPathGraph.backBody, hid]⟩
  | some id =>
    by_cases hstop : v = p v
    · exact .inl ⟨_, fun self => by rw [backBody_of_node hid, if_pos hstop]⟩
    · exact .inr ⟨_, fun self => by rw [backBody_of_node hid, if_neg hstop]⟩

/-- Along a way back the ids of its nodes are put together, the goal first. -/
theorem returns_of_chain (hbits : DistinctBits stores) {p : Nat → Nat} {v : Nat} {l : List Nat}
    (h : Routes.Chain p v l) (hmap : ns.map TaxiNodesEntry.characterBitNumber = l)
    (hns : ∀ n ∈ ns, Occurs stores n) (path : List Nat) :
    Fuel.Returns ((graphOf stores).backBody p) (v, path)
      (path ++ (ns.map TaxiNodesEntry.id).reverse) := by
  induction h generalizing ns path with
  | @stop v hstop =>
    obtain ⟨n, rfl, rfl⟩ := List.map_eq_singleton_iff.1 hmap
    have hid := (hns n List.mem_cons_self).getNodeID hbits
    exact Fuel.Returns.of_answer fun self => by
      rw [backBody_of_node hid, if_pos hstop.symm]
      rfl
  | @back v l hback _ ih =>
    obtain ⟨ns', last, rfl, hmap', hlast⟩ := List.map_eq_append_iff.1 hmap
    obtain ⟨n, rfl, rfl⟩ := List.map_eq_singleton_iff.1 hlast
    have hid := (hns n (List.mem_append_right _ List.mem_cons_self)).getNodeID hbits
    have hrest := ih hmap' (fun x hx => hns x (List.mem_append_left _ hx)) (path ++ [n.id])
    refine Fuel.Returns.of_call (fun self => by
      rw [backBody_of_node hid, if_neg (Ne.symm hback)]) ?_
    have hids : ((ns' ++ [n]).map TaxiNodesEntry.id).reverse =
        [n.id] ++ (ns'.map TaxiNodesEntry.id).reverse := by
      rw [List.map_append, List.reverse_append]
      rfl
    rw [hids, ← List.append_assoc]
    exact hrest

theorem getsRoute_of_chain (hbits : DistinctBits stores) {p : Nat → Nat} {l : List Nat}
    (hdirect : getTaxiPath stores a.id b.id = 0) (h : Routes.Chain p b.characterBitNumber l)
    (hmap : ns.map TaxiNodesEntry.characterBitNumber = l) (hns : ∀ n ∈ ns, Occurs stores n) :
    GetCompleteNodeRoute stores (graphOf stores) p a b (ns.map TaxiNodesEntry.id) := by
  rw [GetCompleteNodeRoute, if_neg (not_not.2 hdirect)]
  exact ⟨_, returns_of_chain hbits h hmap hns [], by simp⟩

theorem GetCompleteNodeRoute.unique {p : Nat → Nat} {graph : TaxiPathGraph}
    {route route' : List Nat}
    (h : GetCompleteNodeRoute stores graph p a b route)
    (h' : GetCompleteNodeRoute stores graph p a b route') : route = route' := by
  unfold GetCompleteNodeRoute at h h'
  split at h
  · next hdirect =>
    rw [if_pos hdirect] at h'
    rw [h, h']
  · next hdirect =>
    rw [if_neg hdirect] at h'
    obtain ⟨path, hpath, rfl⟩ := h
    obtain ⟨path', hpath', rfl⟩ := h'
    rw [(steady_backBody graph p).unique hpath hpath']

/-! What a route should be. -/

def Flight (stores : TaxiStores L) (source destination : Nat) : Prop :=
  ∃ path ∈ stores.taxiPathStore, path.fromTaxiNode = source ∧ path.toTaxiNode = destination

def MayUseId (stores : TaxiStores L) (player : Player) (id : Nat) : Prop :=
  ∃ node, stores.taxiNodesStore id = some node ∧ player.mayUse node

structure Route (stores : TaxiStores L) (a b : TaxiNodesEntry) (route : List Nat) : Prop where
  head : route.head? = some a.id
  last : route.getLast? = some b.id
  flights : route.IsChain (Flight stores)

structure RouteRight (stores : TaxiStores L) (player : Player) (a b : TaxiNodesEntry)
    (route : List Nat) : Prop extends Route stores a b route where
  nodup : route.Nodup
  usable : (∃ other, Route stores a b other ∧ ∀ id ∈ other, MayUseId stores player id) →
    ∀ id ∈ route, MayUseId stores player id

def UsableWalk (stores : TaxiStores L) (player : Player) (a b : TaxiNodesEntry) (w : Nat)
    (ns : List TaxiNodesEntry) : Prop :=
  Routes.Walk (Hop stores player) a b w ns ∧ ∀ n ∈ ns, player.mayUse n

def UsableIsLightest (stores : TaxiStores L) (player : Player) (a b : TaxiNodesEntry) : Prop :=
  (∃ w ns, UsableWalk stores player a b w ns) →
    ∃ w ns, UsableWalk stores player a b w ns ∧
      ∀ w' ns', Routes.Walk (Hop stores player) a b w' ns' → (∃ n ∈ ns', ¬player.mayUse n) → w < w'

theorem Hop.flight {c : Nat} (h : Hop stores player a b c) : Flight stores a.id b.id := by
  obtain ⟨d, ⟨path, hpath, hedge⟩, -⟩ := h
  exact ⟨path, hpath, (stores.id_eq _ _ hedge.fromNode).symm, (stores.id_eq _ _ hedge.toNode).symm⟩

theorem route_of_walk (h : Routes.Walk (Hop stores player) a b w ns) :
    Route stores a b (ns.map TaxiNodesEntry.id) where
  head := by rw [List.head?_map, h.head?, Option.map_some]
  last := by rw [List.getLast?_map, h.getLast?, Option.map_some]
  flights := (List.isChain_map _).2 (h.isChain.imp fun _ _ ⟨_, hhop⟩ => hhop.flight)

theorem mayUseId_iff {n : TaxiNodesEntry} (hn : Occurs stores n) :
    MayUseId stores player n.id ↔ player.mayUse n := by
  rw [MayUseId, hn.factionNode.1]
  simp

/-- A flight between usable nodes is an edge, unless it leads nowhere. -/
theorem hop_of_flight (hb : player.mayUse b) (ha : Occurs stores a) (hmay : player.mayUse a)
    (hlookup : stores.taxiNodesStore b.id = some b) (hflight : Flight stores a.id b.id)
    (hne : a ≠ b) : ∃ c, Hop stores player a b c := by
  obtain ⟨path, hpath, hfrom, hto⟩ := hflight
  have hedge : Edges stores path a b (edgeDistance (stores.taxiPathNodesByPath path.id)) :=
    { fromNode := hfrom ▸ ha.factionNode.1
      toNode := hto ▸ hlookup
      from_faction := ofFaction_of_mayUse hmay
      to_faction := ofFaction_of_mayUse hb
      ne := hne
      distance := rfl }
  exact ⟨_, _, ⟨path, hpath, hedge⟩, rfl⟩

theorem exists_usableWalk (ha : Occurs stores a) (l : List Nat) (hhead : l.head? = some a.id)
    (hflights : l.IsChain (Flight stores)) (huse : ∀ id ∈ l, MayUseId stores player id) :
    ∃ b w ns, l.getLast? = some b.id ∧ Occurs stores b ∧ UsableWalk stores player a b w ns := by
  induction l using List.reverseRecOn with
  | nil => cases hhead
  | append_singleton l id ih =>
    cases hl : l.head? with
    | none =>
      obtain rfl := List.head?_eq_none_iff.1 hl
      obtain rfl := Option.some.inj hhead
      have hmay := (mayUseId_iff ha).1 (huse a.id List.mem_cons_self)
      refine ⟨a, 0, [a], rfl, ha, .start, fun n hn => ?_⟩
      rwa [List.mem_singleton.1 hn]
    | some first =>
      rw [List.head?_append, hl, Option.some_or] at hhead
      obtain ⟨hchain, -, hlink⟩ := List.isChain_append.1 hflights
      obtain ⟨b, w, ns, hlast, hb, hwalk, hmay⟩ := ih (hl.trans hhead) hchain
        fun x hx => huse x (List.mem_append_left _ hx)
      obtain ⟨c, hc, hmayc⟩ := huse id (List.mem_append_right _ List.mem_cons_self)
      have hid := stores.id_eq _ _ hc
      have hflight : Flight stores b.id c.id := hid ▸ hlink b.id hlast id rfl
      have hmayb := hmay b hwalk.last_mem
      by_cases hbc : b = c
      · subst hbc
        exact ⟨b, w, ns, by rw [List.getLast?_concat, hid], hb, hwalk, hmay⟩
      · obtain ⟨d, hhop⟩ := hop_of_flight hmayc hb hmayb (hid ▸ hc) hflight hbc
        refine ⟨c, _, _, by rw [List.getLast?_concat, hid], hhop.occurs.2, hwalk.step hhop, ?_⟩
        intro n hn
        rcases List.mem_append.1 hn with hn | hn
        · exact hmay n hn
        · rwa [List.mem_singleton.1 hn]

theorem exists_usableWalk_iff (ha : Occurs stores a) (hb : Occurs stores b) :
    (∃ other, Route stores a b other ∧ ∀ id ∈ other, MayUseId stores player id) ↔
      ∃ w ns, UsableWalk stores player a b w ns := by
  constructor
  · rintro ⟨other, hroute, huse⟩
    obtain ⟨b', w, ns, hlast, hb', hwalk⟩ :=
      exists_usableWalk ha other hroute.head hroute.flights huse
    have hid : b'.id = b.id := Option.some.inj (hlast.symm.trans hroute.last)
    obtain rfl : b' = b := by
      have hlookup := hb'.factionNode.1
      rw [hid, hb.factionNode.1] at hlookup
      exact (Option.some.inj hlookup).symm
    exact ⟨w, ns, hwalk⟩
  · rintro ⟨w, ns, hwalk, hmay⟩
    refine ⟨_, route_of_walk hwalk, fun id hid => ?_⟩
    obtain ⟨n, hn, rfl⟩ := List.mem_map.1 hid
    exact (mayUseId_iff (walk_occurs hwalk ha n hn)).2 (hmay n hn)

theorem Occurs.eq_of_id (ha : Occurs stores a) (hb : Occurs stores b) (hid : a.id = b.id) :
    a = b := by
  have hlookup := ha.factionNode.1
  rw [hid, hb.factionNode.1] at hlookup
  exact (Option.some.inj hlookup).symm

theorem flight_of_getTaxiPath {source destination : Nat}
    (h : getTaxiPath stores source destination ≠ 0) : Flight stores source destination := by
  unfold getTaxiPath at h
  cases hfound : stores.taxiPathStore.reverse.find? fun path =>
      path.fromTaxiNode = source ∧ path.toTaxiNode = destination with
  | none =>
    rw [hfound] at h
    exact absurd rfl h
  | some path =>
    have hpath := List.find?_some hfound
    exact ⟨path, List.mem_reverse.1 (List.mem_of_find?_eq_some hfound), of_decide_eq_true hpath⟩

theorem routeRight_direct (ha : Occurs stores a) (hb : Occurs stores b) (hne : a ≠ b)
    (hdirect : getTaxiPath stores a.id b.id ≠ 0) :
    RouteRight stores player a b [a.id, b.id] where
  head := rfl
  last := rfl
  flights := List.isChain_pair.2 (flight_of_getTaxiPath hdirect)
  nodup := by
    have hid : a.id ≠ b.id := fun hid => hne (ha.eq_of_id hb hid)
    simp [hid]
  usable := by
    rintro ⟨other, hroute, huse⟩ id hid
    rcases List.mem_pair.1 hid with rfl | rfl
    · exact huse _ (List.mem_of_head? hroute.head)
    · exact huse _ (List.mem_of_getLast? hroute.last)

/-- The lightest walk is right if a usable one is lighter than all the others. -/
theorem routeRight_of_minimal (ha : Occurs stores a)
    (hb : Occurs stores b) (hlightest : UsableIsLightest stores player a b)
    (hwalk : Routes.Walk (Hop stores player) a b w ns) (hnodup : ns.Nodup)
    (hmin : ∀ w' ns', Routes.Walk (Hop stores player) a b w' ns' → w ≤ w') :
    RouteRight stores player a b (ns.map TaxiNodesEntry.id) where
  toRoute := route_of_walk hwalk
  nodup := hnodup.map_on fun x hx y hy =>
    (walk_occurs hwalk ha x hx).eq_of_id (walk_occurs hwalk ha y hy)
  usable := by
    intro hexists id hid
    obtain ⟨n, hn, rfl⟩ := List.mem_map.1 hid
    rw [mayUseId_iff (walk_occurs hwalk ha n hn)]
    obtain ⟨w', ns', husable, hlighter⟩ := hlightest ((exists_usableWalk_iff ha hb).1 hexists)
    by_contra hbad
    have hless := hlighter w ns hwalk ⟨n, hn, hbad⟩
    have hleast := hmin w' ns' husable.1
    omega

/-- A lightest walk over an unusable node, where no usable walk is lighter. -/
theorem exists_unusable_walk (husable : ∃ w ns, UsableWalk stores player a b w ns)
    (hnot : ¬UsableIsLightest stores player a b) :
    ∃ w ns, Routes.Walk (Hop stores player) a b w ns ∧ ns.Nodup ∧ (∃ n ∈ ns, ¬player.mayUse n) ∧
      ∀ w' ns', Routes.Walk (Hop stores player) a b w' ns' → w ≤ w' := by
  obtain ⟨w₀, ns₀, hwalk₀, -⟩ := husable
  obtain ⟨w, ns, hwalk, hmin⟩ := hwalk₀.exists_minimal
  have hlightest : ∃ ns, Routes.Walk (Hop stores player) a b w ns ∧ ∃ n ∈ ns, ¬player.mayUse n := by
    by_contra hnone
    refine hnot fun _ => ⟨w, ns, ⟨hwalk, fun n hn => ?_⟩, fun w' ns' hwalk' hbad => ?_⟩
    · by_contra hbad
      exact hnone ⟨ns, hwalk, n, hn, hbad⟩
    · refine (hmin w' ns' hwalk').lt_of_ne fun heq => hnone ⟨ns', ?_, hbad⟩
      rwa [heq]
  obtain ⟨ns', hwalk', n, hn, hbad⟩ := hlightest
  obtain ⟨w'', ns'', hsimple, hle, hnodup, hkept⟩ := hwalk'.simple hop_cost
  have heq : w'' = w := Nat.le_antisymm hle (hmin w'' ns'' hsimple)
  exact ⟨w'', ns'', hsimple, hnodup, ⟨n, hkept heq n hn hbad, hbad⟩,
    fun w' l' hl' => hle.trans (hmin w' l' hl')⟩

/-- Where the search may leave an unusable node on the way, it does so for some predecessors. -/
theorem exists_unusable_chain (hbits : DistinctBits stores) (ha : Occurs stores a)
    (hb : Occurs stores b) (husable : ∃ w ns, UsableWalk stores player a b w ns)
    (hnot : ¬UsableIsLightest stores player a b) :
    ∃ (p : Nat → Nat) (ns : List TaxiNodesEntry),
      Routes.MinimalChain ((graphOf stores).Weighs player) p a.characterBitNumber
        b.characterBitNumber ∧
      Routes.Chain p b.characterBitNumber (ns.map TaxiNodesEntry.characterBitNumber) ∧
      (∀ n ∈ ns, Occurs stores n) ∧ a ∈ ns ∧ ∃ n ∈ ns, ¬player.mayUse n := by
  obtain ⟨w, ns, hwalk, hnodup, hbad, hmin⟩ := exists_unusable_walk husable hnot
  have hns := walk_occurs hwalk ha
  have hbitsWalk := walk_bits hbits hwalk
  obtain ⟨p, hp⟩ := hbitsWalk.exists_chain (hnodup.map_on fun x hx y hy =>
    hbits x y (hns x hx).factionNode (hns y hy).factionNode)
  refine ⟨p, ns, .inr ⟨w, _, hp, hbitsWalk, fun w' l' hl' => ?_⟩, hp, hns,
    List.mem_of_head? hwalk.head?, hbad⟩
  obtain ⟨ns', -, hwalk'⟩ := walk_nodes_to hbits ha hb hl'
  exact hmin w' ns' hwalk'

/-- Whichever lightest ways the predecessors tell, the route is right exactly if it is a direct flight
to another node, or some way over usable nodes is lighter than all over others (or there is none). -/
theorem route_right_iff (hbits : DistinctBits stores) (ha : Occurs stores a)
    (hb : Occurs stores b) (player : Player) :
    (∀ p, Routes.MinimalChain ((graphOf stores).Weighs player) p a.characterBitNumber
        b.characterBitNumber →
      ∃ route, GetCompleteNodeRoute stores (graphOf stores) p a b route ∧
        (1 < route.length → RouteRight stores player a b route)) ↔
      if getTaxiPath stores a.id b.id ≠ 0 then a ≠ b else UsableIsLightest stores player a b := by
  by_cases hdirect : getTaxiPath stores a.id b.id ≠ 0
  · rw [if_pos hdirect]
    have hroute : ∀ p, GetCompleteNodeRoute stores (graphOf stores) p a b [a.id, b.id] := by
      intro p
      rw [GetCompleteNodeRoute, if_pos hdirect]
    constructor
    · rintro hall rfl
      obtain ⟨p, hp⟩ := Routes.exists_minimalChain ((graphOf stores).Weighs player)
        a.characterBitNumber a.characterBitNumber
      obtain ⟨route, hgets, hright⟩ := hall p hp
      obtain rfl := hgets.unique (hroute p)
      exact absurd (hright (by simp)).nodup (by simp)
    · intro hne p _
      exact ⟨_, hroute p, fun _ => routeRight_direct ha hb hne hdirect⟩
  · rw [if_neg hdirect]
    constructor
    · intro hall
      by_contra hnot
      have husable : ∃ w ns, UsableWalk stores player a b w ns := by
        by_contra hnone
        exact hnot fun h => absurd h hnone
      obtain ⟨p, ns, hp, hchain, hns, hmem, n, hn, hbad⟩ :=
        exists_unusable_chain hbits ha hb husable hnot
      obtain ⟨route, hgets, hright⟩ := hall p hp
      obtain rfl := hgets.unique (getsRoute_of_chain hbits (not_not.1 hdirect) hchain rfl hns)
      have hne : a ≠ n := by
        rintro rfl
        obtain ⟨w, ns, hwalk, hmay⟩ := husable
        exact hbad (hmay a (List.mem_of_head? hwalk.head?))
      have hlong : 1 < (ns.map TaxiNodesEntry.id).length := by
        rw [List.length_map]
        by_contra hshort
        have hpos := List.length_pos_of_mem hn
        obtain ⟨x, rfl⟩ := List.length_eq_one_iff.1 (by omega : ns.length = 1)
        exact hne ((List.mem_singleton.1 hmem).trans (List.mem_singleton.1 hn).symm)
      have huse := (hright hlong).usable ((exists_usableWalk_iff ha hb).2 husable) n.id
        (List.mem_map_of_mem hn)
      exact hbad ((mayUseId_iff (hns n hn)).1 huse)
    · rintro hlightest p (⟨hnone, hstop⟩ | ⟨w, l, hchain, hwalk, hmin⟩)
      · have hmap : [b].map TaxiNodesEntry.characterBitNumber = [b.characterBitNumber] := rfl
        have hns : ∀ n ∈ [b], Occurs stores n := fun n hn => by rwa [List.mem_singleton.1 hn]
        refine ⟨_, getsRoute_of_chain hbits (not_not.1 hdirect) (.stop hstop) hmap hns, ?_⟩
        intro hlong
        exact absurd hlong (by simp)
      · obtain ⟨ns, rfl, hnodes⟩ := walk_nodes_to hbits ha hb hwalk
        have hroute := getsRoute_of_chain hbits (not_not.1 hdirect) hchain rfl
          (walk_occurs hnodes ha)
        have hnodup : ns.Nodup := List.Nodup.of_map _ hchain.nodup
        refine ⟨_, hroute, fun _ => routeRight_of_minimal ha hb hlightest hnodes hnodup ?_⟩
        intro w' ns' hwalk'
        exact hmin w' _ (walk_bits hbits hwalk')

/-! Four nodes, of which the third is the other faction's. -/

def oneLength : PathLengths where
  PathNode := Unit
  Length := Nat
  zero := 0
  add := Nat.add
  teleport _ := false
  segment _ _ := some 40000
  toUInt32 := id

def nodeOf (id : Nat) (flags : UInt8) : TaxiNodesEntry := ⟨id, 0, id, flags⟩

def fourNodes : TaxiStores oneLength where
  taxiNodesStore id :=
    if id = 1 ∨ id = 2 ∨ id = 4 then some (nodeOf id taxiNodeFlagHorde)
    else if id = 3 then some (nodeOf id taxiNodeFlagAlliance)
    else none
  taxiPathStore := [⟨10, 1, 2⟩, ⟨11, 2, 4⟩, ⟨12, 1, 3⟩, ⟨13, 3, 4⟩]
  taxiPathNodesByPath pathId := if pathId = 13 then [(), (), ()] else [(), ()]
  id_eq := by
    intro id node h
    split at h
    · rw [← Option.some.inj h]
      rfl
    · split at h
      · rw [← Option.some.inj h]
        rfl
      · cases h

def hordePlayer : Player := ⟨.horde, fun _ => none⟩

theorem distinctBits_fourNodes : DistinctBits fourNodes := by
  have hbit : ∀ a, FactionNode fourNodes a → a.characterBitNumber = a.id := by
    intro a ha
    have hlookup := ha.1
    simp only [fourNodes] at hlookup
    split at hlookup
    · rw [← Option.some.inj hlookup]
      rfl
    · split at hlookup
      · rw [← Option.some.inj hlookup]
        rfl
      · cases hlookup
  intro a b ha hb hab
  rw [hbit a ha, hbit b hb] at hab
  have hlookup := ha.1
  rw [hab, hb.1] at hlookup
  exact (Option.some.inj hlookup).symm

theorem route_right_fourNodes :
    ((∀ p, Routes.MinimalChain ((graphOf fourNodes).Weighs hordePlayer) p 1 4 →
        ∃ route,
          GetCompleteNodeRoute fourNodes (graphOf fourNodes) p (nodeOf 1 2) (nodeOf 4 2) route ∧
            (1 < route.length →
              RouteRight fourNodes hordePlayer (nodeOf 1 2) (nodeOf 4 2) route)) ↔
      if getTaxiPath fourNodes 1 4 ≠ 0 then nodeOf 1 2 ≠ nodeOf 4 2
      else UsableIsLightest fourNodes hordePlayer (nodeOf 1 2) (nodeOf 4 2)) ∧
    getTaxiPath fourNodes 1 4 = 0 := by
  have hfirst : Linked fourNodes (nodeOf 1 2) (nodeOf 2 2) 40000 :=
    ⟨⟨10, 1, 2⟩, by decide, rfl, rfl, by decide, by decide, by decide, rfl⟩
  have hsecond : Linked fourNodes (nodeOf 2 2) (nodeOf 4 2) 40000 :=
    ⟨⟨11, 2, 4⟩, by decide, rfl, rfl, by decide, by decide, by decide, rfl⟩
  exact ⟨route_right_iff distinctBits_fourNodes ⟨_, _, .inl hfirst⟩ ⟨_, _, .inr hsecond⟩
    hordePlayer, by decide⟩

def leastWeight (v : Nat) : Nat := if v = 1 then 0 else if v = 2 then 40000 else 65535

def overThree (v : Nat) : Nat := if v = 4 then 3 else if v = 3 then 1 else v

theorem minimalChain_fourNodes :
    Routes.MinimalChain ((graphOf fourNodes).Weighs hordePlayer) overThree 1 4 := by
  have hthere : (graphOf fourNodes).Weighs hordePlayer 1 3 65535 :=
    ⟨⟨1, 3, ⟨nodeOf 3 1, 40000⟩⟩, by decide +kernel, rfl, rfl, by decide⟩
  have hback : (graphOf fourNodes).Weighs hordePlayer 3 4 0 :=
    ⟨⟨3, 4, ⟨nodeOf 4 2, 0⟩⟩, by decide +kernel, rfl, rfl, by decide⟩
  have hleast : ∀ e ∈ (graphOf fourNodes).edges, leastWeight e.toVertex ≤
      leastWeight e.fromVertex + e.cost.evaluateDistance hordePlayer := by
    decide +kernel
  have hedge : ∀ u v c, (graphOf fourNodes).Weighs hordePlayer u v c →
      leastWeight v ≤ leastWeight u + c := by
    rintro u v c ⟨e, he, rfl, rfl, rfl⟩
    exact hleast e he
  have hchain : Routes.Chain overThree 4 [1, 3, 4] :=
    .back (by decide) (.back (by decide) (.stop rfl))
  refine .inr ⟨65535, [1, 3, 4], hchain, (Routes.Walk.start.step hthere).step hback, ?_⟩
  intro w l hwalk
  have hle := hwalk.le_weight hedge
  rwa [show leastWeight 4 = 65535 from rfl, show leastWeight 1 = 0 from rfl, Nat.zero_add] at hle

/-- The way over 3, which the player may not use, weighs 65535, and the one over 2 80000. -/
theorem not_route_right_fourNodes :
    ∃ p, Routes.MinimalChain ((graphOf fourNodes).Weighs hordePlayer) p 1 4 ∧
      GetCompleteNodeRoute fourNodes (graphOf fourNodes) p (nodeOf 1 2) (nodeOf 4 2) [1, 3, 4] ∧
      ¬RouteRight fourNodes hordePlayer (nodeOf 1 2) (nodeOf 4 2) [1, 3, 4] := by
  refine ⟨overThree, minimalChain_fourNodes, ?_, fun hright => ?_⟩
  · rw [GetCompleteNodeRoute, if_neg (by decide)]
    exact ⟨[4, 3, 1], ⟨4, by decide +kernel⟩, rfl⟩
  · have hflights : [1, 2, 4].IsChain (Flight fourNodes) := by
      refine .cons_cons ⟨⟨10, 1, 2⟩, by decide, rfl, rfl⟩ (List.isChain_pair.2 ?_)
      exact ⟨⟨11, 2, 4⟩, by decide, rfl, rfl⟩
    have huse : ∀ id ∈ [1, 2, 4], MayUseId fourNodes hordePlayer id := by
      intro id hid
      rcases List.mem_cons.1 hid with rfl | hid
      · exact ⟨nodeOf 1 2, rfl, by decide⟩
      · rcases List.mem_pair.1 hid with rfl | rfl
        · exact ⟨nodeOf 2 2, rfl, by decide⟩
        · exact ⟨nodeOf 4 2, rfl, by decide⟩
    obtain ⟨node, hnode, hmay⟩ :=
      hright.usable ⟨[1, 2, 4], ⟨rfl, rfl, hflights⟩, huse⟩ 3 (by decide)
    obtain rfl : nodeOf 3 1 = node := Option.some.inj hnode
    exact absurd hmay (by decide)

end Ashamane.Taxi
