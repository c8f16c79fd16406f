import Ironet.Routing.Paths

/-!
# Topology compilation

Model of `compile_topology_v2` and `compile_local_snapshot_v2`. Nodes with distinct identifiers are
their own map, and its keys in order are the identifiers of the sorted nodes. The three nested loops
over sources, owners and candidate paths run here over one list of planned paths in the same order.
A path is first compiled and then entered into the tables of its nodes; the source enters it while
it compiles it, which cannot be told apart, as an error drops all tables.
-/
namespace Ironet.Routing
open Support Ironet.Mesh

structure TopologyNodeV2 where
  nodeId : NodeIdV2
  advertisedPrefixes : List IpNet
  transitEnabled : Bool
  underlayExclusionPrefixes : List IpNet
  deriving DecidableEq, Repr

structure TopologyLinkV2 where
  left : NodeIdV2
  right : NodeIdV2
  leftAdjacency : AdjacencyIdV2
  rightAdjacency : AdjacencyIdV2
  cost : UInt32
  healthy : Bool
  maximumDatagramSize : UInt16
  deriving DecidableEq, Repr

structure CompiledTopologyV2 where
  generation : UInt64
  routeEpoch : UInt32
  snapshots : HashMap NodeIdV2 DataplaneSnapshotV2

def CompiledTopologyV2.snapshot (self : CompiledTopologyV2) (node : NodeIdV2) :
    Option DataplaneSnapshotV2 :=
  self.snapshots.lookup node

structure SnapshotPartsV2 where
  prefixes : List PrefixRouteV2 := []
  labels : List LabelRouteV2 := []
  deriving DecidableEq, Repr

/-! ### Nodes -/

def checkNode (allowDefaultRoutes : Bool) (node : TopologyNodeV2) : Except String Unit := do
  validatePrefixSet node.advertisedPrefixes allowDefaultRoutes "advertised"
  validatePrefixSet node.underlayExclusionPrefixes true "underlay exclusion"

def checkNodes (allowDefaultRoutes : Bool) :
    List NodeIdV2 → List TopologyNodeV2 → Except String Unit
  | _, [] => .ok ()
  | known, node :: rest => do
    checkNode allowDefaultRoutes node
    ensure (node.nodeId ∉ known) "duplicate V2 topology node"
    checkNodes allowDefaultRoutes (node.nodeId :: known) rest

def prefixesOverlap (left right : IpNet) : Bool :=
  left.addr.isIpv4 = right.addr.isIpv4 ∧
    (left.contains right.network ∨ right.contains left.network)

/-- The `Debug` text of a node identifier. -/
def nodeText (node : NodeIdV2) : String :=
  "NodeIdV2([" ++ ", ".intercalate (node.bytes.map fun byte => toString byte.toNat) ++ "])"

def checkOwner (owner : NodeIdV2 × IpNet) (other : NodeIdV2 × IpNet) : Except String Unit :=
  if owner.1 ≠ other.1 then
    ensure (prefixesOverlap owner.2 other.2 = false)
      ("overlapping V2 advertised prefixes owned by " ++ nodeText owner.1 ++ " and " ++
        nodeText other.1)
  else .ok ()

def checkOwners : List (NodeIdV2 × IpNet) → List (NodeIdV2 × IpNet) → Except String Unit
  | _, [] => .ok ()
  | owned, owner :: rest => do
    owned.forM (checkOwner owner)
    checkOwners (owned ++ [owner]) rest

def TopologyNodeV2.owned (node : TopologyNodeV2) : List (NodeIdV2 × IpNet) :=
  node.advertisedPrefixes.map fun network => (node.nodeId, network)

/-- The order of the nodes is that of a hash map; it only picks the pair that an error names. -/
def validateGlobalOwnership (nodes : List TopologyNodeV2) : Except String Unit :=
  checkOwners [] (nodes.flatMap TopologyNodeV2.owned)

/-! ### Links -/

structure LinkTablesV2 where
  graph : GraphV2 := fun _ => []
  adjacencyIds : List (NodeIdV2 × AdjacencyIdV2) := []
  nodePairs : List (NodeIdV2 × NodeIdV2) := []

namespace TopologyLinkV2

variable (link : TopologyLinkV2)

def ends : List (NodeIdV2 × AdjacencyIdV2) :=
  [(link.left, link.leftAdjacency), (link.right, link.rightAdjacency)]

def pair : NodeIdV2 × NodeIdV2 :=
  if link.left < link.right then (link.left, link.right) else (link.right, link.left)

def leftEdge : DirectedLinkV2 :=
  ⟨link.right, link.leftAdjacency, link.cost, link.maximumDatagramSize⟩

def rightEdge : DirectedLinkV2 :=
  ⟨link.left, link.rightAdjacency, link.cost, link.maximumDatagramSize⟩

end TopologyLinkV2

def checkLink (nodeIds : List NodeIdV2) (link : TopologyLinkV2) : Except String Unit := do
  ensure (link.left ≠ link.right) "V2 topology link is a self-loop"
  ensure (link.left ∈ nodeIds ∧ link.right ∈ nodeIds) "V2 topology link references an unknown node"
  let _ ← AdjacencyIdV2.new link.leftAdjacency
  let _ ← AdjacencyIdV2.new link.rightAdjacency
  ensure (link.cost ≠ 0) "V2 topology link cost is zero"
  ensure (Cell.headerLen < link.maximumDatagramSize.toNat)
    "V2 topology link DATAGRAM ceiling is too small"

def GraphV2.push (graph : GraphV2) (node : NodeIdV2) (edge : DirectedLinkV2) : GraphV2 :=
  Function.update graph node (graph node ++ [edge])

def collectLinks (nodeIds : List NodeIdV2) :
    List TopologyLinkV2 → LinkTablesV2 → Except String LinkTablesV2
  | [], tables => .ok tables
  | link :: rest, tables => do
    checkLink nodeIds link
    ensure (∀ key ∈ link.ends, key ∉ tables.adjacencyIds) "duplicate V2 local adjacency ID"
    ensure (link.pair ∉ tables.nodePairs) "duplicate V2 topology link"
    collectLinks nodeIds rest {
      graph := if link.healthy then
          GraphV2.push (GraphV2.push tables.graph link.left link.leftEdge) link.right link.rightEdge
        else tables.graph
      adjacencyIds := tables.adjacencyIds ++ link.ends
      nodePairs := tables.nodePairs ++ [link.pair] }

def DirectedLinkV2.key (edge : DirectedLinkV2) : ℕ ×ₗ NodeIdV2 ×ₗ ℕ :=
  toLex (edge.cost.toNat, toLex (edge.peer, edge.adjacency.toNat))

/-! ### Paths -/

structure PathPlanV2 where
  source : NodeIdV2
  prefixes : List IpNet
  path : List NodeIdV2
  deriving DecidableEq, Repr

def planOwner (turns : Nat) (graph : GraphV2) (transitNodes : List NodeIdV2)
    (source owner : TopologyNodeV2) : List PathPlanV2 :=
  if source.nodeId = owner.nodeId ∨ owner.advertisedPrefixes = [] then []
  else
    (candidatePathsV2 turns source.nodeId owner.nodeId graph transitNodes).map fun path =>
      ⟨source.nodeId, sortByKey IpNet.key owner.advertisedPrefixes, path⟩

def planPaths (turns : Nat) (graph : GraphV2) (transitNodes : List NodeIdV2)
    (nodes : List TopologyNodeV2) : List PathPlanV2 :=
  nodes.flatMap fun source => nodes.flatMap (planOwner turns graph transitNodes source)

structure CompiledPathV2 where
  source : NodeIdV2
  routeLabel : RouteLabelV2
  prefixes : List PrefixRouteV2
  labels : List (NodeIdV2 × LabelRouteV2)
  deriving DecidableEq, Repr

def pathLinks (graph : GraphV2) : List NodeIdV2 → Except String (List DirectedLinkV2)
  | node :: next :: rest => do
    let link ← directedLinkV2 graph node next
    let later ← pathLinks graph (next :: rest)
    .ok (link :: later)
  | _ => .ok []

/-- What the source routes by. -/
def resolveRoute (routeEpoch : UInt32) (routeLabel : RouteLabelV2) :
    List DirectedLinkV2 → Except String ResolvedRouteV2
  | [] => .error "V2 compiled path has no adjacency"
  | first :: rest => .ok {
      adjacency := first.adjacency
      routeLabel
      routeEpoch
      maximumDatagramSize := rest.foldl (fun least link => min least link.maximumDatagramSize)
        first.maximumDatagramSize }

/-- What every later node of the path does with the label. -/
def hopLabels (graph : GraphV2) (routeEpoch : UInt32) (routeLabel : RouteLabelV2) :
    List NodeIdV2 → Except String (List (NodeIdV2 × LabelRouteV2))
  | previous :: current :: [] => do
    let ingress ← directedLinkV2 graph current previous
    .ok [(current, ⟨routeLabel, routeEpoch, .localNode ingress.adjacency⟩)]
  | previous :: current :: next :: rest => do
    let ingress ← directedLinkV2 graph current previous
    let nextHop ← directedLinkV2 graph current next
    let later ← hopLabels graph routeEpoch routeLabel (current :: next :: rest)
    .ok ((current, ⟨routeLabel, routeEpoch, .forward ingress.adjacency nextHop.adjacency⟩) :: later)
  | _ => .ok []

def compilePath (graph : GraphV2) (routeEpoch : UInt32) (nextRouteLabel : Nat) (plan : PathPlanV2) :
    Except String CompiledPathV2 := do
  ensure (nextRouteLabel ≤ maxRouteLabels) "V2 topology exceeds route-label capacity"
  let routeLabel ← RouteLabelV2.new (UInt32.ofNat nextRouteLabel)
  ensure (nextRouteLabel + 1 < 2 ^ 32) "V2 route label overflow"
  let links ← pathLinks graph plan.path
  let route ← resolveRoute routeEpoch routeLabel links
  let startupLatency := (links.map fun link => link.cost.toNat).sum
  let labels ← hopLabels graph routeEpoch routeLabel plan.path
  .ok {
    source := plan.source
    routeLabel
    prefixes := plan.prefixes.map fun network => { network, route, startupLatency }
    labels }

def compilePaths (graph : GraphV2) (routeEpoch : UInt32) :
    Nat → List PathPlanV2 → Except String (List CompiledPathV2)
  | _, [] => .ok []
  | nextRouteLabel, plan :: rest => do
    let compiled ← compilePath graph routeEpoch nextRouteLabel plan
    let later ← compilePaths graph routeEpoch (nextRouteLabel + 1) rest
    .ok (compiled :: later)

/-! ### Tables -/

abbrev PartsV2 := NodeIdV2 → SnapshotPartsV2

variable (selectedNode : Option NodeIdV2)

/-- Without a selected node all nodes are. -/
def isSelected (node : NodeIdV2) : Bool :=
  selectedNode.all (· = node)

variable (parts : PartsV2)

def addPrefixes (node : NodeIdV2) (prefixes : List PrefixRouteV2) : PartsV2 :=
  if isSelected selectedNode node then
    Function.update parts node { parts node with prefixes := (parts node).prefixes ++ prefixes }
  else parts

def addLabel (entry : NodeIdV2 × LabelRouteV2) : PartsV2 :=
  if isSelected selectedNode entry.1 then
    Function.update parts entry.1
      { parts entry.1 with labels := (parts entry.1).labels ++ [entry.2] }
  else parts

def addPath (compiled : CompiledPathV2) : PartsV2 :=
  compiled.labels.foldl (addLabel selectedNode)
    (addPrefixes selectedNode parts compiled.source compiled.prefixes)

variable (generation : UInt64)

def compileSnapshot (allowDefaultRoutes : Bool) (parts : PartsV2)
    (node : TopologyNodeV2) : Except String DataplaneSnapshotV2 :=
  DataplaneSnapshotV2.compile generation node.nodeId (parts node.nodeId).prefixes
    (parts node.nodeId).labels node.underlayExclusionPrefixes allowDefaultRoutes

def compileSnapshots (generation : UInt64) (allowDefaultRoutes : Bool) (parts : PartsV2) :
    List TopologyNodeV2 → HashMap NodeIdV2 DataplaneSnapshotV2 →
    Except String (HashMap NodeIdV2 DataplaneSnapshotV2)
  | [], snapshots => .ok snapshots
  | node :: rest, snapshots => do
    let snapshot ← compileSnapshot generation allowDefaultRoutes parts node
    compileSnapshots generation allowDefaultRoutes parts rest
      (snapshots.insert node.nodeId snapshot)

/-! ### The compiler -/

/-- Every directed link and the first entry of the heap. -/
def searchTurns (links : List TopologyLinkV2) : Nat := 1 + 2 * links.length

/-- The passes over a topology that was found to be well formed. -/
def compileChecked (routeEpoch : UInt32) (nodes : List TopologyNodeV2)
    (turns : Nat) (graph : GraphV2) (allowDefaultRoutes : Bool) (selectedNode : Option NodeIdV2) :
    Except String CompiledTopologyV2 := do
  let transitNodes := (nodes.filter TopologyNodeV2.transitEnabled).map TopologyNodeV2.nodeId
  let compiled ← compilePaths graph routeEpoch 1 (planPaths turns graph transitNodes nodes)
  let parts := compiled.foldl (addPath selectedNode) fun _ => {}
  let snapshots ← compileSnapshots generation allowDefaultRoutes parts
    (nodes.filter fun node => isSelected selectedNode node.nodeId) ∅
  .ok ⟨generation, routeEpoch, snapshots⟩

def compileTopologySelectedV2 (routeEpoch : UInt32)
    (nodes : List TopologyNodeV2) (links : List TopologyLinkV2) (allowDefaultRoutes : Bool)
    (selectedNode : Option NodeIdV2) : Except String CompiledTopologyV2 := do
  ensure (generation ≠ 0) "V2 topology generation zero is reserved"
  ensure (routeEpoch ≠ 0) "V2 route epoch zero is reserved"
  ensure (nodes ≠ []) "V2 topology has no nodes"
  checkNodes allowDefaultRoutes [] nodes
  validateGlobalOwnership nodes
  let tables ← collectLinks (nodes.map TopologyNodeV2.nodeId) links {}
  let graph : GraphV2 := fun node => sortByKey DirectedLinkV2.key (tables.graph node)
  ensure (∀ selected ∈ selectedNode, selected ∈ nodes.map TopologyNodeV2.nodeId)
    "selected V2 topology node is absent"
  compileChecked generation routeEpoch (sortByKey TopologyNodeV2.nodeId nodes) (searchTurns links)
    graph allowDefaultRoutes selectedNode

def compileTopologyV2 (routeEpoch : UInt32) (nodes : List TopologyNodeV2)
    (links : List TopologyLinkV2) (allowDefaultRoutes : Bool) : Except String CompiledTopologyV2 :=
  compileTopologySelectedV2 generation routeEpoch nodes links allowDefaultRoutes none

def compileLocalSnapshotV2 (routeEpoch : UInt32)
    (nodes : List TopologyNodeV2) (links : List TopologyLinkV2) (allowDefaultRoutes : Bool)
    (localNode : NodeIdV2) : Except String DataplaneSnapshotV2 := do
  let topology ← compileTopologySelectedV2 generation routeEpoch nodes links allowDefaultRoutes
    (some localNode)
  match topology.snapshot localNode with
  | some snapshot => .ok snapshot
  | none => .error "compiled V2 mesh topology omitted local node"

end Ironet.Routing
