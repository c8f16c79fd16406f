import Ironet.Cell.Transit
import Ironet.Routing.LocalView
import Ironet.Support.Pick

/-!
# Delivery by labels

The tables of all nodes together carry a Cell from its source to the owner of its destination. The
run below sends the Cell over the link of an adjacency, hands it to the peer under the peer's own
adjacency for that link, and goes on for as long as it is forwarded.
-/
namespace Ironet.Routing
open Support Ironet.Mesh Ironet.Cell List DataplaneSnapshotV2

/-! ### Runs -/

/-- The other end of a link, if the node has it under that adjacency. -/
def TopologyLinkV2.across (node : NodeIdV2) (adjacency : AdjacencyIdV2) (link : TopologyLinkV2) :
    Option (TopologyLinkV2 × NodeIdV2 × AdjacencyIdV2) :=
  if (node, adjacency) = (link.left, link.leftAdjacency) then
    some (link, link.right, link.rightAdjacency)
  else if (node, adjacency) = (link.right, link.rightAdjacency) then
    some (link, link.left, link.leftAdjacency)
  else none

structure HopV2 where
  link : TopologyLinkV2
  node : NodeIdV2
  disposition : TransitDispositionV2
  deriving DecidableEq, Repr

def CompiledTopologyV2.receive (topology : CompiledTopologyV2) (node : NodeIdV2)
    (incoming : AdjacencyIdV2) (bytes : Mesh.Bytes) : Option TransitDispositionV2 :=
  (topology.snapshot node).bind fun snapshot => (snapshot.dispatchCell incoming bytes).toOption

/-- The way of a Cell sent out under an adjacency, for at most so many hops. -/
def carry (topology : CompiledTopologyV2) (links : List TopologyLinkV2) :
    Nat → NodeIdV2 → AdjacencyIdV2 → Mesh.Bytes → List HopV2
  | 0, _, _, _ => []
  | hops + 1, node, adjacency, bytes =>
    match links.findSome? (TopologyLinkV2.across node adjacency) with
    | none => []
    | some (link, peer, incoming) =>
      match topology.receive peer incoming bytes with
      | some (.forward nextHop cell) =>
        ⟨link, peer, .forward nextHop cell⟩ :: carry topology links hops peer nextHop cell.bytes
      | some disposition => [⟨link, peer, disposition⟩]
      | none => []

/-- The run goes over these links to these nodes, forwarded by all but the last, which delivers. -/
inductive Arrives : List HopV2 → List (TopologyLinkV2 × NodeIdV2) → Prop where
  | delivered (link : TopologyLinkV2) (node : NodeIdV2) (header : CellRouteHeaderV2)
      (bytes : Mesh.Bytes) : Arrives [⟨link, node, .localCell header bytes⟩] [(link, node)]
  | forwarded (link : TopologyLinkV2) (node : NodeIdV2) (nextHop : AdjacencyIdV2)
      (cell : ForwardedCellV2) {run : List HopV2} {hops : List (TopologyLinkV2 × NodeIdV2)}
      (onward : Arrives run hops) :
      Arrives (⟨link, node, .forward nextHop cell⟩ :: run) ((link, node) :: hops)

/-! ### One hop -/

section
variable {snapshot : DataplaneSnapshotV2} {cell : CellV2} {ingress nextHop : AdjacencyIdV2}

variable (valid : cell.validate = .ok ()) (fits : cell.wire.length ≤ maxCellBytes)
  (nonzero : ingress ≠ 0)
include valid fits nonzero

theorem dispatchCell_of_label {entry : LabelRouteV2}
    (known : snapshot.labels.lookup cell.routeLabel = some entry)
    (current : entry.routeEpoch = cell.sessionEpoch) : snapshot.dispatchCell ingress cell.wire =
      snapshot.dispatchAction ingress cell.wire cell.routeHeader entry := by
  have isLabel : cell.routeHeader.routeLabel = cell.routeLabel := rfl
  have isEpoch : cell.routeHeader.sessionEpoch = cell.sessionEpoch := rfl
  rw [dispatchCell, AdjacencyIdV2.new, ensure_of _ _ nonzero, ok_bind, ok_bind,
    cell.decode_header valid fits, ok_bind, isLabel, known]
  dsimp only
  rw [isEpoch, if_neg (not_not.mpr current)]

theorem dispatchCell_local
    (known : snapshot.labels.lookup cell.routeLabel =
      some ⟨cell.routeLabel, cell.sessionEpoch, .localNode ingress⟩) :
    snapshot.dispatchCell ingress cell.wire = .ok (.localCell cell.routeHeader cell.wire) := by
  rw [dispatchCell_of_label valid fits nonzero known rfl]
  simp [dispatchAction]

theorem dispatchCell_onward (different : ingress ≠ nextHop)
    (enough : 1 < cell.overlayHopLimit.toNat)
    (known : snapshot.labels.lookup cell.routeLabel =
      some ⟨cell.routeLabel, cell.sessionEpoch, .forward ingress nextHop⟩) :
    ∃ header, snapshot.dispatchCell ingress cell.wire =
      .ok (.forward nextHop { bytes := (cell.hop 1).wire, header }) := by
  obtain ⟨header, advanced⟩ := advanceOverlayHop_wire cell valid fits enough
  have limit : ¬ cell.routeHeader.overlayHopLimit.toNat ≤ 1 := Nat.not_le.mpr enough
  refine ⟨header, ?_⟩
  rw [dispatchCell_of_label valid fits nonzero known rfl]
  simp [dispatchAction, if_neg different, if_neg limit, advanced, ok_bind]

end

namespace LinksOk

variable {nodeIds : List NodeIdV2} {links : List TopologyLinkV2}

theorem across_edge (linksOk : LinksOk nodeIds links) {node : NodeIdV2} {edge back : DirectedLinkV2}
    (isEdge : edge ∈ graphOf links node) (isBack : back ∈ graphOf links edge.peer)
    (returns : back.peer = node) : ∃ link ∈ links, link.healthy = true ∧ link.cost = edge.cost ∧
      link.maximumDatagramSize = edge.maximumDatagramSize ∧
        links.findSome? (TopologyLinkV2.across node edge.adjacency) =
          some (link, edge.peer, back.adjacency) := by
  obtain ⟨link, inLinks, healthy, seen⟩ := linksOk.mem_graphOf_iff.mp isEdge
  have different := (checkLink_eq_ok_iff.mp (linksOk.checked link inLinks)).1
  -- the peer sees its node over this link only
  have seenBack : (link.left = edge.peer ∧ back = link.leftEdge) ∨
      (link.right = edge.peer ∧ back = link.rightEdge) := by
    rcases seen with ⟨isLeft, rfl⟩ | ⟨isRight, rfl⟩
    · refine .inr ⟨rfl, linksOk.graphOk.peers _ back isBack link.rightEdge ?_ ?_⟩
      · exact linksOk.mem_graphOf_iff.mpr ⟨link, inLinks, healthy, .inr ⟨rfl, rfl⟩⟩
      · exact returns.trans isLeft.symm
    · refine .inl ⟨rfl, linksOk.graphOk.peers _ back isBack link.leftEdge ?_ ?_⟩
      · exact linksOk.mem_graphOf_iff.mpr ⟨link, inLinks, healthy, .inl ⟨rfl, rfl⟩⟩
      · exact returns.trans isRight.symm
  have crossed : link.across node edge.adjacency = some (link, edge.peer, back.adjacency) := by
    rcases seen with ⟨rfl, rfl⟩ | ⟨rfl, rfl⟩
    · obtain ⟨same, -⟩ | ⟨-, rfl⟩ := seenBack
      · exact absurd same different
      · exact if_pos rfl
    · obtain ⟨-, rfl⟩ | ⟨same, -⟩ := seenBack
      · exact (if_neg fun same => different (Prod.mk.inj same).1.symm).trans (if_pos rfl)
      · exact absurd same.symm different
  refine ⟨link, inLinks, healthy, ?_, ?_, ?_⟩
  · rcases seen with ⟨-, rfl⟩ | ⟨-, rfl⟩ <;> rfl
  · rcases seen with ⟨-, rfl⟩ | ⟨-, rfl⟩ <;> rfl
  refine findSome_of_agree (fun other inOthers result isResult => ?_) ⟨link, inLinks, crossed⟩
  have isEnd : (node, edge.adjacency) ∈ other.ends := by
    unfold TopologyLinkV2.across at isResult
    split_ifs at isResult with isLeft isRight
    · rw [isLeft]
      exact mem_cons_self
    · rw [isRight]
      exact mem_cons_of_mem _ mem_cons_self
  obtain rfl := linksOk.link_of_end inOthers inLinks isEnd (end_of_edge seen)
  exact Option.some.inj (isResult.symm.trans crossed)

end LinksOk

/-! ### The whole way -/

section
variable {nodeIds : List NodeIdV2} {links : List TopologyLinkV2} {topology : CompiledTopologyV2}
  {routeEpoch : UInt32} {routeLabel : RouteLabelV2} {path : List NodeIdV2}

/-- The hops of a path: its links and the nodes they lead to. -/
structure HopsOf (links : List TopologyLinkV2) (path : List NodeIdV2) (edges : List DirectedLinkV2)
    (hops : List (TopologyLinkV2 × NodeIdV2)) : Prop where
  nodes : hops.map Prod.snd = path.tail
  healthy : ∀ hop ∈ hops, hop.1 ∈ links ∧ hop.1.healthy = true
  costs : hops.map (fun hop => hop.1.cost) = edges.map DirectedLinkV2.cost
  sizes : hops.map (fun hop => hop.1.maximumDatagramSize) =
    edges.map DirectedLinkV2.maximumDatagramSize

/-- Where every node of a path has its entry, a Cell with enough hops left gets to the last node. -/
theorem carry_labelled (linksOk : LinksOk nodeIds links)
    {entries : List (NodeIdV2 × LabelRouteV2)} {edges : List DirectedLinkV2}
    {start : NodeIdV2} {first : DirectedLinkV2}
    (labelled : Labelled (graphOf links) routeEpoch routeLabel path entries)
    (nodup : path.Nodup) (starts : path.head? = some start)
    (along : Along (graphOf links) path (first :: edges))
    (tables : ∀ entry ∈ entries, ∃ snapshot, topology.snapshot entry.1 = some snapshot ∧
      snapshot.labels.lookup routeLabel = some entry.2) :
    ∃ hops, HopsOf links path (first :: edges) hops ∧
      ∀ cell : CellV2, cell.validate = .ok () → cell.wire.length ≤ maxCellBytes →
        cell.sessionEpoch = routeEpoch → cell.routeLabel = routeLabel →
        hops.length ≤ cell.overlayHopLimit.toNat → ∀ count, hops.length ≤ count →
          Arrives (carry topology links count start first.adjacency cell.wire) hops := by
  induction labelled generalizing start first edges with
  | @owner current ingress isIngress =>
    obtain rfl := Option.some.inj starts
    cases along with
    | hop isEdge onward =>
    cases onward
    obtain ⟨link, inLinks, healthy, cost, size, crossed⟩ :=
      linksOk.across_edge isEdge isIngress rfl
    obtain ⟨snapshot, isSnapshot, known⟩ := tables _ mem_cons_self
    refine ⟨[(link, first.peer)], ⟨rfl, by simp [inLinks, healthy], by simp [cost],
      by simp [size]⟩, ?_⟩
    intro cell valid fits isEpoch isLabel enough count room
    subst isEpoch isLabel
    obtain ⟨count, rfl⟩ : ∃ less, count = less + 1 := ⟨count - 1, by simp at room; omega⟩
    have delivered := dispatchCell_local valid fits
      (linksOk.graphOk.nonzero _ _ isIngress) known
    have received : topology.receive first.peer ingress.adjacency cell.wire =
        some (.localCell cell.routeHeader cell.wire) := by
      rw [CompiledTopologyV2.receive, isSnapshot, Option.bind_some, delivered]
      rfl
    simp only [carry, crossed, received]
    exact .delivered _ _ _ _
  | @transit current ingress nextHop rest later isIngress isNext onward ih =>
  obtain rfl := Option.some.inj starts
  cases along with
  | hop isEdge alongRest =>
  obtain ⟨link, inLinks, healthy, cost, size, crossed⟩ :=
    linksOk.across_edge isEdge isIngress rfl
  rw [forall_mem_cons] at tables
  obtain ⟨⟨snapshot, isSnapshot, known⟩, tables⟩ := tables
  have different : ingress.adjacency ≠ nextHop.adjacency := by
    intro same
    rw [linksOk.graphOk.adjacencies _ _ isIngress _ isNext same] at nodup
    simp at nodup
  -- the next edge of the path is the one that the entry names
  obtain ⟨next, others, rfl, isOther, samePeer, -⟩ := alongRest.step rfl
  obtain rfl := linksOk.graphOk.peers _ _ isOther _ isNext samePeer
  obtain ⟨hops, isHops, arrives⟩ := ih (nodup_cons.mp nodup).2 rfl alongRest tables
  refine ⟨(link, first.peer) :: hops, ⟨?_, ?_, ?_, ?_⟩, ?_⟩
  · rw [map_cons, isHops.nodes]
    rfl
  · exact forall_mem_cons.mpr ⟨⟨inLinks, healthy⟩, isHops.healthy⟩
  · simp [isHops.costs, cost]
  · simp [isHops.sizes, size]
  intro cell valid fits isEpoch isLabel enough count room
  subst isEpoch isLabel
  rw [length_cons] at enough room
  have several : 1 < cell.overlayHopLimit.toNat := by
    have some := congrArg length isHops.nodes
    simp only [length_map, tail_cons, length_cons] at some
    omega
  obtain ⟨count, rfl⟩ : ∃ less, count = less + 1 := ⟨count - 1, by omega⟩
  obtain ⟨header, forwarded⟩ := dispatchCell_onward valid fits
    (linksOk.graphOk.nonzero _ _ isIngress) different several known
  have received : topology.receive first.peer ingress.adjacency cell.wire =
      some (.forward next.adjacency { bytes := (cell.hop 1).wire, header }) := by
    rw [CompiledTopologyV2.receive, isSnapshot, Option.bind_some, forwarded]
    rfl
  simp only [carry, crossed, received]
  refine .forwarded _ _ _ _ (arrives (cell.hop 1) (cell.hop_validate 1 valid several) ?_ rfl
    rfl ?_ count (by omega))
  · rw [CellV2.hop, CellV2.withShim_wire_length]
    exact fits
  · rw [(cell.hop_fields 1 valid several).1]
    omega

end

/-! ### From candidates to owners -/

/-- What a route promises about a destination: the hops it takes and what a Cell meets on them. -/
structure Delivery (topology : CompiledTopologyV2) (nodes : List TopologyNodeV2)
    (links : List TopologyLinkV2) (source : NodeIdV2) (destination : IpAddr)
    (route : ResolvedRouteV2) (startupLatency : Nat) (hops : List (TopologyLinkV2 × NodeIdV2)) :
    Prop where
  healthy : ∀ hop ∈ hops, hop.1 ∈ links ∧ hop.1.healthy = true
  simple : (source :: hops.map Prod.snd).Nodup
  transit : ∀ hop ∈ hops.dropLast, ∃ node ∈ nodes, node.nodeId = hop.2 ∧ node.transitEnabled = true
  owner : ∃ owner ∈ nodes, (hops.getLast?.map Prod.snd) = some owner.nodeId ∧
    ∀ node ∈ nodes, (∃ network ∈ node.advertisedPrefixes, network.contains destination = true) ↔
      node = owner
  size : (∃ hop ∈ hops, route.maximumDatagramSize = hop.1.maximumDatagramSize) ∧
    ∀ hop ∈ hops, route.maximumDatagramSize.toNat ≤ hop.1.maximumDatagramSize.toNat
  latency : startupLatency = (hops.map fun hop => hop.1.cost.toNat).sum
  carried : ∀ (bytes : Mesh.Bytes) (cell : CellV2), CellV2.decode bytes = .ok cell →
    cell.sessionEpoch = route.routeEpoch → cell.routeLabel = route.routeLabel →
      hops.length ≤ cell.overlayHopLimit.toNat → ∀ count, hops.length ≤ count →
        Arrives (carry topology links count source route.adjacency bytes) hops

namespace Compilation

variable {generation : UInt64} {routeEpoch : UInt32} {nodes : List TopologyNodeV2}
  {links : List TopologyLinkV2} {allowDefaultRoutes : Bool} {compiled : List CompiledPathV2}
  {topology : CompiledTopologyV2}

def Views (generation : UInt64) (allowDefaultRoutes : Bool) (nodes : List TopologyNodeV2)
    (compiled : List CompiledPathV2) (topology : CompiledTopologyV2) : Prop :=
  ∀ node ∈ nodes, ∃ snapshot,
    compileSnapshot generation allowDefaultRoutes (partsOf compiled) node = .ok snapshot ∧
      topology.snapshot node.nodeId = some snapshot

variable (compilation : Compilation generation routeEpoch nodes links allowDefaultRoutes compiled)
include compilation

theorem tables (views : Views generation allowDefaultRoutes nodes compiled topology)
    {path : CompiledPathV2} (member : path ∈ compiled) {plan : PathPlanV2}
    (facts : PathFacts (graphOf links) routeEpoch plan path) :
    ∀ entry ∈ path.labels, ∃ snapshot, topology.snapshot entry.1 = some snapshot ∧
      snapshot.labels.lookup path.routeLabel = some entry.2 := by
  intro entry inLabels
  obtain ⟨node, isNode, isId⟩ : ∃ node ∈ nodes, node.nodeId = entry.1 :=
    mem_map.mp (facts.labelled.known compilation.linksOk.graphOk entry inLabels)
  obtain ⟨snapshot, built, found⟩ := views node isNode
  obtain ⟨-, lookup⟩ := compile_eq_ok built
  refine ⟨snapshot, isId ▸ found, (lookup _ _).mpr ⟨?_, (facts.labelled.fields entry inLabels).1⟩⟩
  refine mem_flatMap.mpr ⟨path, member, mem_map.mpr ⟨entry, ?_, rfl⟩⟩
  exact mem_filter.mpr ⟨inLabels, by simp [isId]⟩

theorem owner_unique {owner node : TopologyNodeV2} (isOwner : owner ∈ nodes)
    (isNode : node ∈ nodes) {destination : IpAddr} {network other : IpNet}
    (advertised : network ∈ owner.advertisedPrefixes)
    (holds : network.contains destination = true) (isOther : other ∈ node.advertisedPrefixes)
    (otherHolds : other.contains destination = true) : node = owner := by
  by_contra different
  have differentId : node.nodeId ≠ owner.nodeId := fun same =>
    different (inj_on_of_nodup_map compilation.nodesOk.distinct isNode isOwner same)
  have apart := compilation.nodesOk.owners node isNode owner isOwner differentId other isOther
    network advertised
  rw [overlap_of_common otherHolds holds] at apart
  cases apart

end Compilation

variable {path : List NodeIdV2}

variable {links : List TopologyLinkV2} {hops : List (TopologyLinkV2 × NodeIdV2)}

theorem HopsOf.latency {edges : List DirectedLinkV2} (isHops : HopsOf links path edges hops) :
    (edges.map fun edge => edge.cost.toNat).sum = (hops.map fun hop => hop.1.cost.toNat).sum := by
  have costs := congrArg (map UInt32.toNat) isHops.costs
  rw [map_map, map_map] at costs
  exact congrArg sum costs.symm

theorem HopsOf.size {first : DirectedLinkV2} {rest : List DirectedLinkV2}
    (isHops : HopsOf links path (first :: rest) hops) {least : UInt16}
    (isLeast : rest.foldl (fun least link => min least link.maximumDatagramSize)
      first.maximumDatagramSize = least) :
    (∃ hop ∈ hops, least = hop.1.maximumDatagramSize) ∧
      ∀ hop ∈ hops, least.toNat ≤ hop.1.maximumDatagramSize.toNat := by
  obtain ⟨attained, below, belowAll⟩ := foldl_min_spec rest first.maximumDatagramSize least isLeast
  constructor
  · have member : least ∈ hops.map fun hop => hop.1.maximumDatagramSize := by
      rw [isHops.sizes, map_cons]
      rcases attained with rfl | ⟨edge, inRest, rfl⟩
      · exact mem_cons_self
      · exact mem_cons_of_mem _ (mem_map_of_mem inRest)
    obtain ⟨hop, inHops, isSize⟩ := mem_map.mp member
    exact ⟨hop, inHops, isSize.symm⟩
  intro hop inHops
  have member : hop.1.maximumDatagramSize ∈ (first :: rest).map
      DirectedLinkV2.maximumDatagramSize := by
    rw [← isHops.sizes]
    exact mem_map.mpr ⟨hop, inHops, rfl⟩
  obtain ⟨edge, isEdge, isSize⟩ := mem_map.mp member
  rw [← isSize]
  rcases mem_cons.mp isEdge with rfl | inRest
  · exact below
  · exact belowAll edge inRest

theorem UsablePath.inner {graph : GraphV2} {transitNodes : List NodeIdV2}
    {source owner : NodeIdV2} (usable : UsablePath graph transitNodes source owner path)
    (different : source ≠ owner) {node : NodeIdV2} (inner : node ∈ path.tail.dropLast) :
    node ∈ transitNodes := by
  obtain ⟨next, rest, rfl⟩ := usable.two different
  have last : (next :: rest).getLast? = some owner := usable.last
  obtain ⟨front, isFront⟩ := getLast?_eq_some_iff.mp last
  have nodup := usable.nodup
  rw [isFront] at nodup
  rw [tail_cons, isFront, dropLast_concat] at inner
  obtain ⟨notFirst, notLast⟩ := nodup_cons.mp nodup
  refine usable.transits node ?_ ?_ ?_
  · rw [isFront]
    exact mem_cons_of_mem _ (mem_append_left _ inner)
  · rintro rfl
    exact notFirst (mem_append_left _ inner)
  · rintro rfl
    exact (nodup_append'.mp notLast).2.2 inner (mem_singleton_self _)

def CompiledTopologyV2.Knows (topology : CompiledTopologyV2) (node : NodeIdV2) (routeEpoch : UInt32)
    (routeLabel : RouteLabelV2) : Prop :=
  ∃ snapshot entry, topology.snapshot node = some snapshot ∧
    snapshot.labels.lookup routeLabel = some entry ∧ entry.routeEpoch = routeEpoch

namespace Compilation

variable {generation : UInt64} {routeEpoch : UInt32} {nodes : List TopologyNodeV2}
  {links : List TopologyLinkV2} {allowDefaultRoutes : Bool} {compiled : List CompiledPathV2}
  {topology : CompiledTopologyV2}

/-- The prefix routes of a source deliver, over nodes that know their labels. -/
theorem delivers (compilation : Compilation generation routeEpoch nodes links allowDefaultRoutes
    compiled) (views : Views generation allowDefaultRoutes nodes compiled topology)
    {source : TopologyNodeV2} {entry : PrefixRouteV2}
    (inPrefixes : entry ∈ (partsOf compiled source.nodeId).prefixes) {destination : IpAddr}
    (holds : entry.network.contains destination = true) :
    ∃ hops, Delivery topology nodes links source.nodeId destination entry.route
        entry.startupLatency hops ∧ entry.route.routeEpoch = routeEpoch ∧
      ∀ hop ∈ hops, topology.Knows hop.2 routeEpoch entry.route.routeLabel := by
  obtain ⟨path, isPath, here⟩ := mem_flatMap.mp inPrefixes
  unfold CompiledPathV2.prefixesAt at here
  split at here
  swap
  · cases here
  rename_i startsHere
  obtain ⟨plan, owner, facts, planOk⟩ := compilation.facts isPath
  obtain ⟨first, rest, along, isPrefixes⟩ := facts.routed
  rw [isPrefixes, planOk.prefixes] at here
  obtain ⟨network, isNetwork, rfl⟩ := mem_map.mp here
  have isOwner : owner ∈ nodes := mem_sortByKey.mp planOk.member
  have advertised : network ∈ owner.advertisedPrefixes := mem_sortByKey.mp isNetwork
  have usable := planOk.usable
  have different := planOk.different
  rw [← facts.source, startsHere] at usable different
  have tables := compilation.tables views isPath facts
  obtain ⟨hops, isHops, arrives⟩ := carry_labelled compilation.linksOk facts.labelled usable.nodup
    usable.first along tables
  have isNodes := isHops.nodes
  obtain ⟨next, inner, isTwo⟩ := usable.two different
  refine ⟨hops, ?_, rfl, ?_⟩
  · constructor
    · exact isHops.healthy
    · rw [isNodes, isTwo, tail_cons, ← isTwo]
      exact usable.nodup
    · intro hop inHops
      have isInner : hop.2 ∈ transitNodesOf (sortByKey TopologyNodeV2.nodeId nodes) := by
        refine usable.inner different ?_
        rw [← isNodes, ← map_dropLast]
        exact mem_map_of_mem inHops
      obtain ⟨node, isTransit, isId⟩ := mem_map.mp isInner
      obtain ⟨member, enabled⟩ := mem_filter.mp isTransit
      exact ⟨node, mem_sortByKey.mp member, isId, enabled⟩
    · refine ⟨owner, isOwner, ?_, fun node isNode => ⟨?_, ?_⟩⟩
      · rw [← getLast?_map, isNodes, isTwo, tail_cons]
        have last := usable.last
        rw [isTwo] at last
        exact last
      · rintro ⟨other, isOther, otherHolds⟩
        exact compilation.owner_unique isOwner isNode advertised holds isOther otherHolds
      · rintro rfl
        exact ⟨network, advertised, holds⟩
    · exact isHops.size rfl
    · exact isHops.latency
    · intro bytes cell decoded isEpoch isLabel enough count room
      obtain ⟨valid, rfl, fits⟩ := (CellV2.decode_ok_iff _ _).mp decoded
      exact arrives cell valid fits isEpoch isLabel enough count room
  intro hop inHops
  have onPath : hop.2 ∈ path.labels.map Prod.fst := by
    rw [facts.labelled.nodes, ← isNodes]
    exact mem_map_of_mem inHops
  obtain ⟨entry, inLabels, isNode⟩ := mem_map.mp onPath
  obtain ⟨snapshot, isSnapshot, known⟩ := tables entry inLabels
  exact ⟨snapshot, entry.2, isNode ▸ isSnapshot, known, (facts.labelled.fields entry inLabels).2⟩

end Compilation

/-- Every route that a source is offered for an address delivers to the owner of that address. -/
theorem label_switching_delivers (generation : UInt64) (routeEpoch : UInt32)
    (nodes : List TopologyNodeV2) (links : List TopologyLinkV2) (allowDefaultRoutes : Bool)
    (topology : CompiledTopologyV2)
    (built : compileTopologyV2 generation routeEpoch nodes links allowDefaultRoutes = .ok topology)
    (source : TopologyNodeV2) (isSource : source ∈ nodes) (snapshot : DataplaneSnapshotV2)
    (isSnapshot : topology.snapshot source.nodeId = some snapshot) (destination : IpAddr)
    (candidates : List (ResolvedRouteV2 × Nat))
    (found : snapshot.lookupDestinationCandidates destination = .ok candidates)
    (route : ResolvedRouteV2) (startupLatency : Nat)
    (candidate : (route, startupLatency) ∈ candidates) :
    ∃ hops, Delivery topology nodes links source.nodeId destination route startupLatency hops := by
  obtain ⟨compiled, compilation, views⟩ := compileSelected_eq_ok built
  have views : Compilation.Views generation allowDefaultRoutes nodes compiled topology :=
    fun node member => views node member rfl
  -- the candidate is an entry that a compiled path left in the source's tables
  obtain ⟨own, ownBuilt, isOwn⟩ := views source isSource
  obtain rfl := Option.some.inj (isSnapshot.symm.trans isOwn)
  obtain ⟨index, -⟩ := compile_eq_ok ownBuilt
  obtain ⟨entry, inPrefixes, holds, isEntry⟩ :=
    lookupDestinationCandidates_eq_ok index found _ candidate
  obtain ⟨rfl, rfl⟩ := Prod.mk.inj isEntry
  obtain ⟨hops, delivery, -⟩ := compilation.delivers views inPrefixes holds
  exact ⟨hops, delivery⟩

def relayTopology : CompiledTopologyV2 :=
  (compileTopologyV2 1 7 [sourceNode, relayNode, ownerNode] [sourceLink, ownerLink]
    false).toOption.getD ⟨1, 7, ∅⟩

def relayedRoute : ResolvedRouteV2 := ⟨1, 1, 7, 1200⟩

/-- An address of the owner is offered one route, over both links. -/
theorem label_switching_delivers_relay : (relayTopology.snapshot (.ofNat 1)).isSome = true ∧
      ∃ hops, Delivery relayTopology [sourceNode, relayNode, ownerNode] [sourceLink, ownerLink]
        (.ofNat 1) (.v4 0x0a000305) relayedRoute 30 hops := by
  have present : (relayTopology.snapshot (.ofNat 1)).isSome = true := by decide
  refine ⟨present, ?_⟩
  obtain ⟨snapshot, isSnapshot⟩ := Option.isSome_iff_exists.mp present
  have offered : ((relayTopology.snapshot (.ofNat 1)).bind fun view =>
      (view.lookupDestinationCandidates (.v4 0x0a000305)).toOption) =
        some [(relayedRoute, 30)] := by decide
  rw [isSnapshot, Option.bind_some] at offered
  cases found : snapshot.lookupDestinationCandidates (.v4 0x0a000305) with
  | error reason =>
    rw [found] at offered
    cases offered
  | ok candidates =>
    rw [found] at offered
    obtain rfl := Option.some.inj offered
    exact label_switching_delivers 1 7 _ _ false relayTopology (eq_ok_getD _ (by decide)) sourceNode
      (by decide) snapshot isSnapshot _ _ found relayedRoute 30 mem_cons_self

end Ironet.Routing
