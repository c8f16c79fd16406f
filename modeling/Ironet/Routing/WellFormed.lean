import Ironet.Routing.Topology

/-!
# Well-formed topologies

What the checks of the compiler establish, as conditions that do not depend on the order of nodes
and links, and the graph that well-formed links span: every node sees each neighbour once, under an
adjacency of its own, and every link is seen from both of its ends.
-/
namespace Ironet.Routing
open Support Ironet.Mesh TopologyLinkV2 TopologyNodeV2 List

/-! ### Nodes -/

/-- Distinct nodes, each with valid prefixes, and no prefix with two owners. -/
structure NodesOk (allowDefaultRoutes : Bool) (nodes : List TopologyNodeV2) : Prop where
  checked : ∀ node ∈ nodes, checkNode allowDefaultRoutes node = .ok ()
  distinct : (nodes.map nodeId).Nodup
  owners : ∀ left ∈ nodes, ∀ right ∈ nodes, left.nodeId ≠ right.nodeId →
    ∀ network ∈ left.advertisedPrefixes, ∀ other ∈ right.advertisedPrefixes,
      prefixesOverlap network other = false

variable {nodes : List TopologyNodeV2}

theorem checkNodes_eq_ok_iff {allowDefaultRoutes : Bool} {known : List NodeIdV2} :
    checkNodes allowDefaultRoutes known nodes = .ok () ↔
      (∀ node ∈ nodes, checkNode allowDefaultRoutes node = .ok ()) ∧
        (nodes.map nodeId).Nodup ∧ ∀ node ∈ nodes, node.nodeId ∉ known := by
  induction nodes generalizing known with
  | nil => simp [checkNodes]
  | cons node rest ih =>
  simp only [forall_mem_cons, map_cons, nodup_cons, mem_map]
  simp only [checkNodes, do_eq_ok, ih, mem_cons, not_or]
  constructor
  · rintro ⟨checked, fresh, others, distinct, apart⟩
    refine ⟨⟨checked, others⟩, ⟨?_, distinct⟩, fresh, fun other member => (apart other member).2⟩
    rintro ⟨other, member, same⟩
    exact (apart other member).1 same
  · rintro ⟨⟨checked, others⟩, ⟨first, distinct⟩, fresh, unknown⟩
    refine ⟨checked, fresh, others, distinct, fun other member => ⟨?_, unknown other member⟩⟩
    exact fun same => first ⟨other, member, same⟩

theorem prefixesOverlap_comm (left right : IpNet) :
    prefixesOverlap left right = prefixesOverlap right left := by
  simp only [prefixesOverlap, decide_eq_decide]
  rw [eq_comm (a := left.addr.isIpv4), or_comm]

/-- Of two prefixes with a common address, the shorter contains the longer. -/
theorem overlap_of_common {left right : IpNet} {address : IpAddr}
    (inLeft : left.contains address = true) (inRight : right.contains address = true) :
    prefixesOverlap left right = true := by
  have family := (IpNet.contains_family inLeft).trans (IpNet.contains_family inRight).symm
  rw [IpNet.contains, decide_eq_true_eq] at inLeft inRight
  rw [prefixesOverlap, decide_eq_true_eq]
  refine ⟨family, ?_⟩
  rcases le_total left.prefixLen right.prefixLen with shorter | longer
  · left
    rw [IpNet.contains, decide_eq_true_eq, ← inRight, IpAddr.masked_masked _ shorter, inLeft]
  · right
    rw [IpNet.contains, decide_eq_true_eq, ← inLeft, IpAddr.masked_masked _ longer, inRight]

/-- Two prefixes that may stand side by side. -/
def Compatible (left right : NodeIdV2 × IpNet) : Prop :=
  left.1 ≠ right.1 → prefixesOverlap left.2 right.2 = false

theorem Compatible.symm {left right : NodeIdV2 × IpNet} (compatible : Compatible left right) :
    Compatible right left := by
  intro different
  rw [prefixesOverlap_comm]
  exact compatible different.symm

theorem checkOwner_eq_ok_iff {owner other : NodeIdV2 × IpNet} :
    checkOwner owner other = .ok () ↔ Compatible owner other := by
  unfold checkOwner Compatible
  split
  · rename_i different
    simp [different]
  · rename_i same
    simp [same]

theorem checkOwners_eq_ok_iff {owned rest : List (NodeIdV2 × IpNet)} :
    checkOwners owned rest = .ok () ↔
      (∀ owner ∈ rest, ∀ other ∈ owned, Compatible owner other) ∧ rest.Pairwise Compatible := by
  induction rest generalizing owned with
  | nil => simp [checkOwners]
  | cons owner rest ih =>
  simp only [checkOwners, do_eq_ok, forM_eq_ok_iff, checkOwner_eq_ok_iff, ih,
    forall_mem_cons, pairwise_cons, mem_append, mem_singleton]
  constructor
  · rintro ⟨first, later, pairwise⟩
    refine ⟨⟨first, fun next member other old => later next member other (.inl old)⟩, ?_, pairwise⟩
    exact fun next member => (later next member owner (.inr rfl)).symm
  rintro ⟨⟨first, later⟩, ahead, pairwise⟩
  refine ⟨first, fun next member other found => ?_, pairwise⟩
  rcases found with old | rfl
  · exact later next member other old
  · exact (ahead next member).symm

theorem validateGlobalOwnership_eq_ok_iff : validateGlobalOwnership nodes = .ok () ↔
      ∀ left ∈ nodes, ∀ right ∈ nodes, left.nodeId ≠ right.nodeId →
        ∀ network ∈ left.advertisedPrefixes, ∀ other ∈ right.advertisedPrefixes,
          prefixesOverlap network other = false := by
  have all : (nodes.flatMap owned).Pairwise Compatible ↔
      ∀ owner ∈ nodes.flatMap owned,
        ∀ other ∈ nodes.flatMap owned, Compatible owner other := by
    constructor
    · intro pairwise owner member other found
      have symm : Std.Symm Compatible := ⟨fun _ _ => Compatible.symm⟩
      exact pairwise.forall_of_forall (fun _ _ different => absurd rfl different) member found
    · exact pairwise_of_forall_mem_list
  rw [validateGlobalOwnership, checkOwners_eq_ok_iff, all]
  simp only [mem_flatMap, owned, mem_map, Compatible]
  constructor
  · rintro ⟨-, compatible⟩ left inLeft right inRight different network inNetworks other inOthers
    exact compatible (left.nodeId, network) ⟨left, inLeft, network, inNetworks, rfl⟩
      (right.nodeId, other) ⟨right, inRight, other, inOthers, rfl⟩ different
  · intro compatible
    refine ⟨by simp, ?_⟩
    rintro _ ⟨left, inLeft, network, inNetworks, rfl⟩
      _ ⟨right, inRight, other, inOthers, rfl⟩ different
    exact compatible left inLeft right inRight different network inNetworks other inOthers

/-! ### Links -/

/-- Valid links, with no adjacency of a node and no pair of nodes twice. -/
structure LinksOk (nodeIds : List NodeIdV2) (links : List TopologyLinkV2) : Prop where
  checked : ∀ link ∈ links, checkLink nodeIds link = .ok ()
  ends : (links.flatMap ends).Nodup
  pairs : (links.map pair).Nodup

variable {link : TopologyLinkV2} {node : NodeIdV2} {edge : DirectedLinkV2}

namespace TopologyLinkV2

def edgeFrom (node : NodeIdV2) (link : TopologyLinkV2) : Option DirectedLinkV2 :=
  if link.healthy then
    if link.left = node then some link.leftEdge
    else if link.right = node then some link.rightEdge
    else none
  else none

variable (different : link.left ≠ link.right)
include different

theorem edgeFrom_eq_some_iff : link.edgeFrom node = some edge ↔ link.healthy = true ∧
      ((link.left = node ∧ edge = link.leftEdge) ∨
        (link.right = node ∧ edge = link.rightEdge)) := by
  unfold edgeFrom
  split_ifs with healthy isLeft isRight
  · have notRight : link.right ≠ node := fun same => different (isLeft.trans same.symm)
    simp [healthy, isLeft, notRight, eq_comm]
  · simp [healthy, isLeft, isRight, eq_comm]
  · simp [isLeft, isRight]
  · simp [healthy]

theorem edges_push (healthy : link.healthy = true) (graph : GraphV2) (node : NodeIdV2) :
    GraphV2.push (GraphV2.push graph link.left link.leftEdge) link.right link.rightEdge node =
      graph node ++ (link.edgeFrom node).toList := by
  unfold edgeFrom GraphV2.push
  rw [if_pos healthy]
  by_cases isRight : node = link.right
  · subst isRight
    rw [Function.update_self, Function.update_of_ne different.symm, if_neg different, if_pos rfl]
    rfl
  rw [Function.update_of_ne isRight]
  by_cases isLeft : node = link.left
  · subst isLeft
    rw [Function.update_self, if_pos rfl]
    rfl
  · rw [Function.update_of_ne isLeft, if_neg (Ne.symm isLeft), if_neg (Ne.symm isRight)]
    simp

end TopologyLinkV2

variable {nodeIds : List NodeIdV2}

theorem checkLink_eq_ok_iff : checkLink nodeIds link = .ok () ↔ link.left ≠ link.right ∧
      (link.left ∈ nodeIds ∧ link.right ∈ nodeIds) ∧ link.leftAdjacency ≠ 0 ∧
        link.rightAdjacency ≠ 0 ∧ link.cost ≠ 0 ∧
          Cell.headerLen < link.maximumDatagramSize.toNat := by
  simp [checkLink, AdjacencyIdV2.new, do_eq_ok]

def LinkTablesV2.extend (tables : LinkTablesV2) (links : List TopologyLinkV2) : LinkTablesV2 where
  graph := fun node => tables.graph node ++ links.filterMap (edgeFrom node)
  adjacencyIds := tables.adjacencyIds ++ links.flatMap ends
  nodePairs := tables.nodePairs ++ links.map pair

theorem TopologyLinkV2.ends_nodup (different : link.left ≠ link.right) : link.ends.Nodup := by
  simp [ends, different]

variable {links : List TopologyLinkV2}

theorem collectLinks_eq_ok_iff {tables final : LinkTablesV2} (ids : tables.adjacencyIds.Nodup)
    (pairs : tables.nodePairs.Nodup) : collectLinks nodeIds links tables = .ok final ↔
      (∀ link ∈ links, checkLink nodeIds link = .ok ()) ∧
        (tables.adjacencyIds ++ links.flatMap ends).Nodup ∧
          (tables.nodePairs ++ links.map pair).Nodup ∧
            final = tables.extend links := by
  induction links generalizing tables with
  | nil => simp [collectLinks, LinkTablesV2.extend, ids, pairs, eq_comm]
  | cons link rest ih =>
  simp only [collectLinks, do_eq_ok, forall_mem_cons, and_assoc]
  refine and_congr_right fun checked => ?_
  obtain ⟨different, -⟩ := checkLink_eq_ok_iff.mp checked
  -- one entry of the tables is fresh exactly if it can be appended
  have freshEnds : (∀ key ∈ link.ends, key ∉ tables.adjacencyIds) ↔
      (tables.adjacencyIds ++ link.ends).Nodup := by
    rw [nodup_append']
    simp only [ids, ends_nodup different, true_and]
    exact ⟨fun fresh key old new => fresh key new old, fun apart key new old => apart old new⟩
  have freshPair : link.pair ∉ tables.nodePairs ↔ (tables.nodePairs ++ [link.pair]).Nodup := by
    rw [nodup_append']
    simp [pairs]
  have graph : (if link.healthy then GraphV2.push
        (GraphV2.push tables.graph link.left link.leftEdge) link.right link.rightEdge
      else tables.graph) = fun node => tables.graph node ++ (link.edgeFrom node).toList := by
    funext node
    by_cases healthy : link.healthy = true
    · rw [if_pos healthy, edges_push different healthy]
    · simp [healthy, edgeFrom]
  have extended : LinkTablesV2.extend
      ⟨fun node => tables.graph node ++ (link.edgeFrom node).toList,
        tables.adjacencyIds ++ link.ends, tables.nodePairs ++ [link.pair]⟩ rest =
      tables.extend (link :: rest) := by
    simp only [LinkTablesV2.extend, flatMap_cons, map_cons, append_assoc,
      singleton_append, LinkTablesV2.mk.injEq, and_true]
    funext node
    cases seen : link.edgeFrom node <;> simp [seen]
  rw [freshEnds, freshPair, graph]
  constructor
  · rintro ⟨isFresh, isNew, collected⟩
    rw [ih isFresh isNew, extended, append_assoc, append_assoc] at collected
    simpa using collected
  rintro ⟨others, allEnds, allPairs, rfl⟩
  rw [flatMap_cons, ← append_assoc] at allEnds
  rw [map_cons, ← singleton_append, ← append_assoc] at allPairs
  have isFresh := allEnds.sublist (sublist_append_left _ _)
  have isNew := allPairs.sublist (sublist_append_left _ _)
  exact ⟨isFresh, isNew, (ih isFresh isNew).mpr ⟨others, allEnds, allPairs, extended.symm⟩⟩

/-! ### The graph -/

/-- The healthy links of a node in the order of the search. -/
def graphOf (links : List TopologyLinkV2) : GraphV2 :=
  fun node => sortByKey DirectedLinkV2.key (links.filterMap (edgeFrom node))

/-- What every pass relies on. -/
structure GraphOk (nodeIds : List NodeIdV2) (graph : GraphV2) : Prop where
  peers : ∀ node, ∀ edge ∈ graph node, ∀ other ∈ graph node, edge.peer = other.peer → edge = other
  adjacencies : ∀ node, ∀ edge ∈ graph node, ∀ other ∈ graph node,
    edge.adjacency = other.adjacency → edge = other
  loopless : ∀ node, ∀ edge ∈ graph node, edge.peer ≠ node
  back : ∀ node, ∀ edge ∈ graph node, ∃ reverse ∈ graph edge.peer, reverse.peer = node
  nonzero : ∀ node, ∀ edge ∈ graph node, edge.adjacency ≠ 0
  size : ∀ node, ∀ edge ∈ graph node, Cell.headerLen < edge.maximumDatagramSize.toNat
  nodes : ∀ node, ∀ edge ∈ graph node, edge.peer ∈ nodeIds

namespace LinksOk

variable {nodeIds : List NodeIdV2} {links : List TopologyLinkV2}

theorem mem_graphOf_iff (linksOk : LinksOk nodeIds links) :
    edge ∈ graphOf links node ↔ ∃ link ∈ links, link.healthy = true ∧
      ((link.left = node ∧ edge = link.leftEdge) ∨
        (link.right = node ∧ edge = link.rightEdge)) := by
  rw [graphOf, mem_sortByKey, mem_filterMap]
  refine exists_congr fun link => and_congr_right fun member => ?_
  exact edgeFrom_eq_some_iff (checkLink_eq_ok_iff.mp (linksOk.checked link member)).1

variable {other : TopologyLinkV2}

section
variable (linksOk : LinksOk nodeIds links) (inLinks : link ∈ links) (inOthers : other ∈ links)
include linksOk inLinks inOthers

theorem link_of_end {key : NodeIdV2 × AdjacencyIdV2} (isEnd : key ∈ link.ends)
    (isOther : key ∈ other.ends) : link = other := by
  by_contra different
  obtain ⟨-, apart⟩ := nodup_flatMap.mp linksOk.ends
  have symm : Std.Symm (Function.onFun List.Disjoint TopologyLinkV2.ends) :=
    ⟨fun _ _ disjoint => disjoint.symm⟩
  exact apart.forall inLinks inOthers different isEnd isOther

theorem link_of_pair (same : link.pair = other.pair) : link = other :=
  inj_on_of_nodup_map linksOk.pairs inLinks inOthers same

end

section
variable (different : link.left ≠ link.right)
  (seen : (link.left = node ∧ edge = link.leftEdge) ∨ (link.right = node ∧ edge = link.rightEdge))
include different seen

theorem pair_of_edge :
    link.pair = if node < edge.peer then (node, edge.peer) else (edge.peer, node) := by
  rcases seen with ⟨rfl, rfl⟩ | ⟨rfl, rfl⟩
  · rfl
  change link.pair = if link.right < link.left then (link.right, link.left)
    else (link.left, link.right)
  rw [pair]
  rcases lt_or_gt_of_ne different with below | above
  · rw [if_pos below, if_neg below.asymm]
  · rw [if_neg above.asymm, if_pos above]

theorem edge_unique {other : DirectedLinkV2}
    (seen' : (link.left = node ∧ other = link.leftEdge) ∨
      (link.right = node ∧ other = link.rightEdge)) :
    edge = other := by
  rcases seen with ⟨isLeft, rfl⟩ | ⟨isRight, rfl⟩ <;> rcases seen' with ⟨left, rfl⟩ | ⟨right, rfl⟩
  · rfl
  · exact absurd (isLeft.trans right.symm) different
  · exact absurd (left.trans isRight.symm) different
  · rfl

end

theorem end_of_edge (seen : (link.left = node ∧ edge = link.leftEdge) ∨
      (link.right = node ∧ edge = link.rightEdge)) : (node, edge.adjacency) ∈ link.ends := by
  rcases seen with ⟨rfl, rfl⟩ | ⟨rfl, rfl⟩
  · exact mem_cons_self
  · exact mem_cons_of_mem _ mem_cons_self

/-- Well-formed links span a graph that every pass can rely on. -/
theorem graphOk (linksOk : LinksOk nodeIds links) : GraphOk nodeIds (graphOf links) := by
  have valid := fun link member => checkLink_eq_ok_iff.mp (linksOk.checked link member)
  constructor
  · intro node edge isEdge other isOther samePeer
    obtain ⟨link, inLinks, -, seen⟩ := linksOk.mem_graphOf_iff.mp isEdge
    obtain ⟨link', inLinks', -, seen'⟩ := linksOk.mem_graphOf_iff.mp isOther
    have samePair : link.pair = link'.pair := by
      rw [pair_of_edge (valid link inLinks).1 seen, pair_of_edge (valid link' inLinks').1 seen',
        samePeer]
    obtain rfl := linksOk.link_of_pair inLinks inLinks' samePair
    exact edge_unique (valid link inLinks).1 seen seen'
  · intro node edge isEdge other isOther sameId
    obtain ⟨link, inLinks, -, seen⟩ := linksOk.mem_graphOf_iff.mp isEdge
    obtain ⟨link', inLinks', -, seen'⟩ := linksOk.mem_graphOf_iff.mp isOther
    obtain rfl := linksOk.link_of_end inLinks inLinks' (end_of_edge seen)
      (sameId ▸ end_of_edge seen')
    exact edge_unique (valid link inLinks).1 seen seen'
  · intro node edge isEdge
    obtain ⟨link, inLinks, -, ⟨rfl, rfl⟩ | ⟨rfl, rfl⟩⟩ := linksOk.mem_graphOf_iff.mp isEdge
    · exact (valid link inLinks).1.symm
    · exact (valid link inLinks).1
  · intro node edge isEdge
    obtain ⟨link, inLinks, healthy, ⟨rfl, rfl⟩ | ⟨rfl, rfl⟩⟩ := linksOk.mem_graphOf_iff.mp isEdge
    · exact ⟨link.rightEdge, linksOk.mem_graphOf_iff.mpr
        ⟨link, inLinks, healthy, .inr ⟨rfl, rfl⟩⟩, rfl⟩
    · exact ⟨link.leftEdge, linksOk.mem_graphOf_iff.mpr
        ⟨link, inLinks, healthy, .inl ⟨rfl, rfl⟩⟩, rfl⟩
  · intro node edge isEdge
    obtain ⟨link, inLinks, -, ⟨rfl, rfl⟩ | ⟨rfl, rfl⟩⟩ := linksOk.mem_graphOf_iff.mp isEdge
    · exact (valid link inLinks).2.2.1
    · exact (valid link inLinks).2.2.2.1
  · intro node edge isEdge
    obtain ⟨link, inLinks, -, ⟨rfl, rfl⟩ | ⟨rfl, rfl⟩⟩ := linksOk.mem_graphOf_iff.mp isEdge
    all_goals exact (valid link inLinks).2.2.2.2.2
  · intro node edge isEdge
    obtain ⟨link, inLinks, -, ⟨rfl, rfl⟩ | ⟨rfl, rfl⟩⟩ := linksOk.mem_graphOf_iff.mp isEdge
    · exact (valid link inLinks).2.1.2
    · exact (valid link inLinks).2.1.1

end LinksOk

/-! ### Enough turns -/

namespace TopologyLinkV2

theorem edgeFrom_eq_none (notLeft : node ≠ link.left)
    (notRight : node ≠ link.right) : link.edgeFrom node = none := by
  simp [edgeFrom, notLeft.symm, notRight.symm]

theorem edgeFrom_le (link : TopologyLinkV2) (nodes : Finset NodeIdV2) :
    ∑ node ∈ nodes, (link.edgeFrom node).toList.length ≤ 2 := by
  have atEnds : ∀ node ∈ nodes, (link.edgeFrom node).toList.length ≤
      (if node = link.left then 1 else 0) + if node = link.right then 1 else 0 := by
    intro node _
    by_cases isLeft : node = link.left
    · rw [if_pos isLeft]
      exact (Option.length_toList_le).trans (Nat.le_add_right 1 _)
    by_cases isRight : node = link.right
    · rw [if_pos isRight]
      exact (Option.length_toList_le).trans (Nat.le_add_left 1 _)
    · rw [edgeFrom_eq_none isLeft isRight]
      exact Nat.zero_le _
  refine (Finset.sum_le_sum atEnds).trans ?_
  rw [Finset.sum_add_distrib, Finset.sum_ite_eq', Finset.sum_ite_eq']
  split_ifs <;> omega

end TopologyLinkV2

theorem edges_le (links : List TopologyLinkV2) (nodes : Finset NodeIdV2) :
    ∑ node ∈ nodes, (graphOf links node).length ≤ 2 * links.length := by
  induction links with
  | nil => simp [graphOf]
  | cons link rest ih =>
  have split : ∀ node, (graphOf (link :: rest) node).length =
      (link.edgeFrom node).toList.length + (graphOf rest node).length := by
    intro node
    simp only [graphOf, length_sortByKey]
    cases seen : link.edgeFrom node <;> simp [seen, Nat.add_comm]
  have first := link.edgeFrom_le nodes
  simp only [split, Finset.sum_add_distrib, length_cons]
  omega

/-- The turns that the compiler counts let the search run to its end, and it finds a path exactly if
there is a usable one around the excluded node. -/
theorem search_complete (links : List TopologyLinkV2) (source destination : NodeIdV2)
    (excluded : Option NodeIdV2) (transitNodes : List NodeIdV2) (allowed : some source ≠ excluded) :
    (SearchV2.run source destination excluded (graphOf links) transitNodes (searchTurns links)
        (.start source)).Ended destination ∧
      ((shortestPathExcludingV2 (searchTurns links) source destination excluded (graphOf links)
          transitNodes).isSome ↔
        ∃ path, UsablePath (graphOf links) transitNodes source destination path ∧
          ∀ node ∈ path, some node ≠ excluded) := by
  have covered : ∀ node ∉ (links.flatMap fun link => [link.left, link.right]).toFinset,
      graphOf links node = [] := by
    intro node elsewhere
    simp only [mem_toFinset, mem_flatMap, mem_cons, not_mem_nil, or_false,
      not_exists, not_and, not_or] at elsewhere
    have none : links.filterMap (edgeFrom node) = [] := by
      refine filterMap_eq_nil_iff.mpr fun link member => ?_
      exact edgeFrom_eq_none (elsewhere link member).1 (elsewhere link member).2
    rw [graphOf, none]
    rfl
  have enough : SearchV2.work (links.flatMap fun link => [link.left, link.right]).toFinset
      (graphOf links) (.start source) ≤ searchTurns links := by
    simp only [SearchV2.work, SearchV2.start, length_singleton, not_mem_nil,
      not_false_eq_true, Finset.filter_true, searchTurns]
    exact Nat.add_le_add_left (edges_le links _) 1
  obtain ⟨explores, ended⟩ := SearchV2.explores_start.run _ covered enough
  refine ⟨ended, fun found => ?_, ?_⟩
  · obtain ⟨path, isPath⟩ := Option.isSome_iff_exists.mp found
    exact ⟨path, shortestPath_usable allowed isPath⟩
  rintro ⟨path, usable, avoids⟩
  have known : (SearchV2.run source destination excluded (graphOf links) transitNodes
      (searchTurns links) (.start source)).distance destination ≠ none := by
    rcases ended with empty | visited
    · refine explores.reaches empty usable.linked (fun node member => ⟨avoids node member, ?_⟩) ?_
        usable.last
      · have := usable.transits node member
        tauto
      · rw [usable.first]
        rintro _ ⟨⟩
        exact explores.root
    · exact explores.known destination visited
  rw [shortestPathExcludingV2, if_neg known]
  exact ((SearchV2.sound_start allowed).run _).walks known

/-- Two relays, nodes 2 and 3, between nodes 1 and 4. -/
def twoRelays : List TopologyLinkV2 :=
  [⟨.ofNat 1, .ofNat 2, 1, 1, 10, true, 1400⟩, ⟨.ofNat 2, .ofNat 4, 2, 1, 10, true, 1400⟩,
    ⟨.ofNat 1, .ofNat 3, 2, 1, 30, true, 1400⟩, ⟨.ofNat 3, .ofNat 4, 2, 2, 30, true, 1400⟩]

/-- Around node 2 there is a path while node 3 relays, and none when it does not. -/
theorem search_complete_relays :
    (∃ path, UsablePath (graphOf twoRelays) [.ofNat 2, .ofNat 3] (.ofNat 1) (.ofNat 4) path ∧
      ∀ node ∈ path, some node ≠ some (.ofNat 2)) ∧
    ¬∃ path, UsablePath (graphOf twoRelays) [.ofNat 2] (.ofNat 1) (.ofNat 4) path ∧
      ∀ node ∈ path, some node ≠ some (.ofNat 2) := by
  constructor
  · exact (search_complete twoRelays _ _ _ _ (by decide)).2.mp (by decide)
  · intro path
    exact absurd ((search_complete twoRelays _ _ _ _ (by decide)).2.mpr path) (by decide)

/-! ### The passes -/

/-- A compilation succeeds if the topology is well formed and the passes over it succeed. -/
theorem compileSelected_eq_ok_iff {generation : UInt64} {routeEpoch : UInt32}
    {allowDefaultRoutes : Bool} {selectedNode : Option NodeIdV2} {topology : CompiledTopologyV2} :
    compileTopologySelectedV2 generation routeEpoch nodes links allowDefaultRoutes selectedNode =
        .ok topology ↔
      (generation ≠ 0 ∧ routeEpoch ≠ 0 ∧ nodes ≠ [] ∧ NodesOk allowDefaultRoutes nodes ∧
        LinksOk (nodes.map nodeId) links) ∧
      (∀ selected ∈ selectedNode, selected ∈ nodes.map nodeId) ∧
        compileChecked generation routeEpoch (sortByKey nodeId nodes)
          (searchTurns links) (graphOf links) allowDefaultRoutes selectedNode = .ok topology := by
  simp only [compileTopologySelectedV2, do_eq_ok, checkNodes_eq_ok_iff,
    validateGlobalOwnership_eq_ok_iff]
  constructor
  · rintro ⟨generationOk, epochOk, nonempty, ⟨checked, distinct, -⟩, owners, tables, collected,
      selectedOk, passed⟩
    obtain ⟨linksChecked, ends, pairs, rfl⟩ :=
      (collectLinks_eq_ok_iff nodup_nil nodup_nil).mp collected
    exact ⟨⟨generationOk, epochOk, nonempty, ⟨checked, distinct, owners⟩,
      ⟨linksChecked, ends, pairs⟩⟩, selectedOk, passed⟩
  · rintro ⟨⟨generationOk, epochOk, nonempty, nodesOk, linksOk⟩, selectedOk, passed⟩
    refine ⟨generationOk, epochOk, nonempty, ⟨nodesOk.checked, nodesOk.distinct, by simp⟩,
      nodesOk.owners, _, (collectLinks_eq_ok_iff nodup_nil nodup_nil).mpr
        ⟨linksOk.checked, linksOk.ends, linksOk.pairs, rfl⟩, selectedOk, passed⟩

end Ironet.Routing
