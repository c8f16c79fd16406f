import Ironet.Routing.WellFormed

/-!
# Independence of the input order

Every node compiles the same topology from lists in an order of its own. The checks are conditions
on the members of the lists, the sort keys tell the members apart, and nothing after sorting sees
the order. So two compilations of one topology have one result; only the text of an error may
differ.
-/
namespace Ironet.Routing
open Support Ironet.Mesh TopologyLinkV2

namespace TopologyLinkV2

/-- The same link, written from its other end. -/
def swap (link : TopologyLinkV2) : TopologyLinkV2 where
  left := link.right
  right := link.left
  leftAdjacency := link.rightAdjacency
  rightAdjacency := link.leftAdjacency
  cost := link.cost
  healthy := link.healthy
  maximumDatagramSize := link.maximumDatagramSize

variable (link : TopologyLinkV2)

theorem pair_swap : link.swap.pair = link.pair := by
  change (if link.right < link.left then (link.right, link.left) else (link.left, link.right)) =
    if link.left < link.right then (link.left, link.right) else (link.right, link.left)
  rcases lt_trichotomy link.left link.right with below | same | above
  · rw [if_pos below, if_neg below.asymm]
  · simp [same]
  · rw [if_pos above, if_neg above.asymm]

theorem ends_swap : link.swap.ends.Perm link.ends := List.Perm.swap _ _ _

theorem edgeFrom_swap {link : TopologyLinkV2} (different : link.left ≠ link.right)
    (node : NodeIdV2) : link.swap.edgeFrom node = link.edgeFrom node := by
  refine Option.ext fun edge => ?_
  rw [edgeFrom_eq_some_iff different, edgeFrom_eq_some_iff (Ne.symm different)]
  exact and_congr_right fun _ => or_comm

theorem checkLink_swap (nodeIds : List NodeIdV2) (link : TopologyLinkV2) :
    checkLink nodeIds link.swap = .ok () ↔ checkLink nodeIds link = .ok () := by
  simp only [checkLink_eq_ok_iff, swap]
  tauto

end TopologyLinkV2

/-- The same links up to their order and the order of their ends. -/
def Reordered (links links' : List TopologyLinkV2) : Prop :=
  ∃ turned, links.Forall₂ (fun link other => other = link ∨ other = link.swap) turned ∧
    turned.Perm links'

/-! ### Links whose ends are exchanged -/

section
variable {nodeIds : List NodeIdV2} {links turned : List TopologyLinkV2}

section
variable (same : links.Forall₂ (fun link other => other = link ∨ other = link.swap) turned)
include same

theorem checked_turned : (∀ link ∈ turned, checkLink nodeIds link = .ok ()) ↔
      ∀ link ∈ links, checkLink nodeIds link = .ok () := by
  induction same with
  | nil => simp
  | cons first _ ih =>
    simp only [List.forall_mem_cons, ih]
    rcases first with rfl | rfl
    · rfl
    · rw [checkLink_swap]

theorem ends_turned : (turned.flatMap ends).Perm (links.flatMap ends) := by
  induction same with
  | nil => exact .refl _
  | cons first _ ih =>
    rcases first with rfl | rfl
    · exact ih.append_left _
    · exact (ends_swap _).append ih

theorem pairs_turned : turned.map pair = links.map pair := by
  induction same with
  | nil => rfl
  | cons first _ ih =>
    simp only [List.map_cons, ih]
    rcases first with rfl | rfl
    · rfl
    · rw [pair_swap]

theorem edges_turned (loopless : ∀ link ∈ links, link.left ≠ link.right) (node : NodeIdV2) :
    turned.filterMap (edgeFrom node) = links.filterMap (edgeFrom node) := by
  induction same with
  | nil => rfl
  | cons first _ ih =>
  rw [List.forall_mem_cons] at loopless
  simp only [List.filterMap_cons, ih loopless.2]
  rcases first with rfl | rfl
  · rfl
  · rw [edgeFrom_swap loopless.1]

end

end

/-! ### The checks and the graph -/

variable {allowDefaultRoutes : Bool} {nodes nodes' : List TopologyNodeV2}

theorem NodesOk.perm (same : nodes.Perm nodes') (nodesOk : NodesOk allowDefaultRoutes nodes) :
    NodesOk allowDefaultRoutes nodes' where
  checked node member := nodesOk.checked node (same.mem_iff.mpr member)
  distinct := (same.map _).nodup_iff.mp nodesOk.distinct
  owners left inLeft right inRight :=
    nodesOk.owners left (same.mem_iff.mpr inLeft) right (same.mem_iff.mpr inRight)

theorem NodesOk.sorted (same : nodes.Perm nodes') (nodesOk : NodesOk allowDefaultRoutes nodes) :
    sortByKey TopologyNodeV2.nodeId nodes = sortByKey TopologyNodeV2.nodeId nodes' :=
  sortByKey_congr same fun _ inNodes _ inOthers sameId =>
    List.inj_on_of_nodup_map nodesOk.distinct inNodes inOthers sameId

variable {links links' : List TopologyLinkV2}

theorem linksOk_reordered_iff {nodeIds nodeIds' : List NodeIdV2} (sameIds : nodeIds.Perm nodeIds')
    (same : Reordered links links') : LinksOk nodeIds links ↔ LinksOk nodeIds' links' := by
  obtain ⟨turned, isTurned, isPerm⟩ := same
  have ids : ∀ link, checkLink nodeIds' link = .ok () ↔ checkLink nodeIds link = .ok () := by
    intro link
    simp only [checkLink_eq_ok_iff, sameIds.mem_iff]
  have checked : (∀ link ∈ links', checkLink nodeIds' link = .ok ()) ↔
      ∀ link ∈ links, checkLink nodeIds link = .ok () := by
    rw [← checked_turned isTurned]
    exact forall_congr' fun link => by rw [ids, isPerm.mem_iff]
  have ends := (isPerm.flatMap_right ends).nodup_iff.symm.trans
    (ends_turned isTurned).nodup_iff
  have pairs := (isPerm.map pair).nodup_iff
  rw [pairs_turned isTurned] at pairs
  constructor
  · rintro ⟨checkedLinks, endsLinks, pairsLinks⟩
    exact ⟨checked.mpr checkedLinks, ends.mpr endsLinks, pairs.mp pairsLinks⟩
  · rintro ⟨checkedLinks, endsLinks, pairsLinks⟩
    exact ⟨checked.mp checkedLinks, ends.mp endsLinks, pairs.mpr pairsLinks⟩

/-- The sort key tells the edges of one node apart, as no two have one peer. -/
theorem graphOf_reordered {nodeIds : List NodeIdV2} (linksOk : LinksOk nodeIds links)
    (same : Reordered links links') : graphOf links = graphOf links' := by
  obtain ⟨turned, isTurned, isPerm⟩ := same
  funext node
  have loopless := fun link member => (checkLink_eq_ok_iff.mp (linksOk.checked link member)).1
  have edges := edges_turned isTurned loopless node
  refine sortByKey_congr (edges ▸ isPerm.filterMap _) ?_
  intro edge isEdge other isOther sameKey
  have peers := (Prod.mk.inj (toLex.injective (Prod.mk.inj (toLex.injective sameKey)).2)).1
  exact linksOk.graphOk.peers node edge (mem_sortByKey.mpr isEdge) other (mem_sortByKey.mpr isOther)
    peers

/-- Compiling the same topology from lists in another order, with the ends of links exchanged, gives
the same result: all labels, source routes, candidate lists and exclusions of every node. -/
theorem compile_order_independent (generation : UInt64) (routeEpoch : UInt32)
    (nodes nodes' : List TopologyNodeV2) (links links' : List TopologyLinkV2)
    (allowDefaultRoutes : Bool) (sameNodes : nodes.Perm nodes')
    (sameLinks : Reordered links links') :
    (compileTopologyV2 generation routeEpoch nodes links allowDefaultRoutes).toOption =
      (compileTopologyV2 generation routeEpoch nodes' links' allowDefaultRoutes).toOption := by
  refine toOption_congr fun topology => ?_
  have nodesOk : NodesOk allowDefaultRoutes nodes ↔ NodesOk allowDefaultRoutes nodes' :=
    ⟨.perm sameNodes, .perm sameNodes.symm⟩
  have linksOk := linksOk_reordered_iff (sameNodes.map TopologyNodeV2.nodeId) sameLinks
  have turns : searchTurns links = searchTurns links' := by
    obtain ⟨turned, isTurned, isPerm⟩ := sameLinks
    rw [searchTurns, searchTurns, isTurned.length_eq, isPerm.length_eq]
  have nonempty : nodes ≠ [] ↔ nodes' ≠ [] := by
    rw [ne_eq, ne_eq, ← List.length_eq_zero_iff, sameNodes.length_eq, List.length_eq_zero_iff]
  rw [compileTopologyV2, compileTopologyV2, compileSelected_eq_ok_iff, compileSelected_eq_ok_iff,
    ← nonempty, ← nodesOk, ← linksOk]
  refine and_congr_right ?_
  rintro ⟨-, -, -, areNodes, areLinks⟩
  rw [areNodes.sorted sameNodes, graphOf_reordered areLinks sameLinks, turns]
  simp

/-- A relay between two nodes, one of which owns a prefix. -/
def sourceNode : TopologyNodeV2 := ⟨.ofNat 1, [], false, []⟩
def relayNode : TopologyNodeV2 := ⟨.ofNat 2, [], true, []⟩
def ownerNode : TopologyNodeV2 :=
  ⟨.ofNat 3, [⟨.v4 0x0a000300, 24, by decide⟩], false, []⟩
def sourceLink : TopologyLinkV2 := ⟨.ofNat 1, .ofNat 2, 1, 1, 10, true, 1400⟩
def ownerLink : TopologyLinkV2 := ⟨.ofNat 2, .ofNat 3, 2, 1, 20, true, 1200⟩

/-- The nodes reversed, the links exchanged and one of them turned. -/
theorem compile_order_independent_relay :
    (compileTopologyV2 1 7 [sourceNode, relayNode, ownerNode] [sourceLink, ownerLink]
        false).toOption.isSome = true ∧
      (compileTopologyV2 1 7 [sourceNode, relayNode, ownerNode] [sourceLink, ownerLink]
          false).toOption =
        (compileTopologyV2 1 7 [ownerNode, relayNode, sourceNode] [ownerLink.swap, sourceLink]
          false).toOption := by
  refine ⟨by decide, compile_order_independent 1 7 _ _ _ _ false ?_ ?_⟩
  · exact (List.reverse_perm [ownerNode, relayNode, sourceNode])
  · exact ⟨[sourceLink, ownerLink.swap], .cons (.inl rfl) (.cons (.inr rfl) .nil), .swap _ _ _⟩

end Ironet.Routing
