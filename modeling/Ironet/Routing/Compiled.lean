import Ironet.Routing.Tables
import Ironet.Routing.WellFormed

/-!
# Compiled paths

What a compiled path adds to the tables of its nodes, what the tables of one node are, and that they
always pass the checks of `DataplaneSnapshotV2::compile`: a label is used for one path, a path
visits a node once, and the two neighbours of a transit node are reached under different
adjacencies.
-/
namespace Ironet.Routing
open Support Ironet.Mesh List CompiledPathV2 TopologyNodeV2

/-! ### Links along a path -/

/-- The links that lead from each node of the path to the next. -/
inductive Along (graph : GraphV2) : List NodeIdV2 → List DirectedLinkV2 → Prop where
  | last (node : NodeIdV2) : Along graph [node] []
  | hop {node : NodeIdV2} {link : DirectedLinkV2} {rest : List NodeIdV2}
      {links : List DirectedLinkV2}
      (isEdge : link ∈ graph node) (onward : Along graph (link.peer :: rest) links) :
      Along graph (node :: link.peer :: rest) (link :: links)

variable {node : NodeIdV2} {links : List DirectedLinkV2} {rest : List NodeIdV2}

theorem Along.step {graph : GraphV2} {path : List NodeIdV2} (along : Along graph path links)
    {next : NodeIdV2} (isPath : path = node :: next :: rest) :
    ∃ link others, links = link :: others ∧ link ∈ graph node ∧ link.peer = next ∧
      Along graph (next :: rest) others := by
  cases along with
  | last node => cases isPath
  | hop isEdge onward =>
    obtain ⟨rfl, isRest⟩ := cons.inj isPath
    obtain ⟨rfl, rfl⟩ := cons.inj isRest
    exact ⟨_, _, rfl, isEdge, rfl, onward⟩

/-- The entries that the nodes after the first one have for the label of a path. -/
inductive Labelled (graph : GraphV2) (routeEpoch : UInt32) (routeLabel : RouteLabelV2) :
    List NodeIdV2 → List (NodeIdV2 × LabelRouteV2) → Prop where
  | owner {current : NodeIdV2} {ingress : DirectedLinkV2} (isEdge : ingress ∈ graph current) :
      Labelled graph routeEpoch routeLabel [ingress.peer, current]
        [(current, ⟨routeLabel, routeEpoch, .localNode ingress.adjacency⟩)]
  | transit {current : NodeIdV2} {ingress nextHop : DirectedLinkV2} {rest : List NodeIdV2}
      {later : List (NodeIdV2 × LabelRouteV2)} (isEdge : ingress ∈ graph current)
      (isNext : nextHop ∈ graph current)
      (onward : Labelled graph routeEpoch routeLabel (current :: nextHop.peer :: rest) later) :
      Labelled graph routeEpoch routeLabel (ingress.peer :: current :: nextHop.peer :: rest)
        ((current, ⟨routeLabel, routeEpoch, .forward ingress.adjacency nextHop.adjacency⟩) :: later)

variable {nodeIds : List NodeIdV2} {graph : GraphV2} {routeEpoch : UInt32}
  {routeLabel : RouteLabelV2} {path : List NodeIdV2}

theorem GraphOk.directedLink (graphOk : GraphOk nodeIds graph)
    {edge : DirectedLinkV2} (isEdge : edge ∈ graph node) :
    directedLinkV2 graph node edge.peer = .ok edge := by
  unfold directedLinkV2
  cases found : (graph node).find? fun other => other.peer = edge.peer with
  | none => exact absurd (by simp) (find?_eq_none.mp found edge isEdge)
  | some other =>
    have samePeer : other.peer = edge.peer := by simpa using find?_some found
    rw [graphOk.peers node other (mem_of_find?_eq_some found) edge isEdge samePeer]

theorem exists_along (nonempty : path ≠ [])
    (linked : path.IsChain fun node next => ∃ edge ∈ graph node, edge.peer = next) :
    ∃ links, Along graph path links := by
  induction path with
  | nil => exact absurd rfl nonempty
  | cons node rest ih =>
  cases rest with
  | nil => exact ⟨[], .last node⟩
  | cons next rest =>
    rw [isChain_cons_cons] at linked
    obtain ⟨⟨edge, isEdge, rfl⟩, linked⟩ := linked
    obtain ⟨links, onward⟩ := ih (cons_ne_nil _ _) linked
    exact ⟨edge :: links, .hop isEdge onward⟩

theorem Along.pathLinks (graphOk : GraphOk nodeIds graph) (along : Along graph path links) :
    pathLinks graph path = .ok links := by
  induction along with
  | last node => rfl
  | hop isEdge onward ih =>
    rw [Routing.pathLinks, graphOk.directedLink isEdge, ok_bind, ih, ok_bind]

theorem exists_labelled (graphOk : GraphOk nodeIds graph) (routeEpoch : UInt32)
    (routeLabel : RouteLabelV2) {previous current : NodeIdV2}
    (linked : (previous :: current :: rest).IsChain fun node next => ∃ edge ∈ graph node,
      edge.peer = next) :
    ∃ entries, hopLabels graph routeEpoch routeLabel (previous :: current :: rest) = .ok entries ∧
      Labelled graph routeEpoch routeLabel (previous :: current :: rest) entries := by
  induction rest generalizing previous current with
  | nil =>
    rw [isChain_pair] at linked
    obtain ⟨edge, isEdge, rfl⟩ := linked
    obtain ⟨ingress, isIngress, rfl⟩ := graphOk.back previous edge isEdge
    refine ⟨_, ?_, .owner isIngress⟩
    rw [hopLabels, graphOk.directedLink isIngress, ok_bind]
  | cons next rest ih =>
  rw [isChain_cons_cons] at linked
  obtain ⟨⟨edge, isEdge, rfl⟩, linked⟩ := linked
  obtain ⟨ingress, isIngress, rfl⟩ := graphOk.back previous edge isEdge
  obtain ⟨later, labelled, onward⟩ := ih linked
  rw [isChain_cons_cons] at linked
  obtain ⟨⟨nextHop, isNext, rfl⟩, -⟩ := linked
  refine ⟨_, ?_, .transit isIngress isNext onward⟩
  rw [hopLabels, graphOk.directedLink isIngress, ok_bind, graphOk.directedLink isNext, ok_bind,
    labelled, ok_bind]

/-! ### One path -/

/-- What one compiled path consists of. -/
structure PathFacts (graph : GraphV2) (routeEpoch : UInt32) (plan : PathPlanV2)
    (compiled : CompiledPathV2) : Prop where
  source : compiled.source = plan.source
  labelled : Labelled graph routeEpoch compiled.routeLabel plan.path compiled.labels
  routed : ∃ first rest, Along graph plan.path (first :: rest) ∧
    compiled.prefixes = plan.prefixes.map fun network => {
      network
      route := {
        adjacency := first.adjacency
        routeLabel := compiled.routeLabel
        routeEpoch
        maximumDatagramSize := rest.foldl (fun least link => min least link.maximumDatagramSize)
          first.maximumDatagramSize }
      startupLatency := ((first :: rest).map fun link => link.cost.toNat).sum }

/-- A planned path joins two nodes and serves the prefixes of the second. -/
structure PlanOk (graph : GraphV2) (transitNodes : List NodeIdV2) (nodes : List TopologyNodeV2)
    (plan : PathPlanV2) (owner : TopologyNodeV2) : Prop where
  member : owner ∈ nodes
  different : plan.source ≠ owner.nodeId
  prefixes : plan.prefixes = sortByKey IpNet.key owner.advertisedPrefixes
  usable : UsablePath graph transitNodes plan.source owner.nodeId plan.path

variable {transitNodes : List NodeIdV2}

theorem UsablePath.two {source destination : NodeIdV2}
    (usable : UsablePath graph transitNodes source destination path)
    (different : source ≠ destination) : ∃ next rest, path = source :: next :: rest := by
  obtain ⟨rest, rfl⟩ := head?_eq_some_iff.mp usable.first
  cases rest with
  | nil => exact absurd (Option.some.inj usable.last) different
  | cons next rest => exact ⟨next, rest, rfl⟩

variable {plan : PathPlanV2} {nextRouteLabel : Nat}

theorem compilePath_eq_ok (graphOk : GraphOk nodeIds graph) {compiled : CompiledPathV2}
    {nodes : List TopologyNodeV2} {owner : TopologyNodeV2}
    (planOk : PlanOk graph transitNodes nodes plan owner)
    (built : compilePath graph routeEpoch nextRouteLabel plan = .ok compiled) :
    PathFacts graph routeEpoch plan compiled ∧
      compiled.routeLabel = UInt32.ofNat nextRouteLabel ∧ compiled.routeLabel ≠ 0 ∧
        nextRouteLabel ≤ maxRouteLabels := by
  obtain ⟨next, rest, isPath⟩ := planOk.usable.two planOk.different
  have linked := planOk.usable.linked
  obtain ⟨links, along⟩ := exists_along (by rw [isPath]; exact cons_ne_nil _ _) linked
  rw [isPath] at linked
  obtain ⟨entries, isEntries, labelled⟩ :=
    exists_labelled graphOk routeEpoch (UInt32.ofNat nextRouteLabel) linked
  rw [← isPath] at isEntries labelled
  simp only [compilePath, RouteLabelV2.new, do_eq_ok, along.pathLinks graphOk, and_assoc,
    exists_and_left, exists_eq_left'] at built
  obtain ⟨few, nonzero, -, route, resolved, labels, isLabels, rfl⟩ := built
  obtain rfl := Except.ok.inj (isEntries.symm.trans isLabels)
  refine ⟨⟨rfl, labelled, ?_⟩, rfl, nonzero, few⟩
  cases links with
  | nil => cases resolved
  | cons first rest =>
    obtain rfl := Except.ok.inj resolved
    exact ⟨first, rest, along, rfl⟩

/-! ### All paths -/

variable {plans : List PathPlanV2}

theorem compilePaths_eq_ok (graphOk : GraphOk nodeIds graph) {compiled : List CompiledPathV2}
    {nodes : List TopologyNodeV2}
    (plansOk : ∀ plan ∈ plans, ∃ owner, PlanOk graph transitNodes nodes plan owner)
    (built : compilePaths graph routeEpoch nextRouteLabel plans = .ok compiled) :
    (∀ path ∈ compiled, ∃ plan ∈ plans, PathFacts graph routeEpoch plan path) ∧
      compiled.map CompiledPathV2.routeLabel =
        (range' nextRouteLabel compiled.length).map UInt32.ofNat ∧
      (∀ path ∈ compiled, path.routeLabel ≠ 0) ∧
      (compiled ≠ [] → nextRouteLabel + compiled.length ≤ maxRouteLabels + 1) := by
  induction plans generalizing nextRouteLabel compiled with
  | nil =>
    simp only [compilePaths, Except.ok.injEq] at built
    subst built
    simp
  | cons plan rest ih =>
  rw [forall_mem_cons] at plansOk
  simp only [compilePaths, do_eq_ok] at built
  obtain ⟨first, isFirst, later, isLater, rfl⟩ := built
  obtain ⟨⟨owner, planOk⟩, othersOk⟩ := plansOk
  obtain ⟨facts, isLabel, nonzero, few⟩ := compilePath_eq_ok graphOk planOk isFirst
  obtain ⟨allFacts, labels, allNonzero, bounded⟩ := ih othersOk isLater
  refine ⟨forall_mem_cons.mpr ⟨⟨plan, mem_cons_self, facts⟩, ?_⟩, ?_, ?_, fun _ => ?_⟩
  · intro path member
    obtain ⟨other, isOther, otherFacts⟩ := allFacts path member
    exact ⟨other, mem_cons_of_mem _ isOther, otherFacts⟩
  · simp only [map_cons, length_cons, range'_succ, isLabel, labels]
  · exact forall_mem_cons.mpr ⟨nonzero, allNonzero⟩
  rw [length_cons]
  cases later with
  | nil =>
    simp only [length_nil]
    omega
  | cons second others =>
    have := bounded (cons_ne_nil _ _)
    omega

/-- Every label belongs to one path, and there are as many paths as labels fit a table. -/
structure LabelsOk (compiled : List CompiledPathV2) : Prop where
  distinct : (compiled.map CompiledPathV2.routeLabel).Nodup
  nonzero : ∀ path ∈ compiled, path.routeLabel ≠ 0
  few : compiled.length ≤ maxRouteLabels

section
variable (graphOk : GraphOk nodeIds graph) {nodes : List TopologyNodeV2}
include graphOk

theorem compilePaths_labels {compiled : List CompiledPathV2}
    (plansOk : ∀ plan ∈ plans, ∃ owner, PlanOk graph transitNodes nodes plan owner)
    (built : compilePaths graph routeEpoch 1 plans = .ok compiled) : LabelsOk compiled := by
  obtain ⟨-, labels, nonzero, bounded⟩ := compilePaths_eq_ok graphOk plansOk built
  have few : compiled.length ≤ maxRouteLabels := by
    cases compiled with
    | nil => exact Nat.zero_le _
    | cons first rest =>
      have := bounded (cons_ne_nil _ _)
      omega
  refine ⟨?_, nonzero, few⟩
  rw [labels]
  refine List.Nodup.map_on ?_ nodup_range'
  -- the labels are small enough to stay apart as machine words
  intro left inLeft right inRight same
  rw [mem_range'_1] at inLeft inRight
  unfold maxRouteLabels at few
  have small : ∀ value, value ≤ 65536 → (UInt32.ofNat value).toNat = value := fun value bound =>
    UInt32.toNat_ofNat_of_lt' (by simp only [UInt32.size]; omega)
  rw [← small left (by omega), ← small right (by omega), same]

theorem planPaths_ok {turns : Nat} (planned : plan ∈ planPaths turns graph transitNodes nodes) :
    ∃ owner, PlanOk graph transitNodes nodes plan owner := by
  simp only [planPaths, mem_flatMap, planOwner] at planned
  obtain ⟨source, -, owner, isOwner, planned⟩ := planned
  split at planned
  · cases planned
  rename_i different
  rw [not_or] at different
  obtain ⟨candidate, isCandidate, rfl⟩ := mem_map.mp planned
  exact ⟨owner, isOwner, different.1, rfl,
    candidatePaths_usable different.1 (graphOk.loopless source.nodeId) isCandidate⟩

end

/-! ### The tables of one node -/

def CompiledPathV2.labelsAt (node : NodeIdV2) (compiled : CompiledPathV2) : List LabelRouteV2 :=
  (compiled.labels.filter fun entry => entry.1 = node).map Prod.snd

def CompiledPathV2.prefixesAt (node : NodeIdV2) (compiled : CompiledPathV2) : List PrefixRouteV2 :=
  if compiled.source = node then compiled.prefixes else []

def partsOf (compiled : List CompiledPathV2) (node : NodeIdV2) : SnapshotPartsV2 where
  prefixes := compiled.flatMap (CompiledPathV2.prefixesAt node)
  labels := compiled.flatMap (CompiledPathV2.labelsAt node)

variable {selectedNode : Option NodeIdV2}

section
variable (isSelected : isSelected selectedNode node = true)
include isSelected

theorem addPrefixes_at (parts : PartsV2) (source : NodeIdV2) (prefixes : List PrefixRouteV2) :
    addPrefixes selectedNode parts source prefixes node =
      { parts node with
        prefixes := (parts node).prefixes ++ if source = node then prefixes else [] } := by
  unfold addPrefixes
  by_cases same : source = node
  · subst same
    rw [if_pos isSelected, Function.update_self, if_pos rfl]
  · simp only [if_neg same, append_nil]
    split
    · rw [Function.update_of_ne (Ne.symm same)]
    · rfl

theorem addLabel_at (parts : PartsV2) (entry : NodeIdV2 × LabelRouteV2) :
    addLabel selectedNode parts entry node =
      { parts node with
        labels := (parts node).labels ++ if entry.1 = node then [entry.2] else [] } := by
  unfold addLabel
  by_cases same : entry.1 = node
  · subst same
    rw [if_pos isSelected, Function.update_self, if_pos rfl]
  · simp only [if_neg same, append_nil]
    split
    · rw [Function.update_of_ne (Ne.symm same)]
    · rfl

theorem foldl_addLabel_at (entries : List (NodeIdV2 × LabelRouteV2)) (parts : PartsV2) :
    entries.foldl (addLabel selectedNode) parts node =
      { parts node with
        labels := (parts node).labels ++
          (entries.filter fun entry => entry.1 = node).map Prod.snd } := by
  induction entries generalizing parts with
  | nil => simp
  | cons entry rest ih =>
    rw [foldl_cons, ih, addLabel_at isSelected]
    by_cases same : entry.1 = node <;> simp [same]

/-- A selected node's tables hold what all paths have for it, whichever other nodes are selected. -/
theorem foldl_addPath_at (compiled : List CompiledPathV2) (parts : PartsV2) :
    compiled.foldl (addPath selectedNode) parts node =
      ⟨(parts node).prefixes ++ (partsOf compiled node).prefixes,
        (parts node).labels ++ (partsOf compiled node).labels⟩ := by
  induction compiled generalizing parts with
  | nil => simp [partsOf]
  | cons first rest ih =>
    rw [foldl_cons, ih, addPath, foldl_addLabel_at isSelected, addPrefixes_at isSelected]
    simp [partsOf, prefixesAt, labelsAt]

end

/-! ### The checks pass -/

namespace Labelled

variable {entries : List (NodeIdV2 × LabelRouteV2)}

section
variable (labelled : Labelled graph routeEpoch routeLabel path entries)
include labelled

theorem nodes : entries.map Prod.fst = path.tail := by
  induction labelled with
  | owner isEdge => rfl
  | transit isEdge isNext onward ih => rw [map_cons, ih, tail_cons, tail_cons]

theorem fields :
    ∀ entry ∈ entries, entry.2.routeLabel = routeLabel ∧ entry.2.routeEpoch = routeEpoch := by
  induction labelled with
  | owner isEdge => simp
  | transit isEdge isNext onward ih => exact forall_mem_cons.mpr ⟨⟨rfl, rfl⟩, ih⟩

variable (graphOk : GraphOk nodeIds graph)
include graphOk

theorem known : ∀ entry ∈ entries, entry.1 ∈ nodeIds := by
  -- a node with an edge is the peer of the edge back
  have isNode : ∀ node, ∀ edge ∈ graph node, node ∈ nodeIds := by
    intro node edge isEdge
    obtain ⟨back, isBack, rfl⟩ := graphOk.back node edge isEdge
    exact graphOk.nodes _ _ isBack
  induction labelled with
  | owner isEdge =>
    rw [forall_mem_singleton]
    exact isNode _ _ isEdge
  | transit isEdge isNext onward ih => exact forall_mem_cons.mpr ⟨isNode _ _ isEdge, ih⟩

/-- The neighbours of a transit node differ, and so do their adjacencies. -/
theorem actions (nodup : path.Nodup) : ∀ entry ∈ entries, checkAction entry.2.action = .ok () := by
  induction labelled with
  | owner isEdge =>
    simp only [forall_mem_singleton, checkAction_eq_ok_iff]
    exact graphOk.nonzero _ _ isEdge
  | transit isEdge isNext onward ih =>
  refine forall_mem_cons.mpr ⟨?_, ih (nodup_cons.mp nodup).2⟩
  refine checkAction_eq_ok_iff.mpr
    ⟨graphOk.nonzero _ _ isEdge, graphOk.nonzero _ _ isNext, fun same => ?_⟩
  have one := graphOk.adjacencies _ _ isEdge _ isNext same
  rw [one] at nodup
  simp at nodup

end

end Labelled

theorem Along.all (along : Along graph path links) : ∀ link ∈ links, ∃ node, link ∈ graph node := by
  induction along with
  | last node => simp
  | hop isEdge onward ih => exact forall_mem_cons.mpr ⟨⟨_, isEdge⟩, ih⟩

theorem min_cases (left right : UInt16) : (min left right = left ∧ left.toNat ≤ right.toNat) ∨
      (min left right = right ∧ right.toNat ≤ left.toNat) := by
  by_cases below : left ≤ right
  · exact .inl ⟨if_pos below, UInt16.le_iff_toNat_le.mp below⟩
  · refine .inr ⟨if_neg below, ?_⟩
    rw [UInt16.le_iff_toNat_le] at below
    omega

theorem foldl_min_spec (links : List DirectedLinkV2) (first least : UInt16)
    (isLeast : links.foldl (fun least link => min least link.maximumDatagramSize) first = least) :
    (least = first ∨ ∃ link ∈ links, least = link.maximumDatagramSize) ∧
      least.toNat ≤ first.toNat ∧ ∀ link ∈ links, least.toNat ≤ link.maximumDatagramSize.toNat := by
  induction links generalizing first with
  | nil =>
    subst isLeast
    simp
  | cons link rest ih =>
  obtain ⟨attained, below, belowAll⟩ := ih (min first link.maximumDatagramSize) isLeast
  rcases min_cases first link.maximumDatagramSize with ⟨isMin, order⟩ | ⟨isMin, order⟩
  · rw [isMin] at attained below
    refine ⟨attained.imp_right ?_, below, forall_mem_cons.mpr ⟨by omega, belowAll⟩⟩
    rintro ⟨other, inRest, isOther⟩
    exact ⟨other, mem_cons_of_mem _ inRest, isOther⟩
  rw [isMin] at attained below
  refine ⟨.inr ?_, by omega, forall_mem_cons.mpr ⟨below, belowAll⟩⟩
  rcases attained with isLink | ⟨other, inRest, isOther⟩
  · exact ⟨link, mem_cons_self, isLink⟩
  · exact ⟨other, mem_cons_of_mem _ inRest, isOther⟩

/-- What a path may add to tables. -/
structure PathOk (allowDefaultRoutes : Bool) (compiled : CompiledPathV2) : Prop where
  once : ∀ node, ((compiled.labelsAt node).map LabelRouteV2.routeLabel).Sublist
    [compiled.routeLabel]
  labels : ∀ entry ∈ compiled.labels, checkLabel entry.2 = .ok ()
  networks : ∀ entry ∈ compiled.prefixes, entry.network.addr = entry.network.network ∧
    (allowDefaultRoutes = true ∨ entry.network.prefixLen ≠ 0)
  routes : ∀ entry ∈ compiled.prefixes, checkPrefixRoute entry = .ok () ∧
    entry.route.routeLabel = compiled.routeLabel
  single : ∀ entry ∈ compiled.prefixes, ∀ other ∈ compiled.prefixes, entry.route = other.route

theorem labelsAt_once {compiled : CompiledPathV2} (nodup : (compiled.labels.map Prod.fst).Nodup)
    (labels : ∀ entry ∈ compiled.labels, entry.2.routeLabel = compiled.routeLabel)
    (node : NodeIdV2) :
    ((compiled.labelsAt node).map LabelRouteV2.routeLabel).Sublist [compiled.routeLabel] := by
  unfold labelsAt
  generalize compiled.labels = entries at nodup labels
  induction entries with
  | nil => simp
  | cons entry rest ih =>
  rw [map_cons, nodup_cons] at nodup
  rw [forall_mem_cons] at labels
  by_cases here : entry.1 = node
  · have none : rest.filter (fun other => other.1 = node) = [] := by
      refine filter_eq_nil_iff.mpr fun other member same => nodup.1 ?_
      rw [decide_eq_true_eq] at same
      exact mem_map.mpr ⟨other, member, same.trans here.symm⟩
    simp [here, none, labels.1]
  · simpa [here] using ih nodup.2 labels.2

theorem PathFacts.pathOk (graphOk : GraphOk nodeIds graph) (epochOk : routeEpoch ≠ 0)
    {allowDefaultRoutes : Bool} {nodes : List TopologyNodeV2}
    (checked : ∀ node ∈ nodes, checkNode allowDefaultRoutes node = .ok ()) {owner : TopologyNodeV2}
    (planOk : PlanOk graph transitNodes nodes plan owner) {compiled : CompiledPathV2}
    (labelOk : compiled.routeLabel ≠ 0) (facts : PathFacts graph routeEpoch plan compiled) :
    PathOk allowDefaultRoutes compiled := by
  obtain ⟨first, rest, along, isPrefixes⟩ := facts.routed
  have isLink := along.all
  rw [forall_mem_cons] at isLink
  obtain ⟨⟨start, isFirst⟩, others⟩ := isLink
  constructor
  · intro node
    -- the path has the node at most once
    have nodup : (compiled.labels.map Prod.fst).Nodup := by
      rw [facts.labelled.nodes]
      exact planOk.usable.nodup.sublist (tail_sublist _)
    exact labelsAt_once nodup (fun entry member => (facts.labelled.fields entry member).1) node
  · intro entry member
    obtain ⟨isLabel, isEpoch⟩ := facts.labelled.fields entry member
    refine checkLabel_eq_ok_iff.mpr ⟨isLabel ▸ labelOk, isEpoch ▸ epochOk, ?_⟩
    exact facts.labelled.actions graphOk planOk.usable.nodup entry member
  · intro entry member
    rw [isPrefixes, planOk.prefixes] at member
    obtain ⟨network, isNetwork, rfl⟩ := mem_map.mp member
    have advertised := checked owner planOk.member
    simp only [checkNode, do_eq_ok, validatePrefixSet_eq_ok_iff] at advertised
    exact advertised.1.1 network (mem_sortByKey.mp isNetwork)
  · intro entry member
    rw [isPrefixes] at member
    obtain ⟨network, -, rfl⟩ := mem_map.mp member
    refine ⟨checkPrefixRoute_eq_ok_iff.mpr ⟨graphOk.nonzero _ _ isFirst, labelOk, epochOk, ?_⟩, rfl⟩
    rcases (foldl_min_spec rest first.maximumDatagramSize _ rfl).1 with isMin |
      ⟨link, inRest, isMin⟩
    · rw [isMin]
      exact graphOk.size _ _ isFirst
    · rw [isMin]
      obtain ⟨node, isEdge⟩ := others link inRest
      exact graphOk.size _ _ isEdge
  intro entry member other member'
  rw [isPrefixes] at member member'
  obtain ⟨network, -, rfl⟩ := mem_map.mp member
  obtain ⟨network', -, rfl⟩ := mem_map.mp member'
  rfl

variable {allowDefaultRoutes : Bool} {compiled : List CompiledPathV2}

theorem labels_sublist (pathsOk : ∀ path ∈ compiled, PathOk allowDefaultRoutes path)
    (node : NodeIdV2) : ((partsOf compiled node).labels.map LabelRouteV2.routeLabel).Sublist
      (compiled.map CompiledPathV2.routeLabel) := by
  induction compiled with
  | nil => simp [partsOf]
  | cons first rest ih =>
    rw [forall_mem_cons] at pathsOk
    simp only [partsOf, flatMap_cons, map_append, map_cons] at ih ⊢
    exact (pathsOk.1.once node).append (ih pathsOk.2)

variable {generation : UInt64}

theorem compileSnapshot_ok (generationOk : generation ≠ 0)
    (labelsOk : LabelsOk compiled) (pathsOk : ∀ path ∈ compiled, PathOk allowDefaultRoutes path)
    {node : TopologyNodeV2} (checked : checkNode allowDefaultRoutes node = .ok ()) :
    ∃ snapshot, compileSnapshot generation allowDefaultRoutes (partsOf compiled) node =
      .ok snapshot := by
  have sublist := labels_sublist pathsOk node.nodeId
  have prefixesFrom : ∀ entry ∈ (partsOf compiled node.nodeId).prefixes,
      ∃ path ∈ compiled, entry ∈ path.prefixes := by
    intro entry member
    obtain ⟨path, isPath, here⟩ := mem_flatMap.mp member
    unfold prefixesAt at here
    split at here
    · exact ⟨path, isPath, here⟩
    · cases here
  simp only [checkNode, do_eq_ok] at checked
  refine DataplaneSnapshotV2.compile_ok generationOk ?_ checked.2 ?_
    (labelsOk.distinct.sublist sublist) ?_ ?_ ?_
  · have short := sublist.length_le
    rw [length_map, length_map] at short
    exact short.trans labelsOk.few
  · intro entry member
    obtain ⟨path, isPath, here⟩ := mem_flatMap.mp member
    obtain ⟨⟨_, entry⟩, inLabels, rfl⟩ := mem_map.mp here
    exact (pathsOk path isPath).labels _ (mem_filter.mp inLabels).1
  · intro entry member
    obtain ⟨path, isPath, inPrefixes⟩ := prefixesFrom entry member
    exact (pathsOk path isPath).networks entry inPrefixes
  · intro entry member
    obtain ⟨path, isPath, inPrefixes⟩ := prefixesFrom entry member
    exact ((pathsOk path isPath).routes entry inPrefixes).1
  intro entry member other member' _ sameLabel
  obtain ⟨path, isPath, inPrefixes⟩ := prefixesFrom entry member
  obtain ⟨path', isPath', inPrefixes'⟩ := prefixesFrom other member'
  -- one label, one path
  rw [((pathsOk path isPath).routes entry inPrefixes).2,
    ((pathsOk path' isPath').routes other inPrefixes').2] at sameLabel
  obtain rfl := inj_on_of_nodup_map labelsOk.distinct isPath isPath' sameLabel
  exact (pathsOk path isPath).single entry inPrefixes other inPrefixes'

/-! ### All nodes -/

variable {parts : PartsV2}

theorem compileSnapshots_ok {nodes : List TopologyNodeV2}
    (views : ∀ node ∈ nodes, ∃ snapshot, compileSnapshot generation allowDefaultRoutes parts node =
      .ok snapshot)
    (snapshots : HashMap NodeIdV2 DataplaneSnapshotV2) :
    ∃ final, compileSnapshots generation allowDefaultRoutes parts nodes snapshots = .ok final := by
  induction nodes generalizing snapshots with
  | nil => exact ⟨snapshots, rfl⟩
  | cons node rest ih =>
    rw [forall_mem_cons] at views
    obtain ⟨⟨snapshot, view⟩, others⟩ := views
    rw [compileSnapshots, view, ok_bind]
    exact ih others _

theorem compileSnapshots_lookup {nodes : List TopologyNodeV2}
    {snapshots final : HashMap NodeIdV2 DataplaneSnapshotV2}
    (built : compileSnapshots generation allowDefaultRoutes parts nodes snapshots = .ok final)
    (distinct : (nodes.map nodeId).Nodup) : (∀ node ∈ nodes, ∃ snapshot,
      compileSnapshot generation allowDefaultRoutes parts node = .ok snapshot ∧
        final.lookup node.nodeId = some snapshot) ∧
    ∀ nodeId ∉ nodes.map TopologyNodeV2.nodeId, final.lookup nodeId = snapshots.lookup nodeId := by
  induction nodes generalizing snapshots with
  | nil =>
    simp only [compileSnapshots, Except.ok.injEq] at built
    simp [built]
  | cons node rest ih =>
  simp only [compileSnapshots, bind_eq_ok] at built
  obtain ⟨snapshot, view, built⟩ := built
  rw [map_cons, nodup_cons] at distinct
  obtain ⟨views, kept⟩ := ih built distinct.2
  refine ⟨forall_mem_cons.mpr ⟨⟨snapshot, view, ?_⟩, views⟩, fun nodeId elsewhere => ?_⟩
  · rw [kept node.nodeId distinct.1, AList.lookup_insert]
  · rw [map_cons, mem_cons, not_or] at elsewhere
    rw [kept nodeId elsewhere.2, AList.lookup_insert_ne elsewhere.1]

theorem compileSnapshot_selected
    {node : TopologyNodeV2} (selected : isSelected selectedNode node.nodeId = true) :
    compileSnapshot generation allowDefaultRoutes
        (compiled.foldl (addPath selectedNode) fun _ => {}) node =
      compileSnapshot generation allowDefaultRoutes (partsOf compiled) node := by
  unfold compileSnapshot
  rw [foldl_addPath_at selected]
  simp

/-! ### The passes -/

def transitNodesOf (nodes : List TopologyNodeV2) : List NodeIdV2 :=
  (nodes.filter TopologyNodeV2.transitEnabled).map TopologyNodeV2.nodeId

section
variable {generation : UInt64} {nodes : List TopologyNodeV2} {turns : Nat}
  {selectedNode : Option NodeIdV2}

theorem compileChecked_eq_ok {topology : CompiledTopologyV2} (distinct : (nodes.map nodeId).Nodup)
    (built : compileChecked generation routeEpoch nodes turns graph allowDefaultRoutes
      selectedNode =
      .ok topology) : ∃ compiled, compilePaths graph routeEpoch 1
        (planPaths turns graph (transitNodesOf nodes) nodes) = .ok compiled ∧
      ∀ node ∈ nodes, isSelected selectedNode node.nodeId = true → ∃ snapshot,
        compileSnapshot generation allowDefaultRoutes (partsOf compiled) node = .ok snapshot ∧
          topology.snapshot node.nodeId = some snapshot := by
  simp only [compileChecked, do_eq_ok] at built
  obtain ⟨compiled, paths, snapshots, built, rfl⟩ := built
  refine ⟨compiled, paths, fun node member selected => ?_⟩
  have chosen : ((nodes.filter fun node => isSelected selectedNode node.nodeId).map
      TopologyNodeV2.nodeId).Nodup := distinct.sublist (filter_sublist.map _)
  obtain ⟨snapshot, view, found⟩ := (compileSnapshots_lookup built chosen).1 node
    (mem_filter.mpr ⟨member, selected⟩)
  exact ⟨snapshot, (compileSnapshot_selected selected).symm.trans view, found⟩

theorem compileChecked_ok (paths : compilePaths graph routeEpoch 1
      (planPaths turns graph (transitNodesOf nodes) nodes) = .ok compiled)
    (views : ∀ node ∈ nodes, isSelected selectedNode node.nodeId = true → ∃ snapshot,
      compileSnapshot generation allowDefaultRoutes (partsOf compiled) node = .ok snapshot) :
    ∃ topology, compileChecked generation routeEpoch nodes turns graph allowDefaultRoutes
      selectedNode = .ok topology := by
  obtain ⟨final, built⟩ := compileSnapshots_ok (fun node member => by
      obtain ⟨inNodes, selected⟩ := mem_filter.mp member
      rw [compileSnapshot_selected selected]
      exact views node inNodes selected) ∅
  change ∃ topology, (compilePaths graph routeEpoch 1
    (planPaths turns graph (transitNodesOf nodes) nodes) >>= _) = _
  rw [paths, ok_bind]
  dsimp only
  rw [built]
  exact ⟨_, rfl⟩

end
end Ironet.Routing
