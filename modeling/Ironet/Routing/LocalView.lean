import Ironet.Routing.Compiled
import Ironet.Routing.Order

/-!
# The view of one node

A node compiles its own view without the tables of the others. The passes allocate the same labels
either way, and the tables of the other nodes could not have failed.
-/
namespace Ironet.Routing
open Support Ironet.Mesh TopologyNodeV2

/-- What the checks and passes of a compilation leave for its snapshots. -/
structure Compilation (generation : UInt64) (routeEpoch : UInt32) (nodes : List TopologyNodeV2)
    (links : List TopologyLinkV2) (allowDefaultRoutes : Bool) (compiled : List CompiledPathV2) :
    Prop where
  generationOk : generation ≠ 0
  epochOk : routeEpoch ≠ 0
  nodesOk : NodesOk allowDefaultRoutes nodes
  linksOk : LinksOk (nodes.map nodeId) links
  paths : compilePaths (graphOf links) routeEpoch 1
    (planPaths (searchTurns links) (graphOf links) (transitNodesOf (sortByKey nodeId nodes))
      (sortByKey nodeId nodes)) = .ok compiled

namespace Compilation

variable {generation : UInt64} {routeEpoch : UInt32} {nodes : List TopologyNodeV2}
  {links : List TopologyLinkV2} {allowDefaultRoutes : Bool} {compiled : List CompiledPathV2}

section
variable (compilation : Compilation generation routeEpoch nodes links allowDefaultRoutes compiled)
include compilation

theorem sortedNodes : NodesOk allowDefaultRoutes (sortByKey nodeId nodes) :=
  compilation.nodesOk.perm (sortByKey_perm _ _).symm

theorem plansOk {plan : PathPlanV2} (planned : plan ∈ planPaths (searchTurns links) (graphOf links)
      (transitNodesOf (sortByKey nodeId nodes)) (sortByKey nodeId nodes)) :
    ∃ owner, PlanOk (graphOf links) (transitNodesOf (sortByKey nodeId nodes))
      (sortByKey nodeId nodes) plan owner :=
  planPaths_ok compilation.linksOk.graphOk planned

theorem facts {path : CompiledPathV2} (member : path ∈ compiled) :
    ∃ plan owner, PathFacts (graphOf links) routeEpoch plan path ∧
      PlanOk (graphOf links) (transitNodesOf (sortByKey nodeId nodes))
        (sortByKey nodeId nodes) plan owner := by
  obtain ⟨facts, -⟩ := compilePaths_eq_ok compilation.linksOk.graphOk
    (fun _ => compilation.plansOk) compilation.paths
  obtain ⟨plan, planned, isPlan⟩ := facts path member
  obtain ⟨owner, planOk⟩ := compilation.plansOk planned
  exact ⟨plan, owner, isPlan, planOk⟩

theorem labels : LabelsOk compiled :=
  compilePaths_labels compilation.linksOk.graphOk (fun _ => compilation.plansOk) compilation.paths

theorem view {node : TopologyNodeV2} (member : node ∈ nodes) :
    ∃ snapshot, compileSnapshot generation allowDefaultRoutes (partsOf compiled) node =
      .ok snapshot := by
  refine compileSnapshot_ok compilation.generationOk compilation.labels (fun path isPath => ?_)
    (compilation.nodesOk.checked node member)
  obtain ⟨plan, owner, facts, planOk⟩ := compilation.facts isPath
  exact facts.pathOk compilation.linksOk.graphOk compilation.epochOk
    compilation.sortedNodes.checked planOk (compilation.labels.nonzero path isPath)

theorem permissive : Compilation generation routeEpoch nodes links true compiled :=
  { compilation with
    nodesOk := {
      compilation.nodesOk with
      checked := fun node member => by
        have checked := compilation.nodesOk.checked node member
        simp only [checkNode, do_eq_ok] at checked ⊢
        exact ⟨validatePrefixSet_permissive checked.1, checked.2⟩ } }

theorem perm {nodes' : List TopologyNodeV2} (same : nodes.Perm nodes') :
    Compilation generation routeEpoch nodes' links allowDefaultRoutes compiled where
  generationOk := compilation.generationOk
  epochOk := compilation.epochOk
  nodesOk := compilation.nodesOk.perm same
  linksOk := (linksOk_reordered_iff (same.map _) ⟨links, List.forall₂_same.mpr
    fun _ _ => .inl rfl, .refl _⟩).mp compilation.linksOk
  paths := by
    rw [← compilation.nodesOk.sorted same]
    exact compilation.paths

end

end Compilation

variable {generation : UInt64} {routeEpoch : UInt32} {nodes : List TopologyNodeV2}
  {links : List TopologyLinkV2} {allowDefaultRoutes : Bool}

theorem compileSelected_eq_ok {selectedNode : Option NodeIdV2} {topology : CompiledTopologyV2}
    (built : compileTopologySelectedV2 generation routeEpoch nodes links allowDefaultRoutes
      selectedNode = .ok topology) :
    ∃ compiled, Compilation generation routeEpoch nodes links allowDefaultRoutes compiled ∧
      ∀ node ∈ nodes, isSelected selectedNode node.nodeId = true → ∃ snapshot,
        compileSnapshot generation allowDefaultRoutes (partsOf compiled) node = .ok snapshot ∧
          topology.snapshot node.nodeId = some snapshot := by
  obtain ⟨⟨generationOk, epochOk, -, nodesOk, linksOk⟩, -, passed⟩ :=
    compileSelected_eq_ok_iff.mp built
  obtain ⟨compiled, paths, views⟩ := compileChecked_eq_ok
    (nodesOk.perm (sortByKey_perm _ _).symm).distinct passed
  refine ⟨compiled, ⟨generationOk, epochOk, nodesOk, linksOk, paths⟩, fun node member => ?_⟩
  exact views node (mem_sortByKey.mpr member)

theorem compileSelected_ok {compiled : List CompiledPathV2}
    (compilation : Compilation generation routeEpoch nodes links allowDefaultRoutes compiled)
    (nonempty : nodes ≠ []) (selectedNode : Option NodeIdV2)
    (present : ∀ selected ∈ selectedNode, selected ∈ nodes.map nodeId) :
    ∃ topology, compileTopologySelectedV2 generation routeEpoch nodes links allowDefaultRoutes
      selectedNode = .ok topology := by
  obtain ⟨topology, passed⟩ := compileChecked_ok compilation.paths
    fun node member _ => compilation.view (mem_sortByKey.mp member)
  exact ⟨topology, compileSelected_eq_ok_iff.mpr ⟨⟨compilation.generationOk, compilation.epochOk,
    nonempty, compilation.nodesOk, compilation.linksOk⟩, present, passed⟩⟩

theorem compileLocal_eq_ok {localNode : NodeIdV2} {snapshot : DataplaneSnapshotV2}
    (built : compileLocalSnapshotV2 generation routeEpoch nodes links allowDefaultRoutes localNode =
      .ok snapshot) :
    ∃ compiled, Compilation generation routeEpoch nodes links allowDefaultRoutes compiled ∧
      ∃ node ∈ nodes, node.nodeId = localNode ∧
        compileSnapshot generation allowDefaultRoutes (partsOf compiled) node = .ok snapshot := by
  simp only [compileLocalSnapshotV2, bind_eq_ok] at built
  obtain ⟨topology, passed, found⟩ := built
  obtain ⟨compiled, compilation, views⟩ := compileSelected_eq_ok passed
  obtain ⟨-, present, -⟩ := compileSelected_eq_ok_iff.mp passed
  obtain ⟨node, member, isLocal⟩ := List.mem_map.mp (present localNode rfl)
  obtain ⟨view, isView, isSnapshot⟩ := views node member (by simp [isSelected, isLocal])
  rw [← isLocal, isSnapshot] at found
  obtain rfl := Except.ok.inj found
  exact ⟨compiled, compilation, node, member, isLocal, isView⟩

/-- The snapshot that a node compiles for itself is its snapshot in the full compilation, and the
one succeeds whenever the other does. -/
theorem local_compile_eq_full (generation : UInt64) (routeEpoch : UInt32)
    (nodes : List TopologyNodeV2) (links : List TopologyLinkV2) (allowDefaultRoutes : Bool)
    (localNode : NodeIdV2) (present : localNode ∈ nodes.map nodeId) :
    (compileLocalSnapshotV2 generation routeEpoch nodes links allowDefaultRoutes
        localNode).toOption.isSome =
      (compileTopologyV2 generation routeEpoch nodes links allowDefaultRoutes).toOption.isSome ∧
    (compileLocalSnapshotV2 generation routeEpoch nodes links allowDefaultRoutes
        localNode).toOption =
      (compileTopologyV2 generation routeEpoch nodes links allowDefaultRoutes).toOption.bind
        fun topology => topology.snapshot localNode := by
  obtain ⟨node, member, rfl⟩ := List.mem_map.mp present
  have nonempty : nodes ≠ [] := List.ne_nil_of_mem member
  have selectsOwn : isSelected (some node.nodeId) node.nodeId = true := by simp [isSelected]
  have here : ∀ selected ∈ some node.nodeId, selected ∈ nodes.map nodeId := by
    rintro _ ⟨⟩
    exact present
  -- a compilation of either kind yields the other, with one list of paths
  have both :
      ∀ compiled, Compilation generation routeEpoch nodes links allowDefaultRoutes compiled →
      ∃ snapshot topology, compileLocalSnapshotV2 generation routeEpoch nodes links
          allowDefaultRoutes node.nodeId = .ok snapshot ∧
        compileTopologyV2 generation routeEpoch nodes links allowDefaultRoutes = .ok topology ∧
          topology.snapshot node.nodeId = some snapshot := by
    intro compiled compilation
    obtain ⟨own, ownBuilt⟩ := compileSelected_ok compilation nonempty (some node.nodeId) here
    obtain ⟨full, fullBuilt⟩ := compileSelected_ok compilation nonempty none (by rintro _ ⟨⟩)
    obtain ⟨ownCompiled, ownCompilation, ownViews⟩ := compileSelected_eq_ok ownBuilt
    obtain ⟨fullCompiled, fullCompilation, fullViews⟩ := compileSelected_eq_ok fullBuilt
    obtain rfl := Except.ok.inj (ownCompilation.paths.symm.trans fullCompilation.paths)
    obtain ⟨snapshot, view, ownFound⟩ := ownViews node member selectsOwn
    obtain ⟨snapshot', view', fullFound⟩ := fullViews node member rfl
    obtain rfl := Except.ok.inj (view.symm.trans view')
    refine ⟨snapshot, full, ?_, fullBuilt, fullFound⟩
    rw [compileLocalSnapshotV2, ownBuilt, ok_bind, ownFound]
  cases full : compileTopologyV2 generation routeEpoch nodes links allowDefaultRoutes with
  | ok topology =>
    obtain ⟨compiled, compilation, -⟩ := compileSelected_eq_ok full
    obtain ⟨snapshot, topology', isLocal, isFull, found⟩ := both compiled compilation
    obtain rfl := Except.ok.inj (full.symm.trans isFull)
    rw [isLocal]
    exact ⟨rfl, found.symm⟩
  | error message =>
  have fails : (compileLocalSnapshotV2 generation routeEpoch nodes links allowDefaultRoutes
      node.nodeId).toOption = none := by
    cases isLocal : compileLocalSnapshotV2 generation routeEpoch nodes links allowDefaultRoutes
        node.nodeId with
    | error other => rfl
    | ok snapshot =>
    simp only [compileLocalSnapshotV2, bind_eq_ok] at isLocal
    obtain ⟨topology, built, -⟩ := isLocal
    obtain ⟨compiled, compilation, -⟩ := compileSelected_eq_ok built
    obtain ⟨_, _, _, isFull, _⟩ := both compiled compilation
    cases full.symm.trans isFull
  rw [fails]
  exact ⟨rfl, rfl⟩

/-- The relay compiles its own view of the topology that it is part of. -/
theorem local_compile_eq_full_relay :
    (compileLocalSnapshotV2 1 7 [sourceNode, relayNode, ownerNode] [sourceLink, ownerLink] false
        (.ofNat 2)).toOption.isSome = true ∧
      (compileLocalSnapshotV2 1 7 [sourceNode, relayNode, ownerNode] [sourceLink, ownerLink] false
          (.ofNat 2)).toOption =
        (compileTopologyV2 1 7 [sourceNode, relayNode, ownerNode] [sourceLink, ownerLink]
          false).toOption.bind fun topology => topology.snapshot (.ofNat 2) :=
  ⟨by decide, (local_compile_eq_full 1 7 _ _ false (.ofNat 2) (by decide)).2⟩

end Ironet.Routing
