import Ironet.Mesh.Control
import Ironet.Routing.Delivery
import Ironet.Routing.Transit

/-!
# Agreement on routes

Nodes that hold the same records compile the same topology, whatever order the records came in. The
route epoch is another matter: it is the node's own count of structural batches, so it also depends
on how the records were batched. Where the counts agree, all nodes hold parts of one topology, and a
Cell that the source stamped is known to every node on its path.
-/
namespace Ironet.Mesh
open Support Ironet.Routing Ironet.Cell SignedPresenceV2 List

theorem dispatchCell_known {snapshot : DataplaneSnapshotV2} {entry : LabelRouteV2} {cell : CellV2}
    (found : snapshot.labels.lookup cell.routeLabel = some entry)
    (isEpoch : entry.routeEpoch = cell.sessionEpoch) {bytes : Bytes}
    (decoded : CellV2.decode bytes = .ok cell) {incoming : AdjacencyIdV2}
    {disposition : TransitDispositionV2}
    (dispatched : snapshot.dispatchCell incoming bytes = .ok disposition) :
    disposition.unanswered = false := by
  obtain ⟨valid, rfl, fits⟩ := (CellV2.decode_ok_iff _ _).mp decoded
  obtain ⟨nonzero, -⟩ := dispatchCell_cases dispatched
  rw [dispatchCell_of_label valid fits nonzero found isEpoch] at dispatched
  exact dispatchAction_answered dispatched

section
variable [Iroh]

/-! ### The part of a record that the topology is made of -/

structure TopologyPart where
  owner : EndpointId
  directAddresses : List SocketAddr
  advertised : List IpNet
  links : List PresenceLinkV2
  transitEnabled : Bool

def SignedPresenceV2.part (self : SignedPresenceV2) : TopologyPart where
  owner := self.body.owner
  directAddresses := self.body.directAddresses
  advertised := self.body.advertised
  links := self.body.links
  transitEnabled := self.body.transitEnabled

/-- The maps agree on who is there and on the part of every record. -/
def SameParts (records records' : PresenceRecords) : Prop :=
  ∀ owner, (records.lookup owner).map part = (records'.lookup owner).map part

namespace SameParts

variable {records records' : PresenceRecords}

section
variable (same : SameParts records records')
include same

theorem values_perm (order order' : RecordOrder) : ((records.values order).map part).Perm
      ((records'.values order').map part) := by
  rw [PresenceRecords.values, PresenceRecords.values, map_map, map_map]
  refine ((order.perm _).map _).trans (.trans ?_ ((order'.perm _).map _).symm)
  exact HashMap.map_values_perm part same

theorem size_eq : records.size = records'.size := by
  have lengths := (HashMap.map_values_perm part same).length_eq
  rwa [length_map, length_map] at lengths

theorem exclusionsOf_eq (order order' : RecordOrder) :
    exclusionsOf (records.values order) = exclusionsOf (records'.values order') := by
  have addresses := (same.values_perm order order').flatMap_right fun part =>
    part.directAddresses.map fun address => IpNet.host address.ip
  rw [flatMap_map, flatMap_map] at addresses
  rw [exclusionsOf, exclusionsOf, sortedPrefixes, sortedPrefixes]
  exact congrArg _ (sortByKey_congr addresses fun _ _ _ _ sameKey => IpNet.key_injective sameKey)

theorem nodes_perm (order order' : RecordOrder) (exclusions : List IpNet) :
    ((records.values order).map (topologyNode exclusions)).Perm
      ((records'.values order').map (topologyNode exclusions)) := by
  have nodes := (same.values_perm order order').map fun part =>
    (⟨part.owner.key, part.advertised, part.transitEnabled, exclusions⟩ : TopologyNodeV2)
  rwa [map_map, map_map] at nodes

theorem owners_perm : (records.entries.map Sigma.fst).Perm (records'.entries.map Sigma.fst) := by
  refine (perm_ext_iff_of_nodup records.nodupKeys records'.nodupKeys).mpr fun owner => ?_
  change owner ∈ records ↔ owner ∈ records'
  rw [← AList.lookup_isSome, ← AList.lookup_isSome]
  have lookups := congrArg Option.isSome (same owner)
  rw [Option.isSome_map, Option.isSome_map] at lookups
  rw [lookups]

end

variable [Blake3]

theorem topologyLinks_eq (same : SameParts records records') :
    topologyLinks records = topologyLinks records' := by
  have owners : sortByKey id (records.entries.map Sigma.fst) =
      sortByKey id (records'.entries.map Sigma.fst) :=
    sortByKey_congr same.owners_perm fun _ _ _ _ sameKey => sameKey
  have links : ∀ owner, (records.lookup owner).map (fun record => record.body.links) =
      (records'.lookup owner).map fun record => record.body.links := by
    intro owner
    have parts := congrArg (Option.map TopologyPart.links) (same owner)
    rwa [Option.map_map, Option.map_map] at parts
  have link : topologyLink records = topologyLink records' := by
    funext left right
    have ofLeft := links left
    have ofRight := links right
    cases leftFound : records.lookup left <;> cases leftFound' : records'.lookup left <;>
      cases rightFound : records.lookup right <;> cases rightFound' : records'.lookup right <;>
      simp_all [topologyLink]
  rw [topologyLinks, topologyLinks, owners, link]

end SameParts

variable [Blake3]

theorem PresenceDirectoryV2.topologyInput_eq_ok {self : PresenceDirectoryV2} {now : SystemTime}
    {order : RecordOrder} {input : List TopologyNodeV2 × List TopologyLinkV2}
    (ok : self.topologyInput now order = .ok input) :
    input.1 = ((fresh self.records (secsOf now)).values order).map
        (topologyNode (exclusionsOf ((fresh self.records (secsOf now)).values order))) ∧
      input.2 = topologyLinks (fresh self.records (secsOf now)) := by
  simp only [topologyInput, prune, do_eq_ok, unixSecs_eq_ok_iff] at ok
  obtain ⟨_, ⟨secs, ⟨-, rfl⟩, rfl⟩, -, rfl⟩ := ok
  exact ⟨rfl, rfl⟩

/-! ### Runs of the nodes -/

/-- A node from its start to the view it compiles for its latest request. -/
structure MeshRunV2 (networkId : String) where
  node : MeshNodeV2
  start : MeshControlV2
  batches : List PresenceBatch
  final : MeshControlV2
  request : TopologyCompileRequestV2
  compiledAt : SystemTime
  order : RecordOrder
  snapshot : DataplaneSnapshotV2
  started : ∃ localPresence now order,
    MeshControlV2.start networkId localPresence now order = .ok start
  ran : node.run start batches = .ok final
  requested : final.request = some request
  compiled : request.compile compiledAt order = .ok snapshot

namespace MeshRunV2

variable {networkId : String} (run : MeshRunV2 networkId)

def held : PresenceRecords :=
  PresenceDirectoryV2.fresh run.request.directory.records (secsOf run.compiledAt)

def structuralBatches (run : MeshRunV2 networkId) : Nat :=
  run.node.structuralBatches run.start run.batches

variable (run : MeshRunV2 networkId)

theorem current : run.node.Current run.final run.request := by
  obtain ⟨presence, now, order, started⟩ := run.started
  simp only [MeshControlV2.start, do_eq_ok] at started
  obtain ⟨directory, -, inserted, -, isStart⟩ := started
  refine MeshNodeV2.run_current ?_ run.ran run.request run.requested
  rw [← isStart]
  rintro _ ⟨⟩

theorem generation : run.final.generation = 1 + run.structuralBatches := by
  obtain ⟨presence, now, order, started⟩ := run.started
  simp only [MeshControlV2.start, do_eq_ok] at started
  obtain ⟨directory, -, inserted, -, isStart⟩ := started
  rw [MeshNodeV2.run_generation run.ran, structuralBatches, ← isStart]

/-- The epochs of two nodes agree exactly when their counts do. -/
theorem routeEpoch_eq_iff (run other : MeshRunV2 networkId) :
    run.request.routeEpoch = other.request.routeEpoch ↔
      run.structuralBatches = other.structuralBatches := by
  have small := run.current.small
  have small' := other.current.small
  rw [run.current.routeEpoch, other.current.routeEpoch, ← UInt32.toNat_inj,
    UInt32.toNat_ofNat_of_lt' small, UInt32.toNat_ofNat_of_lt' small', run.generation,
    other.generation, Nat.add_left_cancel_iff]

def nodes : List TopologyNodeV2 :=
  (run.held.values run.order).map (topologyNode (exclusionsOf (run.held.values run.order)))

def links : List TopologyLinkV2 := topologyLinks run.held

theorem nodes_perm {run other : MeshRunV2 networkId}
    (same : SameParts run.held other.held) : run.nodes.Perm other.nodes := by
  rw [nodes, nodes, same.exclusionsOf_eq run.order other.order]
  exact same.nodes_perm run.order other.order _

theorem view :
    ∃ compiled, Compilation run.request.generation run.request.routeEpoch run.nodes run.links true
        compiled ∧
      ∃ node ∈ run.nodes, node.nodeId = run.node.localId.key ∧
        compileSnapshot run.request.generation true (partsOf compiled) node = .ok run.snapshot := by
  have isCompiled := run.compiled
  simp only [TopologyCompileRequestV2.compile, PresenceDirectoryV2.compileLocalSnapshot,
    bind_eq_ok] at isCompiled
  obtain ⟨input, isInput, built⟩ := isCompiled
  obtain ⟨isNodes, isLinks⟩ := PresenceDirectoryV2.topologyInput_eq_ok isInput
  rw [isNodes, isLinks, run.current.localId] at built
  obtain ⟨compiled, compilation, node, member, isLocal, isView⟩ := compileLocal_eq_ok built
  exact ⟨compiled, compilation.permissive, node, member, isLocal,
    DataplaneSnapshotV2.compile_permissive isView⟩

theorem view_of_agreement {run other : MeshRunV2 networkId}
    (same : ∀ owner, run.held.lookup owner = other.held.lookup owner)
    (counts : run.structuralBatches = other.structuralBatches) {compiled : List CompiledPathV2}
    (compilation : Compilation other.request.generation other.request.routeEpoch other.nodes
      other.links true compiled) : ∃ node ∈ other.nodes, node.nodeId = run.node.localId.key ∧
      compileSnapshot other.request.generation true (partsOf compiled) node = .ok run.snapshot := by
  have generations : run.request.generation = other.request.generation := by
    rw [run.current.generation, other.current.generation, run.generation, other.generation, counts]
  obtain ⟨own, ownCompilation, node, member, isLocal, isView⟩ := run.view
  have parts : SameParts run.held other.held := fun owner => by rw [same owner]
  have moved := ownCompilation.perm (nodes_perm parts)
  rw [links, parts.topologyLinks_eq, generations, (run.routeEpoch_eq_iff other).mpr counts] at moved
  obtain rfl := Except.ok.inj (moved.paths.symm.trans compilation.paths)
  exact ⟨node, (nodes_perm parts).mem_iff.mp member, isLocal, generations ▸ isView⟩

/-! ### What agreement gives -/

/-- The runs carry one route epoch, and no node of a compiled path drops a Cell of that path for its
epoch or its label. -/
structure Agreement (runs : List (MeshRunV2 networkId)) : Prop where
  epochs : ∀ run ∈ runs, ∀ other ∈ runs, run.request.routeEpoch = other.request.routeEpoch
  carried : ∀ run ∈ runs, ∀ epoch ∈ run.snapshot.routeEpochs, epoch = run.request.routeEpoch
  known : ∀ source ∈ runs, ∀ destination route,
    source.snapshot.lookupDestination destination = .ok route →
      ∃ topology startupLatency hops,
        (∀ run ∈ runs, topology.snapshot run.node.localId.key = some run.snapshot) ∧
        Delivery topology source.nodes source.links source.node.localId.key destination route
          startupLatency hops ∧
        ∀ run ∈ runs, run.node.localId.key ∈ hops.map Prod.snd →
          ∀ incoming bytes cell, CellV2.decode bytes = .ok cell →
            cell.sessionEpoch = route.routeEpoch → cell.routeLabel = route.routeLabel →
              run.snapshot.dispatchCell incoming bytes ≠ .ok (.drop .staleRouteEpoch) ∧
                run.snapshot.dispatchCell incoming bytes ≠ .ok (.drop .unknownLabel)

theorem carried_epoch : ∀ epoch ∈ run.snapshot.routeEpochs, epoch = run.request.routeEpoch := by
  obtain ⟨compiled, compilation, node, member, -, isView⟩ := run.view
  refine DataplaneSnapshotV2.compile_routeEpochs isView ?_ ?_
  · intro entry isEntry
    obtain ⟨path, isPath, here⟩ := mem_flatMap.mp isEntry
    obtain ⟨labelled, inLabels, rfl⟩ := mem_map.mp here
    obtain ⟨plan, owner, facts, -⟩ := compilation.facts isPath
    exact (facts.labelled.fields labelled (mem_filter.mp inLabels).1).2
  intro entry isEntry
  obtain ⟨path, isPath, here⟩ := mem_flatMap.mp isEntry
  obtain ⟨plan, owner, facts, -⟩ := compilation.facts isPath
  obtain ⟨first, rest, -, isPrefixes⟩ := facts.routed
  unfold CompiledPathV2.prefixesAt at here
  split at here
  · rw [isPrefixes] at here
    obtain ⟨network, -, rfl⟩ := mem_map.mp here
    rfl
  · cases here

/-- Nodes that hold the same records agree on their routes exactly when they have seen the same
number of structural batches. -/
theorem mesh_route_agreement (networkId : String) (runs : List (MeshRunV2 networkId))
    (same : ∀ run ∈ runs, ∀ other ∈ runs, ∀ owner,
      run.held.lookup owner = other.held.lookup owner) : Agreement runs ↔
      ∀ run ∈ runs, ∀ other ∈ runs, run.structuralBatches = other.structuralBatches := by
  constructor
  · intro agreement run inRuns other inOthers
    exact (run.routeEpoch_eq_iff other).mp (agreement.epochs run inRuns other inOthers)
  intro counts
  refine ⟨?_, fun run _ => run.carried_epoch, ?_⟩
  · intro run inRuns other inOthers
    exact (run.routeEpoch_eq_iff other).mpr (counts run inRuns other inOthers)
  intro source inRuns destination route found
  obtain ⟨compiled, compilation, own, isOwn, isLocal, isView⟩ := source.view
  have nonempty : source.nodes ≠ [] := ne_nil_of_mem isOwn
  obtain ⟨topology, built⟩ := compileSelected_ok compilation nonempty none (by rintro _ ⟨⟩)
  obtain ⟨again, compilation', views⟩ := compileSelected_eq_ok built
  obtain rfl := Except.ok.inj (compilation'.paths.symm.trans compilation.paths)
  -- every run's view is its part of the source's compilation
  have snapshots : ∀ run ∈ runs, topology.snapshot run.node.localId.key =
      some run.snapshot := by
    intro run inRuns'
    obtain ⟨node, member, isNode, isPart⟩ := view_of_agreement
      (same run inRuns' source inRuns) (counts run inRuns' source inRuns) compilation
    obtain ⟨snapshot, isSnapshot, isFound⟩ := views node member rfl
    rw [← isNode, isFound, Except.ok.inj (isSnapshot.symm.trans isPart)]
  obtain ⟨index, -⟩ := DataplaneSnapshotV2.compile_eq_ok isView
  obtain ⟨entry, inPrefixes, holds, rfl⟩ :=
    DataplaneSnapshotV2.lookupDestination_eq_ok index found
  obtain ⟨hops, delivery, isEpoch, knows⟩ := compilation.delivers
    (fun node member => views node member rfl) inPrefixes holds
  rw [isLocal] at delivery
  refine ⟨topology, _, hops, snapshots, delivery, ?_⟩
  intro run inRuns' onPath incoming bytes cell decoded cellEpoch cellLabel
  obtain ⟨hop, inHops, isNode⟩ := mem_map.mp onPath
  obtain ⟨snapshot, label, isSnapshot, labelFound, labelEpoch⟩ := knows hop inHops
  rw [isNode, snapshots run inRuns'] at isSnapshot
  obtain rfl := Option.some.inj isSnapshot
  rw [← cellLabel] at labelFound
  have current : label.routeEpoch = cell.sessionEpoch := by
    rw [labelEpoch, cellEpoch, isEpoch]
  constructor
  all_goals
    intro dropped
    cases dispatchCell_known labelFound current decoded dropped

end MeshRunV2
end

/-! ### Two ways to batch -/

section
attribute [local instance] openIroh constantBlake3

/-- The record of a node with healthy links to some peers. -/
def meshPresence (owner : Nat) (prefixes : List IpNet) (peers : List Nat) : SignedPresenceV2 where
  body := {
    owner := exampleId owner
    sequence := 1
    issuedUnixSecs := 1000
    expiresUnixSecs := 1500
    directAddresses := []
    nodeAddresses := []
    prefixes
    links := peers.map fun peer => ⟨exampleId peer, 10, true, 1400⟩
    transitEnabled := false }
  networkFingerprint := .ofNat 1
  signature := (scopedPresence 0).signature
  membershipTag := .ofNat 1

/-- Two linked nodes, one of which owns a prefix, and a third node alone. -/
def sourcePresence : SignedPresenceV2 := meshPresence 1 [] [2]
def ownerPresence : SignedPresenceV2 := meshPresence 2 [⟨.v4 0x0a000200, 24, by decide⟩] [1]
def thirdPresence : SignedPresenceV2 := meshPresence 3 [] []

/-- A batch of records, all taken within a second. -/
def batchOf (presences : List SignedPresenceV2) : PresenceBatch where
  arrivals := presences.map fun presence => ⟨presence, some 1, 1001000000000, listedOrder⟩
  now := 1001000000000
  order := listedOrder

def meshNode (owner : Nat) : MeshNodeV2 := ⟨exampleId owner, [1], false⟩

variable (presence : SignedPresenceV2)

def startOf : MeshControlV2 :=
  (MeshControlV2.start "network" presence 1001000000000 listedOrder).toOption.getD
    ⟨⟨"network", ∅⟩, 1, none⟩

variable (node : MeshNodeV2) (batches : List PresenceBatch)

def finalOf : MeshControlV2 :=
  (node.run (startOf presence) batches).toOption.getD (startOf presence)

def requestOf : TopologyCompileRequestV2 :=
  (finalOf presence node batches).request.getD
    ⟨⟨"network", ∅⟩, 0, 0, false, exampleId 0, [], exampleId 0, .inserted⟩

def viewOf (request : TopologyCompileRequestV2) : DataplaneSnapshotV2 :=
  (request.compile 1002000000000 listedOrder).toOption.getD
    ⟨1, .ofNat 0, {}, .compile [], ∅, ∅, (by decide : _ = _ → False)⟩

/-- A run in which nothing fails. -/
def meshRun (started : (MeshControlV2.start "network" presence 1001000000000
      listedOrder).toOption.isSome = true)
    (ran : (node.run (startOf presence) batches).toOption.isSome = true)
    (requested : (finalOf presence node batches).request.isSome = true)
    (compiled : ((requestOf presence node batches).compile 1002000000000
      listedOrder).toOption.isSome = true) : MeshRunV2 "network" where
  node
  start := startOf presence
  batches
  final := finalOf presence node batches
  request := requestOf presence node batches
  compiledAt := 1002000000000
  order := listedOrder
  snapshot := viewOf (requestOf presence node batches)
  started := ⟨presence, 1001000000000, listedOrder, eq_ok_getD _ started⟩
  ran := eq_ok_getD _ ran
  requested := by
    obtain ⟨request, isRequest⟩ := Option.isSome_iff_exists.mp requested
    rw [requestOf, isRequest, Option.getD_some]
  compiled := eq_ok_getD _ compiled

def oneBatch : List PresenceBatch := [batchOf [sourcePresence, ownerPresence, thirdPresence]]
def twoBatches : List PresenceBatch :=
  [batchOf [sourcePresence, ownerPresence], batchOf [thirdPresence]]

/-- The source sees two structural batches, the owner one. -/
def sourceRun : MeshRunV2 "network" :=
  meshRun sourcePresence (meshNode 1) twoBatches (by decide +kernel) (by decide +kernel)
    (by decide +kernel) (by decide +kernel)

def ownerRun : MeshRunV2 "network" :=
  meshRun ownerPresence (meshNode 2) oneBatch (by decide +kernel) (by decide +kernel)
    (by decide +kernel) (by decide +kernel)

/-- The source, had it seen all records at once. -/
def promptRun : MeshRunV2 "network" :=
  meshRun sourcePresence (meshNode 1) oneBatch (by decide +kernel) (by decide +kernel)
    (by decide +kernel) (by decide +kernel)

theorem mesh_route_agreement_one_batch : MeshRunV2.Agreement [promptRun, ownerRun] := by
  have records : promptRun.held.entries.Perm ownerRun.held.entries := by decide +kernel
  have counts : promptRun.structuralBatches = ownerRun.structuralBatches := by decide +kernel
  refine (MeshRunV2.mesh_route_agreement "network" [promptRun, ownerRun] ?_).mpr ?_
  · simp only [List.forall_mem_cons, List.not_mem_nil, IsEmpty.forall_iff, implies_true, and_true,
      true_and]
    exact ⟨fun owner => AList.perm_lookup records, fun owner => AList.perm_lookup records.symm⟩
  · simp only [List.forall_mem_cons, List.not_mem_nil, IsEmpty.forall_iff, implies_true, and_true,
      true_and]
    exact ⟨counts, counts.symm⟩

def stampedCell : CellV2 := { sampleParity with sessionEpoch := 3, routeLabel := 1 }

/-- With the same records the epochs differ, and the owner drops the Cell of the source. -/
theorem batching_splits_epochs : sourceRun.held.entries.Perm ownerRun.held.entries ∧
      sourceRun.request.routeEpoch = 3 ∧ ownerRun.request.routeEpoch = 2 ∧
      (sourceRun.snapshot.lookupDestination (.v4 0x0a000205)).toOption = some ⟨1, 1, 3, 1400⟩ ∧
      (CellV2.decode stampedCell.wire).toOption = some stampedCell ∧
      (ownerRun.snapshot.dispatchCell 1 stampedCell.wire).toOption =
        some (.drop .staleRouteEpoch) := by
  refine ⟨by decide +kernel, by decide +kernel, by decide +kernel, by decide +kernel,
    by decide +kernel, by decide +kernel⟩

end
end Ironet.Mesh
