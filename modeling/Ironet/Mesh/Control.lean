import Ironet.Mesh.Replay
import Ironet.Routing.Topology

/-!
# The mesh control loop

Model of how a node turns Presence records into a topology: the input that the directory makes of
its records, and `apply_mesh_presences`, which takes a batch of records, gossips what is new and
asks for a compilation when something structural changed. The route epoch of that request is the
node's own count of such batches. Writers of the adjacencies never stop, and the report of the
directory to the runtime state is left out.
-/
namespace Ironet.Mesh
open Support Ironet.Routing

variable [Iroh]

/-! ### The topology of a directory -/

/-- `records.values()`, in some order. -/
def PresenceRecords.values (records : PresenceRecords) (order : RecordOrder) :
    List SignedPresenceV2 :=
  (order.arrange records.entries).map fun entry => entry.2

def sortedPrefixes (prefixes : List IpNet) : List IpNet :=
  (sortByKey IpNet.key prefixes).destutter (· ≠ ·)

/-- No overlay route may cover an address that carries the overlay. -/
def exclusionsOf (records : List SignedPresenceV2) : List IpNet :=
  sortedPrefixes (records.flatMap fun record =>
    record.body.directAddresses.map fun address => IpNet.host address.ip)

def PresenceBodyV2.advertised (body : PresenceBodyV2) : List IpNet :=
  body.nodeAddresses ++ body.prefixes

def topologyNode (exclusions : List IpNet) (record : SignedPresenceV2) : TopologyNodeV2 where
  nodeId := record.body.owner.key
  advertisedPrefixes := record.body.advertised
  transitEnabled := record.body.transitEnabled
  underlayExclusionPrefixes := exclusions

/-- Every element with every later one. -/
def pairs {α : Type} : List α → List (α × α)
  | [] => []
  | left :: rest => rest.map (left, ·) ++ pairs rest

section
variable [Blake3]

def adjacencyId (node peer : EndpointId) : AdjacencyIdV2 :=
  let value := getU32 (slice
    (Blake3.deriveKey "ironet v2 local adjacency id" (node.asBytes ++ peer.asBytes)).bytes 0 4)
  if value = 0 then 1 else value

/-- A link that both ends report as healthy. -/
def topologyLink (records : PresenceRecords) (left right : EndpointId) : Option TopologyLinkV2 := do
  let leftRecord ← records.lookup left
  let rightRecord ← records.lookup right
  let leftLink ← leftRecord.body.links.find? fun link => link.peer = right
  let rightLink ← rightRecord.body.links.find? fun link => link.peer = left
  if leftLink.healthy = false ∨ rightLink.healthy = false then none
  else some {
    left := left.key
    right := right.key
    leftAdjacency := adjacencyId left right
    rightAdjacency := adjacencyId right left
    cost := max leftLink.cost rightLink.cost
    healthy := true
    maximumDatagramSize := min leftLink.maximumDatagramSize rightLink.maximumDatagramSize }

def topologyLinks (records : PresenceRecords) : List TopologyLinkV2 :=
  (pairs (sortByKey id (records.entries.map Sigma.fst))).filterMap fun ends =>
    topologyLink records ends.1 ends.2

namespace PresenceDirectoryV2

def topologyInput (self : PresenceDirectoryV2) (now : SystemTime) (order : RecordOrder) :
    Except String (List TopologyNodeV2 × List TopologyLinkV2) := do
  let pruned ← self.prune now
  ensure (pruned.2.records.size ≠ 0) "V2 Presence directory is empty"
  let records := pruned.2.records.values order
  .ok (records.map (topologyNode (exclusionsOf records)), topologyLinks pruned.2.records)

def compileLocalSnapshot (self : PresenceDirectoryV2) (generation : UInt64) (routeEpoch : UInt32)
    (allowDefaultRoutes : Bool) (localNode : NodeIdV2) (now : SystemTime) (order : RecordOrder) :
    Except String DataplaneSnapshotV2 := do
  let input ← self.topologyInput now order
  compileLocalSnapshotV2 generation routeEpoch input.1 input.2 allowDefaultRoutes localNode

end PresenceDirectoryV2
end

/-! ### Batches of records -/

structure TopologyCompileRequestV2 where
  directory : PresenceDirectoryV2
  generation : UInt64
  routeEpoch : UInt32
  allowDefaultRoutes : Bool
  localId : EndpointId
  learnedPrefixes : List IpNet
  owner : EndpointId
  update : PresenceUpdateV2

/-- What `topology_compiler_loop` makes of a request. -/
def TopologyCompileRequestV2.compile [Blake3] (self : TopologyCompileRequestV2) (now : SystemTime)
    (order : RecordOrder) : Except String DataplaneSnapshotV2 :=
  self.directory.compileLocalSnapshot self.generation self.routeEpoch self.allowDefaultRoutes
    self.localId.key now order

/-- A record with the adjacency that brought it, and the clock and map order it meets. -/
structure PresenceArrival where
  presence : SignedPresenceV2
  incoming : Option AdjacencyIdV2
  now : SystemTime
  order : RecordOrder

/-- The records of one call, and the clock and map order at its end. -/
structure PresenceBatch where
  arrivals : List PresenceArrival
  now : SystemTime
  order : RecordOrder

/-- What stays the same for a node. -/
structure MeshNodeV2 where
  localId : EndpointId
  commands : List AdjacencyIdV2
  allowDefaultRoutes : Bool

structure MeshControlV2 where
  directory : PresenceDirectoryV2
  generation : Nat
  /-- The latest request; an earlier one is replaced. -/
  request : Option TopologyCompileRequestV2 := none

/-- What the loop over a batch has so far. -/
structure PresenceLoopV2 where
  directory : PresenceDirectoryV2
  sent : List (AdjacencyIdV2 × Bytes) := []
  structuralUpdate : Option (EndpointId × PresenceUpdateV2) := none

section
variable [Blake3]

/-- The state in which `mesh_control_loop` begins: its own record is known. -/
def MeshControlV2.start (networkId : String) (localPresence : SignedPresenceV2) (now : SystemTime)
    (order : RecordOrder) : Except String MeshControlV2 := do
  let directory ← PresenceDirectoryV2.new networkId
  let inserted ← directory.insert localPresence now order
  .ok { directory := inserted.2, generation := 1 }

namespace MeshNodeV2

variable (self : MeshNodeV2)

def gossip (encoded : Bytes) (incoming : Option AdjacencyIdV2) : List (AdjacencyIdV2 × Bytes) :=
  (self.commands.filter fun adjacency => incoming ≠ some adjacency).map (·, encoded)

def insertPresence (loop : PresenceLoopV2) (arrival : PresenceArrival) :
    Except String PresenceLoopV2 := do
  let encoded ← arrival.presence.encode
  let inserted ← loop.directory.insert arrival.presence arrival.now arrival.order
  if inserted.1.stores then
    .ok {
      directory := inserted.2
      sent := loop.sent ++ self.gossip encoded arrival.incoming
      -- a renewed lease does not churn the route epoch
      structuralUpdate := if inserted.1 = .renewed then loop.structuralUpdate
        else some (arrival.presence.body.owner, inserted.1) }
  else .ok { loop with directory := inserted.2 }

def insertPresences (directory : PresenceDirectoryV2)
    (arrivals : List PresenceArrival) : Except String PresenceLoopV2 :=
  arrivals.foldlM self.insertPresence { directory }

def learnedPrefixes (records : List SignedPresenceV2) : List IpNet :=
  sortedPrefixes ((records.filter fun record => record.body.owner ≠ self.localId).flatMap
    fun record => record.body.advertised)

def request (self : MeshNodeV2) (loop : PresenceLoopV2) (generation : Nat)
    (structural : EndpointId × PresenceUpdateV2) (now : SystemTime) (order : RecordOrder) :
    Except String MeshControlV2 := do
  ensure (generation + 1 < 2 ^ 64) "V2 mesh generation overflow"
  ensure (generation + 1 < 2 ^ 32) "V2 mesh route epoch space exhausted"
  let pruned ← loop.directory.prune now
  .ok {
    directory := pruned.2
    generation := generation + 1
    request := some {
      directory := pruned.2
      generation := UInt64.ofNat (generation + 1)
      routeEpoch := UInt32.ofNat (generation + 1)
      allowDefaultRoutes := self.allowDefaultRoutes
      localId := self.localId
      learnedPrefixes := self.learnedPrefixes (pruned.2.records.values order)
      owner := structural.1
      update := structural.2 } }

def applyMeshPresences (state : MeshControlV2) (batch : PresenceBatch) :
    Except String (List (AdjacencyIdV2 × Bytes) × MeshControlV2) := do
  let loop ← self.insertPresences state.directory batch.arrivals
  match loop.structuralUpdate with
  | none => .ok (loop.sent, { state with directory := loop.directory })
  | some structural => do
    let next ← self.request loop state.generation structural batch.now batch.order
    .ok (loop.sent, next)

def run (self : MeshNodeV2) : MeshControlV2 → List PresenceBatch → Except String MeshControlV2
  | state, [] => .ok state
  | state, batch :: batches => do
    let applied ← self.applyMeshPresences state batch
    run self applied.2 batches

/-! ### Counting structural batches -/

/-- Some record of the batch is neither known nor only a renewal when it is its turn. -/
def isStructural (state : MeshControlV2) (batch : PresenceBatch) : Bool :=
  match self.insertPresences state.directory batch.arrivals with
  | .ok loop => loop.structuralUpdate.isSome
  | .error _ => false

/-- How many batches of a run are structural. -/
def structuralBatches (self : MeshNodeV2) : MeshControlV2 → List PresenceBatch → Nat
  | _, [] => 0
  | state, batch :: batches =>
    (if self.isStructural state batch then 1 else 0) +
      match self.applyMeshPresences state batch with
      | .ok applied => structuralBatches self applied.2 batches
      | .error _ => 0

/-- The request of a state is the latest, and its epoch is the node's count. -/
structure Current (node : MeshNodeV2) (state : MeshControlV2) (request : TopologyCompileRequestV2) :
    Prop where
  generation : request.generation = UInt64.ofNat state.generation
  routeEpoch : request.routeEpoch = UInt32.ofNat state.generation
  small : state.generation < 2 ^ 32
  localId : request.localId = node.localId
  allowDefaultRoutes : request.allowDefaultRoutes = node.allowDefaultRoutes

variable {self : MeshNodeV2} {state : MeshControlV2} {batch : PresenceBatch}

/-- A batch advances the count and replaces the request if it is structural, and does neither
otherwise. -/
theorem applyMeshPresences_eq_ok {applied : List (AdjacencyIdV2 × Bytes) × MeshControlV2}
    (ok : self.applyMeshPresences state batch = .ok applied) :
    (self.isStructural state batch = true ∧ applied.2.generation = state.generation + 1 ∧
      ∀ request ∈ applied.2.request, self.Current applied.2 request) ∨
    (self.isStructural state batch = false ∧ applied.2.generation = state.generation ∧
      applied.2.request = state.request) := by
  simp only [applyMeshPresences, bind_eq_ok] at ok
  obtain ⟨loop, inserted, rest⟩ := ok
  unfold isStructural
  rw [inserted]
  cases structural : loop.structuralUpdate with
  | none =>
    rw [structural] at rest
    obtain rfl := Except.ok.inj rest
    exact .inr ⟨by simp [structural], rfl, rfl⟩
  | some update =>
  rw [structural] at rest
  simp only [request, do_eq_ok] at rest
  obtain ⟨_, ⟨-, small, pruned, -, rfl⟩, rfl⟩ := rest
  refine .inl ⟨by simp [structural], rfl, ?_⟩
  rintro _ ⟨⟩
  exact ⟨rfl, rfl, small, rfl, rfl⟩

variable {final : MeshControlV2} {batches : List PresenceBatch}

theorem run_generation (ran : self.run state batches = .ok final) :
    final.generation = state.generation + self.structuralBatches state batches := by
  induction batches generalizing state with
  | nil =>
    obtain rfl := Except.ok.inj ran
    rfl
  | cons batch batches ih =>
  simp only [run, bind_eq_ok] at ran
  obtain ⟨applied, ok, ran⟩ := ran
  rw [structuralBatches, ok, ih ran]
  rcases applyMeshPresences_eq_ok ok with ⟨structural, advanced, -⟩ | ⟨structural, kept, -⟩
  · simp [structural, advanced, Nat.add_assoc]
  · simp [structural, kept]

theorem run_current (current : ∀ request ∈ state.request, self.Current state request)
    (ran : self.run state batches = .ok final) :
    ∀ request ∈ final.request, self.Current final request := by
  induction batches generalizing state with
  | nil =>
    obtain rfl := Except.ok.inj ran
    exact current
  | cons batch batches ih =>
  simp only [run, bind_eq_ok] at ran
  obtain ⟨applied, ok, ran⟩ := ran
  refine ih ?_ ran
  rcases applyMeshPresences_eq_ok ok with ⟨-, -, replaced⟩ | ⟨-, kept, same⟩
  · exact replaced
  · intro request isRequest
    obtain ⟨generation, routeEpoch, small, localId, allow⟩ := current request (same ▸ isRequest)
    exact ⟨kept ▸ generation, kept ▸ routeEpoch, kept ▸ small, localId, allow⟩

end MeshNodeV2
end
end Ironet.Mesh
