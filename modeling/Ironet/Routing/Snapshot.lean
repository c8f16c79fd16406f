import Ironet.Cell.Wire
import Ironet.Mesh.Address
import Ironet.Support.HashMap

/-!
# Data plane snapshots

Executable model of the first half of `protocol/v2/routing.rs`: the prefix index, the label table,
the compilation of one node's view, the dispatch of an encoded Cell and the store that keeps the
current view and two retired ones. Counters that only report sizes are left out. A snapshot can only
be built by `compile`, so its generation is not zero.
-/
namespace Ironet.Routing
open Support Ironet.Mesh Ironet.Cell

abbrev AdjacencyIdV2 := UInt32
abbrev RouteLabelV2 := UInt32

def maxRouteLabels : Nat := 65536
def maxCandidateRoutes : Nat := 4
def maxRetiredSnapshots : Nat := 2

def AdjacencyIdV2.new (value : UInt32) : Except String AdjacencyIdV2 := do
  ensure (value ≠ 0) "V2 adjacency ID zero is reserved"
  .ok value

def RouteLabelV2.new (value : UInt32) : Except String RouteLabelV2 := do
  ensure (value ≠ 0) "V2 route label zero is reserved"
  .ok value

structure ResolvedRouteV2 where
  adjacency : AdjacencyIdV2
  routeLabel : RouteLabelV2
  routeEpoch : UInt32
  maximumDatagramSize : UInt16
  deriving DecidableEq, Repr

structure PrefixRouteV2 where
  network : IpNet
  route : ResolvedRouteV2
  /-- In microseconds. -/
  startupLatency : Nat
  deriving DecidableEq, Repr

/-! ### Prefix lookup -/

/-- Longest first, each once. -/
def preparePrefixLengths (lengths : List Nat) : List Nat :=
  (lengths.insertionSort (· ≥ ·)).destutter (· ≠ ·)

structure PrefixRouteIndexV2 where
  routes : HashMap (Nat × IpAddr) (List PrefixRouteV2) := ∅
  v4Lengths : List Nat := []
  v6Lengths : List Nat := []

namespace PrefixRouteIndexV2

def bucket (route : PrefixRouteV2) : Nat × IpAddr :=
  (route.network.prefixLen, route.network.network)

def push (index : PrefixRouteIndexV2) (route : PrefixRouteV2) : PrefixRouteIndexV2 where
  routes := index.routes.insert (bucket route)
    ((index.routes.lookup (bucket route)).getD [] ++ [route])
  v4Lengths := if route.network.addr.isIpv4 then index.v4Lengths ++ [route.network.prefixLen]
    else index.v4Lengths
  v6Lengths := if route.network.addr.isIpv4 then index.v6Lengths
    else index.v6Lengths ++ [route.network.prefixLen]

def compile (routes : List PrefixRouteV2) : PrefixRouteIndexV2 :=
  let index := routes.foldl push {}
  { index with
    v4Lengths := preparePrefixLengths index.v4Lengths
    v6Lengths := preparePrefixLengths index.v6Lengths }

def lookup (self : PrefixRouteIndexV2) (destination : IpAddr) : Option (List PrefixRouteV2) :=
  (if destination.isIpv4 then self.v4Lengths else self.v6Lengths).findSome? fun length =>
    self.routes.lookup (length, destination.masked length)

end PrefixRouteIndexV2

structure PrefixSetV2 where
  prefixes : List (Nat × IpAddr)
  v4Lengths : List Nat
  v6Lengths : List Nat
  deriving DecidableEq, Repr

namespace PrefixSetV2

def compile (prefixes : List IpNet) : PrefixSetV2 where
  prefixes := prefixes.map fun network => (network.prefixLen, network.network)
  v4Lengths := preparePrefixLengths
    ((prefixes.filter fun network => network.addr.isIpv4).map IpNet.prefixLen)
  v6Lengths := preparePrefixLengths
    ((prefixes.filter fun network => !network.addr.isIpv4).map IpNet.prefixLen)

def contains (self : PrefixSetV2) (address : IpAddr) : Bool :=
  (if address.isIpv4 then self.v4Lengths else self.v6Lengths).any fun length =>
    (length, address.masked length) ∈ self.prefixes

end PrefixSetV2

def validatePrefix (allowDefaultRoutes : Bool) (kind : String) (network : IpNet) :
    Except String Unit := do
  ensure (network.addr = network.network) ("non-canonical V2 " ++ kind ++ " prefix")
  ensure (allowDefaultRoutes = true ∨ network.prefixLen ≠ 0)
    "V2 default route was not explicitly enabled"

def validatePrefixSet (prefixes : List IpNet) (allowDefaultRoutes : Bool) (kind : String) :
    Except String Unit := do
  prefixes.forM (validatePrefix allowDefaultRoutes kind)
  ensure (((sortByKey IpNet.key prefixes).destutter (· ≠ ·)).length = prefixes.length)
    ("duplicate V2 " ++ kind ++ " prefix")

/-! ### Labels -/

inductive LabelActionV2 where
  /-- The Cell belongs to this node. -/
  | localNode (expectedIngress : AdjacencyIdV2)
  /-- Forward the encoded Cell after changing its hop accounting. -/
  | forward (expectedIngress nextHop : AdjacencyIdV2)
  deriving DecidableEq, Repr

structure LabelRouteV2 where
  routeLabel : RouteLabelV2
  routeEpoch : UInt32
  action : LabelActionV2
  deriving DecidableEq, Repr

inductive TransitDropReasonV2 where
  | underlayDestination
  | noRoute
  | unknownLabel
  | staleRouteEpoch
  | unexpectedIngress
  | immediateReflection
  deriving DecidableEq, Repr

structure OamTtlExpiredV2 where
  snapshotGeneration : UInt64
  routeEpoch : UInt32
  routeLabel : RouteLabelV2
  trainId : UInt64
  cellSequence : UInt16
  ingressHopLimit : UInt8
  traversedHops : UInt8
  incoming : AdjacencyIdV2
  reporter : Key32
  deriving DecidableEq, Repr

inductive TransitDispositionV2 where
  | localCell (header : CellRouteHeaderV2) (cell : Mesh.Bytes)
  | forward (nextHop : AdjacencyIdV2) (cell : ForwardedCellV2)
  | ttlExpired (oam : OamTtlExpiredV2)
  | drop (reason : TransitDropReasonV2)
  deriving DecidableEq, Repr

/-! ### One node's view -/

structure DataplaneSnapshotV2 where
  generation : UInt64
  localNode : Key32
  prefixes : PrefixRouteIndexV2
  underlayExclusions : PrefixSetV2
  labels : HashMap RouteLabelV2 LabelRouteV2
  sourceRoutes : HashMap (UInt32 × RouteLabelV2) ResolvedRouteV2
  generation_ne_zero : generation ≠ 0

def checkAction : LabelActionV2 → Except String Unit
  | .localNode expectedIngress => do
    let _ ← AdjacencyIdV2.new expectedIngress
  | .forward expectedIngress nextHop => do
    let _ ← AdjacencyIdV2.new expectedIngress
    let _ ← AdjacencyIdV2.new nextHop
    ensure (expectedIngress ≠ nextHop) "V2 route label immediately reflects to its ingress"

def checkLabel (entry : LabelRouteV2) : Except String Unit := do
  let _ ← RouteLabelV2.new entry.routeLabel
  ensure (entry.routeEpoch ≠ 0) "V2 route epoch zero is reserved"
  checkAction entry.action

def compileLabels : List LabelRouteV2 → HashMap RouteLabelV2 LabelRouteV2 →
    Except String (HashMap RouteLabelV2 LabelRouteV2)
  | [], labels => .ok labels
  | entry :: rest, labels => do
    checkLabel entry
    ensure (labels.lookup entry.routeLabel = none) "duplicate V2 route label"
    compileLabels rest (labels.insert entry.routeLabel entry)

def checkPrefixRoute (entry : PrefixRouteV2) : Except String Unit := do
  let _ ← AdjacencyIdV2.new entry.route.adjacency
  let _ ← RouteLabelV2.new entry.route.routeLabel
  ensure (entry.route.routeEpoch ≠ 0) "V2 route epoch zero is reserved"
  ensure (Cell.headerLen < entry.route.maximumDatagramSize.toNat)
    "V2 route DATAGRAM ceiling is too small"

def compileSourceRoutes : List PrefixRouteV2 →
    HashMap (UInt32 × RouteLabelV2) ResolvedRouteV2 →
    Except String (HashMap (UInt32 × RouteLabelV2) ResolvedRouteV2)
  | [], sources => .ok sources
  | entry :: rest, sources => do
    let key := (entry.route.routeEpoch, entry.route.routeLabel)
    ensure (∀ existing ∈ sources.lookup key, existing = entry.route)
      "V2 source route label resolves to multiple paths"
    compileSourceRoutes rest (sources.insert key entry.route)

namespace DataplaneSnapshotV2

def compile (generation : UInt64) (localNode : Key32) (prefixes : List PrefixRouteV2)
    (labels : List LabelRouteV2) (underlayExclusionPrefixes : List IpNet)
    (allowDefaultRoutes : Bool) : Except String DataplaneSnapshotV2 :=
  if nonzero : generation ≠ 0 then do
    ensure (labels.length ≤ maxRouteLabels) "too many V2 route labels"
    validatePrefixSet underlayExclusionPrefixes true "underlay exclusion"
    let labelMap ← compileLabels labels ∅
    let unique := (sortByKey IpNet.key (prefixes.map PrefixRouteV2.network)).destutter (· ≠ ·)
    validatePrefixSet unique allowDefaultRoutes "overlay route"
    prefixes.forM checkPrefixRoute
    let sourceRoutes ← compileSourceRoutes prefixes ∅
    .ok {
      generation
      localNode
      prefixes := .compile prefixes
      underlayExclusions := .compile underlayExclusionPrefixes
      labels := labelMap
      sourceRoutes
      generation_ne_zero := nonzero }
  else .error "V2 snapshot generation zero is reserved"

def empty (generation : UInt64) (localNode : Key32) : Except String DataplaneSnapshotV2 :=
  compile generation localNode [] [] [] false

variable (self : DataplaneSnapshotV2)

def labelAction (routeEpoch : UInt32) (routeLabel : RouteLabelV2) : Option LabelActionV2 :=
  ((self.labels.lookup routeLabel).filter fun entry => entry.routeEpoch = routeEpoch).map
    LabelRouteV2.action

def sourceRoute (routeEpoch : UInt32) (routeLabel : RouteLabelV2) : Option ResolvedRouteV2 :=
  self.sourceRoutes.lookup (routeEpoch, routeLabel)

def routeEpochs : List UInt32 :=
  self.labels.entries.map (fun entry => entry.2.routeEpoch) ++
    self.sourceRoutes.entries.map fun entry => entry.1.1

def lookupDestination (destination : IpAddr) : Except TransitDropReasonV2 ResolvedRouteV2 :=
  if self.underlayExclusions.contains destination then .error .underlayDestination
  else
    match (self.prefixes.lookup destination).bind List.head? with
    | some entry => .ok entry.route
    | none => .error .noRoute

def lookupDestinationCandidates (destination : IpAddr) :
    Except TransitDropReasonV2 (List (ResolvedRouteV2 × Nat)) :=
  if self.underlayExclusions.contains destination then .error .underlayDestination
  else
    match self.prefixes.lookup destination with
    | some routes => .ok (routes.map fun entry => (entry.route, entry.startupLatency))
    | none => .error .noRoute

variable (incoming : AdjacencyIdV2)

/-- The report of a Cell whose limit does not allow another hop. -/
def ttlExpired (entry : LabelRouteV2) (header : CellRouteHeaderV2) : OamTtlExpiredV2 where
  snapshotGeneration := self.generation
  routeEpoch := entry.routeEpoch
  routeLabel := header.routeLabel
  trainId := header.trainId
  cellSequence := header.cellSequence
  ingressHopLimit := UInt8.ofNat header.ingressHopLimit
  -- `saturating_add` on `u8`
  traversedHops := UInt8.ofNat (min 255 (header.overlayHops.toNat + 1))
  incoming
  reporter := self.localNode

def dispatchAction (bytes : Mesh.Bytes) (header : CellRouteHeaderV2)
    (entry : LabelRouteV2) : Except String TransitDispositionV2 :=
  match entry.action with
  | .localNode expectedIngress =>
    if incoming ≠ expectedIngress then .ok (.drop .unexpectedIngress)
    else .ok (.localCell header bytes)
  | .forward expectedIngress nextHop =>
    if incoming ≠ expectedIngress then .ok (.drop .unexpectedIngress)
    else if incoming = nextHop then .ok (.drop .immediateReflection)
    else if header.overlayHopLimit.toNat ≤ 1 then
      .ok (.ttlExpired (self.ttlExpired incoming entry header))
    else do
      let cell ← advanceOverlayHop bytes
      .ok (.forward nextHop cell)

def dispatchCell (bytes : Mesh.Bytes) : Except String TransitDispositionV2 := do
  let _ ← AdjacencyIdV2.new incoming
  let header ← CellRouteHeaderV2.decode bytes
  match self.labels.lookup header.routeLabel with
  | none => .ok (.drop .unknownLabel)
  | some entry =>
    if entry.routeEpoch ≠ header.sessionEpoch then .ok (.drop .staleRouteEpoch)
    else self.dispatchAction incoming bytes header entry

end DataplaneSnapshotV2

/-! ### The store -/

/-- The current view and the retired ones, latest first. -/
structure DataplaneSnapshotStoreV2 where
  current : DataplaneSnapshotV2
  retired : List DataplaneSnapshotV2

/-- The snapshot does not know the Cell's label in its epoch. -/
def TransitDispositionV2.unanswered (self : TransitDispositionV2) : Bool :=
  self = .drop .unknownLabel ∨ self = .drop .staleRouteEpoch

namespace DataplaneSnapshotStoreV2

def new (initial : DataplaneSnapshotV2) : DataplaneSnapshotStoreV2 := ⟨initial, []⟩

def publish (self : DataplaneSnapshotStoreV2) (next : DataplaneSnapshotV2) :
    Except String (DataplaneSnapshotV2 × DataplaneSnapshotStoreV2) := do
  ensure (self.current.generation.toNat < next.generation.toNat)
    "V2 snapshot generation did not advance"
  ensure ((∀ epoch ∈ self.current.routeEpochs, epoch ∉ next.routeEpochs) ∨ next.routeEpochs = [])
    "V2 snapshot reused a live route epoch"
  .ok (self.current, {
    current := next
    retired := self.current :: self.retired.take (maxRetiredSnapshots - 1) })

/-- The first retired snapshot that answers, or else the answer of the current one. -/
def dispatchRetired (incoming : AdjacencyIdV2) (bytes : Mesh.Bytes)
    (current : TransitDispositionV2) : List DataplaneSnapshotV2 → Except String TransitDispositionV2
  | [] => .ok current
  | retired :: rest => do
    let disposition ← retired.dispatchCell incoming bytes
    if disposition.unanswered then dispatchRetired incoming bytes current rest else .ok disposition

def dispatchCell (self : DataplaneSnapshotStoreV2) (incoming : AdjacencyIdV2)
    (bytes : Mesh.Bytes) : Except String TransitDispositionV2 := do
  let current ← self.current.dispatchCell incoming bytes
  if current.unanswered then dispatchRetired incoming bytes current self.retired else .ok current

def labelAction (self : DataplaneSnapshotStoreV2) (routeEpoch : UInt32)
    (routeLabel : RouteLabelV2) : Option LabelActionV2 :=
  (self.current :: self.retired).findSome? fun snapshot =>
    snapshot.labelAction routeEpoch routeLabel

def sourceRoute (self : DataplaneSnapshotStoreV2) (routeEpoch : UInt32)
    (routeLabel : RouteLabelV2) : Option ResolvedRouteV2 :=
  (self.current :: self.retired).findSome? fun snapshot =>
    snapshot.sourceRoute routeEpoch routeLabel

end DataplaneSnapshotStoreV2
end Ironet.Routing
