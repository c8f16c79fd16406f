import Ironet.Fec.Decoder
import Ironet.Reassembly.Table
import Ironet.Repair.Cache
import Ironet.Session.Limits

/-!
# The receive dataplane

Executable model of `V2Rx` in `protocol/v2/dataplane.rs`: the receive state of every active route
epoch, the byte budget shared between them, the outstanding Repair requests, and the way of a
datagram through the stripe decoder into the reassembly table.

The QUIC connection, the control stream and the recycled record storage are left out. What a call
reads from outside, the clock and the iteration orders of the hash maps, is a parameter of the
call; one call takes one clock reading. Counters are natural numbers.
-/
namespace Ironet.Dataplane
open Support Cell Fec Reassembly Repair Session

/-- In nanoseconds. -/
abbrev Instant := Nat
abbrev Duration := Nat

def defaultReassemblyTimeout : Duration := 2 * 1000000000
def maxActiveRouteEpochs : Nat := 3
def maxPendingRepairRequests : Nat := 4096
def maxBulkRepairCells : Nat := 2
def maxLatencyRepairCells : Nat := 8

/-- `capability::FEC_STRIPES` -/
def fecStripes : UInt64 := 2

/-! ### Cover padding -/

inductive CoverTrafficProfileV2 where
  | idle
  | liveBroadcast
  | interactiveVideo
  | genericH3Bulk
  deriving DecidableEq, Repr

def CoverTrafficProfileV2.fromWire (value : UInt8) : Except String CoverTrafficProfileV2 :=
  if value = 0 then .ok .idle
  else if value = 1 then .ok .liveBroadcast
  else if value = 2 then .ok .interactiveVideo
  else if value = 3 then .ok .genericH3Bulk
  else .error ("unknown V2 cover traffic profile " ++ toString value)

def coverMagic : Bytes := [0x50, 0x43, 0x56, 0x32]
def coverHeaderLen : Nat := 20

structure CoverPaddingV2 where
  profile : CoverTrafficProfileV2
  sessionEpoch : UInt32
  sequence : UInt64
  deriving DecidableEq, Repr

def CoverPaddingV2.isRecord (bytes : Bytes) : Bool := bytes.take 4 == coverMagic

def CoverPaddingV2.decode (bytes : Bytes) (expectedSessionEpoch : UInt32) :
    Except String CoverPaddingV2 := do
  ensure (coverHeaderLen ≤ bytes.length) "truncated V2 cover padding"
  ensure (slice bytes 0 4 = coverMagic) "invalid V2 cover padding magic"
  ensure (byteAt bytes 4 = 1) "unsupported V2 cover padding version"
  ensure (slice bytes 6 8 = [0, 0]) "unsupported V2 cover padding flags"
  let sessionEpoch := getU32 (slice bytes 8 12)
  ensure (sessionEpoch = expectedSessionEpoch) "V2 cover padding belongs to another session epoch"
  let profile ← CoverTrafficProfileV2.fromWire (byteAt bytes 5)
  .ok { profile, sessionEpoch, sequence := getU64 (slice bytes 12 20) }

/-! ### Outstanding Repair requests -/

structure PendingRepairRequestV2 where
  key : RepairKeyV2
  requestedCells : Nat
  requestedAt : Instant
  deriving DecidableEq, Repr

structure RepairResponseObservationV2 where
  requestedCells : Nat
  receivedCells : Nat
  latencyMicros : Nat
  deriving DecidableEq, Repr

/-- Requests by their id, and the ids in the order of their requests. -/
structure PendingRepairRequestsV2 where
  capacity : Nat
  ttl : Duration
  nextRequestId : UInt64 := 1
  entries : HashMap UInt64 PendingRepairRequestV2 := ∅
  order : List (UInt64 × Instant) := []

namespace PendingRepairRequestsV2

variable (self : PendingRepairRequestsV2)

/-- Whether the entry of the order queue is about the request that is outstanding now. -/
def current (requestId : UInt64) (generation : Instant) : Bool :=
  (self.entries.lookup requestId).any fun pending => pending.requestedAt == generation

/-- The loop of `expire` over the order queue. -/
def expireLoop (now : Instant) :
    List (UInt64 × Instant) → PendingRepairRequestsV2 → Nat × PendingRepairRequestsV2
  | [], self => (0, { self with order := [] })
  | (requestId, generation) :: rest, self =>
    let stale := (self.entries.lookup requestId).all fun pending =>
      pending.requestedAt != generation || decide (self.ttl ≤ now - pending.requestedAt)
    if stale then
      if self.current requestId generation then
        let (expired, self) :=
          expireLoop now rest { self with entries := self.entries.erase requestId }
        (expired + 1, self)
      else expireLoop now rest self
    else (0, { self with order := (requestId, generation) :: rest })

def expire (now : Instant) : Nat × PendingRepairRequestsV2 :=
  expireLoop now self.order self

/-- The loop of `evict_oldest` over the order queue. -/
def evictLoop : List (UInt64 × Instant) → PendingRepairRequestsV2 → Bool × PendingRepairRequestsV2
  | [], self => (false, { self with order := [] })
  | (requestId, generation) :: rest, self =>
    if self.current requestId generation then
      (true, { self with order := rest, entries := self.entries.erase requestId })
    else evictLoop rest self

def evictOldest : Bool × PendingRepairRequestsV2 :=
  evictLoop self.order self

/-- The loop of `begin` that keeps the table below its capacity; an empty queue ends it. -/
def makeRoom : Nat → PendingRepairRequestsV2 → PendingRepairRequestsV2
  | 0, self => self
  | fuel + 1, self =>
    if self.capacity ≤ self.entries.size then
      match self.evictOldest with
      | (true, self) => makeRoom fuel self
      | (false, self) => self
    else self

/-- `next_request_id.wrapping_add(1).max(1)` -/
def followingId (requestId : UInt64) : UInt64 := max (requestId + 1) 1

/-- The loop of `begin` that looks for a free id: the id and the one to try next. There is a free
one among as many ids as the table has entries, and one more. -/
def freeId (entries : HashMap UInt64 PendingRepairRequestV2) :
    Nat → UInt64 → Except Panic (UInt64 × UInt64)
  | 0, _ => .error .diverges
  | fuel + 1, candidate =>
    if (entries.lookup candidate).isSome then freeId entries fuel (followingId candidate)
    else .ok (candidate, followingId candidate)

def begin (key : RepairKeyV2) (requestedCells : Nat)
    (now : Instant) : Except Panic (UInt64 × PendingRepairRequestsV2) := do
  let self := (self.expire now).2
  let self := makeRoom self.order.length self
  let (requestId, nextRequestId) ← freeId self.entries (self.entries.size + 1) self.nextRequestId
  .ok (requestId, { self with
    nextRequestId
    entries := self.entries.insert requestId { key, requestedCells, requestedAt := now }
    order := self.order ++ [(requestId, now)] })

def complete (response : RepairResponseV2) (now : Instant) :
    Except String (Option RepairResponseObservationV2) × PendingRepairRequestsV2 :=
  let self := (self.expire now).2
  match self.entries.lookup response.requestId with
  | none => (.ok none, self)
  | some pending =>
    if pending.key = response.key then
      (.ok (some {
        requestedCells := pending.requestedCells
        receivedCells := response.cells.length
        latencyMicros := min ((now - pending.requestedAt) / 1000) (2 ^ 64 - 1) }),
        { self with entries := self.entries.erase response.requestId })
    else (.error "V2 Repair response key does not match its outstanding request", self)

end PendingRepairRequestsV2

/-! ### The receiver -/

/-- The negotiated parameters that the receiver reads. -/
structure NegotiatedSessionV2 where
  capabilities : UInt64
  limits : WireLimitsV2
  sessionEpoch : UInt32
  deriving DecidableEq, Repr

structure RxEpochState where
  reassembly : ReassemblyTableV2
  fecDecoder : Option CellStripeDecoder

/-- `reassembly_budget_bytes` and `active_train_budget` are zero while no policy sets them. -/
structure V2Rx where
  negotiated : NegotiatedSessionV2
  maximumBufferedBytes : Nat
  reassemblyBudgetBytes : Nat := 0
  activeTrainBudget : Nat := 0
  epochs : HashMap UInt32 RxEpochState := ∅
  epochOrder : List UInt32 := []
  fecEnabled : Bool
  fecTtl : Duration
  pendingRepairs : PendingRepairRequestsV2

/-- What a call reads from outside: the clock, read once where the source reads it at every accept,
and the iteration orders of the hash maps. -/
structure Ambient where
  now : Instant
  trains : TrainOrder
  stripes : IterationOrder (Sigma fun _ : StripeKey => DecodeStripe)
  epochs : IterationOrder (Sigma fun _ : UInt32 => RxEpochState)

namespace V2Rx

/-- `active_epochs.clamp(1, MAX_ACTIVE_ROUTE_EPOCHS)` -/
def clampEpochs (activeEpochs : Nat) : Nat := max 1 (min activeEpochs maxActiveRouteEpochs)

def componentBudgetBytes (maximumBufferedBytes activeEpochs : Nat) : Except String Nat := do
  let componentBudget := maximumBufferedBytes / (clampEpochs activeEpochs * 2)
  ensure (Cell.maxRecordBytes ≤ componentBudget) "V2 receive byte budget is too small"
  .ok componentBudget

variable (self : V2Rx)

def reassemblyShareBytes (componentBudget activeEpochs : Nat) : Nat :=
  if self.reassemblyBudgetBytes = 0 then componentBudget
  else min componentBudget (self.reassemblyBudgetBytes / clampEpochs activeEpochs)

def activeTrainLimit : Nat :=
  let negotiated := self.negotiated.limits.maxActiveTrains.toNat
  if self.activeTrainBudget = 0 then negotiated else min self.activeTrainBudget negotiated

def newDecoder (routeEpoch : UInt32) (componentBudget : Nat) : Except String CellStripeDecoder :=
  CellStripeDecoder.withLimits routeEpoch self.fecTtl self.negotiated.limits.maxActiveTrains.toNat
    componentBudget

/-- `fec_enabled.then(..).transpose()` -/
def newDecoderIfEnabled (routeEpoch : UInt32) (componentBudget : Nat) :
    Except String (Option CellStripeDecoder) :=
  if self.fecEnabled then (self.newDecoder routeEpoch componentBudget).map some else .ok none

def buildEpochState (routeEpoch : UInt32) (componentBudget activeEpochs : Nat) :
    Except String RxEpochState := do
  let reassembly ← ReassemblyTableV2.new {
    sessionEpoch := routeEpoch
    maximumActiveTrains := self.activeTrainLimit
    maximumBufferedBytes := self.reassemblyShareBytes componentBudget activeEpochs
    trainTimeout := defaultReassemblyTimeout
    perTrain := perTrain self.negotiated.limits }
  let fecDecoder ← self.newDecoderIfEnabled routeEpoch componentBudget
  .ok { reassembly, fecDecoder }

/-! #### Budgets -/

/-- One turn of the loop of `resize_epoch_components`. -/
def resizeState (order : TrainOrder) (reassemblyShare trainLimit componentBudget : Nat)
    (state : RxEpochState) : Except String Nat × RxEpochState :=
  match state.reassembly.setMaximumBufferedBytes order reassemblyShare with
  | (.error message, reassembly) => (.error message, { state with reassembly })
  | (.ok evicted, reassembly) =>
    match reassembly.setMaximumActiveTrains trainLimit with
    | (.error message, reassembly) => (.error message, { state with reassembly })
    | (.ok _, reassembly) =>
      match state.fecDecoder with
      | none => (.ok evicted, { state with reassembly })
      | some decoder =>
        let (result, decoder) := decoder.setMaximumBufferedBytes componentBudget
        (result.map (evicted + ·), { reassembly, fecDecoder := some decoder })

/-- The loop over the epochs; an error leaves the rest as it was. -/
def eachEpoch (step : UInt32 → RxEpochState → Except String Nat × RxEpochState) :
    List UInt32 → HashMap UInt32 RxEpochState → Except String Nat × HashMap UInt32 RxEpochState
  | [], epochs => (.ok 0, epochs)
  | epoch :: rest, epochs =>
    match epochs.lookup epoch with
    | none => eachEpoch step rest epochs
    | some state =>
      match step epoch state with
      | (.error message, state) => (.error message, epochs.insert epoch state)
      | (.ok count, state) =>
        let (result, epochs) := eachEpoch step rest (epochs.insert epoch state)
        (result.map (count + ·), epochs)

variable (ambient : Ambient)

/-- The active epochs in the order in which the map yields them. -/
def epochKeys : List UInt32 :=
  (ambient.epochs.arrange self.epochs.entries).map Sigma.fst

def resizeEpochComponents (componentBudget : Nat) : Except String Nat × V2Rx :=
  let reassemblyShare := self.reassemblyShareBytes componentBudget self.epochs.size
  let (result, epochs) := eachEpoch
    (fun _ => resizeState ambient.trains reassemblyShare self.activeTrainLimit componentBudget)
    (self.epochKeys ambient) self.epochs
  (result, { self with epochs })

def setReassemblyBudget (budgetBytes activeTrainBudget : Nat) : Except String Nat × V2Rx :=
  let self := { self with reassemblyBudgetBytes := budgetBytes, activeTrainBudget }
  match componentBudgetBytes self.maximumBufferedBytes self.epochs.size with
  | .error message => (.error message, self)
  | .ok componentBudget => self.resizeEpochComponents ambient componentBudget

/-! #### Route epochs -/

/-- The loop of `activate_route_epoch` that drops the oldest epochs. -/
def retireEpochs : List UInt32 → HashMap UInt32 RxEpochState →
    Except Panic (List UInt32 × HashMap UInt32 RxEpochState)
  | [], epochs =>
    if maxActiveRouteEpochs ≤ epochs.size then .error .missingEntry else .ok ([], epochs)
  | oldest :: rest, epochs =>
    if maxActiveRouteEpochs ≤ epochs.size then retireEpochs rest (epochs.erase oldest)
    else .ok (oldest :: rest, epochs)

/-- The part of `activate_route_epoch` behind the eviction. -/
def installEpoch (routeEpoch : UInt32) : Except String Unit × V2Rx :=
  let active := self.epochs.size + 1
  match componentBudgetBytes self.maximumBufferedBytes active with
  | .error message => (.error message, self)
  | .ok componentBudget =>
    match self.buildEpochState routeEpoch componentBudget active with
    | .error message => (.error message, self)
    | .ok state =>
      let self := { self with
        epochs := self.epochs.insert routeEpoch state
        epochOrder := self.epochOrder ++ [routeEpoch] }
      let (result, self) := self.resizeEpochComponents ambient componentBudget
      let message := "rebalancing V2 receive budget after route epoch activation"
      ((result.mapError fun _ => message).map fun _ => (), self)

def activateRouteEpoch (routeEpoch : UInt32) : Except Panic (Except String Unit × V2Rx) :=
  if routeEpoch = 0 then .ok (.error "V2 route epoch zero is reserved", self)
  else if (self.epochs.lookup routeEpoch).isSome then .ok (.ok (), self)
  else do
    let (epochOrder, epochs) ← retireEpochs self.epochOrder self.epochs
    .ok ({ self with epochOrder, epochs }.installEpoch ambient routeEpoch)

variable (negotiated : NegotiatedSessionV2)

/-- The receiver before its first epoch; both bounds of the pending table are positive. -/
def idle (maximumBufferedBytes : Nat) : V2Rx where
  negotiated := negotiated
  maximumBufferedBytes := maximumBufferedBytes
  fecEnabled := negotiated.capabilities &&& fecStripes != 0
  fecTtl := defaultReassemblyTimeout
  pendingRepairs := { capacity := maxPendingRepairRequests, ttl := defaultReassemblyTimeout }

def newForRouteEpoch (routeEpoch : UInt32)
    (maximumBufferedBytes : Nat) : Except Panic (Except String V2Rx) :=
  if routeEpoch = 0 then .ok (.error "V2 route epoch zero is reserved")
  else if maximumBufferedBytes = 0 then .ok (.error "V2 receive byte budget is zero")
  else do
    let (result, self) ← (idle negotiated maximumBufferedBytes).activateRouteEpoch ambient
        routeEpoch
    .ok (result.map fun _ => self)

end V2Rx

/-! ### Repair requests -/

structure RepairRequestBatchV2 where
  requests : List RepairRequestV2 := []
  suppressedStripes : Nat := 0
  suppressedCells : Nat := 0
  deriving DecidableEq, Repr

/-- `sort_by_key` with `(matches!(class, Bulk), missing_sequences.len())` -/
def repairOrder (left right : MissingStripeV2) : Prop :=
  let bulk (missing : MissingStripeV2) := if missing.class' = .bulk then 1 else 0
  bulk left < bulk right ∨
    bulk left = bulk right ∧ left.missingSequences.length ≤ right.missingSequences.length

instance : DecidableRel repairOrder := fun left right => by
  unfold repairOrder
  infer_instance

def repairCellLimit : TrafficClass → Nat
  | .latency => maxLatencyRepairCells
  | .bulk => maxBulkRepairCells

def repairKey (missing : MissingStripeV2) : RepairKeyV2 where
  class' := missing.class'
  sessionEpoch := missing.sessionEpoch
  routeLabel := missing.routeLabel
  trainId := missing.trainId
  stripeId := missing.stripeId

namespace V2Rx

/-- The loop over the epochs that gathers the candidates of their decoders. -/
def gatherCandidates (ambient : Ambient) (minimumAge : Duration) :
    List UInt32 → HashMap UInt32 RxEpochState →
      List MissingStripeV2 × HashMap UInt32 RxEpochState
  | [], epochs => ([], epochs)
  | epoch :: rest, epochs =>
    match epochs.lookup epoch with
    | some { reassembly, fecDecoder := some decoder } =>
      let (candidates, decoder) := decoder.repairCandidates ambient.stripes ambient.now minimumAge
      let (later, epochs) := gatherCandidates ambient minimumAge rest
        (epochs.insert epoch { reassembly, fecDecoder := some decoder })
      (candidates ++ later, epochs)
    | _ => gatherCandidates ambient minimumAge rest epochs

/-- The loop over the sorted candidates. -/
def requestRepairs (now : Instant) (maximumRequests : Nat) :
    List MissingStripeV2 → RepairRequestBatchV2 → PendingRepairRequestsV2 →
      Except Panic (RepairRequestBatchV2 × PendingRepairRequestsV2)
  | [], batch, pending => .ok (batch, pending)
  | missing :: rest, batch, pending =>
    if maximumRequests ≤ batch.requests.length ∨
        repairCellLimit missing.class' < missing.missingSequences.length then
      requestRepairs now maximumRequests rest { batch with
        suppressedStripes := batch.suppressedStripes + 1
        suppressedCells := batch.suppressedCells + missing.missingSequences.length } pending
    else do
      let key := repairKey missing
      let (requestId, pending) ← pending.begin key missing.missingSequences.length now
      let request : RepairRequestV2 :=
        { key, requestId, missingSequences := missing.missingSequences }
      requestRepairs now maximumRequests rest
        { batch with requests := batch.requests ++ [request] } pending

variable (self : V2Rx)

/-- The stable sort of the source is an insertion sort here. -/
def repairRequestsBounded (ambient : Ambient) (minimumAge : Duration)
    (maximumRequests : Nat) : Except Panic (RepairRequestBatchV2 × V2Rx) := do
  let (candidates, epochs) := gatherCandidates ambient minimumAge self.epochOrder self.epochs
  let (batch, pendingRepairs) ← requestRepairs ambient.now maximumRequests
    (candidates.insertionSort repairOrder) {} self.pendingRepairs
  .ok (batch, { self with epochs, pendingRepairs })

/-! ### Datagrams -/

/-- The loop that hands Cells to the table and merges the outputs. -/
def acceptCells (ambient : Ambient) :
    List CellV2 → ReassemblyOutput → ReassemblyTableV2 →
      Except String ReassemblyOutput × ReassemblyTableV2
  | [], combined, table => (.ok combined, table)
  | cell :: rest, combined, table =>
    match table.acceptAt ambient.trains cell ambient.now with
    | (.error message, table) => (.error message, table)
    | (.ok output, table) => acceptCells ambient rest (combined.merge output) table

/-- The counters of a decoder's output. -/
def fecStats (decoded : FecDecodeOutputV2) : FecReceiveStatsV2 where
  parityReceived := decoded.parityReceived
  recoveredCells := decoded.recoveredCells
  wastedParity := decoded.wastedParity
  expiredStripes := decoded.expiredStripes
  decodeCopyBytes := decoded.decodeCopyBytes
  recoveryLatencyMicros := decoded.recoveryLatencyMicros

/-- A Cell without a stripe, or of a receiver without a decoder. -/
def acceptDirect (ambient : Ambient) (state : RxEpochState) (bytes : Bytes)
    (header : CellRouteHeaderV2) : Except String ReassemblyOutput × RxEpochState :=
  match CellV2.decodeReusingWithHeader bytes [] header with
  | .error message => (.error message, state)
  | .ok cell =>
    let (result, reassembly) := state.reassembly.acceptAt ambient.trains cell ambient.now
    (result, { state with reassembly })

variable (codec : ErasureCodec)

def acceptStriped (ambient : Ambient) (reassembly : ReassemblyTableV2)
    (decoder : CellStripeDecoder) (bytes : Bytes) :
    Except Panic (Except String ReassemblyOutput × RxEpochState) := do
  match ← decoder.pushAt codec bytes ambient.now with
  | (.error message, decoder) => .ok (.error message, { reassembly, fecDecoder := some decoder })
  | (.ok decoded, decoder) =>
    let (result, reassembly) :=
      acceptCells ambient decoded.cells { fec := fecStats decoded } reassembly
    .ok (result, { reassembly, fecDecoder := some decoder })

/-- The part of `accept_routed_datagram` behind the epoch lookup. -/
def acceptInEpoch (ambient : Ambient) (state : RxEpochState) (bytes : Bytes)
    (header : CellRouteHeaderV2) : Except Panic (Except String ReassemblyOutput × RxEpochState) :=
  match state.fecDecoder with
  | none => .ok (acceptDirect ambient state bytes header)
  | some decoder =>
    if header.stripeId = 0 then .ok (acceptDirect ambient state bytes header)
    else acceptStriped codec ambient state.reassembly decoder bytes

variable (codec : ErasureCodec)

def acceptRoutedDatagram (self : V2Rx) (ambient : Ambient) (bytes : Bytes)
    (header : CellRouteHeaderV2) : Except Panic (Except String ReassemblyOutput × V2Rx) :=
  if self.negotiated.limits.maxDatagramSize.toNat < bytes.length then
    .ok (.error "V2 DATAGRAM exceeds negotiated limit", self)
  else
    match self.epochs.lookup header.sessionEpoch with
    | none => .ok (.error "V2 DATAGRAM belongs to an inactive route epoch", self)
    | some state => do
      let (result, state) ← acceptInEpoch codec ambient state bytes header
      .ok (result, { self with epochs := self.epochs.insert header.sessionEpoch state })

def acceptDatagram (self : V2Rx) (ambient : Ambient) (bytes : Bytes) :
    Except Panic (Except String ReassemblyOutput × V2Rx) :=
  if self.negotiated.limits.maxDatagramSize.toNat < bytes.length then
    .ok (.error "V2 DATAGRAM exceeds negotiated limit", self)
  else if CoverPaddingV2.isRecord bytes then
    match CoverPaddingV2.decode bytes self.negotiated.sessionEpoch with
    | .error message => .ok (.error message, self)
    | .ok _ => .ok (.ok {}, self)
  else
    match CellRouteHeaderV2.decode bytes with
    | .error message => .ok (.error message, self)
    | .ok header => self.acceptRoutedDatagram codec ambient bytes header

/-! ### Repair responses -/

/-- The loop over the Cells of a response, each with its own clock reading. -/
def acceptRepairedCells (codec : ErasureCodec) (self : V2Rx) :
    List (Bytes × Ambient) → ReassemblyOutput → Except Panic (Except String ReassemblyOutput × V2Rx)
  | [], combined => .ok (.ok combined, self)
  | (bytes, ambient) :: rest, combined => do
    match ← self.acceptDatagram codec ambient bytes with
    | (.error message, self) => .ok (.error message, self)
    | (.ok output, self) => self.acceptRepairedCells codec rest (combined.merge output)

/-- `ambient index` is what the Cell with this index reads. -/
def acceptRepairResponseAt (self : V2Rx) (response : RepairResponseV2)
    (now : Instant) (ambient : Nat → Ambient) : Except Panic
      (Except String (Option (ReassemblyOutput × RepairResponseObservationV2)) × V2Rx) :=
  match self.pendingRepairs.complete response now with
  | (.error message, pendingRepairs) => .ok (.error message, { self with pendingRepairs })
  | (.ok none, pendingRepairs) => .ok (.ok none, { self with pendingRepairs })
  | (.ok (some observation), pendingRepairs) =>
    let self := { self with pendingRepairs }
    match self.epochs.lookup response.key.sessionEpoch with
    | none => .ok (.ok none, self)
    | some _ => do
      let (result, self) ← self.acceptRepairedCells codec
        (response.cells.mapIdx fun index bytes => (bytes, ambient index)) {}
      .ok (result.map fun output => some (output, observation), self)

/-! ### A budget that no record fits -/

/-- Activate epochs one after the other, whatever the calls return. -/
def activateAll (self : V2Rx) (attempts : List (Ambient × UInt32)) : Except Panic V2Rx :=
  attempts.foldlM (fun self (ambient, routeEpoch) =>
    (self.activateRouteEpoch ambient routeEpoch).map Prod.snd) self

variable {rx : V2Rx} {routeEpoch : UInt32} {bytes : Nat}

theorem retireEpochs_fewer (order : List UInt32) (epochs : HashMap UInt32 RxEpochState) :
    Yields (fun _ => True) (retireEpochs order epochs) fun kept =>
      ∀ epoch ∈ kept.2, epoch ∈ epochs := by
  induction order generalizing epochs with
  | nil =>
    unfold retireEpochs
    split
    · trivial
    · exact fun _ => id
  | cons oldest rest ih =>
    unfold retireEpochs
    split
    · exact (ih _).imp fun kept fewer epoch member => (AList.mem_erase.mp (fewer epoch member)).2
    · exact fun _ => id

/-- No table can be made for another epoch, so an activation stops behind the eviction. -/
theorem installEpoch_small (positive : 0 < bytes) (small : bytes < Cell.maxRecordBytes)
    (budgeted : rx.reassemblyBudgetBytes = bytes) (ambient : Ambient) :
    (rx.installEpoch ambient routeEpoch).2 = rx := by
  unfold installEpoch
  dsimp only
  split
  · rfl
  split
  · rfl
  rename_i built
  simp only [buildEpochState, ReassemblyTableV2.new, ReassemblyTableLimits.validate, do_eq_ok,
    reassemblyShareBytes, budgeted, if_neg positive.ne'] at built
  obtain ⟨table, ⟨checked, -⟩, -⟩ := built
  have share := Nat.div_le_self bytes (clampEpochs (rx.epochs.size + 1))
  omega

theorem activateRouteEpoch_small (positive : 0 < bytes) (small : bytes < Cell.maxRecordBytes)
    (budgeted : rx.reassemblyBudgetBytes = bytes) (ambient : Ambient) :
    Yields (fun _ => True) ((rx.activateRouteEpoch ambient routeEpoch).map Prod.snd) fun after =>
      after.reassemblyBudgetBytes = bytes ∧ ∀ epoch ∈ after.epochs, epoch ∈ rx.epochs := by
  apply Yields.map
  unfold activateRouteEpoch
  split_ifs
  · exact ⟨budgeted, fun _ => id⟩
  · exact ⟨budgeted, fun _ => id⟩
  refine (retireEpochs_fewer rx.epochOrder rx.epochs).bind ?_
  rintro ⟨epochOrder, epochs⟩ fewer
  rw [Yields, @installEpoch_small { rx with epochOrder, epochs } _ _ positive small budgeted]
  exact ⟨budgeted, fewer⟩

/-- A budget that no record fits stays in force, whatever the call that set it returned: from then
on no other epoch becomes active, however often it is tried. -/
theorem small_budget_blocks (rx : V2Rx) (ambient : Ambient) (bytes trains : Nat)
    (positive : 0 < bytes) (small : bytes < Cell.maxRecordBytes)
    (attempts : List (Ambient × UInt32)) :
    let kept := (rx.setReassemblyBudget ambient bytes trains).2
    Yields (fun _ => True) (kept.activateAll attempts) fun after =>
      ∀ epoch ∈ after.epochs, epoch ∈ kept.epochs := by
  intro kept
  have budgeted : kept.reassemblyBudgetBytes = bytes := by
    simp only [kept, setReassemblyBudget]
    split <;> rfl
  clear_value kept
  induction attempts generalizing kept with
  | nil => exact fun _ => id
  | cons attempt rest ih =>
    refine (activateRouteEpoch_small positive small budgeted attempt.1).bind fun next held => ?_
    exact (ih next held.1).imp fun after fewer epoch member => held.2 epoch (fewer epoch member)

/-- A clock reading, with hash maps that yield their entries as they stand. -/
def calm (now : Instant) : Ambient where
  now := now
  trains := ⟨id, fun _ => .rfl⟩
  stripes := ⟨id, fun _ => .rfl⟩
  epochs := ⟨id, fun _ => .rfl⟩

def localSession : NegotiatedSessionV2 where
  capabilities := fecStripes
  limits := {
    maxDatagramSize := 1200
    maxControlSize := 1024
    maxTrainSize := 65535
    maxRecordSize := 65535
    maxCellsPerTrain := 4
    maxActiveTrains := 4 }
  sessionEpoch := 1

def localTable : ReassemblyTableV2 where
  limits := {
    sessionEpoch := 1
    maximumActiveTrains := 4
    maximumBufferedBytes := 131070
    trainTimeout := defaultReassemblyTimeout
    perTrain := perTrain localSession.limits }

def localDecoder : CellStripeDecoder where
  sessionEpoch := 1
  ttl := defaultReassemblyTimeout
  maximumStripes := 4
  maximumBufferedBytes := 131070

/-- The receiver that `new_for_route_epoch` makes for the first epoch. -/
def localRx : V2Rx where
  negotiated := localSession
  maximumBufferedBytes := 262140
  epochs := AList.insert 1 { reassembly := localTable, fecDecoder := some localDecoder } ∅
  epochOrder := [1]
  fecEnabled := true
  fecTtl := defaultReassemblyTimeout
  pendingRepairs := { capacity := maxPendingRepairRequests, ttl := defaultReassemblyTimeout }

example : newForRouteEpoch (calm 0) localSession 1 262140 = .ok (.ok localRx) := by rfl

/-- A budget one byte short of a record, with epoch 1 active: epoch 2 does not become active. -/
theorem small_budget_blocks_second :
    let kept := (localRx.setReassemblyBudget (calm 0) 65534 4).2
    1 ∈ kept.epochs ∧ ∃ after, kept.activateAll [(calm 1, 2)] = .ok after ∧ 2 ∉ after.epochs := by
  intro kept
  have active : 1 ∈ kept.epochs ∧ 2 ∉ kept.epochs := by decide
  have returns : (kept.activateAll [(calm 1, 2)]).toOption.isSome = true := by decide
  have blocked := small_budget_blocks localRx (calm 0) 65534 4 (by decide) (by decide) [(calm 1, 2)]
  change Yields _ (kept.activateAll [(calm 1, 2)]) _ at blocked
  cases done : kept.activateAll [(calm 1, 2)] with
  | error panic => exact absurd returns (by simp [done, Except.toOption])
  | ok after =>
    rw [done] at blocked
    exact ⟨active.1, after, rfl, fun second => active.2 (blocked 2 second)⟩

end V2Rx
end Ironet.Dataplane
