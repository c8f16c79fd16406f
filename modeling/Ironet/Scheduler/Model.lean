import Ironet.Support.HashMap
import Ironet.Train.Build

/-!
# The bounded class scheduler

Executable model of `protocol/v2/scheduler.rs`: strict control, earliest-deadline latency trains,
a deficit round robin over Bulk flows and best-effort probes, all behind byte budgets.

Queues are lists, front first. A `usize` counter is a natural number; a saturating addition of
byte counts is an addition, since no counter comes near `usize::MAX`, and a plain subtraction is
`Support.subtract`, which panics below zero. An `Instant` is a count of nanoseconds and every
call reads the clock once, as `now`.
-/
namespace Ironet.Scheduler
open Support Cell Train

abbrev Instant := Nat
abbrev Duration := Nat

def maxQuantumBytes : Nat := 16 * 1024
def maxQuantumCells : Nat := 8
def defaultLatencyDeadline : Duration := 100 * 1000000

structure SchedulerLimits where
  controlBytes : Nat := 1024 * 1024
  latencyBytes : Nat := 2 * 1024 * 1024
  bulkBytes : Nat := 8 * 1024 * 1024
  probeBytes : Nat := 256 * 1024
  applicationBytes : Nat := 8 * 1024 * 1024
  bulkReserveBytes : Nat := 1024 * 1024
  bulkDrrQuantumBytes : Nat := 8 * 1400
  latencyBurstBytes : Nat := 64 * 1024
  maximumQuantumCells : Nat := maxQuantumCells
  maximumQuantumBytes : Nat := maxQuantumBytes
  deriving DecidableEq, Repr

def SchedulerLimits.validate (limits : SchedulerLimits) : Except String Unit := do
  ensure (0 < limits.controlBytes) "V2 control queue limit is zero"
  ensure (0 < limits.latencyBytes) "V2 latency queue limit is zero"
  ensure (0 < limits.bulkBytes) "V2 bulk queue limit is zero"
  ensure (0 < limits.probeBytes) "V2 probe queue limit is zero"
  ensure (limits.bulkReserveBytes ≤ limits.applicationBytes)
    "V2 bulk reserve exceeds application budget"
  ensure (0 < limits.bulkDrrQuantumBytes) "V2 DRR quantum is zero"
  ensure (1 ≤ limits.maximumQuantumCells ∧ limits.maximumQuantumCells ≤ maxQuantumCells)
    "V2 cell quantum exceeds hard limit"
  ensure (1 ≤ limits.maximumQuantumBytes ∧ limits.maximumQuantumBytes ≤ maxQuantumBytes)
    "V2 byte quantum exceeds hard limit"

structure SchedulerDepth where
  controlBytes : Nat := 0
  latencyBytes : Nat := 0
  bulkBytes : Nat := 0
  probeBytes : Nat := 0
  latencyTrains : Nat := 0
  bulkTrains : Nat := 0
  bulkFlows : Nat := 0
  deriving DecidableEq, Repr

/-- Counters without a bound, where the source saturates at `u64::MAX`. -/
structure SchedulerStats where
  quantumCount : Nat := 0
  quantumBytes : Nat := 0
  bulkQuantumCount : Nat := 0
  latencyQuantumCount : Nat := 0
  bulkPreemptions : Nat := 0
  bulkForcedService : Nat := 0
  bulkEvictedBytes : Nat := 0
  rejectedBytes : Nat := 0
  maximumSojournMicros : Nat := 0
  latencyDeadlineMisses : Nat := 0
  deriving DecidableEq, Repr

/-- Two adjacent wire ranges of one outgoing datagram. -/
structure DatagramPayload where
  head : Bytes
  tail : Bytes
  deriving DecidableEq, Repr

def DatagramPayload.contiguous (data : Bytes) : DatagramPayload := { head := data, tail := [] }
def DatagramPayload.split (head tail : Bytes) : DatagramPayload := { head, tail }
def DatagramPayload.len (payload : DatagramPayload) : Nat :=
  payload.head.length + payload.tail.length

structure ScheduledCellV2 where
  payload : DatagramPayload
  header : CellRouteHeaderV2
  deriving DecidableEq, Repr

def ScheduledCellV2.len (cell : ScheduledCellV2) : Nat := cell.payload.len

/-- `cells.iter().map(ScheduledCellV2::len).sum()` -/
def cellBytes (cells : List ScheduledCellV2) : Nat := (cells.map ScheduledCellV2.len).sum

structure CellQuantum where
  class' : TrafficClass
  priority : Bool
  flowId : UInt64
  trainId : UInt64
  cells : List ScheduledCellV2
  trainFinished : Bool
  sojourn : Duration
  bulkPreemption : Bool
  trainStats : Option TrainBuildStats
  deriving DecidableEq, Repr

def CellQuantum.bytes (quantum : CellQuantum) : Nat := cellBytes quantum.cells

inductive ScheduledWork where
  | control (bytes : Bytes)
  | cells (quantum : CellQuantum)
  | probe (bytes : Bytes)
  deriving DecidableEq, Repr

structure TrainCursor where
  class' : TrafficClass
  flowId : UInt64
  trainId : UInt64
  cells : List ScheduledCellV2
  bytes : Nat
  enqueued : Instant
  deadline : Option Instant
  priority : Bool
  stats : Option TrainBuildStats
  deriving DecidableEq, Repr

/-! ### Train cursors -/

/-- `checked_add` on the byte total of a train. -/
def addTrainBytes (bytes len : Nat) (message : String) : Except String Nat := do
  ensure (bytes + len < 2 ^ 64) message
  .ok (bytes + len)

def datagramPayload (head : Bytes) : Option Bytes → DatagramPayload
  | some tail => .split head tail
  | none => .contiguous head

/-- The loop of `TrainCursor::new` over the Cells of a train. -/
def scheduleCells (class' : TrafficClass) (trainId : UInt64) (maximumDatagramSize : Nat) :
    List CellV2 → List ScheduledCellV2 → Nat → Except String (List ScheduledCellV2 × Nat)
  | [], scheduled, bytes => .ok (scheduled, bytes)
  | cell :: rest, scheduled, bytes => do
    ensure (cell.class' = class') "V2 train mixes traffic classes"
    ensure (cell.trainId = trainId) "V2 train mixes train IDs"
    let (head, tail, header) ← cell.encodeDatagramParts maximumDatagramSize
    let payload := datagramPayload head tail
    let bytes ← addTrainBytes bytes payload.len "V2 scheduled train byte overflow"
    scheduleCells class' trainId maximumDatagramSize rest (scheduled ++ [{ payload, header }]) bytes

variable (now : Instant) (flowId : UInt64)

def TrainCursor.new (train : PacketTrain)
    (maximumDatagramSize : Nat) (deadline : Option Instant) : Except String TrainCursor :=
  match train.cells with
  | [] => .error "cannot schedule an empty V2 train"
  | first :: _ => do
    let (cells, bytes) ←
      scheduleCells first.class' first.trainId maximumDatagramSize train.cells [] 0
    .ok {
      class' := first.class'
      flowId
      trainId := first.trainId
      cells
      bytes
      enqueued := now
      deadline
      priority := false
      stats := some train.stats }

/-- The loop of `TrainCursor::from_encoded`. -/
def scheduleEncoded (class' : TrafficClass) (trainId : UInt64) :
    List Bytes → List ScheduledCellV2 → Nat → Except String (List ScheduledCellV2 × Nat)
  | [], scheduled, bytes => .ok (scheduled, bytes)
  | encoded :: rest, scheduled, bytes => do
    let cell ← CellV2.decode encoded
    ensure (cell.class' = class') "encoded V2 train mixes traffic classes"
    ensure (cell.trainId = trainId) "encoded V2 train mixes train IDs"
    let bytes ← addTrainBytes bytes encoded.length "encoded V2 train byte overflow"
    let header ← CellRouteHeaderV2.decode encoded
    scheduleEncoded class' trainId rest
      (scheduled ++ [{ payload := .contiguous encoded, header }]) bytes

def TrainCursor.fromEncoded (class' : TrafficClass)
    (trainId : UInt64) (cells : List Bytes) (stats : Option TrainBuildStats) :
    Except String TrainCursor := do
  ensure (cells ≠ []) "cannot schedule an empty encoded V2 train"
  let (cells, bytes) ← scheduleEncoded class' trainId cells [] 0
  .ok {
    class', flowId, trainId, cells, bytes, enqueued := now, deadline := none, priority := false,
    stats }

/-- The loop of `TrainCursor::from_forwarded`: only the routing shim is read. -/
def scheduleForwarded (first : CellRouteHeaderV2) :
    List Bytes → List ScheduledCellV2 → Nat → Except String (List ScheduledCellV2 × Nat)
  | [], scheduled, bytes => .ok (scheduled, bytes)
  | cell :: rest, scheduled, bytes => do
    let header ← CellRouteHeaderV2.decode cell
    ensure (header.class' = first.class' ∧ header.trainId = first.trainId)
      "V2 transit batch mixes class or PacketTrain"
    let bytes ← addTrainBytes bytes cell.length "V2 transit batch byte overflow"
    scheduleForwarded first rest (scheduled ++ [{ payload := .contiguous cell, header }]) bytes

def TrainCursor.fromForwarded (cells : List Bytes) : Except String TrainCursor :=
  match cells with
  | [] => .error "cannot schedule an empty transit batch"
  | front :: _ => do
    let first ← CellRouteHeaderV2.decode front
    let (scheduled, bytes) ← scheduleForwarded first cells [] 0
    .ok {
      class' := first.class'
      flowId
      trainId := first.trainId
      cells := scheduled
      bytes
      enqueued := now
      deadline := none
      priority := false
      stats := none }

/-- The loop of `pop_cells`: `left` are the Cells still queued, `cursorBytes` is `self.bytes`,
`bytes` counts the Cells already in `output`. -/
def popCellsLoop (maximumCells maximumBytes : Nat) :
    List ScheduledCellV2 → Nat → List ScheduledCellV2 → Nat →
      Except Panic (List ScheduledCellV2 × List ScheduledCellV2 × Nat)
  | [], cursorBytes, output, _ => .ok (output, [], cursorBytes)
  | next :: left, cursorBytes, output, bytes =>
    if output.length < maximumCells then
      if output ≠ [] ∧ maximumBytes < bytes + next.len then .ok (output, next :: left, cursorBytes)
      else if output = [] ∧ maximumBytes < next.len then .ok (output, next :: left, cursorBytes)
      else do
        let cursorBytes ← subtract cursorBytes next.len
        popCellsLoop maximumCells maximumBytes left cursorBytes (output ++ [next])
          (bytes + next.len)
    else .ok (output, next :: left, cursorBytes)

def TrainCursor.popCells (cursor : TrainCursor) (maximumCells maximumBytes : Nat) :
    Except Panic (List ScheduledCellV2 × TrainCursor) := do
  let (output, cells, bytes) ← popCellsLoop maximumCells maximumBytes cursor.cells cursor.bytes [] 0
  .ok (output, { cursor with cells, bytes })

/-! ### Scheduler state -/

structure BulkFlow where
  deficit : Nat := 0
  trains : List TrainCursor := []
  deriving DecidableEq, Repr

structure V2Scheduler where
  limits : SchedulerLimits
  control : List Bytes := []
  latency : List TrainCursor := []
  bulk : HashMap UInt64 BulkFlow := ∅
  activeBulk : List UInt64 := []
  probes : List Bytes := []
  depth : SchedulerDepth := {}
  stats : SchedulerStats := {}
  latencyBytesSinceBulk : Nat := 0
  bulkWasPreemptible : Bool := false

def V2Scheduler.new (limits : SchedulerLimits) : Except String V2Scheduler := do
  limits.validate
  .ok { limits }

inductive TrafficQueue where
  | control
  | probe
  deriving DecidableEq, Repr

namespace V2Scheduler
variable (s : V2Scheduler)

def reject (bytes : Nat) : V2Scheduler :=
  { s with stats := { s.stats with rejectedBytes := s.stats.rejectedBytes + bytes } }

variable (bytes : Bytes)

def enqueueBytes (queue : TrafficQueue) : Bool × V2Scheduler :=
  if bytes = [] then (false, s)
  else match queue with
    | .control =>
      if s.limits.controlBytes < s.depth.controlBytes + bytes.length then
        (false, s.reject bytes.length)
      else
        (true, { s with
          depth := { s.depth with controlBytes := s.depth.controlBytes + bytes.length }
          control := s.control ++ [bytes] })
    | .probe =>
      if s.limits.probeBytes < s.depth.probeBytes + bytes.length then
        (false, s.reject bytes.length)
      else
        (true, { s with
          depth := { s.depth with probeBytes := s.depth.probeBytes + bytes.length }
          probes := s.probes ++ [bytes] })

def enqueueControl : Bool × V2Scheduler :=
  s.enqueueBytes bytes .control

def enqueueProbe : Bool × V2Scheduler :=
  s.enqueueBytes bytes .probe

/-! ### Eviction and admission of trains -/

/-- Remove the newest train `removed` of a flow, which is left with `kept`. -/
def evictTrain (flowId : UInt64) (flow : BulkFlow)
    (kept : List TrainCursor) (removed : TrainCursor) : Except Panic V2Scheduler := do
  let bulkBytes ← subtract s.depth.bulkBytes removed.bytes
  let bulkTrains ← subtract s.depth.bulkTrains 1
  let depth := { s.depth with bulkBytes, bulkTrains }
  let stats := { s.stats with bulkEvictedBytes := s.stats.bulkEvictedBytes + removed.bytes }
  if kept = [] then do
    let bulkFlows ← subtract depth.bulkFlows 1
    .ok { s with
      bulk := s.bulk.erase flowId
      activeBulk := s.activeBulk.filter (· != flowId)
      depth := { depth with bulkFlows }
      stats }
  else
    .ok { s with bulk := s.bulk.insert flowId { flow with trains := kept }, depth, stats }

/-- The loop of `evict_bulk_elastic` over the flows still to be tried. -/
def evictFrom (s : V2Scheduler) : List UInt64 → Except Panic (Bool × V2Scheduler)
  | [] => .ok (false, s)
  | flowId :: rest =>
    match s.bulk.lookup flowId with
    | none => s.evictFrom rest
    | some flow =>
      match flow.trains.getLast? with
      | none => s.evictFrom rest
      | some candidate =>
        if s.depth.bulkBytes - candidate.bytes < s.limits.bulkReserveBytes then s.evictFrom rest
        else do
          let s ← s.evictTrain flowId flow flow.trains.dropLast candidate
          .ok (true, s)

def evictBulkElastic : Except Panic (Bool × V2Scheduler) :=
  s.evictFrom s.activeBulk.reverse

/-- Number of Bulk trains actually held. -/
def bulkTrainCount : Nat :=
  s.bulk.weight fun flow => flow.trains.length

/-- The `while` loop that makes room for `bytes` latency bytes. Every successful eviction removes
a Bulk train, so one turn more than there are trains is enough; `false` stands for the rejecting
exit. -/
def evictUntilFits (bytes : Nat) :
    Nat → V2Scheduler → Except Panic (Bool × V2Scheduler)
  | 0, s => .ok (false, s)
  | fuel + 1, s =>
    if s.limits.applicationBytes - s.depth.bulkBytes < s.depth.latencyBytes + bytes then do
      let (evicted, s) ← s.evictBulkElastic
      if evicted then evictUntilFits bytes fuel s else .ok (false, s)
    else .ok (true, s)

end V2Scheduler

/-- Whether a queued latency train has to wait behind the new one. -/
def TrainCursor.yieldsTo (queued : TrainCursor) (priority : Bool) (deadline : Instant) : Bool :=
  (priority && !queued.priority) ||
    (priority == queued.priority && queued.deadline.any fun value => deadline < value)

/-- `position(..).unwrap_or(len)` followed by `insert`. -/
def insertLatency (cursor : TrainCursor) (deadline : Instant) (latency : List TrainCursor) :
    List TrainCursor :=
  latency.insertIdx (latency.findIdx fun queued => queued.yieldsTo cursor.priority deadline) cursor

def V2Scheduler.enqueueLatency (s : V2Scheduler) (cursor : TrainCursor) :
    Except Panic (Bool × V2Scheduler) :=
  let bytes := cursor.bytes
  let deadline := cursor.deadline.getD (cursor.enqueued + defaultLatencyDeadline)
  let cursor := { cursor with deadline := some deadline }
  if s.limits.latencyBytes < bytes then .ok (false, s.reject bytes)
  else do
    let (fits, s) ← V2Scheduler.evictUntilFits bytes (s.bulkTrainCount + 1) s
    if !fits then .ok (false, s.reject bytes)
    else if s.limits.latencyBytes < s.depth.latencyBytes + bytes then .ok (false, s.reject bytes)
    else
      .ok (true, { s with
        depth := { s.depth with
          latencyBytes := s.depth.latencyBytes + bytes
          latencyTrains := s.depth.latencyTrains + 1 }
        latency := insertLatency cursor deadline s.latency })

def V2Scheduler.enqueueBulk (s : V2Scheduler) (cursor : TrainCursor) : Bool × V2Scheduler :=
  let bytes := cursor.bytes
  if s.limits.bulkBytes < s.depth.bulkBytes + bytes ∨
      s.limits.applicationBytes < s.depth.bulkBytes + s.depth.latencyBytes + bytes then
    (false, s.reject bytes)
  else
    -- `entry(flow_id).or_default()`
    let flow := (s.bulk.lookup cursor.flowId).getD {}
    let wasEmpty := flow.trains.isEmpty
    (true, { s with
      bulk := s.bulk.insert cursor.flowId { flow with trains := flow.trains ++ [cursor] }
      activeBulk := if wasEmpty then s.activeBulk ++ [cursor.flowId] else s.activeBulk
      depth := { s.depth with
        bulkFlows := if wasEmpty then s.depth.bulkFlows + 1 else s.depth.bulkFlows
        bulkBytes := s.depth.bulkBytes + bytes
        bulkTrains := s.depth.bulkTrains + 1 } })

/-- The outcome of a call: the source's `Result` beside the state it leaves behind. -/
abbrev Outcome (α : Type) := Except Panic (Except String α × V2Scheduler)

namespace V2Scheduler
variable (s : V2Scheduler)

def enqueueCursor (cursor : TrainCursor) : Outcome Bool :=
  if cursor.cells.all fun cell => cell.len ≤ s.limits.maximumQuantumBytes then
    match cursor.class' with
    | .latency => (s.enqueueLatency cursor).map fun (accepted, s) => (.ok accepted, s)
    | .bulk =>
      let (accepted, s) := s.enqueueBulk cursor
      .ok (.ok accepted, s)
  else .ok (.error "V2 Cell exceeds the scheduler quantum byte ceiling", s)

/-- Enqueue the cursor that was built for a flow, or report why none was built. -/
def enqueueBuilt (flowId : UInt64) (built : Except String TrainCursor) : Outcome Bool :=
  match (do ensure (flowId ≠ 0) "V2 flow ID zero is reserved"; built :
    Except String TrainCursor) with
  | .error message => .ok (.error message, s)
  | .ok cursor => s.enqueueCursor cursor

variable (now : Instant)

def enqueueTrainWithScheduling (flowId : UInt64)
    (train : PacketTrain) (maximumDatagramSize : Nat) (deadline : Option Instant)
    (priority : Bool) : Outcome Bool :=
  s.enqueueBuilt flowId do
    let cursor ← TrainCursor.new now flowId train maximumDatagramSize deadline
    .ok { cursor with priority }

def enqueueTrainWithDeadline (flowId : UInt64)
    (train : PacketTrain) (maximumDatagramSize : Nat) (deadline : Option Instant) : Outcome Bool :=
  s.enqueueTrainWithScheduling now flowId train maximumDatagramSize deadline false

def enqueueTrain (flowId : UInt64)
    (train : PacketTrain) (maximumDatagramSize : Nat) : Outcome Bool :=
  s.enqueueTrainWithDeadline now flowId train maximumDatagramSize none

def enqueueEncodedTrainWithScheduling
    (flowId : UInt64) (class' : TrafficClass) (trainId : UInt64) (cells : List Bytes)
    (stats : Option TrainBuildStats) (deadline : Option Instant) (priority : Bool) : Outcome Bool :=
  s.enqueueBuilt flowId do
    let cursor ← TrainCursor.fromEncoded now flowId class' trainId cells stats
    .ok { cursor with deadline, priority }

def enqueueEncodedTrainWithDeadline
    (flowId : UInt64) (class' : TrafficClass) (trainId : UInt64) (cells : List Bytes)
    (stats : Option TrainBuildStats) (deadline : Option Instant) : Outcome Bool :=
  s.enqueueEncodedTrainWithScheduling now flowId class' trainId cells stats deadline false

def enqueueEncodedTrain (flowId : UInt64)
    (class' : TrafficClass) (trainId : UInt64) (cells : List Bytes)
    (stats : Option TrainBuildStats) : Outcome Bool :=
  s.enqueueEncodedTrainWithDeadline now flowId class' trainId cells stats none

def enqueueForwardedCells (flowId : UInt64) (cells : List Bytes) : Outcome Bool :=
  s.enqueueBuilt flowId (TrainCursor.fromForwarded now flowId cells)

/-! ### Service -/

def recordQuantum (quantum : CellQuantum) : V2Scheduler :=
  { s with stats := { s.stats with
    quantumCount := s.stats.quantumCount + 1
    quantumBytes := s.stats.quantumBytes + quantum.bytes
    maximumSojournMicros :=
      max s.stats.maximumSojournMicros (min (quantum.sojourn / 1000) (2 ^ 64 - 1)) } }

/-- The part of `pop_latency` behind a non-empty `pop_cells`: `cursor` has already given up
`cells`, `behind` are the trains queued after it. -/
def serveLatency (cells : List ScheduledCellV2) (cursor : TrainCursor) (behind : List TrainCursor) :
    Except Panic (CellQuantum × V2Scheduler) := do
  let quantum : CellQuantum := {
    class' := .latency
    priority := cursor.priority
    flowId := cursor.flowId
    trainId := cursor.trainId
    cells
    trainFinished := cursor.cells.isEmpty
    sojourn := now - cursor.enqueued
    bulkPreemption := s.bulkWasPreemptible
    trainStats := cursor.stats }
  let missed := if cursor.deadline.any fun deadline => deadline < now then 1 else 0
  let latencyBytes ← subtract s.depth.latencyBytes (cellBytes cells)
  let latencyTrains ← subtractIf quantum.trainFinished s.depth.latencyTrains 1
  let s := { s with
    latency := if quantum.trainFinished then behind else { cursor with stats := none } :: behind
    depth := { s.depth with latencyBytes, latencyTrains }
    latencyBytesSinceBulk := s.latencyBytesSinceBulk + cellBytes cells
    stats := { s.stats with latencyDeadlineMisses := s.stats.latencyDeadlineMisses + missed } }
  let s := s.recordQuantum quantum
  .ok (quantum, { s with
    stats := { s.stats with latencyQuantumCount := s.stats.latencyQuantumCount + 1 } })

def popLatency : Except Panic (Option CellQuantum × V2Scheduler) :=
  match s.latency with
  | [] => .ok (none, s)
  | cursor :: behind => do
    let (cells, cursor) ← cursor.popCells 1 s.limits.maximumQuantumBytes
    if cells = [] then .ok (none, { s with latency := cursor :: behind })
    else do
      let (quantum, s) ← s.serveLatency now cells cursor behind
      .ok (some quantum, s)

/-- The part of `pop_bulk` behind a non-empty `pop_cells`. -/
def serveBulk (flowId : UInt64) (deficit : Nat)
    (cells : List ScheduledCellV2) (cursor : TrainCursor) (behind : List TrainCursor) :
    Except Panic (CellQuantum × V2Scheduler) := do
  let deficit ← subtract deficit (cellBytes cells)
  let bulkBytes ← subtract s.depth.bulkBytes (cellBytes cells)
  let finished := cursor.cells.isEmpty
  let quantum : CellQuantum := {
    class' := .bulk
    priority := false
    flowId
    trainId := cursor.trainId
    cells
    trainFinished := finished
    sojourn := now - cursor.enqueued
    bulkPreemption := false
    trainStats := cursor.stats }
  let trains := if finished then behind else { cursor with stats := none } :: behind
  let bulkTrains ← subtractIf finished s.depth.bulkTrains 1
  let bulkFlows ← subtractIf (trains = []) s.depth.bulkFlows 1
  let s := { s with
    bulk := if trains = [] then s.bulk.erase flowId else s.bulk.insert flowId { deficit, trains }
    activeBulk := if trains = [] then s.activeBulk else s.activeBulk ++ [flowId]
    depth := { s.depth with bulkBytes, bulkTrains, bulkFlows } }
  let s := s.recordQuantum quantum
  .ok (quantum, { s with
    stats := { s.stats with bulkQuantumCount := s.stats.bulkQuantumCount + 1 } })

/-- One turn of the round robin in `pop_bulk`. -/
def visitBulk : Except Panic (Option CellQuantum × V2Scheduler) :=
  match s.activeBulk with
  | [] => .ok (none, s)
  | flowId :: ring =>
    let s := { s with activeBulk := ring }
    match s.bulk.lookup flowId with
    | none => .ok (none, s)
    | some flow =>
      let deficit :=
        min (flow.deficit + s.limits.bulkDrrQuantumBytes) (s.limits.maximumQuantumBytes * 2)
      match flow.trains with
      | [] => do
        let bulkFlows ← subtract s.depth.bulkFlows 1
        .ok (none, { s with bulk := s.bulk.erase flowId, depth := { s.depth with bulkFlows } })
      | cursor :: behind => do
        let budget := min deficit s.limits.maximumQuantumBytes
        let (cells, cursor) ← cursor.popCells s.limits.maximumQuantumCells budget
        if cells = [] then
          .ok (none, { s with
            bulk := s.bulk.insert flowId { deficit, trains := cursor :: behind }
            activeBulk := s.activeBulk ++ [flowId] })
        else do
          let (quantum, s) ← s.serveBulk now flowId deficit cells cursor behind
          .ok (some quantum, s)

/-- `for _ in 0..visits` -/
def popBulkLoop (now : Instant) :
    Nat → V2Scheduler → Except Panic (Option CellQuantum × V2Scheduler)
  | 0, s => .ok (none, s)
  | visits + 1, s => do
    let (served, s) ← s.visitBulk now
    match served with
    | some quantum => .ok (some quantum, s)
    | none => popBulkLoop now visits s

def popBulk : Except Panic (Option CellQuantum × V2Scheduler) :=
  popBulkLoop now s.activeBulk.length s

def popProbe : Except Panic (Option ScheduledWork × V2Scheduler) :=
  match s.probes with
  | [] => .ok (none, s)
  | bytes :: rest => do
    let probeBytes ← subtract s.depth.probeBytes bytes.length
    .ok (some (.probe bytes), { s with probes := rest, depth := { s.depth with probeBytes } })

/-- The last part of `pop`: latency again, then probes. -/
def popRest : Except Panic (Option ScheduledWork × V2Scheduler) := do
  let (served, s) ← s.popLatency now
  match served with
  | some quantum => .ok (some (.cells quantum), s)
  | none => s.popProbe

/-- The part of `pop` from the Bulk service on. -/
def popBulkThenRest (forceBulk : Bool) : Except Panic (Option ScheduledWork × V2Scheduler) := do
  let (served, s) ← s.popBulk now
  match served with
  | some quantum =>
    .ok (some (.cells quantum), { s with
      stats := { s.stats with
        bulkForcedService := s.stats.bulkForcedService + if forceBulk then 1 else 0 }
      latencyBytesSinceBulk := 0
      bulkWasPreemptible := !s.activeBulk.isEmpty || decide (0 < s.depth.bulkBytes) })
  | none => s.popRest now

/-- A latency quantum counts as a preemption when Bulk was serviceable. -/
def notePreemption : V2Scheduler :=
  if s.bulkWasPreemptible then
    { s with
      stats := { s.stats with bulkPreemptions := s.stats.bulkPreemptions + 1 }
      bulkWasPreemptible := false }
  else s

def forceBulk : Bool :=
  !s.activeBulk.isEmpty && !s.latency.isEmpty &&
    decide (s.limits.latencyBurstBytes ≤ s.latencyBytesSinceBulk)

def pop : Except Panic (Option ScheduledWork × V2Scheduler) :=
  match s.control with
  | bytes :: rest => do
    let controlBytes ← subtract s.depth.controlBytes bytes.length
    .ok (some (.control bytes), { s with control := rest, depth := { s.depth with controlBytes } })
  | [] =>
    if s.forceBulk then s.popBulkThenRest now true
    else do
      let (served, s) ← s.popLatency now
      match served with
      | some quantum => .ok (some (.cells quantum), s.notePreemption)
      | none => s.popBulkThenRest now false

def hasStrictUrgent : Bool :=
  !s.control.isEmpty || s.latency.head?.any TrainCursor.priority

def setBulkQuantumCells (cells : Nat) : Except String Unit × V2Scheduler :=
  if 1 ≤ cells ∧ cells ≤ maxQuantumCells then
    (.ok (), { s with limits := { s.limits with maximumQuantumCells := cells } })
  else (.error "V2 tuned Bulk quantum exceeds hard Cell limit", s)

end V2Scheduler

/-! ### Calls -/

/-- The public calls that change a scheduler. -/
inductive SchedulerCall where
  | enqueueControl (bytes : Bytes)
  | enqueueProbe (bytes : Bytes)
  | enqueueTrain (flowId : UInt64) (train : PacketTrain) (maximumDatagramSize : Nat)
  | enqueueTrainWithDeadline (flowId : UInt64) (train : PacketTrain) (maximumDatagramSize : Nat)
      (deadline : Option Instant)
  | enqueueTrainWithScheduling (flowId : UInt64) (train : PacketTrain)
      (maximumDatagramSize : Nat) (deadline : Option Instant) (priority : Bool)
  | enqueueEncodedTrain (flowId : UInt64) (class' : TrafficClass) (trainId : UInt64)
      (cells : List Bytes) (stats : Option TrainBuildStats)
  | enqueueEncodedTrainWithDeadline (flowId : UInt64) (class' : TrafficClass) (trainId : UInt64)
      (cells : List Bytes) (stats : Option TrainBuildStats) (deadline : Option Instant)
  | enqueueEncodedTrainWithScheduling (flowId : UInt64) (class' : TrafficClass)
      (trainId : UInt64) (cells : List Bytes) (stats : Option TrainBuildStats)
      (deadline : Option Instant) (priority : Bool)
  | enqueueForwardedCells (flowId : UInt64) (cells : List Bytes)
  | pop
  | setBulkQuantumCells (cells : Nat)

/-- The state a call leaves behind, whatever the call returned. -/
def V2Scheduler.call (s : V2Scheduler) (now : Instant) : SchedulerCall → Except Panic V2Scheduler
  | .enqueueControl bytes => .ok (s.enqueueControl bytes).2
  | .enqueueProbe bytes => .ok (s.enqueueProbe bytes).2
  | .enqueueTrain flowId train maximum =>
    (s.enqueueTrain now flowId train maximum).map Prod.snd
  | .enqueueTrainWithDeadline flowId train maximum deadline =>
    (s.enqueueTrainWithDeadline now flowId train maximum deadline).map Prod.snd
  | .enqueueTrainWithScheduling flowId train maximum deadline priority =>
    (s.enqueueTrainWithScheduling now flowId train maximum deadline priority).map Prod.snd
  | .enqueueEncodedTrain flowId class' trainId cells stats =>
    (s.enqueueEncodedTrain now flowId class' trainId cells stats).map Prod.snd
  | .enqueueEncodedTrainWithDeadline flowId class' trainId cells stats deadline =>
    (s.enqueueEncodedTrainWithDeadline now flowId class' trainId cells stats deadline).map Prod.snd
  | .enqueueEncodedTrainWithScheduling flowId class' trainId cells stats deadline priority =>
    (s.enqueueEncodedTrainWithScheduling now flowId class' trainId cells stats deadline
      priority).map Prod.snd
  | .enqueueForwardedCells flowId cells =>
    (s.enqueueForwardedCells now flowId cells).map Prod.snd
  | .pop => (s.pop now).map Prod.snd
  | .setBulkQuantumCells cells => .ok (s.setBulkQuantumCells cells).2

/-- A sequence of calls, each with the clock it reads. -/
def V2Scheduler.run (s : V2Scheduler) : List (Instant × SchedulerCall) → Except Panic V2Scheduler
  | [] => .ok s
  | (now, next) :: rest => do
    let s ← s.call now next
    s.run rest

end Ironet.Scheduler
