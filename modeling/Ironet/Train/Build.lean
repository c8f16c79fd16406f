import Ironet.Cell.Wire

/-!
# Building a PacketTrain

Executable model of `protocol/v2/train.rs`: records are packed greedily into data Cells, a record
that does not fit is split over consecutive Cells, and the first and last Cell carry the train
boundary flags. The pool of segment descriptors only recycles allocations and is left out; the
byte statistics are natural numbers, so their saturating additions are additions.
-/
namespace Ironet.Train
open Support Cell

structure TrainRecord where
  recordId : UInt16
  metadata : Bytes
  data : Bytes
  deriving DecidableEq, Repr

structure TrainContext where
  class' : TrafficClass
  sessionEpoch : UInt32
  routeLabel : UInt32
  overlayHopLimit : UInt8
  trainId : UInt64
  maximumDatagramSize : Nat
  maximumCells : Nat
  deriving DecidableEq, Repr

structure TrainBuildStats where
  records : Nat := 0
  recordBytes : Nat := 0
  metadataBytes : Nat := 0
  splitRecords : Nat := 0
  cells : Nat := 0
  fullPayloadCells : Nat := 0
  cellPayloadBytes : Nat := 0
  cellWireBytes : Nat := 0
  unusedPayloadCapacity : Nat := 0
  fecStripes : Nat := 0
  fecProtectedDataCells : Nat := 0
  fecParityCells : Nat := 0
  fecEncodeCopyBytes : Nat := 0
  fecUnprotectedTailCells : Nat := 0
  deriving DecidableEq, Repr

structure PacketTrain where
  cells : List CellV2
  stats : TrainBuildStats
  deriving DecidableEq, Repr

variable (context : TrainContext)

def validateContext : Except String Unit := do
  ensure (headerLen + segmentHeaderLen + 1 ≤ context.maximumDatagramSize ∧
    context.maximumDatagramSize ≤ maxCellBytes) "invalid V2 packet train datagram limit"
  ensure (1 ≤ context.maximumCells ∧ context.maximumCells ≤ 65535)
    "invalid V2 packet train cell limit"
  ensure (context.sessionEpoch ≠ 0) "V2 session epoch zero is reserved"
  ensure (context.routeLabel ≠ 0) "V2 route label zero is reserved"
  ensure (context.overlayHopLimit ≠ 0) "V2 overlay hop limit is exhausted"
  ensure (context.trainId ≠ 0) "V2 train id zero is reserved"

def validateRecord (record : TrainRecord) (payloadCapacity : Nat) : Except String Unit := do
  ensure (record.recordId ≠ 0) "V2 record id zero is reserved"
  ensure (record.data ≠ [] ∧ record.data.length ≤ maxRecordBytes)
    "invalid V2 packet train record length"
  ensure (record.metadata.length ≤ maxMetadataBytes) "V2 packet train metadata is too large"
  ensure (segmentHeaderLen + record.metadata.length < payloadCapacity)
    "V2 packet train metadata leaves no payload capacity"

/-- The mutable state of the builder: finished Cells, the segments of the open Cell and the
payload bytes they use. -/
structure BuildState where
  cells : List CellV2
  current : List RecordSegment
  used : Nat
  stats : TrainBuildStats
  deriving DecidableEq, Repr

def BuildState.empty : BuildState := { cells := [], current := [], used := 0, stats := {} }

def openCell (sequence : UInt16) (segments : List RecordSegment) : CellV2 where
  class' := context.class'
  flags := 0
  sessionEpoch := context.sessionEpoch
  routeLabel := context.routeLabel
  trainId := context.trainId
  cellSequence := sequence
  stripeId := 0
  overlayHopLimit := context.overlayHopLimit
  overlayHops := 0
  body := .records segments

def finishCell (payloadCapacity : Nat) (state : BuildState) : Except String BuildState := do
  ensure (state.current ≠ []) "cannot finish an empty V2 data cell"
  ensure (state.cells.length < context.maximumCells) "V2 packet train exceeds negotiated cell limit"
  ensure (state.used ≤ payloadCapacity) "V2 packet train cell overflow"
  let stats := { state.stats with
    cells := state.stats.cells + 1
    fullPayloadCells :=
      state.stats.fullPayloadCells + if state.used = payloadCapacity then 1 else 0
    cellPayloadBytes := state.stats.cellPayloadBytes + state.used
    cellWireBytes := state.stats.cellWireBytes + (headerLen + state.used)
    unusedPayloadCapacity := state.stats.unusedPayloadCapacity + (payloadCapacity - state.used) }
  -- `u16::try_from(cells.len())`
  ensure (state.cells.length < 2 ^ 16) "V2 packet train sequence overflow"
  .ok {
    cells := state.cells ++
      [openCell context (UInt16.ofNat state.cells.length) state.current]
    current := []
    used := 0
    stats }

/-- Finish the open Cell when the guard of the source asks for it. -/
def finishCellIf (condition : Bool) (context : TrainContext) (payloadCapacity : Nat)
    (state : BuildState) : Except String BuildState :=
  if condition then finishCell context payloadCapacity state else .ok state

def segmentKind (first last : Bool) : SegmentKind :=
  match first, last with
  | true, true => .full
  | true, false => .start
  | false, true => .end
  | false, false => .continue

/-- The segment of `record` that covers the data from `offset` up to `stop`. -/
def recordSegment (record : TrainRecord) (offset stop : Nat) : RecordSegment where
  kind := segmentKind (offset == 0) (stop == record.data.length)
  flags := 0
  recordId := record.recordId
  totalLen := UInt32.ofNat record.data.length
  offset := UInt32.ofNat offset
  metadata := if offset = 0 then record.metadata else []
  data := slice record.data offset stop

/-- One turn of `while offset < record.data.len()`: the new state and the new offset. -/
def placeSegment (payloadCapacity : Nat) (record : TrainRecord)
    (offset : Nat) (state : BuildState) : Except String (BuildState × Nat) := do
  let state ← finishCellIf (state.current.length == maxSegmentsPerCell) context
    payloadCapacity state
  let metadataLen := if offset = 0 then record.metadata.length else 0
  let fixed := segmentHeaderLen + metadataLen
  let state ← finishCellIf (payloadCapacity - state.used ≤ fixed) context payloadCapacity state
  let available := payloadCapacity - state.used - fixed
  let remaining := record.data.length - offset
  let take := min available remaining
  ensure (0 < take) "V2 train builder made no record progress"
  let stop := offset + take
  let state := { state with
    current := state.current ++ [recordSegment record offset stop]
    used := state.used + (fixed + take) }
  let state ← finishCellIf (state.used == payloadCapacity) context payloadCapacity state
  .ok (state, stop)

/-- The inner loop over one record. Every turn takes at least one byte, so the record length
bounds the number of turns. -/
def placeRecord (context : TrainContext) (payloadCapacity : Nat) (record : TrainRecord) :
    Nat → Nat → Nat → BuildState → Except String (BuildState × Nat)
  | 0, _, segmentCount, state => .ok (state, segmentCount)
  | fuel + 1, offset, segmentCount, state =>
    if offset < record.data.length then do
      let (state, stop) ← placeSegment context payloadCapacity record offset state
      placeRecord context payloadCapacity record fuel stop (segmentCount + 1) state
    else .ok (state, segmentCount)

/-- The outer loop; `ids` holds the record ids seen so far. -/
def placeRecords (context : TrainContext) (payloadCapacity : Nat) :
    List TrainRecord → List UInt16 → BuildState → Except String BuildState
  | [], _, state => .ok state
  | record :: rest, ids, state => do
    validateRecord record payloadCapacity
    ensure (record.recordId ∉ ids)
      ("duplicate record id " ++ toString record.recordId ++ " in V2 packet train")
    let state := { state with stats := { state.stats with
      records := state.stats.records + 1
      recordBytes := state.stats.recordBytes + record.data.length
      metadataBytes := state.stats.metadataBytes + record.metadata.length } }
    let (state, segmentCount) ←
      placeRecord context payloadCapacity record record.data.length 0 0 state
    let state := if 1 < segmentCount then
        { state with stats := { state.stats with splitRecords := state.stats.splitRecords + 1 } }
      else state
    placeRecords context payloadCapacity rest (record.recordId :: ids) state

def markStart (cell : CellV2) : CellV2 := { cell with flags := cell.flags ||| flagTrainStart }
def markEnd (cell : CellV2) : CellV2 := { cell with flags := cell.flags ||| flagTrainEnd }

/-- `cells[0].flags |= FLAG_TRAIN_START; cells.last_mut().flags |= FLAG_TRAIN_END` -/
def markBoundaries (cells : List CellV2) : List CellV2 :=
  (cells.modifyHead markStart).modifyLast markEnd

def buildPacketTrain (records : List TrainRecord) : Except String PacketTrain := do
  validateContext context
  let payloadCapacity := context.maximumDatagramSize - headerLen
  ensure (records ≠ []) "cannot build an empty V2 packet train"
  let state ← placeRecords context payloadCapacity records [] .empty
  let state ← finishCellIf (state.current ≠ []) context payloadCapacity state
  ensure (state.cells ≠ []) "V2 packet train produced no cells"
  .ok { cells := markBoundaries state.cells, stats := state.stats }

end Ironet.Train
