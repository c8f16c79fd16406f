import Ironet.Support.HashMap
import Ironet.Cell.Wire

/-!
# Reassembling one PacketTrain

Executable model of `TrainReassembler` and `RecordState` in `protocol/v2/reassembly.rs`. Cells
arrive in any order; a record is delivered as soon as its segments cover it.

A call that fails leaves behind whatever it had changed before the failing check, so `accept`
returns the source's `Result` beside the new state. The bitmap of seen Cells and the set of
completed record ids are finite sets, and the id-sorted vector of partial records is a map. Byte
counters are natural numbers, so a saturating addition is an addition.
-/
namespace Ironet.Reassembly
open Support Cell

structure ReassemblyLimits where
  maximumCells : Nat
  maximumActiveRecords : Nat
  maximumBufferedBytes : Nat
  deriving DecidableEq, Repr

def ReassemblyLimits.validate (limits : ReassemblyLimits) : Except String Unit := do
  ensure (1 ≤ limits.maximumCells ∧ limits.maximumCells ≤ 65535) "invalid V2 reassembly cell limit"
  ensure (1 ≤ limits.maximumActiveRecords ∧ limits.maximumActiveRecords ≤ 65535)
    "invalid V2 reassembly record limit"
  ensure (maxRecordBytes ≤ limits.maximumBufferedBytes) "V2 reassembly byte limit is too small"

structure TrainKey where
  class' : TrafficClass
  sessionEpoch : UInt32
  routeLabel : UInt32
  trainId : UInt64
  deriving DecidableEq, Repr

variable (cell : CellV2)

def trainKey : TrainKey where
  class' := cell.class'
  sessionEpoch := cell.sessionEpoch
  routeLabel := cell.routeLabel
  trainId := cell.trainId

structure CompletedRecord where
  train : TrainKey
  recordId : UInt16
  metadata : Bytes
  totalLen : Nat
  fragments : List Bytes
  deriving DecidableEq, Repr

/-- Both branches of the source return the concatenation of the fragments. -/
def CompletedRecord.coalesce (record : CompletedRecord) : Bytes := record.fragments.flatten

structure FecReceiveStatsV2 where
  parityReceived : Nat := 0
  recoveredCells : Nat := 0
  wastedParity : Nat := 0
  expiredStripes : Nat := 0
  decodeCopyBytes : Nat := 0
  recoveryLatencyMicros : Nat := 0
  deriving DecidableEq, Repr

def FecReceiveStatsV2.merge (self other : FecReceiveStatsV2) : FecReceiveStatsV2 where
  parityReceived := self.parityReceived + other.parityReceived
  recoveredCells := self.recoveredCells + other.recoveredCells
  wastedParity := self.wastedParity + other.wastedParity
  expiredStripes := self.expiredStripes + other.expiredStripes
  decodeCopyBytes := self.decodeCopyBytes + other.decodeCopyBytes
  recoveryLatencyMicros := self.recoveryLatencyMicros + other.recoveryLatencyMicros

structure ReassemblyOutput where
  records : List CompletedRecord := []
  duplicateCell : Bool := false
  trainComplete : Bool := false
  pressureEvictedTrains : Nat := 0
  reassemblyExpiredTrains : Nat := 0
  reorderCells : Nat := 0
  missingCells : Nat := 0
  fec : FecReceiveStatsV2 := {}
  deriving DecidableEq, Repr

def ReassemblyOutput.merge (self other : ReassemblyOutput) : ReassemblyOutput where
  records := self.records ++ other.records
  duplicateCell := self.duplicateCell || other.duplicateCell
  trainComplete := self.trainComplete || other.trainComplete
  pressureEvictedTrains := self.pressureEvictedTrains + other.pressureEvictedTrains
  reassemblyExpiredTrains := self.reassemblyExpiredTrains + other.reassemblyExpiredTrains
  reorderCells := self.reorderCells + other.reorderCells
  missingCells := self.missingCells + other.missingCells
  fec := self.fec.merge other.fec

/-! ### One partial record -/

/-- The vectors `offsets` and `fragments` of the source are one list of pairs, sorted by offset. -/
structure RecordState where
  totalLen : Nat
  metadata : Option Bytes := none
  fragments : List (Nat × Bytes) := []
  dataBytes : Nat := 0
  bufferedBytes : Nat := 0
  deriving DecidableEq, Repr

variable (state : RecordState) (segment : RecordSegment)

def RecordState.additionalBytes : Nat :=
  segment.data.length + if state.metadata.isNone then segment.metadata.length else 0

/-- The fragments before `offset`; `partition_point` on the sorted offsets. -/
def RecordState.fragmentsBefore (offset : Nat) : List (Nat × Bytes) :=
  state.fragments.takeWhile fun fragment => fragment.1 < offset

def RecordState.fragmentsFrom (offset : Nat) : List (Nat × Bytes) :=
  state.fragments.dropWhile fun fragment => fragment.1 < offset

def fragmentEnd (fragment : Nat × Bytes) : Nat := fragment.1 + fragment.2.length

def opensRecord (kind : SegmentKind) : Bool := kind = .full || kind = .start

/-- The metadata and the metadata bytes to add, when the segment opens the record. -/
def RecordState.insertMetadata : Except String RecordState :=
  if opensRecord segment.kind then
    match state.metadata with
    | some existing =>
      if existing = segment.metadata then .ok state else .error "V2 record metadata changed"
    | none => .ok { state with
        metadata := some segment.metadata
        bufferedBytes := state.bufferedBytes + segment.metadata.length }
  else .ok state

def RecordState.insert : Except String RecordState := do
  ensure (state.totalLen = segment.totalLen.toNat) "V2 record total length changed"
  let offset := segment.offset.toNat
  let before := state.fragmentsBefore offset
  let behind := state.fragmentsFrom offset
  ensure (∀ previous ∈ before.getLast?, fragmentEnd previous ≤ offset)
    "overlapping V2 record segment"
  ensure (∀ next ∈ behind.head?, segment.endOffset ≤ next.1) "overlapping V2 record segment"
  let state ← state.insertMetadata segment
  .ok { state with
    dataBytes := state.dataBytes + segment.data.length
    bufferedBytes := state.bufferedBytes + segment.data.length
    fragments := before ++ (offset, segment.data) :: behind }

def RecordState.complete : Bool :=
  state.metadata.isSome && state.dataBytes == state.totalLen

/-- Only called on a complete record, whose metadata is present. -/
def RecordState.finish (train : TrainKey) (recordId : UInt16) : CompletedRecord where
  train := train
  recordId := recordId
  metadata := state.metadata.getD []
  totalLen := state.totalLen
  fragments := state.fragments.map Prod.snd

/-! ### One train -/

structure TrainReassembler where
  limits : ReassemblyLimits
  key : Option TrainKey := none
  seenCells : Finset UInt16 := ∅
  seenCellCount : Nat := 0
  maxSeenSequence : Option UInt16 := none
  completedRecords : Finset UInt16 := ∅
  records : HashMap UInt16 RecordState := ∅
  endSequence : Option UInt16 := none
  sawStart : Bool := false
  closureObserved : Bool := false
  bufferedBytes : Nat := 0

def TrainReassembler.new (limits : ReassemblyLimits) : Except String TrainReassembler := do
  limits.validate
  .ok { limits }

variable (self : TrainReassembler)

def TrainReassembler.isComplete : Bool :=
  match self.endSequence with
  | none => false
  | some sequence =>
    self.sawStart && self.records.size == 0 && self.seenCellCount == sequence.toNat + 1

def TrainReassembler.cellSeen (sequence : UInt16) : Bool :=
  sequence ∈ self.seenCells

def TrainReassembler.markCellSeen (sequence : UInt16) : TrainReassembler :=
  { self with
    seenCells := insert sequence self.seenCells
    seenCellCount := self.seenCellCount + 1
    maxSeenSequence :=
      some (self.maxSeenSequence.elim sequence fun maximum => max maximum sequence) }

/-- The first time both ends of the train are known: how many Cells are still missing. -/
def TrainReassembler.observeClosure : Nat × TrainReassembler :=
  if !self.closureObserved && self.sawStart then
    match self.endSequence with
    | some sequence =>
      (sequence.toNat + 1 - self.seenCellCount, { self with closureObserved := true })
    | none => (0, self)
  else (0, self)

variable (key : TrainKey) (segment : RecordSegment)

def TrainReassembler.acceptFull : Except String (Option CompletedRecord) × TrainReassembler :=
  match self.records.lookup segment.recordId with
  | some _ => (.error "V2 full record collides with partial record", self)
  | none =>
    (.ok (some {
      train := key
      recordId := segment.recordId
      metadata := segment.metadata
      totalLen := segment.totalLen.toNat
      fragments := [segment.data] }),
    { self with completedRecords := insert segment.recordId self.completedRecords })

/-- Put a segment into the partial record `state`, which is already in the table. -/
def TrainReassembler.extendRecord (state : RecordState) :
    Except String (Option CompletedRecord) × TrainReassembler :=
  let additional := state.additionalBytes segment
  if self.limits.maximumBufferedBytes < self.bufferedBytes + additional then
    (.error "V2 reassembly byte budget exceeded", self)
  else match state.insert segment with
    | .error message => (.error message, self)
    | .ok state =>
      let bufferedBytes := self.bufferedBytes + additional
      if state.complete then
        (.ok (some (state.finish key segment.recordId)), { self with
          records := self.records.erase segment.recordId
          bufferedBytes := bufferedBytes - state.bufferedBytes
          completedRecords := insert segment.recordId self.completedRecords })
      else
        (.ok none, { self with
          records := self.records.insert segment.recordId state, bufferedBytes })

def TrainReassembler.acceptPartial : Except String (Option CompletedRecord) × TrainReassembler :=
  match self.records.lookup segment.recordId with
  | some state => self.extendRecord key segment state
  | none =>
    if self.records.size < self.limits.maximumActiveRecords then
      let state : RecordState := { totalLen := segment.totalLen.toNat }
      { self with records := self.records.insert segment.recordId state }.extendRecord key segment
        state
    else (.error "too many active V2 records", self)

/-- One turn of the loop over the segments of a Cell. -/
def TrainReassembler.acceptSegment : Except String (Option CompletedRecord) × TrainReassembler :=
  if segment.recordId ∈ self.completedRecords then
    (.error "V2 record id reused after completion", self)
  else if segment.kind = .full then self.acceptFull key segment
  else self.acceptPartial key segment

def TrainReassembler.acceptSegments (self : TrainReassembler) (key : TrainKey) :
    List RecordSegment → List CompletedRecord →
      Except String (List CompletedRecord) × TrainReassembler
  | [], completed => (.ok completed, self)
  | segment :: rest, completed =>
    match self.acceptSegment key segment with
    | (.error message, self) => (.error message, self)
    | (.ok emitted, self) => self.acceptSegments key rest (completed ++ emitted.toList)

def hasFlag (flag : UInt8) : Bool := cell.flags &&& flag != 0

variable (self : TrainReassembler) (cell : CellV2)

/-- The checks of the train boundary flags. -/
def TrainReassembler.observeFlags : Except String Unit × TrainReassembler :=
  if hasFlag cell flagTrainStart && cell.cellSequence != 0 then
    (.error "V2 train start is not cell zero", self)
  else
    let self := { self with sawStart := self.sawStart || hasFlag cell flagTrainStart }
    if hasFlag cell flagTrainEnd then
      if self.endSequence.any (· != cell.cellSequence) then
        (.error "V2 train has conflicting end cells", self)
      else (.ok (), { self with endSequence := some cell.cellSequence })
    else (.ok (), self)

/-- The part of `accept` behind the boundary flags. -/
def TrainReassembler.acceptBody (reordered : Bool) :
    Except String ReassemblyOutput × TrainReassembler :=
  let (missingCells, self) := self.observeClosure
  match cell.body with
  | .parity _ =>
    (.error "V2 parity cell must pass through FEC recovery before reassembly", self)
  | .records segments =>
    match self.acceptSegments (trainKey cell) segments [] with
    | (.error message, self) => (.error message, self)
    | (.ok records, self) =>
      (.ok {
        records
        trainComplete := self.isComplete
        reorderCells := if reordered then 1 else 0
        missingCells }, self)

def TrainReassembler.accept : Except String ReassemblyOutput × TrainReassembler :=
  if self.key.any (· != trainKey cell) then (.error "V2 cell belongs to another train", self)
  else
    let self := { self with key := some (trainKey cell) }
    if self.limits.maximumCells ≤ cell.cellSequence.toNat then
      (.error "V2 cell sequence exceeds reassembly limit", self)
    else
      let reordered := self.maxSeenSequence.any fun maximum => cell.cellSequence < maximum
      if self.cellSeen cell.cellSequence then
        (.ok { duplicateCell := true, trainComplete := self.isComplete }, self)
      else
        match (self.markCellSeen cell.cellSequence).observeFlags cell with
        | (.error message, self) => (.error message, self)
        | (.ok _, self) => self.acceptBody cell reordered

end Ironet.Reassembly
