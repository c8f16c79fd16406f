import Ironet.Support.Checked
import Ironet.Support.BigEndian

/-!
# The Cell wire format

Executable model of `protocol/v2/cell.rs`: the data Cell and parity Cell types, the validation
the encoder runs, the contiguous encoder, the fixed routing header and the hot-path decoder that
walks the segments with its own bounds checks and does not call `validate` again.

A `Bytes` value is the list of its bytes; buffer capacity, reference counts and recycled storage
are not part of the model.
-/
namespace Ironet.Cell
open Support

abbrev Bytes := List UInt8

def magic : Bytes := [0x49, 0x43, 0x56, 0x32]
def major : UInt8 := 2
def headerLen : Nat := 36
def segmentHeaderLen : Nat := 16
def maxCellBytes : Nat := 65535
def maxRecordBytes : Nat := 65535
def maxSegmentsPerCell : Nat := 64
def maxMetadataBytes : Nat := 256
def overlayHopLimitOffset : Nat := 34
def overlayHopsOffset : Nat := 35

def flagTrainStart : UInt8 := 1
def flagTrainEnd : UInt8 := 2
def knownFlags : UInt8 := flagTrainStart ||| flagTrainEnd

inductive CellKind where
  | data
  | fecParity
  deriving DecidableEq, Repr

def CellKind.toWire : CellKind → UInt8
  | .data => 1
  | .fecParity => 2

variable (value : UInt8)

def CellKind.fromWire : Except String CellKind :=
  if value = 1 then .ok .data
  else if value = 2 then .ok .fecParity
  else .error s!"unknown V2 cell kind {value}"

inductive TrafficClass where
  | latency
  | bulk
  deriving DecidableEq, Repr

def TrafficClass.toWire : TrafficClass → UInt8
  | .latency => 1
  | .bulk => 2

def TrafficClass.fromWire : Except String TrafficClass :=
  if value = 1 then .ok .latency
  else if value = 2 then .ok .bulk
  else .error s!"unknown V2 traffic class {value}"

inductive SegmentKind where
  | full
  | start
  | continue
  | end
  deriving DecidableEq, Repr

def SegmentKind.toWire : SegmentKind → UInt8
  | .full => 1
  | .start => 2
  | .continue => 3
  | .end => 4

def SegmentKind.fromWire : Except String SegmentKind :=
  if value = 1 then .ok .full
  else if value = 2 then .ok .start
  else if value = 3 then .ok .continue
  else if value = 4 then .ok .end
  else .error s!"unknown V2 record segment kind {value}"

structure RecordSegment where
  kind : SegmentKind
  flags : UInt8
  recordId : UInt16
  totalLen : UInt32
  offset : UInt32
  metadata : Bytes
  data : Bytes
  deriving DecidableEq, Repr

variable (segment : RecordSegment)

/-- First offset past the segment's data. -/
def RecordSegment.endOffset : Nat :=
  segment.offset.toNat + segment.data.length

/-- The kind-specific shape of a segment inside its record. -/
def RecordSegment.validateKind : Except String Unit :=
  match segment.kind with
  | .full => do
    ensure (segment.offset = 0) "full V2 record has non-zero offset"
    ensure (segment.endOffset = segment.totalLen.toNat)
      "full V2 record does not contain the complete payload"
  | .start => do
    ensure (segment.offset = 0) "start V2 segment has non-zero offset"
    ensure (segment.endOffset < segment.totalLen.toNat) "start V2 segment completes record"
  | .continue => do
    ensure (0 < segment.offset.toNat) "continuation V2 segment has zero offset"
    ensure (segment.endOffset < segment.totalLen.toNat) "continuation V2 segment completes record"
    ensure (segment.metadata = []) "continuation V2 segment carries metadata"
  | .end => do
    ensure (0 < segment.offset.toNat) "end V2 segment has zero offset"
    ensure (segment.endOffset = segment.totalLen.toNat) "end V2 segment is not final"
    ensure (segment.metadata = []) "end V2 segment carries metadata"

def RecordSegment.validate : Except String Unit := do
  ensure (segment.flags = 0) "unsupported V2 record flags"
  ensure (segment.recordId ≠ 0) "V2 record id zero is reserved"
  ensure (1 ≤ segment.totalLen.toNat ∧ segment.totalLen.toNat ≤ maxRecordBytes)
    "invalid V2 record length"
  ensure (segment.data ≠ []) "empty V2 record segment"
  ensure (segment.data.length ≤ 65535) "V2 record segment data is too large"
  ensure (segment.metadata.length ≤ maxMetadataBytes) "V2 record metadata is too large"
  -- `checked_add` on `u32`
  ensure (segment.endOffset < 2 ^ 32) "V2 record segment offset overflow"
  ensure (segment.endOffset ≤ segment.totalLen.toNat) "V2 record segment exceeds record"
  segment.validateKind

inductive CellBody where
  | records (segments : List RecordSegment)
  | parity (payload : Bytes)
  deriving DecidableEq, Repr

structure CellV2 where
  class' : TrafficClass
  flags : UInt8
  sessionEpoch : UInt32
  routeLabel : UInt32
  trainId : UInt64
  cellSequence : UInt16
  stripeId : UInt32
  /-- Remaining logical overlay hops. -/
  overlayHopLimit : UInt8
  /-- Overlay transit hops already crossed. -/
  overlayHops : UInt8
  body : CellBody
  deriving DecidableEq, Repr

structure CellRouteHeaderV2 where
  kind : CellKind
  class' : TrafficClass
  sessionEpoch : UInt32
  routeLabel : UInt32
  trainId : UInt64
  cellSequence : UInt16
  stripeId : UInt32
  segmentCount : UInt16
  payloadLen : UInt16
  overlayHopLimit : UInt8
  overlayHops : UInt8
  deriving DecidableEq, Repr

variable (cell : CellV2)

def CellV2.kind : CellKind :=
  match cell.body with
  | .records _ => .data
  | .parity _ => .fecParity

/-! ### Validation -/

def CellV2.validateHeader : Except String Unit := do
  ensure (cell.flags &&& ~~~knownFlags = 0) "unsupported V2 cell flags"
  ensure (cell.sessionEpoch ≠ 0) "V2 session epoch zero is reserved"
  ensure (cell.routeLabel ≠ 0) "V2 route label zero is reserved"
  ensure (cell.trainId ≠ 0) "V2 train id zero is reserved"
  ensure (cell.overlayHopLimit ≠ 0) "V2 overlay hop limit is exhausted"
  ensure (cell.overlayHopLimit.toNat + cell.overlayHops.toNat ≤ 255)
    "invalid V2 overlay hop accounting"

/-- `for segment in segments { segment.validate()?; }` -/
def validateSegments : List RecordSegment → Except String Unit
  | [] => .ok ()
  | segment :: rest => do
    segment.validate
    validateSegments rest

def CellV2.validate : Except String Unit := do
  cell.validateHeader
  match cell.body with
  | .records segments =>
    ensure (segments ≠ []) "V2 data cell has no records"
    ensure (segments.length ≤ maxSegmentsPerCell) "too many V2 record segments"
    validateSegments segments
  | .parity parity =>
    ensure (parity ≠ []) "empty V2 parity cell"
    ensure (cell.stripeId ≠ 0) "V2 parity cell has no stripe id"
    ensure (cell.flags = 0) "V2 parity cell has train boundary flags"

/-! ### Encoding -/

/-- Bytes a segment takes in the payload. -/
def RecordSegment.wireLen : Nat :=
  segmentHeaderLen + segment.metadata.length + segment.data.length

def CellBody.segmentCount : CellBody → Nat
  | .records segments => segments.length
  | .parity _ => 0

def CellBody.payloadLen : CellBody → Nat
  | .records segments => (segments.map RecordSegment.wireLen).sum
  | .parity payload => payload.length

/-- The fixed header of a Cell, with the counts cast to their wire width. -/
def CellV2.routeHeader : CellRouteHeaderV2 where
  kind := cell.kind
  class' := cell.class'
  sessionEpoch := cell.sessionEpoch
  routeLabel := cell.routeLabel
  trainId := cell.trainId
  cellSequence := cell.cellSequence
  stripeId := cell.stripeId
  segmentCount := UInt16.ofNat cell.body.segmentCount
  payloadLen := UInt16.ofNat cell.body.payloadLen
  overlayHopLimit := cell.overlayHopLimit
  overlayHops := cell.overlayHops

variable (maximum : Nat)

def CellV2.checkedRouteHeader : Except String CellRouteHeaderV2 := do
  cell.validate
  ensure (headerLen + 1 ≤ maximum ∧ maximum ≤ maxCellBytes) "invalid V2 cell maximum"
  ensure (cell.body.payloadLen ≤ 65535) "V2 cell payload is too large"
  ensure (headerLen + cell.body.payloadLen ≤ maximum) "V2 cell exceeds negotiated datagram maximum"
  .ok cell.routeHeader

def encodeHeader (flags : UInt8) (header : CellRouteHeaderV2) : Bytes :=
  magic ++ [major, header.kind.toWire, header.class'.toWire, flags] ++
    putU32 header.sessionEpoch ++ putU32 header.routeLabel ++ putU64 header.trainId ++
    putU16 header.cellSequence ++ putU32 header.stripeId ++ putU16 header.segmentCount ++
    putU16 header.payloadLen ++ [header.overlayHopLimit, header.overlayHops]

def encodeSegmentHeader : Bytes :=
  [segment.kind.toWire, segment.flags] ++ putU16 segment.recordId ++ putU32 segment.totalLen ++
    putU32 segment.offset ++ putU16 (UInt16.ofNat segment.data.length) ++
    putU16 (UInt16.ofNat segment.metadata.length)

def encodeSegment : Bytes :=
  encodeSegmentHeader segment ++ segment.metadata ++ segment.data

def CellBody.encode : CellBody → Bytes
  | .records segments => segments.flatMap encodeSegment
  | .parity payload => payload

variable (header : CellRouteHeaderV2)

def CellV2.encodeContiguousWithHeader : Bytes :=
  encodeHeader cell.flags header ++ cell.body.encode

def CellV2.encode : Except String Bytes := do
  let header ← cell.checkedRouteHeader maximum
  .ok (cell.encodeContiguousWithHeader header)

/-- The head, the optional zero-copy tail and the header of an outgoing datagram. Only a data Cell
with exactly one segment is split. -/
def CellV2.encodeDatagramParts : Except String (Bytes × Option Bytes × CellRouteHeaderV2) := do
  let header ← cell.checkedRouteHeader maximum
  match cell.body with
  | .records [segment] =>
    .ok (encodeHeader cell.flags header ++ encodeSegmentHeader segment ++ segment.metadata,
      some segment.data, header)
  | _ => .ok (cell.encodeContiguousWithHeader header, none, header)

/-! ### Decoding -/

/-- The last match of `CellRouteHeaderV2::decode`. -/
def CellRouteHeaderV2.checkSegmentCount : Except String Unit :=
  match header.kind with
  | .data => ensure (header.segmentCount ≠ 0) "V2 data cell has no records"
  | .fecParity => ensure (header.segmentCount = 0) "V2 parity cell contains record headers"

variable (bytes : Bytes)

def CellRouteHeaderV2.decode : Except String CellRouteHeaderV2 := do
  ensure (headerLen + 1 ≤ bytes.length ∧ bytes.length ≤ maxCellBytes) "invalid V2 cell length"
  ensure (slice bytes 0 4 = magic) "invalid V2 cell magic"
  ensure (byteAt bytes 4 = major) "unsupported V2 cell major"
  let kind ← CellKind.fromWire (byteAt bytes 5)
  let class' ← TrafficClass.fromWire (byteAt bytes 6)
  ensure (byteAt bytes 7 &&& ~~~knownFlags = 0) "unsupported V2 cell flags"
  let header : CellRouteHeaderV2 := {
    kind
    class'
    sessionEpoch := getU32 (slice bytes 8 12)
    routeLabel := getU32 (slice bytes 12 16)
    trainId := getU64 (slice bytes 16 24)
    cellSequence := getU16 (slice bytes 24 26)
    stripeId := getU32 (slice bytes 26 30)
    segmentCount := getU16 (slice bytes 30 32)
    payloadLen := getU16 (slice bytes 32 34)
    overlayHopLimit := byteAt bytes overlayHopLimitOffset
    overlayHops := byteAt bytes overlayHopsOffset }
  ensure (header.sessionEpoch ≠ 0) "V2 session epoch zero is reserved"
  ensure (header.routeLabel ≠ 0) "V2 route label zero is reserved"
  ensure (header.trainId ≠ 0) "V2 train id zero is reserved"
  ensure (header.overlayHopLimit ≠ 0) "V2 overlay hop limit is exhausted"
  ensure (header.overlayHopLimit.toNat + header.overlayHops.toNat ≤ 255)
    "invalid V2 overlay hop accounting"
  ensure (headerLen + header.payloadLen.toNat = bytes.length) "invalid V2 cell payload length"
  ensure (header.segmentCount.toNat ≤ maxSegmentsPerCell) "too many V2 record segments"
  header.checkSegmentCount
  .ok header

/-- One turn of the segment walk: the segment at `cursor` and the cursor behind it. -/
def decodeSegment (cursor : Nat) : Except String (RecordSegment × Nat) := do
  ensure (cursor + segmentHeaderLen ≤ bytes.length) "truncated V2 record segment header"
  let kind ← SegmentKind.fromWire (byteAt bytes cursor)
  let dataLen := (getU16 (slice bytes (cursor + 12) (cursor + 14))).toNat
  let metadataLen := (getU16 (slice bytes (cursor + 14) (cursor + 16))).toNat
  ensure (metadataLen ≤ maxMetadataBytes) "V2 record metadata is too large"
  let metadataEnd := cursor + segmentHeaderLen + metadataLen
  let dataEnd := metadataEnd + dataLen
  ensure (dataEnd ≤ bytes.length) "truncated V2 record segment"
  let segment : RecordSegment := {
    kind
    flags := byteAt bytes (cursor + 1)
    recordId := getU16 (slice bytes (cursor + 2) (cursor + 4))
    totalLen := getU32 (slice bytes (cursor + 4) (cursor + 8))
    offset := getU32 (slice bytes (cursor + 8) (cursor + 12))
    metadata := if metadataLen = 0 then [] else slice bytes (cursor + segmentHeaderLen) metadataEnd
    data := slice bytes metadataEnd dataEnd }
  segment.validate
  .ok (segment, dataEnd)

/-- `for _ in 0..segment_count`, pushing onto the record storage. -/
def decodeSegments (bytes : Bytes) :
    Nat → Nat → List RecordSegment → Except String (List RecordSegment × Nat)
  | 0, cursor, storage => .ok (storage, cursor)
  | count + 1, cursor, storage => do
    let (segment, next) ← decodeSegment bytes cursor
    decodeSegments bytes count next (storage ++ [segment])

variable (recordStorage : List RecordSegment)

def decodeBody (header : CellRouteHeaderV2) : Except String CellBody :=
  match header.kind with
  | .data => do
    ensure (0 < header.segmentCount.toNat) "V2 data cell has no records"
    let (segments, cursor) ←
      decodeSegments bytes header.segmentCount.toNat headerLen recordStorage
    ensure (cursor = bytes.length) "trailing V2 cell payload bytes"
    .ok (.records segments)
  | .fecParity => do
    ensure (header.segmentCount.toNat = 0) "V2 parity cell contains record headers"
    .ok (.parity (bytes.drop headerLen))

/-- The Cell with the fields of a decoded header. -/
def CellV2.ofHeader (flags : UInt8) (body : CellBody) : CellV2 where
  class' := header.class'
  flags := flags
  sessionEpoch := header.sessionEpoch
  routeLabel := header.routeLabel
  trainId := header.trainId
  cellSequence := header.cellSequence
  stripeId := header.stripeId
  overlayHopLimit := header.overlayHopLimit
  overlayHops := header.overlayHops
  body := body

/-- Decode behind an already validated routing header. Only the parity invariants the walk does
not cover are checked again. -/
def CellV2.decodeReusingWithHeader (_recordStorage : List RecordSegment)
    (header : CellRouteHeaderV2) : Except String CellV2 := do
  -- `record_storage.clear()`: the recycled descriptors never reach the result
  let body ← decodeBody bytes [] header
  let cell := CellV2.ofHeader header (byteAt bytes 7) body
  match body with
  | .records _ => .ok cell
  | .parity parity => do
    ensure (parity ≠ []) "empty V2 parity cell"
    ensure (cell.stripeId ≠ 0) "V2 parity cell has no stripe id"
    ensure (cell.flags = 0) "V2 parity cell has train boundary flags"
    .ok cell

def CellV2.decodeReusing : Except String CellV2 := do
  let header ← CellRouteHeaderV2.decode bytes
  CellV2.decodeReusingWithHeader bytes recordStorage header

def CellV2.decode : Except String CellV2 :=
  CellV2.decodeReusing bytes []

/-! ### The routing shim -/

def CellRouteHeaderV2.ingressHopLimit : Nat :=
  min 255 (header.overlayHopLimit.toNat + header.overlayHops.toNat)

structure ForwardedCellV2 where
  bytes : Bytes
  header : CellRouteHeaderV2
  deriving DecidableEq, Repr

/-- Advance the routing shim by one overlay transit hop. -/
def advanceOverlayHop : Except String ForwardedCellV2 := do
  let header ← CellRouteHeaderV2.decode bytes
  ensure (1 < header.overlayHopLimit.toNat) "V2 overlay hop limit expired"
  -- `checked_add` on `u8`
  ensure (header.overlayHops.toNat + 1 < 256) "V2 overlay hop count overflow"
  let header := { header with
    overlayHopLimit := header.overlayHopLimit - 1
    overlayHops := header.overlayHops + 1 }
  .ok {
    bytes := (bytes.set overlayHopLimitOffset header.overlayHopLimit).set
      overlayHopsOffset header.overlayHops
    header }

end Ironet.Cell
