import Ironet.Support.Chunks
import Ironet.Support.ErasureCode
import Ironet.Cell.Transit
import Ironet.Fec.Wire

/-!
# The stripe encoder

Executable model of `CellStripeEncoder` in `protocol/v2/fec.rs`. The Cells of a train are cut into
stripes; every stripe of two or more Cells gets parity Cells, a single Cell at the end stays
unprotected.

The Reed-Solomon codec is a parameter. The pool of wire buffers and the cached codec only save
allocations and are left out; with a cached codec an unsupported geometry is reported as
`resetting V2 FEC encoder geometry`.
-/
namespace Ironet.Fec
open Support Cell

structure FecEncodeStatsV2 where
  protectedDataCells : Nat := 0
  parityCells : Nat := 0
  parityBytes : Nat := 0
  encodeCopyBytes : Nat := 0
  unprotectedTailCells : Nat := 0
  deriving DecidableEq, Repr

structure EncodedCellV2 where
  bytes : Bytes
  recovery : Bool
  deriving DecidableEq, Repr

structure EncodedTrainV2 where
  systematic : List Bytes := []
  parity : List Bytes := []
  ordered : List EncodedCellV2 := []
  stats : FecEncodeStatsV2 := {}
  deriving DecidableEq, Repr

/-- Add what one stripe contributes to the output. -/
def EncodedTrainV2.append (output stripe : EncodedTrainV2) : EncodedTrainV2 where
  systematic := output.systematic ++ stripe.systematic
  parity := output.parity ++ stripe.parity
  ordered := output.ordered ++ stripe.ordered
  stats := {
    protectedDataCells := output.stats.protectedDataCells + stripe.stats.protectedDataCells
    parityCells := output.stats.parityCells + stripe.stats.parityCells
    parityBytes := output.stats.parityBytes + stripe.stats.parityBytes
    encodeCopyBytes := output.stats.encodeCopyBytes + stripe.stats.encodeCopyBytes
    unprotectedTailCells :=
      output.stats.unprotectedTailCells + stripe.stats.unprotectedTailCells }

/-- The tuple in which all Cells of a train agree. -/
structure TrainIdentity where
  class' : TrafficClass
  sessionEpoch : UInt32
  routeLabel : UInt32
  trainId : UInt64
  overlayHopLimit : UInt8
  overlayHops : UInt8
  deriving DecidableEq, Repr

def TrainIdentity.ofCell (cell : CellV2) : TrainIdentity where
  class' := cell.class'
  sessionEpoch := cell.sessionEpoch
  routeLabel := cell.routeLabel
  trainId := cell.trainId
  overlayHopLimit := cell.overlayHopLimit
  overlayHops := cell.overlayHops

/-- `Cell::encode_into` for every Cell. -/
def encodeAll (maximum : Nat) : List CellV2 → Except String (List Bytes)
  | [] => .ok []
  | cell :: rest => do
    let bytes ← cell.encode maximum
    let later ← encodeAll maximum rest
    .ok (bytes :: later)

/-- Give the Cells of a stripe its id, provided that their sequence numbers are consecutive. -/
def joinStripe (stripeId : UInt32) (firstSequence : UInt16) :
    Nat → List CellV2 → Except String (List CellV2)
  | _, [] => .ok []
  | offset, cell :: rest => do
    ensure (cell.cellSequence.toNat = firstSequence.toNat + offset)
      "V2 FEC data Cells are not contiguous"
    let later ← joinStripe stripeId firstSequence (offset + 1) rest
    .ok ({ cell with stripeId } :: later)

def encodedDataCellLen (cell : CellV2) : Except String Nat :=
  match cell.body with
  | .parity _ => .error "V2 FEC systematic Cell is not data"
  | .records segments => .ok (headerLen + (segments.map RecordSegment.wireLen).sum)

/-- The table of Cell lengths that goes into every parity Cell. -/
def stripeLengths : List CellV2 → Except String (List UInt16)
  | [] => .ok []
  | cell :: rest => do
    let length ← encodedDataCellLen cell
    -- `u16::try_from(length)`
    ensure (length < 2 ^ 16) "V2 systematic Cell length overflow"
    let later ← stripeLengths rest
    .ok (UInt16.ofNat length :: later)

/-- `lengths.max().next_multiple_of(2)` -/
def symbolSize (lengths : List UInt16) : Nat :=
  let longest := (lengths.map UInt16.toNat).foldr max 0
  longest + longest % 2

/-- A data Cell as a symbol: zero-padded, with its hop bytes cleared. A Cell is longer than its
header, so the hop bytes are there. -/
def dataSymbol (symbolBytes : Nat) (bytes : Bytes) : Symbol :=
  setShim (bytes ++ List.replicate (symbolBytes - bytes.length) 0) 0 0

def parityCell (identity : TrainIdentity) (stripeId : UInt32) (recoveryIndex : Nat)
    (payload : Bytes) : CellV2 where
  class' := identity.class'
  flags := 0
  sessionEpoch := identity.sessionEpoch
  routeLabel := identity.routeLabel
  trainId := identity.trainId
  cellSequence := UInt16.ofNat recoveryIndex
  stripeId
  overlayHopLimit := identity.overlayHopLimit
  overlayHops := identity.overlayHops
  body := .parity payload

/-- The parity Cells of a stripe, one for every recovery symbol. -/
def encodeParity (pathMaximum : Nat) (identity : TrainIdentity) (stripeId : UInt32)
    (geometry : FecGeometryV2) (firstSequence : UInt16) (symbolBytes : Nat)
    (lengths : List UInt16) : Nat → List Symbol → Except String (List Bytes)
  | _, [] => .ok []
  | recoveryIndex, recovery :: rest => do
    let payload ← encodeParityPayload geometry.dataCells geometry.parityCells recoveryIndex
      firstSequence symbolBytes lengths recovery
    let bytes ← (parityCell identity stripeId recoveryIndex payload).encode pathMaximum
    let later ← encodeParity pathMaximum identity stripeId geometry firstSequence
      symbolBytes lengths
      (recoveryIndex + 1) rest
    .ok (bytes :: later)

def dataDatagrams (systematic : List Bytes) : List EncodedCellV2 :=
  systematic.map fun bytes => { bytes, recovery := false }

def parityDatagrams (parity : List Bytes) : List EncodedCellV2 :=
  parity.map fun bytes => { bytes, recovery := true }

/-- A single Cell cannot form a stripe. -/
def encodeUnprotected (pathMaximum : Nat) (cell : CellV2) : Except String EncodedTrainV2 := do
  let bytes ← { cell with stripeId := 0 }.encode pathMaximum
  .ok {
    systematic := [bytes]
    ordered := dataDatagrams [bytes]
    stats := { unprotectedTailCells := 1 } }

/-- Two or more Cells and their parity. -/
def encodeProtected (codec : ErasureCodec) (parityCells : Nat) (identity : TrainIdentity)
    (pathMaximum protectedMaximum : Nat) (firstSequence : UInt16) (stripe : List CellV2) :
    Except String EncodedTrainV2 := do
  let stripeId ← encodeStripeId firstSequence stripe.length
  let stripe ← joinStripe stripeId firstSequence 0 stripe
  let lengths ← stripeLengths stripe
  let symbolBytes := symbolSize lengths
  ensure (headerLen + (parityFixedLen + stripe.length * 2) + symbolBytes ≤ pathMaximum)
    "V2 parity Cell exceeds QUIC DATAGRAM limit"
  ensure (codec.supports stripe.length parityCells symbolBytes = true)
    "unsupported V2 FEC encoder geometry"
  let systematic ← encodeAll protectedMaximum stripe
  let recoveries ← codec.encode stripe.length parityCells symbolBytes
    (systematic.map (dataSymbol symbolBytes))
  let parity ← encodeParity pathMaximum identity stripeId
    { dataCells := systematic.length, parityCells } firstSequence symbolBytes lengths 0 recoveries
  -- the codec returns `parity_cells` symbols, so these are the last entries of `output.parity`
  .ok {
    systematic
    parity
    ordered := dataDatagrams systematic ++ parityDatagrams parity
    stats := {
      protectedDataCells := systematic.length
      parityCells := parity.length
      parityBytes := (parity.map List.length).sum } }

def encodeStripe (codec : ErasureCodec) (parityCells : Nat) (identity : TrainIdentity)
    (pathMaximum protectedMaximum : Nat) (stripe : List CellV2) : Except String EncodedTrainV2 :=
  match stripe with
  | [] => .ok {}
  | [cell] => encodeUnprotected pathMaximum cell
  | first :: second :: rest =>
    encodeProtected codec parityCells identity pathMaximum protectedMaximum first.cellSequence
      (first :: second :: rest)

/-- The loop over the stripes of a train. -/
def encodeStripes (codec : ErasureCodec) (parityCells : Nat) (identity : TrainIdentity)
    (pathMaximum protectedMaximum : Nat) :
    List (List CellV2) → EncodedTrainV2 → Except String EncodedTrainV2
  | [], output => .ok output
  | stripe :: rest, output => do
    let encoded ← encodeStripe codec parityCells identity pathMaximum protectedMaximum stripe
    encodeStripes codec parityCells identity pathMaximum protectedMaximum rest
      (output.append encoded)

structure CellStripeEncoder where
  geometry : FecGeometryV2
  deriving DecidableEq, Repr

namespace CellStripeEncoder

def new (geometry : FecGeometryV2) : Except String CellStripeEncoder := do
  geometry.validate
  .ok { geometry }

def encode (codec : ErasureCodec) (self : CellStripeEncoder) (cells : List CellV2)
    (pathMaximum : Nat) : Except String EncodedTrainV2 :=
  match cells with
  | [] => .error "cannot FEC-encode an empty V2 train"
  | first :: _ => do
    let identity := TrainIdentity.ofCell first
    ensure (∀ cell ∈ cells, cell.kind = .data ∧ TrainIdentity.ofCell cell = identity)
      "V2 FEC stripe crosses train, route, epoch, or class"
    if self.geometry.parityCells = 0 then
      let systematic ← encodeAll pathMaximum cells
      .ok { systematic, ordered := dataDatagrams systematic }
    else
      let protectedMaximum ← protectedCellMaximum pathMaximum self.geometry.dataCells
      encodeStripes codec self.geometry.parityCells identity pathMaximum protectedMaximum
        (chunks self.geometry.dataCells cells) {}

end CellStripeEncoder
end Ironet.Fec
