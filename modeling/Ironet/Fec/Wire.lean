import Ironet.Cell.Wire

/-!
# FEC geometry, stripe ids and the parity payload

Executable model of the wire-format part of `protocol/v2/fec.rs`: a stripe id carries the first
sequence number and the number of data Cells of its stripe, and the payload of a parity Cell
carries the geometry, the table of the original Cell lengths and one recovery symbol.
-/
namespace Ironet.Fec
open Support Cell

def parityMagic : Bytes := [0x46, 0x50, 0x56, 0x32]
def parityFixedLen : Nat := 12
def alignmentReserve : Nat := 1
def stripeDataShift : UInt32 := 24
def stripeSequenceMask : UInt32 := (1 <<< stripeDataShift) - 1
def maxDataCells : Nat := 16
def maxParityCells : Nat := 8

structure FecGeometryV2 where
  dataCells : Nat
  parityCells : Nat
  deriving DecidableEq, Repr

def FecGeometryV2.validate (geometry : FecGeometryV2) : Except String Unit := do
  ensure (2 ≤ geometry.dataCells ∧ geometry.dataCells ≤ maxDataCells)
    "V2 FEC data Cell count is out of range"
  ensure (geometry.parityCells ≤ maxParityCells) "V2 FEC parity Cell count is out of range"

/-- Bytes a parity Cell needs beside its symbol, in the worst case. -/
def parityOverhead (dataCells : Nat) : Nat :=
  headerLen + (parityFixedLen + dataCells * 2) + alignmentReserve

/-- The largest systematic Cell that leaves room for a parity prefix and an alignment byte. -/
def protectedCellMaximum (pathMaximum dataCells : Nat) : Except String Nat := do
  ensure (2 ≤ dataCells ∧ dataCells ≤ maxDataCells) "invalid V2 FEC data Cell count"
  ensure (parityOverhead dataCells + headerLen < pathMaximum)
    "QUIC DATAGRAM limit is too small for V2 Cell FEC"
  .ok (pathMaximum - parityOverhead dataCells)

/-! ### Stripe ids -/

def encodeStripeId (firstSequence : UInt16) (dataCells : Nat) : Except String UInt32 := do
  ensure (2 ≤ dataCells ∧ dataCells ≤ maxDataCells) "invalid V2 stripe data count"
  let sequence : UInt32 := firstSequence.toUInt32 + 1
  ensure (sequence ≤ stripeSequenceMask) "V2 FEC stripe sequence is out of range"
  .ok ((UInt32.ofNat dataCells <<< stripeDataShift) ||| sequence)

/-- The first sequence number and the number of data Cells. -/
def decodeStripeId (value : UInt32) : Except String (UInt16 × Nat) := do
  let dataCells := (value >>> stripeDataShift).toNat
  let encodedSequence := value &&& stripeSequenceMask
  ensure (2 ≤ dataCells ∧ dataCells ≤ maxDataCells ∧ encodedSequence ≠ 0)
    "invalid self-describing V2 FEC stripe ID"
  -- `u16::try_from(encoded_sequence - 1)`
  ensure (encodedSequence.toNat - 1 < 2 ^ 16) "V2 FEC stripe sequence overflow"
  .ok (UInt16.ofNat (encodedSequence.toNat - 1), dataCells)

/-- `u16::try_from(usize::from(first_sequence) + index)` -/
def stripeSequence (firstSequence : UInt16) (index : Nat) : Option UInt16 :=
  if firstSequence.toNat + index < 2 ^ 16 then some (UInt16.ofNat (firstSequence.toNat + index))
  else none

/-! ### Parity payloads -/

structure ParityPayload where
  dataCells : Nat
  parityCells : Nat
  recoveryIndex : Nat
  firstSequence : UInt16
  symbolBytes : Nat
  lengths : List UInt16
  recovery : Bytes
  deriving DecidableEq, Repr

def encodeParityPayload (dataCells parityCells recoveryIndex : Nat) (firstSequence : UInt16)
    (symbolBytes : Nat) (lengths : List UInt16) (recovery : Bytes) : Except String Bytes := do
  ensure (dataCells = lengths.length) "V2 FEC length table mismatch"
  ensure (recovery.length = symbolBytes) "V2 FEC symbol length mismatch"
  .ok (parityMagic ++ [UInt8.ofNat dataCells, UInt8.ofNat parityCells, UInt8.ofNat recoveryIndex, 0]
    ++ putU16 firstSequence ++ putU16 (UInt16.ofNat symbolBytes) ++ lengths.flatMap putU16 ++
      recovery)

/-- `as_chunks::<2>()` with each chunk read as a big-endian `u16`. -/
def getU16s : Bytes → List UInt16
  | high :: low :: rest => getU16 [high, low] :: getU16s rest
  | _ => []

def decodeParityPayload (bytes : Bytes) : Except String ParityPayload := do
  ensure (parityFixedLen ≤ bytes.length) "truncated V2 parity prefix"
  ensure (slice bytes 0 4 = parityMagic) "invalid V2 parity magic"
  let dataCells := (byteAt bytes 4).toNat
  let parityCells := (byteAt bytes 5).toNat
  let recoveryIndex := (byteAt bytes 6).toNat
  ensure (byteAt bytes 7 = 0) "unsupported V2 parity flags"
  FecGeometryV2.validate { dataCells, parityCells }
  ensure (0 < parityCells ∧ recoveryIndex < parityCells) "invalid V2 parity recovery index"
  let firstSequence := getU16 (slice bytes 8 10)
  let symbolBytes := (getU16 (slice bytes 10 12)).toNat
  ensure (0 < symbolBytes ∧ symbolBytes % 2 = 0) "invalid V2 FEC symbol size"
  let lengthsEnd := parityFixedLen + dataCells * 2
  ensure (lengthsEnd ≤ bytes.length) "truncated V2 parity length table"
  let lengths := getU16s (slice bytes parityFixedLen lengthsEnd)
  ensure (∀ length ∈ lengths, 0 < length.toNat ∧ length.toNat ≤ symbolBytes)
    "invalid V2 FEC original length"
  ensure (bytes.length - lengthsEnd = symbolBytes) "invalid V2 parity symbol length"
  .ok {
    dataCells
    parityCells
    recoveryIndex
    firstSequence
    symbolBytes
    lengths
    recovery := bytes.drop lengthsEnd }

def sameGeometry (left right : ParityPayload) : Bool :=
  left.dataCells == right.dataCells && left.parityCells == right.parityCells &&
    left.firstSequence == right.firstSequence && left.symbolBytes == right.symbolBytes &&
    left.lengths == right.lengths

end Ironet.Fec
