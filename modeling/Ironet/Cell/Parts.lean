import Ironet.Cell.RoundTrip

/-!
# Encoding into a reused buffer

`encode_into` and `encode_datagram_parts_into` write into a buffer that the scheduler recycles, and
the second leaves the data of a one-segment Cell out of it. Both write the wire form of the Cell,
and the header that the scheduler keeps is the one a receiver parses.
-/
namespace Ironet.Cell
open Support CellV2

/-- `BytesMut::clear`; the capacity that it keeps is not observable. -/
def clear (_out : Bytes) : Bytes := []

/-- The loop of `encode_contiguous_with_header` over the segments. -/
def encodeSegmentsInto (out : Bytes) : List RecordSegment → Bytes
  | [] => out
  | segment :: rest =>
    encodeSegmentsInto (out ++ encodeSegmentHeader segment ++ segment.metadata ++ segment.data) rest

variable (cell : CellV2)

/-- `encode_contiguous_with_header` as the source has it, on the caller's buffer. -/
def CellV2.encodeContiguousInto (out : Bytes) (header : CellRouteHeaderV2) : Bytes :=
  let out := clear out ++ encodeHeader cell.flags header
  match cell.body with
  | .records segments => encodeSegmentsInto out segments
  | .parity parity => out ++ parity

/-- The result of the call beside the buffer it leaves. -/
def CellV2.encodeInto (maximum : Nat) (out : Bytes) : Except String Unit × Bytes :=
  match cell.checkedRouteHeader maximum with
  | .error message => (.error message, out)
  | .ok header => (.ok (), cell.encodeContiguousInto out header)

def CellV2.encodeDatagramPartsInto (maximum : Nat) (out : Bytes) :
    Except String (Option Bytes × CellRouteHeaderV2) × Bytes :=
  match cell.checkedRouteHeader maximum with
  | .error message => (.error message, out)
  | .ok header =>
    match cell.body with
    | .records [segment] =>
      (.ok (some segment.data, header),
        clear out ++ encodeHeader cell.flags header ++ encodeSegmentHeader segment ++
          segment.metadata)
    | _ => (.ok (none, header), cell.encodeContiguousInto out header)

theorem encodeSegmentsInto_eq (out : Bytes) (segments : List RecordSegment) :
    encodeSegmentsInto out segments = out ++ segments.flatMap encodeSegment := by
  induction segments generalizing out with
  | nil => simp [encodeSegmentsInto]
  | cons segment rest ih => simp [encodeSegmentsInto, ih, encodeSegment]

/-- Nothing of the previous content is left. -/
theorem CellV2.encodeContiguousInto_eq (cell : CellV2) (out : Bytes) (header : CellRouteHeaderV2) :
    cell.encodeContiguousInto out header = cell.encodeContiguousWithHeader header := by
  cases isBody : cell.body with
  | records segments =>
    simp [encodeContiguousInto, encodeContiguousWithHeader, isBody, clear,
      encodeSegmentsInto_eq, CellBody.encode]
  | parity parity =>
    simp [encodeContiguousInto, encodeContiguousWithHeader, isBody, clear, CellBody.encode]

/-- The scheduler's view of the call: the parts of the datagram, without the buffer. -/
theorem CellV2.encodeDatagramPartsInto_eq (cell : CellV2) (maximum : Nat) (out : Bytes) :
    cell.encodeDatagramParts maximum =
      (cell.encodeDatagramPartsInto maximum out).1.map fun (tail, header) =>
        ((cell.encodeDatagramPartsInto maximum out).2, tail, header) := by
  cases checked : cell.checkedRouteHeader maximum with
  | error message =>
    simp [encodeDatagramParts, encodeDatagramPartsInto, checked, error_bind, Except.map]
  | ok header =>
    simp only [encodeDatagramParts, encodeDatagramPartsInto, checked, ok_bind]
    rcases isBody : cell.body with (_ | ⟨segment, _ | ⟨second, rest⟩⟩) | parity <;>
      simp [Except.map, clear, encodeContiguousInto_eq]

/-- Head and tail together are the wire form behind the header. -/
theorem CellV2.encodeDatagramParts_joined {cell : CellV2} {maximum : Nat} {head : Bytes}
    {tail : Option Bytes} {header : CellRouteHeaderV2}
    (encoded : cell.encodeDatagramParts maximum = .ok (head, tail, header)) :
    cell.checkedRouteHeader maximum = .ok header ∧
      head ++ tail.getD [] = cell.encodeContiguousWithHeader header := by
  simp only [encodeDatagramParts, bind_eq_ok] at encoded
  obtain ⟨header', checked, encoded⟩ := encoded
  split at encoded
  next segment isBody =>
    -- the one segment is the whole body
    obtain ⟨rfl, rfl, rfl⟩ := encoded
    simp [checked, encodeContiguousWithHeader, isBody, CellBody.encode, encodeSegment]
  · obtain ⟨rfl, rfl, rfl⟩ := encoded
    simp [checked]

/-- **Split and contiguous encoding agree**, whatever the reused buffer and the recycled storage
held: the two encoders fail together, head and tail are the contiguous encoding, the returned header
is the one parsed from it, and decoding behind that header gives the Cell that `decode` gives. -/
theorem datagramParts_agree (cell : CellV2) (maximum : Nat) (out : Bytes)
    (recordStorage : List RecordSegment) : match cell.encodeDatagramPartsInto maximum out with
    | (.error message, _) =>
      cell.encode maximum = .error message ∧ (cell.encodeInto maximum out).1 = .error message
    | (.ok (tail, header), head) =>
      cell.encode maximum = .ok (head ++ tail.getD []) ∧
      cell.encodeInto maximum out = (.ok (), head ++ tail.getD []) ∧
      CellRouteHeaderV2.decode (head ++ tail.getD []) = .ok header ∧
      CellV2.decode (head ++ tail.getD []) = .ok cell ∧
      CellV2.decodeReusingWithHeader (head ++ tail.getD []) recordStorage header = .ok cell := by
  have parts := cell.encodeDatagramPartsInto_eq maximum out
  split
  next message _ failed =>
    rw [failed] at parts
    simp only [encodeDatagramParts, Except.map] at parts
    cases checked : cell.checkedRouteHeader maximum with
    | error reason =>
      simp only [checked, error_bind, Except.error.injEq] at parts
      simp [encode, encodeInto, checked, error_bind, parts]
    | ok header =>
      simp only [checked, ok_bind] at parts
      split at parts <;> cases parts
  next tail header head written =>
    rw [written] at parts
    obtain ⟨checked, joined⟩ := encodeDatagramParts_joined parts
    have encoded : cell.encode maximum = .ok (head ++ tail.getD []) := by
      simp [encode, checked, ok_bind, joined]
    obtain ⟨valid, -, high, fits, isWire⟩ := (encode_ok_iff _ _ _).mp encoded
    have short : cell.wire.length ≤ maxCellBytes := by
      rw [wire_length]
      omega
    have isHeader : header = cell.routeHeader := by
      simp only [checkedRouteHeader, do_eq_ok] at checked
      exact checked.2.2.2.2.symm
    have parsed := cell.decode_header valid short
    have decoded := (decode_ok_iff cell.wire cell).mpr ⟨valid, rfl, short⟩
    refine ⟨encoded, ?_, isWire ▸ isHeader ▸ parsed, isWire ▸ decoded, ?_⟩
    · simp [encodeInto, checked, encodeContiguousInto_eq, joined]
    · -- `decode` clears the storage as well and parses the same header first
      rw [isWire, isHeader]
      simp only [decode, decodeReusing, parsed, ok_bind] at decoded
      exact decoded

end Ironet.Cell
