import Ironet.Cell.Wire

/-!
# The Cell codec is a bijection on its image

Both directions go through one characterisation of the decoder: it accepts exactly the byte
strings of the valid Cells that fit a datagram, and returns that Cell. The segment walk is an
induction over the segment count; one turn is characterised by `decodeSegment_ok_iff`.
-/
namespace Ironet.Cell
open Support CellBody List RecordSegment UInt16

def CellV2.wire (cell : CellV2) : Bytes :=
  cell.encodeContiguousWithHeader cell.routeHeader

/-! ### Wire tags -/

variable (value : UInt8)

@[simp] theorem CellKind.fromWire_eq_ok (kind : CellKind) :
    CellKind.fromWire value = .ok kind ↔ value = kind.toWire := by
  unfold CellKind.fromWire
  cases kind <;> split_ifs <;> simp_all [CellKind.toWire]

@[simp] theorem TrafficClass.fromWire_eq_ok (c : TrafficClass) :
    TrafficClass.fromWire value = .ok c ↔ value = c.toWire := by
  unfold TrafficClass.fromWire
  cases c <;> split_ifs <;> simp_all [TrafficClass.toWire]

@[simp] theorem SegmentKind.fromWire_eq_ok (kind : SegmentKind) :
    SegmentKind.fromWire value = .ok kind ↔ value = kind.toWire := by
  unfold SegmentKind.fromWire
  cases kind <;> split_ifs <;> simp_all [SegmentKind.toWire]

/-! ### Validation facts -/

variable (segment : RecordSegment)

theorem RecordSegment.validate_bounds (valid : segment.validate = .ok ()) :
    segment.data ≠ [] ∧ segment.data.length ≤ 65535 ∧
      segment.metadata.length ≤ maxMetadataBytes := by
  simp only [validate, do_eq_ok] at valid
  exact ⟨valid.2.2.2.1, valid.2.2.2.2.1, valid.2.2.2.2.2.1⟩

theorem validateSegments_ok_iff (segments : List RecordSegment) :
    validateSegments segments = .ok () ↔ ∀ segment ∈ segments, segment.validate = .ok () := by
  induction segments with
  | nil => simp [validateSegments]
  | cons segment rest ih => simp only [validateSegments, do_eq_ok, ih, forall_mem_cons]

/-! ### One segment -/

@[simp] theorem encodeSegmentHeader_length :
    (encodeSegmentHeader segment).length = segmentHeaderLen := by
  simp [encodeSegmentHeader, segmentHeaderLen]

@[simp] theorem encodeSegment_length : (encodeSegment segment).length = segment.wireLen := by
  simp [encodeSegment, wireLen, Nat.add_assoc]

theorem encodeSegment_iff {bytes : Bytes} {cursor next : Nat} {segment : RecordSegment}
    (isNext : next = cursor + segment.wireLen) (within : next ≤ bytes.length) :
    slice bytes cursor next = encodeSegment segment ↔
      byteAt bytes cursor = segment.kind.toWire ∧ byteAt bytes (cursor + 1) = segment.flags ∧
      getU16 (slice bytes (cursor + 2) (cursor + 4)) = segment.recordId ∧
      getU32 (slice bytes (cursor + 4) (cursor + 8)) = segment.totalLen ∧
      getU32 (slice bytes (cursor + 8) (cursor + 12)) = segment.offset ∧
      getU16 (slice bytes (cursor + 12) (cursor + 14)) = ofNat segment.data.length ∧
      getU16 (slice bytes (cursor + 14) (cursor + 16)) = ofNat segment.metadata.length ∧
      slice bytes (cursor + 16) (cursor + 16 + segment.metadata.length) = segment.metadata ∧
      slice bytes (cursor + 16 + segment.metadata.length)
        (cursor + 16 + segment.metadata.length + segment.data.length) = segment.data := by
  have fields : encodeSegment segment = [[segment.kind.toWire], [segment.flags],
      putU16 segment.recordId, putU32 segment.totalLen, putU32 segment.offset,
      putU16 (ofNat segment.data.length), putU16 (ofNat segment.metadata.length),
      segment.metadata, segment.data].flatten := by
    simp [encodeSegment, encodeSegmentHeader]
  have size := encodeSegment_length segment
  rw [fields] at size ⊢
  rw [slice_eq_flatten_iff (by omega) within]
  simp only [wireLen, segmentHeaderLen] at isNext
  simp only [FieldsAt, length_cons, length_nil, putU16_length, putU32_length,
    Nat.add_assoc, Nat.reduceAdd, and_true]
  simp (disch := omega) only [slice_eq_singleton_iff, slice_eq_putU16_iff, slice_eq_putU32_iff]

variable (bytes : Bytes)

/-- The explicit empty value for absent metadata is the empty slice. -/
theorem metadata_slice (start length : Nat) :
    (if length = 0 then [] else slice bytes start (start + length)) =
      slice bytes start (start + length) := by
  split
  next absent => simp [slice, absent]
  · rfl

/-- **One turn of the walk**: the decoder accepts at `cursor` exactly the encoding of a valid
segment, and moves behind it. -/
theorem decodeSegment_ok_iff (cursor : Nat) (segment : RecordSegment) (next : Nat) :
    decodeSegment bytes cursor = .ok (segment, next) ↔
      segment.validate = .ok () ∧ next = cursor + segment.wireLen ∧ next ≤ bytes.length ∧
        slice bytes cursor next = encodeSegment segment := by
  simp only [decodeSegment, do_eq_ok, Prod.mk.injEq, SegmentKind.fromWire_eq_ok, metadata_slice]
  simp only [segmentHeaderLen]
  constructor
  · rintro ⟨enough, kind, tag, _, within, valid, rfl, rfl⟩
    generalize lens : (getU16 (slice bytes (cursor + 14) (cursor + 16))).toNat = metadataLen at *
    generalize lend : (getU16 (slice bytes (cursor + 12) (cursor + 14))).toNat = dataLen at *
    have metadataLength :
        (slice bytes (cursor + 16) (cursor + 16 + metadataLen)).length = metadataLen := by
      rw [slice_length _ _ _ (by omega)]
      omega
    have dataLength : (slice bytes (cursor + 16 + metadataLen)
        (cursor + 16 + metadataLen + dataLen)).length = dataLen := by
      rw [slice_length _ _ _ (by omega)]
      omega
    have isNext : cursor + 16 + metadataLen + dataLen = cursor + wireLen
        ⟨kind, byteAt bytes (cursor + 1), getU16 (slice bytes (cursor + 2) (cursor + 4)),
          getU32 (slice bytes (cursor + 4) (cursor + 8)),
          getU32 (slice bytes (cursor + 8) (cursor + 12)),
          slice bytes (cursor + 16) (cursor + 16 + metadataLen),
          slice bytes (cursor + 16 + metadataLen) (cursor + 16 + metadataLen + dataLen)⟩ := by
      simp only [wireLen, segmentHeaderLen, metadataLength, dataLength]
      omega
    refine ⟨valid, isNext, within, (encodeSegment_iff isNext within).mpr ?_⟩
    simp only [metadataLength, dataLength, and_true, true_and]
    exact ⟨tag, by rw [← lend, UInt16.ofNat_toNat], by rw [← lens, UInt16.ofNat_toNat]⟩
  rintro ⟨valid, isNext, within, encoded⟩
  obtain ⟨nonempty, dataBound, metadataBound⟩ := segment.validate_bounds valid
  obtain ⟨tag, flags, id, total, offset, dataField, metadataField, metadataSlice, dataSlice⟩ :=
    (encodeSegment_iff isNext within).mp encoded
  have dataLen : (getU16 (slice bytes (cursor + 12) (cursor + 14))).toNat =
      segment.data.length := by
    rw [dataField]
    exact toNat_ofNat_of_lt' (by simp [size]; omega)
  have metadataLen : (getU16 (slice bytes (cursor + 14) (cursor + 16))).toNat =
      segment.metadata.length := by
    rw [metadataField]
    simp only [maxMetadataBytes] at metadataBound
    exact toNat_ofNat_of_lt' (by simp [size]; omega)
  simp only [wireLen, segmentHeaderLen] at isNext
  rw [dataLen, metadataLen, metadataSlice, dataSlice, flags, id, total, offset]
  exact ⟨by omega, segment.kind, tag, metadataBound, by omega, valid, rfl, by omega⟩

/-! ### The segment walk -/

/-- Walking `count` segments from `cursor` reads exactly the encodings of `count` valid segments. -/
theorem decodeSegments_ok_iff (count cursor : Nat) (storage segments : List RecordSegment)
    (next : Nat) (inside : cursor ≤ bytes.length) :
    decodeSegments bytes count cursor storage = .ok (segments, next) ↔
      ∃ read, segments = storage ++ read ∧ read.length = count ∧
        (∀ segment ∈ read, segment.validate = .ok ()) ∧
        next = cursor + (read.map wireLen).sum ∧ next ≤ bytes.length ∧
        slice bytes cursor next = read.flatMap encodeSegment := by
  induction count generalizing cursor storage with
  | zero =>
    simp only [decodeSegments, Except.ok.injEq, Prod.mk.injEq]
    constructor
    · rintro ⟨rfl, rfl⟩
      exact ⟨[], by simp [slice, inside]⟩
    · rintro ⟨read, rfl, none, _, rfl, _⟩
      rw [length_eq_zero_iff.mp none]
      simp
  | succ count ih =>
  simp only [decodeSegments, bind_eq_ok, Prod.exists]
  constructor
  · rintro ⟨segment, middle, first, rest⟩
    obtain ⟨valid, rfl, within, encoded⟩ := (decodeSegment_ok_iff _ _ _ _).mp first
    obtain ⟨read, rfl, rfl, allValid, rfl, bound, tail⟩ := (ih _ _ within).mp rest
    refine ⟨segment :: read, by simp, by simp, ?_, ?_, bound, ?_⟩
    · exact forall_mem_cons.mpr ⟨valid, allValid⟩
    · simp only [map_cons, sum_cons]
      omega
    · rw [flatMap_cons, ← encoded, ← tail, slice_append_slice _ _ _ _ (by omega) (by omega)]
  rintro ⟨read, rfl, size, allValid, rfl, bound, encoded⟩
  obtain ⟨segment, read, rfl⟩ := exists_cons_of_length_eq_add_one size
  have total : ((segment :: read).map wireLen).sum =
      segment.wireLen + (read.map wireLen).sum := rfl
  have within : cursor + segment.wireLen ≤ bytes.length := by omega
  rw [← slice_append_slice bytes cursor (cursor + segment.wireLen) _ (by omega) (by omega)]
    at encoded
  have parts := append_inj encoded (by
    rw [slice_length _ _ _ within, encodeSegment_length]
    omega)
  refine ⟨segment, cursor + segment.wireLen, ?_, ?_⟩
  · exact (decodeSegment_ok_iff _ _ _ _).mpr
      ⟨(forall_mem_cons.mp allValid).1, rfl, within, parts.1⟩
  · refine (ih _ _ within).mpr ⟨read, by simp, by simpa using size,
      (forall_mem_cons.mp allValid).2, by omega, by omega, ?_⟩
    exact parts.2

/-! ### The fixed header -/

variable (flags : UInt8) (header : CellRouteHeaderV2)

@[simp] theorem encodeHeader_length : (encodeHeader flags header).length = headerLen := by
  simp [encodeHeader, magic, headerLen]

theorem encodeHeader_iff {bytes : Bytes} (long : headerLen ≤ bytes.length) (flags : UInt8)
    (header : CellRouteHeaderV2) : slice bytes 0 headerLen = encodeHeader flags header ↔
      slice bytes 0 4 = magic ∧ byteAt bytes 4 = major ∧ byteAt bytes 5 = header.kind.toWire ∧
      byteAt bytes 6 = header.class'.toWire ∧ byteAt bytes 7 = flags ∧
      getU32 (slice bytes 8 12) = header.sessionEpoch ∧
      getU32 (slice bytes 12 16) = header.routeLabel ∧
      getU64 (slice bytes 16 24) = header.trainId ∧
      getU16 (slice bytes 24 26) = header.cellSequence ∧
      getU32 (slice bytes 26 30) = header.stripeId ∧
      getU16 (slice bytes 30 32) = header.segmentCount ∧
      getU16 (slice bytes 32 34) = header.payloadLen ∧
      byteAt bytes 34 = header.overlayHopLimit ∧ byteAt bytes 35 = header.overlayHops := by
  have fields : encodeHeader flags header = [magic, [major], [header.kind.toWire],
      [header.class'.toWire], [flags], putU32 header.sessionEpoch, putU32 header.routeLabel,
      putU64 header.trainId, putU16 header.cellSequence, putU32 header.stripeId,
      putU16 header.segmentCount, putU16 header.payloadLen, [header.overlayHopLimit],
      [header.overlayHops]].flatten := by
    simp [encodeHeader]
  have size := encodeHeader_length flags header
  have four : magic.length = 4 := rfl
  rw [fields] at size ⊢
  rw [slice_eq_flatten_iff (by omega) long]
  simp only [headerLen] at long
  simp only [FieldsAt, four, length_cons, length_nil, putU16_length, putU32_length,
    putU64_length, Nat.reduceAdd, and_true]
  simp (disch := omega) only [slice_eq_singleton_iff, slice_eq_putU16_iff, slice_eq_putU32_iff,
    slice_eq_putU64_iff]

theorem CellRouteHeaderV2.checkSegmentCount_ok_iff :
    header.checkSegmentCount = .ok () ↔ (header.kind = .data ↔ header.segmentCount ≠ 0) := by
  unfold CellRouteHeaderV2.checkSegmentCount
  cases header.kind <;> simp

/-- What `CellRouteHeaderV2::decode` has established about a header it returns. -/
structure CellRouteHeaderV2.Valid (header : CellRouteHeaderV2) : Prop where
  sessionEpoch : header.sessionEpoch ≠ 0
  routeLabel : header.routeLabel ≠ 0
  trainId : header.trainId ≠ 0
  hopLimit : header.overlayHopLimit ≠ 0
  hops : header.overlayHopLimit.toNat + header.overlayHops.toNat ≤ 255
  segments : header.segmentCount.toNat ≤ maxSegmentsPerCell
  shape : header.kind = .data ↔ header.segmentCount ≠ 0

/-- The header decoder accepts exactly a valid header followed by a non-empty payload of the
length it announces, and reads that header. -/
theorem CellRouteHeaderV2.decode_ok_iff : CellRouteHeaderV2.decode bytes = .ok header ↔
      header.Valid ∧ byteAt bytes 7 &&& ~~~knownFlags = 0 ∧
        headerLen + 1 ≤ bytes.length ∧ bytes.length ≤ maxCellBytes ∧
        headerLen + header.payloadLen.toNat = bytes.length ∧
        slice bytes 0 headerLen = encodeHeader (byteAt bytes 7) header := by
  simp only [CellRouteHeaderV2.decode, do_eq_ok, CellKind.fromWire_eq_ok,
    TrafficClass.fromWire_eq_ok, CellRouteHeaderV2.checkSegmentCount_ok_iff]
  constructor
  · rintro ⟨⟨long, short⟩, start, majorEq, kind, kindEq, c, classEq, flags, epoch, label, train,
      limit, hops, payload, segments, shape, rfl⟩
    refine ⟨⟨epoch, label, train, limit, hops, segments, shape⟩, flags, long, short, payload, ?_⟩
    exact (encodeHeader_iff (by omega) _ _).mpr ⟨start, majorEq, kindEq, classEq, rfl, rfl, rfl,
      rfl, rfl, rfl, rfl, rfl, rfl, rfl⟩
  rintro ⟨valid, flags, long, short, payload, encoded⟩
  obtain ⟨start, majorEq, kindEq, classEq, -, epoch, label, train, sequence, stripe, count, length,
    limit, hops⟩ := (encodeHeader_iff (by omega) _ _).mp encoded
  refine ⟨⟨long, short⟩, start, majorEq, header.kind, kindEq, header.class', classEq, flags, ?_⟩
  rw [overlayHopLimitOffset, overlayHopsOffset, epoch, label, train, sequence, stripe, count,
    length, limit, hops]
  exact ⟨valid.sessionEpoch, valid.routeLabel, valid.trainId, valid.hopLimit, valid.hops,
    payload, valid.segments, valid.shape, rfl⟩

/-! ### The whole Cell -/

@[simp] theorem encode_length (body : CellBody) : body.encode.length = body.payloadLen := by
  cases body with
  | records segments =>
    simp only [encode, payloadLen, length_flatMap, encodeSegment_length]
  | parity payload => rfl

variable (cell : CellV2)

@[simp] theorem CellV2.wire_length : cell.wire.length = headerLen + cell.body.payloadLen := by
  simp [CellV2.wire, CellV2.encodeContiguousWithHeader]

theorem CellV2.wire_flags : byteAt cell.wire 7 = cell.flags := by
  simp [CellV2.wire, CellV2.encodeContiguousWithHeader, byteAt, encodeHeader, magic]

theorem CellV2.wire_header :
    slice cell.wire 0 headerLen = encodeHeader cell.flags cell.routeHeader := by
  simp [slice, CellV2.wire, CellV2.encodeContiguousWithHeader]

theorem CellV2.wire_payload : cell.wire.drop headerLen = cell.body.encode := by
  rw [CellV2.wire, CellV2.encodeContiguousWithHeader,
    ← encodeHeader_length cell.flags cell.routeHeader, drop_left]

theorem CellV2.validate_ok_iff : cell.validate = .ok () ↔
      (cell.flags &&& ~~~knownFlags = 0 ∧ cell.sessionEpoch ≠ 0 ∧ cell.routeLabel ≠ 0 ∧
        cell.trainId ≠ 0 ∧ cell.overlayHopLimit ≠ 0 ∧
        cell.overlayHopLimit.toNat + cell.overlayHops.toNat ≤ 255) ∧
      match cell.body with
      | .records segments => segments ≠ [] ∧ segments.length ≤ maxSegmentsPerCell ∧
          ∀ segment ∈ segments, segment.validate = .ok ()
      | .parity payload => payload ≠ [] ∧ cell.stripeId ≠ 0 ∧ cell.flags = 0 := by
  rw [CellV2.validate, bind_eq_ok, exists_unit]
  refine and_congr ?_ ?_
  · simp only [CellV2.validateHeader, do_eq_ok]
  · cases cell.body with
    | records segments =>
      simp only [do_eq_ok, validateSegments_ok_iff]
    | parity payload => simp only [do_eq_ok]

theorem RecordSegment.wireLen_pos : 0 < segment.wireLen := by
  simp only [wireLen, segmentHeaderLen]
  omega

theorem CellV2.payload_of_valid (valid : cell.validate = .ok ()) :
    0 < cell.body.payloadLen ∧ cell.body.segmentCount ≤ maxSegmentsPerCell ∧
      (cell.kind = .data ↔ cell.body.segmentCount ≠ 0) := by
  have shape := ((CellV2.validate_ok_iff cell).mp valid).2
  simp only [CellV2.kind]
  cases body : cell.body with
  | records segments =>
    rw [body] at shape
    obtain ⟨nonempty, bounded, _⟩ := shape
    obtain ⟨segment, rest, rfl⟩ := exists_cons_of_ne_nil nonempty
    have positive := segment.wireLen_pos
    refine ⟨?_, bounded, ?_⟩
    · simp only [payloadLen, map_cons, sum_cons]
      omega
    · simp [segmentCount]
  | parity payload =>
    rw [body] at shape
    refine ⟨length_pos_iff.mpr shape.1, Nat.zero_le _, ?_⟩
    simp [segmentCount]

/-- What the body decoder reads behind a valid header: the body whose encoding is the payload. -/
theorem decodeBody_ok_iff {bytes : Bytes} {header : CellRouteHeaderV2} (body : CellBody)
    (long : headerLen ≤ bytes.length) (shape : header.kind = .data ↔ header.segmentCount ≠ 0) :
    decodeBody bytes [] header = .ok body ↔
      body.encode = bytes.drop headerLen ∧ body.segmentCount = header.segmentCount.toNat ∧
        match body with
        | .records segments => header.kind = .data ∧ ∀ segment ∈ segments, segment.validate = .ok ()
        | .parity _ => header.kind = .fecParity := by
  have rest : ∀ next, next = bytes.length → slice bytes headerLen next = bytes.drop headerLen := by
    rintro next rfl
    simp [slice]
  cases kind : header.kind with
  | data =>
    have counted : 0 < header.segmentCount.toNat := by
      have nonzero := shape.mp kind
      rw [← UInt16.toNat_inj.ne] at nonzero
      exact Nat.pos_of_ne_zero nonzero
    simp only [decodeBody, kind, do_eq_ok, Prod.exists, decodeSegments_ok_iff bytes _ _ _ _ _ long,
      nil_append]
    constructor
    · rintro ⟨_, segments, next, ⟨_, rfl, size, valid, sum, _, encoded⟩, done, rfl⟩
      exact ⟨by rw [← rest next done, encoded]; rfl, size, trivial, valid⟩
    cases body with
    | records segments =>
      rintro ⟨encoded, size, _, valid⟩
      have total := congrArg List.length encoded
      rw [encode_length, length_drop] at total
      have stop : headerLen + (segments.map wireLen).sum = bytes.length := by
        simp only [payloadLen] at total
        omega
      exact ⟨counted, segments, _, ⟨segments, rfl, size, valid, rfl, by omega,
        by rw [rest _ stop, ← encoded]; rfl⟩, stop, rfl⟩
    | parity payload =>
      rintro ⟨_, _, impossible⟩
      cases impossible
  | fecParity =>
  have none : header.segmentCount.toNat = 0 := by
    have zero : header.segmentCount = 0 := by
      by_contra nonzero
      have impossible := shape.mpr nonzero
      rw [kind] at impossible
      cases impossible
    rw [zero]
    rfl
  simp only [decodeBody, kind, do_eq_ok]
  constructor
  · rintro ⟨_, rfl⟩
    exact ⟨rfl, none.symm, trivial⟩
  cases body with
  | records segments =>
    rintro ⟨_, _, impossible, _⟩
    cases impossible
  | parity payload =>
    rintro ⟨encoded, _, _⟩
    exact ⟨none, by rw [← encoded]; rfl⟩

/-- **Encoder**: it returns the wire form of exactly the valid Cells that fit the maximum. -/
theorem CellV2.encode_ok_iff (maximum : Nat) (bytes : Bytes) : cell.encode maximum = .ok bytes ↔
      cell.validate = .ok () ∧ headerLen + 1 ≤ maximum ∧ maximum ≤ maxCellBytes ∧
        headerLen + cell.body.payloadLen ≤ maximum ∧ bytes = cell.wire := by
  simp only [CellV2.encode, CellV2.checkedRouteHeader, do_eq_ok]
  constructor
  · rintro ⟨header, ⟨valid, ⟨low, high⟩, _, fits, rfl⟩, rfl⟩
    exact ⟨valid, low, high, fits, rfl⟩
  rintro ⟨valid, low, high, fits, rfl⟩
  have small : cell.body.payloadLen ≤ 65535 := by
    simp only [maxCellBytes] at high
    omega
  exact ⟨_, ⟨valid, ⟨low, high⟩, small, fits, rfl⟩, rfl⟩

/-- The header a valid, datagram-sized Cell is decoded behind is its own header. -/
theorem CellV2.decode_header (valid : cell.validate = .ok ())
    (fits : cell.wire.length ≤ maxCellBytes) :
    CellRouteHeaderV2.decode cell.wire = .ok cell.routeHeader := by
  obtain ⟨positive, bounded, shape⟩ := cell.payload_of_valid valid
  obtain ⟨⟨flags, epoch, label, train, limit, hops⟩, _⟩ := (CellV2.validate_ok_iff cell).mp valid
  rw [CellV2.wire_length] at fits
  simp only [headerLen, maxCellBytes, maxSegmentsPerCell] at fits bounded
  have payload : (ofNat cell.body.payloadLen).toNat = cell.body.payloadLen :=
    toNat_ofNat_of_lt' (by simp [size]; omega)
  have count : (ofNat cell.body.segmentCount).toNat = cell.body.segmentCount :=
    toNat_ofNat_of_lt' (by simp [size]; omega)
  apply (CellRouteHeaderV2.decode_ok_iff _ _).mpr
  rw [CellV2.wire_flags, CellV2.wire_length, CellV2.wire_header]
  simp only [CellV2.routeHeader, payload, headerLen, maxCellBytes]
  refine ⟨⟨epoch, label, train, limit, hops, ?_, ?_⟩, flags, by omega, by omega, trivial, trivial⟩
  · simp only [count, maxSegmentsPerCell]
    exact bounded
  · refine shape.trans (not_congr ?_)
    rw [← UInt16.toNat_inj, count]
    rfl

theorem CellV2.routeHeader_ofHeader {header : CellRouteHeaderV2} {body : CellBody}
    (kind : header.kind = match body with | .records _ => .data | .parity _ => .fecParity)
    (count : body.segmentCount = header.segmentCount.toNat)
    (size : body.payloadLen = header.payloadLen.toNat) :
    (CellV2.ofHeader header flags body).routeHeader = header := by
  have own : (CellV2.ofHeader header flags body).kind = header.kind := by
    rw [kind]
    rfl
  simp only [CellV2.routeHeader, own]
  simp [CellV2.ofHeader, count, size]

/-- **Decoder**: it accepts exactly the wire forms of valid Cells of datagram size, although it
never calls `validate` on the Cell. -/
theorem CellV2.decode_ok_iff : CellV2.decode bytes = .ok cell ↔
      cell.validate = .ok () ∧ bytes = cell.wire ∧ bytes.length ≤ maxCellBytes := by
  simp only [CellV2.decode, CellV2.decodeReusing, bind_eq_ok]
  constructor
  · rintro ⟨header, parsed, decoded⟩
    obtain ⟨valid, flags, long, short, payload, encoded⟩ :=
      (CellRouteHeaderV2.decode_ok_iff _ _).mp parsed
    simp only [CellV2.decodeReusingWithHeader, bind_eq_ok] at decoded
    obtain ⟨body, walked, finished⟩ := decoded
    obtain ⟨bodyBytes, count, shape⟩ :=
      (decodeBody_ok_iff body (by omega) valid.shape).mp walked
    have rebuilt : bytes = encodeHeader (byteAt bytes 7) header ++ body.encode := by
      rw [← encoded, bodyBytes]
      simp [slice]
    have size : body.payloadLen = header.payloadLen.toNat := by
      rw [← encode_length, bodyBytes, length_drop]
      omega
    have same : (CellV2.ofHeader header (byteAt bytes 7) body).routeHeader = header := by
      apply CellV2.routeHeader_ofHeader (byteAt bytes 7) _ count size
      cases body with
      | records segments => exact shape.1
      | parity payload => exact shape
    have wire : bytes = (CellV2.ofHeader header (byteAt bytes 7) body).wire := by
      rw [CellV2.wire, same]
      exact rebuilt
    have fixed : (CellV2.ofHeader header (byteAt bytes 7) body).flags &&& ~~~knownFlags = 0 ∧
        header.sessionEpoch ≠ 0 ∧ header.routeLabel ≠ 0 ∧ header.trainId ≠ 0 ∧
        header.overlayHopLimit ≠ 0 ∧
        header.overlayHopLimit.toNat + header.overlayHops.toNat ≤ 255 :=
      ⟨flags, valid.sessionEpoch, valid.routeLabel, valid.trainId, valid.hopLimit, valid.hops⟩
    cases body with
    | records segments =>
      cases finished
      refine ⟨(CellV2.validate_ok_iff _).mpr ⟨fixed, ?_, ?_, shape.2⟩, wire, short⟩
      · rintro rfl
        have nonzero := valid.shape.mp shape.1
        rw [← UInt16.toNat_inj.ne] at nonzero
        exact nonzero count.symm
      · have bounded := valid.segments
        rw [← count] at bounded
        exact bounded
    | parity payload =>
      simp only [do_eq_ok] at finished
      obtain ⟨nonempty, stripe, plain, rfl⟩ := finished
      exact ⟨(CellV2.validate_ok_iff _).mpr ⟨fixed, nonempty, stripe, plain⟩, wire, short⟩
  rintro ⟨valid, rfl, fits⟩
  obtain ⟨positive, bounded, shape⟩ := cell.payload_of_valid valid
  have parsed := cell.decode_header valid fits
  have header := ((CellRouteHeaderV2.decode_ok_iff _ _).mp parsed).1
  have conditions := ((CellV2.validate_ok_iff cell).mp valid).2
  refine ⟨cell.routeHeader, parsed, ?_⟩
  simp only [CellV2.decodeReusingWithHeader, bind_eq_ok]
  have count : cell.body.segmentCount = cell.routeHeader.segmentCount.toNat := by
    simp only [maxSegmentsPerCell] at bounded
    exact (toNat_ofNat_of_lt' (by simp [size]; omega)).symm
  have same : CellV2.ofHeader cell.routeHeader (byteAt cell.wire 7) cell.body = cell := by
    rfl
  refine ⟨cell.body, ?_, ?_⟩
  · apply (decodeBody_ok_iff cell.body (by simp) header.shape).mpr
    refine ⟨cell.wire_payload.symm, count, ?_⟩
    cases body : cell.body with
    | records segments =>
      rw [body] at conditions
      exact ⟨by simp [CellV2.routeHeader, CellV2.kind, body], conditions.2.2⟩
    | parity payload => simp [CellV2.routeHeader, CellV2.kind, body]
  rw [same]
  cases body : cell.body with
  | records segments => rfl
  | parity payload =>
    rw [body] at conditions
    simp only [do_eq_ok]
    exact ⟨conditions.1, conditions.2.1, conditions.2.2, trivial⟩

/-- **The wire format is a bijection on its image.** What the encoder writes decodes to the same
Cell, and what the decoder accepts is re-encoded, at its own length, to the same bytes; so every
decoded Cell passes `validate`. -/
theorem cell_codec_bijective : (∀ (cell : CellV2) (maximum : Nat) (bytes : Bytes),
      cell.encode maximum = .ok bytes → CellV2.decode bytes = .ok cell) ∧
    (∀ (bytes : Bytes) (cell : CellV2),
      CellV2.decode bytes = .ok cell →
        cell.validate = .ok () ∧ cell.encode bytes.length = .ok bytes) := by
  constructor
  · intro cell maximum bytes encoded
    obtain ⟨valid, _, high, fits, rfl⟩ := (CellV2.encode_ok_iff _ _ _).mp encoded
    refine (CellV2.decode_ok_iff _ _).mpr ⟨valid, rfl, ?_⟩
    rw [CellV2.wire_length]
    omega
  intro bytes cell decoded
  obtain ⟨valid, rfl, short⟩ := (CellV2.decode_ok_iff _ _).mp decoded
  have positive := (cell.payload_of_valid valid).1
  refine ⟨valid, (CellV2.encode_ok_iff _ _ _).mpr ⟨valid, ?_, short, ?_, rfl⟩⟩
  · rw [CellV2.wire_length]
    omega
  · rw [CellV2.wire_length]

/-- A one-byte parity Cell and its 37 wire bytes. -/
def sampleParity : CellV2 :=
  { class' := .bulk, flags := 0, sessionEpoch := 7, routeLabel := 11, trainId := 13,
    cellSequence := 0, stripeId := 17, overlayHopLimit := 64, overlayHops := 0,
    body := .parity [9] }

/-- The end of one record, a whole record with metadata and the start of a third. -/
def sampleData : CellV2 :=
  { sampleParity with
    flags := flagTrainStart
    stripeId := 0
    body := .records [⟨.end, 0, 1, 5, 3, [], [1, 2]⟩, ⟨.full, 0, 2, 3, 0, [8, 9], [3, 4, 5]⟩,
      ⟨.start, 0, 3, 9, 0, [7], [6]⟩] }

theorem cell_codec_bijective_samples :
    (CellV2.decode sampleData.wire = .ok sampleData ∧
      sampleData.encode sampleData.wire.length = .ok sampleData.wire) ∧
    CellV2.decode sampleParity.wire = .ok sampleParity ∧
      sampleParity.encode sampleParity.wire.length = .ok sampleParity.wire := by
  obtain ⟨decodes, encodes⟩ := cell_codec_bijective
  have data := decodes sampleData 1382 sampleData.wire rfl
  have parity := decodes sampleParity 1382 sampleParity.wire rfl
  exact ⟨⟨data, (encodes _ _ data).2⟩, parity, (encodes _ _ parity).2⟩

end Ironet.Cell
