import Ironet.Fec.Wire

/-!
# Round trips of stripe ids and parity payloads

A stripe id gives back the first sequence number and the data count it was made of. The parity
decoder accepts exactly the encodings of well-formed payloads, so what the decoder learns about a
stripe is what the encoder of some peer wrote.
-/
namespace Ironet.Fec
open Support Cell List ParityPayload UInt8

/-! ### Stripe ids -/

theorem encodeStripeId_ok_iff (firstSequence : UInt16) (dataCells : Nat) (id : UInt32) :
    encodeStripeId firstSequence dataCells = .ok id ↔
      (2 ≤ dataCells ∧ dataCells ≤ maxDataCells) ∧
        id.toNat = dataCells * 2 ^ 24 + (firstSequence.toNat + 1) := by
  have small := UInt16.toNat_lt firstSequence
  have sequence : (firstSequence.toUInt32 + 1).toNat = firstSequence.toNat + 1 := by
    rw [UInt32.toNat_add, UInt16.toNat_toUInt32, UInt32.toNat_one]
    omega
  have masked : firstSequence.toUInt32 + 1 ≤ stripeSequenceMask := by
    rw [UInt32.le_iff_toNat_le, sequence]
    have mask : stripeSequenceMask.toNat = 16777215 := by decide
    omega
  simp only [encodeStripeId, do_eq_ok, masked, true_and]
  refine and_congr_right fun range => ?_
  have word :
      ((UInt32.ofNat dataCells <<< stripeDataShift) ||| (firstSequence.toUInt32 + 1)).toNat =
      dataCells * 2 ^ 24 + (firstSequence.toNat + 1) := by
    have bound : dataCells ≤ 16 := range.2
    have shift : stripeDataShift.toNat % 32 = 24 := by decide
    have count : (UInt32.ofNat dataCells).toNat = dataCells := UInt32.toNat_ofNat_of_lt' (by
      simp only [UInt32.size]; omega)
    rw [UInt32.toNat_or, UInt32.toNat_shiftLeft, shift, count, sequence,
      Nat.mod_eq_of_lt (by rw [Nat.shiftLeft_eq]; omega),
        ← Nat.shiftLeft_add_eq_or_of_lt (by omega),
      Nat.shiftLeft_eq]
  rw [← UInt32.toNat_inj, word, eq_comm]

theorem decodeStripeId_ok_iff (id : UInt32) (firstSequence : UInt16) (dataCells : Nat) :
    decodeStripeId id = .ok (firstSequence, dataCells) ↔
      (2 ≤ dataCells ∧ dataCells ≤ maxDataCells) ∧
        id.toNat = dataCells * 2 ^ 24 + (firstSequence.toNat + 1) := by
  have small := UInt16.toNat_lt firstSequence
  have count : (id >>> stripeDataShift).toNat = id.toNat / 2 ^ 24 := by
    have shift : stripeDataShift.toNat % 32 = 24 := by decide
    rw [UInt32.toNat_shiftRight, shift, Nat.shiftRight_eq_div_pow]
  have low : (id &&& stripeSequenceMask).toNat = id.toNat % 2 ^ 24 := by
    have mask : stripeSequenceMask.toNat = 2 ^ 24 - 1 := by decide
    rw [UInt32.toNat_and, mask, Nat.and_two_pow_sub_one_eq_mod]
  have nonzero : id &&& stripeSequenceMask ≠ 0 ↔ id.toNat % 2 ^ 24 ≠ 0 := by
    rw [← low, Ne, ← UInt32.toNat_inj]
    rfl
  simp only [decodeStripeId, do_eq_ok, Prod.mk.injEq, count, low, nonzero, maxDataCells]
  constructor
  · rintro ⟨⟨least, most, live⟩, fits, first, rfl⟩
    have value := congrArg UInt16.toNat first
    rw [UInt16.toNat_ofNat_of_lt' (by simpa using fits)] at value
    refine ⟨⟨least, most⟩, ?_⟩
    omega
  rintro ⟨⟨least, most⟩, value⟩
  have quotient : id.toNat / 2 ^ 24 = dataCells := by omega
  have remainder : id.toNat % 2 ^ 24 = firstSequence.toNat + 1 := by omega
  rw [quotient, remainder]
  refine ⟨⟨least, most, Nat.succ_ne_zero _⟩, by omega, ?_, rfl⟩
  rw [Nat.add_sub_cancel, UInt16.ofNat_toNat]

theorem decodeStripeId_encodeStripeId {firstSequence : UInt16} {dataCells : Nat} {id : UInt32}
    (encoded : encodeStripeId firstSequence dataCells = .ok id) :
    decodeStripeId id = .ok (firstSequence, dataCells) :=
  (decodeStripeId_ok_iff id firstSequence dataCells).mpr
    ((encodeStripeId_ok_iff firstSequence dataCells id).mp encoded)

/-! ### The length table -/

theorem getU16s_putU16 (value : UInt16) (rest : Bytes) :
    getU16s (putU16 value ++ rest) = value :: getU16s rest := by
  obtain ⟨high, low, bytes⟩ : ∃ high low, putU16 value = [high, low] :=
    length_eq_two.mp (putU16_length value)
  have read := (eq_putU16_iff (putU16_length value)).mp rfl
  rw [bytes] at read ⊢
  simp [getU16s, read]

@[simp] theorem getU16s_flatMap (lengths : List UInt16) :
    getU16s (lengths.flatMap putU16) = lengths := by
  induction lengths with
  | nil => rfl
  | cons length rest ih => rw [flatMap_cons, getU16s_putU16, ih]

theorem flatMap_getU16s (count : Nat) (bytes : Bytes) (width : bytes.length = count * 2) :
    (getU16s bytes).flatMap putU16 = bytes ∧ (getU16s bytes).length = count := by
  induction count generalizing bytes with
  | zero =>
    obtain rfl := eq_nil_of_length_eq_zero (width.trans (Nat.zero_mul 2))
    exact ⟨rfl, rfl⟩
  | succ count ih =>
  -- peel one chunk of two bytes
  match bytes, width with
  | high :: low :: rest, width =>
    obtain ⟨table, entries⟩ := ih rest (by
      simp only [length_cons] at width
      omega)
    have chunk : [high, low] = putU16 (getU16 [high, low]) := (eq_putU16_iff rfl).mpr rfl
    simp [getU16s, ← chunk, table, entries]
  | [], width => simp at width
  | [_], width => simp at width; omega

@[simp] theorem lengthTable_length (lengths : List UInt16) :
    (lengths.flatMap putU16).length = lengths.length * 2 := by
  simp [length_flatMap]

/-! ### Parity payloads -/

/-- What the parity decoder checks. -/
structure ParityPayload.Valid (payload : ParityPayload) : Prop where
  dataCells : 2 ≤ payload.dataCells ∧ payload.dataCells ≤ maxDataCells
  parityCells : payload.parityCells ≤ maxParityCells
  recoveryIndex : payload.recoveryIndex < payload.parityCells
  symbolBytes : 0 < payload.symbolBytes ∧ payload.symbolBytes % 2 = 0
  symbolWidth : payload.symbolBytes < 2 ^ 16
  lengths : payload.lengths.length = payload.dataCells
  bounds : ∀ length ∈ payload.lengths, 0 < length.toNat ∧ length.toNat ≤ payload.symbolBytes
  recovery : payload.recovery.length = payload.symbolBytes

def ParityPayload.encode (payload : ParityPayload) : Except String Bytes :=
  encodeParityPayload payload.dataCells payload.parityCells payload.recoveryIndex
    payload.firstSequence payload.symbolBytes payload.lengths payload.recovery

def ParityPayload.fixedPart (payload : ParityPayload) : Bytes :=
  parityMagic ++ [UInt8.ofNat payload.dataCells, UInt8.ofNat payload.parityCells,
    UInt8.ofNat payload.recoveryIndex, 0] ++ putU16 payload.firstSequence ++
      putU16 (UInt16.ofNat payload.symbolBytes)

variable {bytes : Bytes} (payload : ParityPayload)

@[simp] theorem ParityPayload.fixedPart_length : payload.fixedPart.length = parityFixedLen := by
  simp [fixedPart, parityMagic, parityFixedLen]

theorem ParityPayload.encode_ok_iff (bytes : Bytes) : payload.encode = .ok bytes ↔
      payload.dataCells = payload.lengths.length ∧
        payload.recovery.length = payload.symbolBytes ∧
        bytes = payload.fixedPart ++ payload.lengths.flatMap putU16 ++ payload.recovery := by
  simp only [encode, encodeParityPayload, do_eq_ok, fixedPart, @eq_comm _ bytes]

theorem ParityPayload.wire_iff (table : Nat)
    (isTable : table = parityFixedLen + payload.lengths.length * 2)
    (total : bytes.length = table + payload.recovery.length) :
    bytes = payload.fixedPart ++ payload.lengths.flatMap putU16 ++ payload.recovery ↔
      slice bytes 0 4 = parityMagic ∧ byteAt bytes 4 = ofNat payload.dataCells ∧
      byteAt bytes 5 = ofNat payload.parityCells ∧
      byteAt bytes 6 = ofNat payload.recoveryIndex ∧ byteAt bytes 7 = 0 ∧
      getU16 (slice bytes 8 10) = payload.firstSequence ∧
      getU16 (slice bytes 10 12) = UInt16.ofNat payload.symbolBytes ∧
      slice bytes parityFixedLen table = payload.lengths.flatMap putU16 ∧
      bytes.drop table = payload.recovery := by
  have fields : payload.fixedPart ++ payload.lengths.flatMap putU16 ++ payload.recovery =
      [parityMagic, [ofNat payload.dataCells], [ofNat payload.parityCells],
        [ofNat payload.recoveryIndex], [0], putU16 payload.firstSequence,
        putU16 (UInt16.ofNat payload.symbolBytes), payload.lengths.flatMap putU16,
        payload.recovery].flatten := by
    simp [fixedPart]
  have size := congrArg length fields
  rw [length_append, length_append, payload.fixedPart_length, lengthTable_length] at size
  have rest : slice bytes table (table + payload.recovery.length) = bytes.drop table := by
    rw [← total, slice]
    simp
  have four : parityMagic.length = 4 := rfl
  have whole : slice bytes 0 bytes.length = bytes := slice_full bytes
  nth_rewrite 1 [← whole]
  rw [fields, slice_eq_flatten_iff (by omega) le_rfl]
  simp only [parityFixedLen] at isTable ⊢
  simp only [FieldsAt, four, length_cons, length_nil, putU16_length, lengthTable_length,
    Nat.reduceAdd, ← isTable, rest, and_true]
  simp (disch := omega) only [slice_eq_singleton_iff, slice_eq_putU16_iff]

theorem decodeParityPayload_encode {payload : ParityPayload} (valid : payload.Valid)
    (encoded : payload.encode = .ok bytes) : decodeParityPayload bytes = .ok payload := by
  obtain ⟨count, width, isWire⟩ := (payload.encode_ok_iff bytes).mp encoded
  have total : bytes.length = parityFixedLen + payload.lengths.length * 2 +
      payload.recovery.length := by
    rw [isWire, length_append, length_append, payload.fixedPart_length, lengthTable_length]
  have counts := valid.dataCells
  have parities := valid.parityCells
  have index := valid.recoveryIndex
  simp only [maxDataCells, maxParityCells] at counts parities
  have data : (ofNat payload.dataCells).toNat = payload.dataCells :=
    toNat_ofNat_of_lt' (by simp only [size]; omega)
  have parity : (ofNat payload.parityCells).toNat = payload.parityCells :=
    toNat_ofNat_of_lt' (by simp only [size]; omega)
  have recoveryIndex : (ofNat payload.recoveryIndex).toNat = payload.recoveryIndex :=
    toNat_ofNat_of_lt' (by simp only [size]; omega)
  have symbol : (UInt16.ofNat payload.symbolBytes).toNat = payload.symbolBytes :=
    UInt16.toNat_ofNat_of_lt' valid.symbolWidth
  obtain ⟨isMagic, isData, isParity, isIndex, isFlags, isFirst, isSymbol, table, recovery⟩ :=
    (payload.wire_iff _ rfl total).mp isWire
  rw [← count] at table recovery total
  simp only [decodeParityPayload, FecGeometryV2.validate, do_eq_ok, isMagic, isData, isParity,
    isIndex, isFlags, isFirst, isSymbol, data, parity, recoveryIndex, symbol, table, recovery,
    total, getU16s_flatMap]
  refine ⟨by omega, trivial, trivial, ⟨valid.dataCells, valid.parityCells⟩, ⟨by omega, index⟩,
    valid.symbolBytes, by omega, valid.bounds, by omega, trivial⟩

theorem decodeParityPayload_valid {payload : ParityPayload}
    (decoded : decodeParityPayload bytes = .ok payload) :
    payload.Valid ∧ payload.encode = .ok bytes := by
  simp only [decodeParityPayload, FecGeometryV2.validate, do_eq_ok] at decoded
  obtain ⟨long, isMagic, isFlags, ⟨counts, parities⟩, ⟨positive, index⟩, symbol, room, bounds, rest,
    rfl⟩ := decoded
  have tableWidth :
      (slice bytes parityFixedLen (parityFixedLen + (byteAt bytes 4).toNat * 2)).length =
      (byteAt bytes 4).toNat * 2 := by
    rw [slice_length _ _ _ room, Nat.add_sub_cancel_left]
  obtain ⟨table, entries⟩ := flatMap_getU16s _ _ tableWidth
  have symbolWidth := UInt16.toNat_lt (getU16 (slice bytes 10 12))
  have recovered : (bytes.drop (parityFixedLen + (byteAt bytes 4).toNat * 2)).length =
      (getU16 (slice bytes 10 12)).toNat := by
    rw [length_drop]
    exact rest
  refine ⟨⟨counts, parities, index, symbol, symbolWidth, entries, bounds, recovered⟩, ?_⟩
  refine (encode_ok_iff _ _).mpr ⟨entries.symm, recovered, ?_⟩
  refine (wire_iff _ _ (by rw [entries]) ?_).mpr ⟨isMagic, ?_⟩
  · rw [recovered]
    omega
  · simp [table, isFlags]

end Ironet.Fec
