import Ironet.Train.Layout
import Ironet.Fec.Encoder
import Ironet.Fec.Decoder
import Ironet.Fec.RoundTrip

/-!
# Protected stripes

A codeword is what the sender and the receiver of a protected stripe have in common: consecutive
data Cells of one train under one stripe id, and the recovery symbols the codec makes of them. The
hop bytes are not part of the symbols, so a codeword stays a codeword in transit.
-/
namespace Ironet.Fec
open Support Cell List CellV2 CellStripeDecoder

theorem wire_long (cell : CellV2) : overlayHopsOffset < cell.wire.length := by
  rw [wire_length]
  unfold overlayHopsOffset headerLen
  omega

/-! ### Symbols -/

variable {bytes : Bytes}

theorem dataSymbol_length {symbolBytes : Nat} (fits : bytes.length ≤ symbolBytes) :
    (dataSymbol symbolBytes bytes).length = symbolBytes := by
  rw [dataSymbol, setShim_length, length_append, length_replicate]
  omega

theorem setShim_append_of_long (padding : Bytes) (limit hops : UInt8)
    (long : overlayHopsOffset < bytes.length) :
    setShim (bytes ++ padding) limit hops = setShim bytes limit hops ++ padding := by
  have first : overlayHopLimitOffset < bytes.length :=
    Nat.lt_trans (by decide : overlayHopLimitOffset < overlayHopsOffset) long
  rw [setShim, setShim, set_append_left _ _ first, set_append_left _ _ (by simpa using long)]

theorem dataSymbol_withShim (symbolBytes : Nat) (cell : CellV2) (limit hops : UInt8) :
    dataSymbol symbolBytes (cell.withShim limit hops).wire = dataSymbol symbolBytes cell.wire := by
  rw [dataSymbol, dataSymbol, withShim_wire, setShim_length,
    ← setShim_append_of_long _ _ _ (wire_long cell), setShim_setShim]

theorem dataSymbol_restore (symbolBytes : Nat) (cell : CellV2) :
    setShim ((dataSymbol symbolBytes cell.wire).take cell.wire.length) cell.overlayHopLimit
      cell.overlayHops = cell.wire := by
  have cut : (dataSymbol symbolBytes cell.wire).take cell.wire.length = setShim cell.wire 0 0 := by
    rw [dataSymbol, setShim_append_of_long _ _ _ (wire_long cell)]
    exact take_left' (setShim_length _ _ _)
  rw [cut, setShim_setShim, ← withShim_wire]
  rfl

theorem expandSymbol_wire {symbolBytes : Nat} {cell : CellV2}
    (fits : cell.wire.length ≤ symbolBytes) : expandSymbol symbolBytes cell.wire =
      .ok (dataSymbol symbolBytes cell.wire) := by
  have room : overlayHopsOffset <
      (cell.wire ++ replicate (symbolBytes - cell.wire.length) 0).length := by
    rw [length_append]
    exact Nat.lt_add_right _ (wire_long cell)
  rw [expandSymbol, if_pos fits, normalizeRoutingShim, if_pos room]
  rfl

/-! ### Codewords -/

/-- Data Cells and recovery symbols of one protected stripe. -/
structure Codeword (codec : ErasureCodec) (parityCells : Nat) where
  identity : TrainIdentity
  firstSequence : UInt16
  stripeId : UInt32
  symbolBytes : Nat
  cells : List CellV2
  recoveries : List Symbol
  range : 2 ≤ cells.length ∧ cells.length ≤ maxDataCells
  last : firstSequence.toNat + cells.length ≤ 65535
  named : encodeStripeId firstSequence cells.length = .ok stripeId
  parities : 0 < parityCells ∧ parityCells ≤ maxParityCells
  sequence : ∀ index cell, cells[index]? = some cell →
    cell.cellSequence.toNat = firstSequence.toNat + index
  owned : ∀ cell ∈ cells, TrainIdentity.ofCell cell = identity ∧ cell.stripeId = stripeId
  valid : ∀ cell ∈ cells, cell.validate = .ok ()
  data : ∀ cell ∈ cells, cell.kind = .data
  fits : ∀ cell ∈ cells, cell.wire.length ≤ symbolBytes
  even : symbolBytes % 2 = 0
  room : headerLen + (parityFixedLen + cells.length * 2) + symbolBytes ≤ maxCellBytes
  coded : codec.encode cells.length parityCells symbolBytes
    (cells.map fun cell => dataSymbol symbolBytes cell.wire) = .ok recoveries
  count : recoveries.length = parityCells
  width : ∀ recovery ∈ recoveries, recovery.length = symbolBytes

namespace Codeword

variable {codec : ErasureCodec} {parityCells : Nat} (word : Codeword codec parityCells)

def key : StripeKey where
  class' := word.identity.class'
  sessionEpoch := word.identity.sessionEpoch
  routeLabel := word.identity.routeLabel
  trainId := word.identity.trainId
  stripeId := word.stripeId

def shim : RoutingShim := (word.identity.overlayHopLimit, word.identity.overlayHops)

def lengths : List UInt16 := word.cells.map fun cell => UInt16.ofNat cell.wire.length

def symbols : List Symbol := word.cells.map fun cell => dataSymbol word.symbolBytes cell.wire

variable (index : Nat) (recovery : Symbol)

/-- What a parity Cell says about the stripe, beside its own recovery symbol. -/
def metadata : ParityPayload where
  dataCells := word.cells.length
  parityCells := parityCells
  recoveryIndex := index
  firstSequence := word.firstSequence
  symbolBytes := word.symbolBytes
  lengths := word.lengths
  recovery := recovery

def payload : Bytes :=
  (word.metadata index recovery).fixedPart ++ word.lengths.flatMap putU16 ++ recovery

def parity : CellV2 :=
  parityCell word.identity word.stripeId index (word.payload index recovery)

def parityWires : List Bytes :=
  word.recoveries.mapIdx fun index recovery => (word.parity index recovery).wire

def datagrams : List Bytes := word.cells.map CellV2.wire ++ word.parityWires

/-- The sequence number of a data Cell. -/
def sequenceOf : UInt16 := UInt16.ofNat (word.firstSequence.toNat + index)

@[simp] theorem lengths_length : word.lengths.length = word.cells.length := by
  simp [lengths]

@[simp] theorem symbols_length : word.symbols.length = word.cells.length := by
  simp [symbols]

theorem symbols_width : ∀ symbol ∈ word.symbols, symbol.length = word.symbolBytes := by
  intro symbol member
  obtain ⟨cell, isCell, rfl⟩ := mem_map.mp member
  exact dataSymbol_length (word.fits cell isCell)

theorem small : word.symbolBytes < 2 ^ 16 := by
  have room := word.room
  unfold maxCellBytes at room
  omega

theorem exists_cell : ∃ cell, cell ∈ word.cells := by
  refine exists_mem_of_ne_nil _ fun none => ?_
  have least := word.range.1
  rw [none, length_nil] at least
  omega

theorem symbolBytes_pos : 0 < word.symbolBytes := by
  obtain ⟨cell, member⟩ := word.exists_cell
  have fits := word.fits cell member
  have long := wire_long cell
  omega

theorem ordinary : ErasureCodec.Ordinary word.cells.length parityCells word.symbolBytes := by
  have range := word.range
  have parities := word.parities
  unfold maxDataCells at range
  unfold maxParityCells at parities
  exact ⟨by omega, by omega, by omega, by omega, word.symbolBytes_pos, word.even⟩

variable {cell : CellV2}

section
variable (member : cell ∈ word.cells)
include member

theorem wire_small : cell.wire.length ≤ maxCellBytes := by
  have fits := word.fits cell member
  have room := word.room
  omega

theorem decode_wire : decode cell.wire = .ok cell :=
  (decode_ok_iff _ _).mpr ⟨word.valid cell member, rfl, word.wire_small member⟩

theorem fromCell_eq : StripeKey.fromCell cell = word.key := by
  obtain ⟨own, striped⟩ := word.owned cell member
  rw [key, ← own, ← striped]
  rfl

theorem shim_eq : (cell.overlayHopLimit, cell.overlayHops) = word.shim := by
  rw [shim, ← (word.owned cell member).1]
  rfl

end

variable {index : Nat}

theorem lengths_get (found : word.cells[index]? = some cell) :
    word.lengths[index]? = some (UInt16.ofNat cell.wire.length) ∧
      (UInt16.ofNat cell.wire.length).toNat = cell.wire.length := by
  refine ⟨by rw [lengths, getElem?_map, found, Option.map_some], ?_⟩
  have fits := word.fits cell (mem_of_getElem? found)
  have small := word.small
  exact UInt16.toNat_ofNat_of_lt' (by simp only [UInt16.size]; omega)

/-! ### Sequence numbers -/

theorem decodeStripeId_eq :
    decodeStripeId word.stripeId = .ok (word.firstSequence, word.cells.length) :=
  decodeStripeId_encodeStripeId word.named

theorem stripeId_ne_zero : word.stripeId ≠ 0 := by
  obtain ⟨-, value⟩ := (encodeStripeId_ok_iff _ _ _).mp word.named
  intro zero
  rw [zero, UInt32.toNat_zero] at value
  omega

theorem sequenceOf_toNat (inside : index < word.cells.length) :
    (word.sequenceOf index).toNat = word.firstSequence.toNat + index := by
  have last := word.last
  exact UInt16.toNat_ofNat_of_lt' (by simp only [UInt16.size]; omega)

theorem stripeSequence_eq (inside : index < word.cells.length) :
    stripeSequence word.firstSequence index = some (word.sequenceOf index) := by
  have last := word.last
  rw [stripeSequence, if_pos (by omega)]
  rfl

theorem sequenceOf_inj {left right : Nat} (leftInside : left < word.cells.length)
    (rightInside : right < word.cells.length)
    (same : word.sequenceOf left = word.sequenceOf right) : left = right := by
  have values := congrArg UInt16.toNat same
  rw [word.sequenceOf_toNat leftInside, word.sequenceOf_toNat rightInside] at values
  omega

theorem cellSequence_eq (found : word.cells[index]? = some cell) :
    cell.cellSequence = word.sequenceOf index := by
  have inside := (List.getElem?_eq_some_iff.mp found).1
  rw [← UInt16.toNat_inj, word.sequence index cell found, word.sequenceOf_toNat inside]

theorem insideStripe_eq (inside : index < word.cells.length) :
    insideStripe (word.firstSequence, word.cells.length) (word.sequenceOf index) = true := by
  have last := word.last
  have value := word.sequenceOf_toNat inside
  simp only [insideStripe, Bool.and_eq_true, decide_eq_true_eq, UInt16.le_iff_toNat_le, value]
  omega

/-! ### Parity Cells -/

variable {recovery : Symbol}

section
variable (found : word.recoveries[index]? = some recovery)
include found

theorem metadata_valid : (word.metadata index recovery).Valid where
  dataCells := word.range
  parityCells := word.parities.2
  recoveryIndex := by
    have inside := (List.getElem?_eq_some_iff.mp found).1
    rwa [word.count] at inside
  symbolBytes := ⟨word.symbolBytes_pos, word.even⟩
  symbolWidth := word.small
  lengths := word.lengths_length
  bounds := by
    intro length member
    obtain ⟨cell, isCell, rfl⟩ := mem_map.mp member
    obtain ⟨index, at_⟩ := mem_iff_getElem?.mp isCell
    have value := (word.lengths_get at_).2
    have long := wire_long cell
    have fits := word.fits cell isCell
    simp only [metadata, value]
    omega
  recovery := word.width recovery (mem_of_getElem? found)

theorem encode_metadata :
    (word.metadata index recovery).encode = .ok (word.payload index recovery) :=
  (ParityPayload.encode_ok_iff _ _).mpr ⟨word.lengths_length.symm,
    word.width recovery (mem_of_getElem? found), rfl⟩

theorem decode_payload :
    decodeParityPayload (word.payload index recovery) = .ok (word.metadata index recovery) :=
  decodeParityPayload_encode (word.metadata_valid found) (word.encode_metadata found)

theorem parity_wire_length : (word.parity index recovery).wire.length =
      headerLen + (parityFixedLen + word.cells.length * 2) + word.symbolBytes := by
  have width := word.width recovery (mem_of_getElem? found)
  rw [wire_length]
  simp only [parity, parityCell, CellBody.payloadLen, payload, length_append,
    ParityPayload.fixedPart_length, lengthTable_length, lengths_length, width]
  omega

end

theorem parity_validate : (word.parity index recovery).validate = .ok () := by
  obtain ⟨cell, member⟩ := word.exists_cell
  obtain ⟨own, -⟩ := word.owned cell member
  obtain ⟨⟨-, epoch, label, train, limit, hops⟩, -⟩ :=
    (validate_ok_iff cell).mp (word.valid cell member)
  have flags : (0 : UInt8) &&& ~~~knownFlags = 0 := by decide
  refine (validate_ok_iff _).mpr ⟨⟨flags, ?_⟩, ?_, word.stripeId_ne_zero, rfl⟩
  · simp only [parity, parityCell, ← own, TrainIdentity.ofCell]
    exact ⟨epoch, label, train, limit, hops⟩
  intro empty
  have long := congrArg length empty
  simp only [payload, length_append, ParityPayload.fixedPart_length, parityFixedLen,
    length_nil] at long
  omega

theorem decode_parity (found : word.recoveries[index]? = some recovery) :
    decode (word.parity index recovery).wire = .ok (word.parity index recovery) := by
  refine (decode_ok_iff _ _).mpr ⟨word.parity_validate, rfl, ?_⟩
  rw [word.parity_wire_length found]
  exact word.room

theorem mem_datagrams : bytes ∈ word.datagrams ↔
    (∃ (index : Nat) (cell : CellV2), word.cells[index]? = some cell ∧ bytes = cell.wire) ∨
      ∃ (index : Nat) (recovery : Symbol), word.recoveries[index]? = some recovery ∧
        bytes = (word.parity index recovery).wire := by
  rw [datagrams, mem_append, parityWires, mem_mapIdx]
  refine or_congr ?_ ?_
  · constructor
    · intro member
      obtain ⟨cell, isCell, rfl⟩ := mem_map.mp member
      obtain ⟨index, found⟩ := mem_iff_getElem?.mp isCell
      exact ⟨index, cell, found, rfl⟩
    · rintro ⟨index, cell, found, rfl⟩
      exact mem_map_of_mem (mem_of_getElem? found)
  constructor
  · rintro ⟨index, inside, rfl⟩
    exact ⟨index, _, getElem?_eq_getElem inside, rfl⟩
  · rintro ⟨index, recovery, found, rfl⟩
    obtain ⟨inside, rfl⟩ := List.getElem?_eq_some_iff.mp found
    exact ⟨index, inside, rfl⟩

/-! ### Transit -/

/-- The stripe behind `count` transit hops. -/
def hop (count : Nat) (enough : count < word.identity.overlayHopLimit.toNat) :
    Codeword codec parityCells where
  identity := { word.identity with
    overlayHopLimit := word.identity.overlayHopLimit - UInt8.ofNat count
    overlayHops := word.identity.overlayHops + UInt8.ofNat count }
  firstSequence := word.firstSequence
  stripeId := word.stripeId
  symbolBytes := word.symbolBytes
  cells := word.cells.map fun cell => cell.hop count
  recoveries := word.recoveries
  range := by simpa using word.range
  last := by simpa using word.last
  named := by simpa using word.named
  parities := word.parities
  sequence := by
    intro index cell found
    rw [getElem?_map, Option.map_eq_some_iff] at found
    obtain ⟨original, there, rfl⟩ := found
    exact word.sequence index original there
  owned := by
    intro cell member
    obtain ⟨original, there, rfl⟩ := mem_map.mp member
    obtain ⟨own, striped⟩ := word.owned original there
    refine ⟨?_, striped⟩
    rw [← own]
    rfl
  valid := by
    intro cell member
    obtain ⟨original, there, rfl⟩ := mem_map.mp member
    refine original.hop_validate count (word.valid original there) ?_
    rw [← (word.owned original there).1] at enough
    exact enough
  data := by
    intro cell member
    obtain ⟨original, there, rfl⟩ := mem_map.mp member
    exact word.data original there
  fits := by
    intro cell member
    obtain ⟨original, there, rfl⟩ := mem_map.mp member
    rw [CellV2.hop, CellV2.withShim_wire_length]
    exact word.fits original there
  even := word.even
  room := by simpa using word.room
  coded := by
    have same : (word.cells.map fun cell => cell.hop count).map
        (fun cell => dataSymbol word.symbolBytes cell.wire) =
          word.cells.map fun cell => dataSymbol word.symbolBytes cell.wire := by
      rw [map_map]
      exact map_congr_left fun cell _ => dataSymbol_withShim _ cell _ _
    rw [same, length_map]
    exact word.coded
  count := word.count
  width := word.width

variable {count : Nat} (enough : count < word.identity.overlayHopLimit.toNat)

theorem hop_parity (index : Nat) (recovery : Symbol) :
    (word.hop count enough).parity index recovery = (word.parity index recovery).hop count := by
  have lengths : (word.hop count enough).lengths = word.lengths := by
    simp only [Codeword.lengths, hop, map_map]
    refine map_congr_left fun cell _ => ?_
    simp only [Function.comp_apply, CellV2.hop, CellV2.withShim_wire_length]
  have same : (word.hop count enough).payload index recovery = word.payload index recovery := by
    have cells : (word.hop count enough).cells.length = word.cells.length := length_map _
    simp only [payload, metadata, lengths, cells]
    rfl
  simp only [parity, same]
  rfl

theorem hop_datagrams_length :
    (word.hop count enough).datagrams.map length = word.datagrams.map length := by
  have parity : (word.hop count enough).parityWires.map length =
      word.parityWires.map length := by
    refine ext_getElem? fun place => ?_
    simp only [parityWires, getElem?_map, getElem?_mapIdx, Option.map_map]
    refine congrArg (fun f => Option.map f word.recoveries[place]?) (funext fun recovery => ?_)
    simp only [Function.comp_apply, word.hop_parity enough, CellV2.hop, CellV2.withShim_wire_length]
  have cells : (word.hop count enough).cells.map (fun cell => cell.wire.length) =
      word.cells.map fun cell => cell.wire.length := by
    simp only [hop, map_map]
    refine map_congr_left fun cell _ => ?_
    simp only [Function.comp_apply, CellV2.hop, CellV2.withShim_wire_length]
  simp only [datagrams, map_append, parity, map_map]
  exact congrArg (· ++ _) cells

theorem mem_datagrams_hop {advanced : Bytes} (member : bytes ∈ word.datagrams)
    (arrived : advanceHops count bytes = .ok advanced) :
    advanced ∈ (word.hop count enough).datagrams := by
  refine (word.hop count enough).mem_datagrams.mpr ?_
  rcases word.mem_datagrams.mp member with ⟨index, cell, found, rfl⟩ | ⟨index, recovery, found, rfl⟩
  · have inside := mem_of_getElem? found
    have limit : count < cell.overlayHopLimit.toNat := by
      rw [← (word.owned cell inside).1] at enough
      exact enough
    have hops := advanceHops_wire cell count (word.valid cell inside) (word.wire_small inside) limit
    obtain rfl := Except.ok.inj (hops.symm.trans arrived)
    exact .inl ⟨index, cell.hop count, by rw [hop, getElem?_map, found, Option.map_some], rfl⟩
  have short : (word.parity index recovery).wire.length ≤ maxCellBytes := by
    rw [word.parity_wire_length found]
    exact word.room
  have hops := advanceHops_wire (word.parity index recovery) count word.parity_validate short enough
  obtain rfl := Except.ok.inj (hops.symm.trans arrived)
  exact .inr ⟨index, recovery, found, by rw [word.hop_parity enough]⟩

end Codeword
end Ironet.Fec
