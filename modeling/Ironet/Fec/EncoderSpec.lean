import Ironet.Fec.Codeword

/-!
# What the stripe encoder produces

On a train whose Cells leave room for parity the encoder succeeds, and the output of every stripe
of two or more Cells is a codeword: the Cells under the id of the stripe, then their parity.
-/
namespace Ironet.Fec
open Support Cell Train List CellV2 EncodedTrainV2

def inStripe (stripeId : UInt32) (cell : CellV2) : CellV2 := { cell with stripeId }

variable {cell : CellV2} (stripeId : UInt32)

theorem inStripe_validate (data : cell.kind = .data) (valid : cell.validate = .ok ()) :
    (inStripe stripeId cell).validate = .ok () := by
  obtain ⟨header, shape⟩ := (validate_ok_iff cell).mp valid
  refine (validate_ok_iff _).mpr ⟨header, ?_⟩
  unfold kind at data
  simp only [inStripe]
  cases body : cell.body with
  | records segments =>
    rw [body] at shape
    exact shape
  | parity payload => simp [body] at data

@[simp] theorem inStripe_wire_length (cell : CellV2) :
    (inStripe stripeId cell).wire.length = cell.wire.length := by
  rw [wire_length, wire_length]
  rfl

/-! ### The loops over the Cells of a stripe -/

theorem encodeAll_ok (maximum : Nat) (cells : List CellV2)
    (each : ∀ cell ∈ cells, cell.encode maximum = .ok cell.wire) :
    encodeAll maximum cells = .ok (cells.map wire) := by
  induction cells with
  | nil => rfl
  | cons cell rest ih =>
    simp [encodeAll, each cell mem_cons_self, ok_bind, ih fun later member =>
      each later (mem_cons_of_mem _ member)]

theorem joinStripe_ok (firstSequence : UInt16) (offset : Nat) (cells : List CellV2)
    (consecutive : ∀ index cell, cells[index]? = some cell →
      cell.cellSequence.toNat = firstSequence.toNat + offset + index) :
    joinStripe stripeId firstSequence offset cells =
      .ok (cells.map (inStripe stripeId)) := by
  induction cells generalizing offset with
  | nil => rfl
  | cons cell rest ih =>
  have first : cell.cellSequence.toNat = firstSequence.toNat + offset := consecutive 0 cell rfl
  have others := ih (offset + 1) fun index later found => by
    have value := consecutive (index + 1) later found
    omega
  simp only [joinStripe, ensure_of _ _ first, ok_bind, others, map_cons]
  rfl

theorem stripeLengths_ok (cells : List CellV2) (data : ∀ cell ∈ cells, cell.kind = .data)
    (short : ∀ cell ∈ cells, cell.wire.length < 2 ^ 16) :
    stripeLengths cells = .ok (cells.map fun cell => UInt16.ofNat cell.wire.length) := by
  induction cells with
  | nil => rfl
  | cons cell rest ih =>
  have length : encodedDataCellLen cell = .ok cell.wire.length := by
    have kind := data cell mem_cons_self
    rw [wire_length]
    unfold CellV2.kind at kind
    unfold encodedDataCellLen
    cases body : cell.body with
    | records segments => rfl
    | parity payload => simp [body] at kind
  have others := ih (fun later member => data later (mem_cons_of_mem _ member))
    (fun later member => short later (mem_cons_of_mem _ member))
  simp only [stripeLengths, length, ok_bind, ensure_of _ _ (short cell mem_cons_self), others,
    map_cons]

variable (lengths : List UInt16)

theorem symbolSize_even : symbolSize lengths % 2 = 0 := by
  simp only [symbolSize]
  omega

theorem le_symbolSize : ∀ length ∈ lengths, length.toNat ≤ symbolSize lengths := by
  intro length member
  have bound := le_max_of_le' 0 (mem_map_of_mem (f := UInt16.toNat) member) le_rfl
  simp only [symbolSize]
  omega

theorem symbolSize_le {lengths : List UInt16} {bound : Nat}
    (short : ∀ length ∈ lengths, length.toNat ≤ bound) : symbolSize lengths ≤ bound + 1 := by
  have longest : (lengths.map UInt16.toNat).foldr max 0 ≤ bound := by
    exact max_le_of_forall_le _ _ (forall_mem_map.mpr short)
  simp only [symbolSize]
  omega

/-! ### Parity -/

section Parity

variable {codec : ErasureCodec} {parityCells : Nat} (word : Codeword codec parityCells)

theorem encodeParity_ok (pathMaximum offset : Nat) (recoveries : List Symbol)
    (path : pathMaximum ≤ maxCellBytes)
    (room : headerLen + (parityFixedLen + word.cells.length * 2) + word.symbolBytes ≤ pathMaximum)
    (found : ∀ index recovery, recoveries[index]? = some recovery →
      word.recoveries[offset + index]? = some recovery) :
    encodeParity pathMaximum word.identity word.stripeId
        { dataCells := word.cells.length, parityCells } word.firstSequence word.symbolBytes
        word.lengths offset recoveries =
      .ok (recoveries.mapIdx fun index recovery =>
        (word.parity (offset + index) recovery).wire) := by
  induction recoveries generalizing offset with
  | nil => rfl
  | cons recovery rest ih =>
  have here := found 0 recovery rfl
  rw [Nat.add_zero] at here
  have payload : encodeParityPayload word.cells.length parityCells offset word.firstSequence
      word.symbolBytes word.lengths recovery = .ok (word.payload offset recovery) :=
    word.encode_metadata here
  have wire : (word.parity offset recovery).encode pathMaximum =
      .ok (word.parity offset recovery).wire := by
    have size := word.parity_wire_length here
    rw [wire_length] at size
    refine (encode_ok_iff _ _ _).mpr ⟨word.parity_validate, ?_, path, by omega, rfl⟩
    have positive := word.symbolBytes_pos
    omega
  have others := ih (offset + 1) fun index later at_ => by
    have next := found (index + 1) later at_
    rwa [Nat.add_assoc, Nat.add_comm 1]
  unfold Codeword.parity at wire
  simp only [encodeParity, payload, ok_bind, wire, others, mapIdx_cons, Nat.add_zero]
  refine congrArg (fun later => Except.ok (_ :: later)) ?_
  refine congrArg (fun f => mapIdx f rest) ?_
  funext index later
  rw [Nat.add_right_comm, Nat.add_assoc]

/-- The output of a protected stripe. -/
def Codeword.output : EncodedTrainV2 where
  systematic := word.cells.map CellV2.wire
  parity := word.parityWires
  ordered := dataDatagrams (word.cells.map CellV2.wire) ++ parityDatagrams word.parityWires
  stats := {
    protectedDataCells := word.cells.length
    parityCells := word.parityWires.length
    parityBytes := (word.parityWires.map length).sum }

theorem Codeword.output_bytes : word.output.ordered.map EncodedCellV2.bytes = word.datagrams := by
  simp [Codeword.output, dataDatagrams, parityDatagrams, Codeword.datagrams, Function.comp_def]

theorem Codeword.mem_output {datagram : EncodedCellV2} (member : datagram ∈ word.output.ordered) :
    datagram.bytes ∈ word.datagrams :=
  word.output_bytes ▸ mem_map_of_mem member

end Parity

/-! ### Stripes -/

/-- Consecutive data Cells of one train that leave room for parity. -/
structure Window (identity : TrainIdentity) (maximum : Nat) (firstSequence : UInt16)
    (stripe : List CellV2) : Prop where
  consecutive : ∀ index cell, stripe[index]? = some cell →
    cell.cellSequence.toNat = firstSequence.toNat + index
  last : firstSequence.toNat + stripe.length ≤ 65535
  owned : ∀ cell ∈ stripe, TrainIdentity.ofCell cell = identity
  data : ∀ cell ∈ stripe, cell.kind = .data
  valid : ∀ cell ∈ stripe, cell.validate = .ok ()
  fits : ∀ cell ∈ stripe, cell.wire.length ≤ maximum

section Stripe

variable {codec : ErasureCodec} {geometry : FecGeometryV2} {identity : TrainIdentity}
  {pathMaximum maximum : Nat} {firstSequence : UInt16} {stripe : List CellV2}

variable (promised : codec.Mds geometry.parityCells)
  (parities : 0 < geometry.parityCells ∧ geometry.parityCells ≤ maxParityCells)
  (path : pathMaximum ≤ maxCellBytes)
include promised parities path

/-- The Cells of a window of two or more make a codeword. -/
theorem Window.codeword (reserve : maximum + parityOverhead stripe.length ≤ pathMaximum)
    (window : Window identity maximum firstSequence stripe)
    (range : 2 ≤ stripe.length ∧ stripe.length ≤ maxDataCells) :
    ∃ word : Codeword codec geometry.parityCells,
      word.identity = identity ∧ word.firstSequence = firstSequence ∧
      word.cells = stripe.map (inStripe word.stripeId) ∧
      word.symbolBytes = symbolSize word.lengths ∧ word.symbolBytes ≤ maximum + 1 := by
  obtain ⟨stripeId, named⟩ : ∃ id, encodeStripeId firstSequence stripe.length = .ok id := by
    have bound := window.last
    refine ⟨UInt32.ofNat (stripe.length * 2 ^ 24 + (firstSequence.toNat + 1)), ?_⟩
    refine (encodeStripeId_ok_iff _ _ _).mpr ⟨range, UInt32.toNat_ofNat_of_lt' ?_⟩
    unfold maxDataCells at range
    simp only [UInt32.size]
    omega
  generalize cellsIs : stripe.map (inStripe stripeId) = cells
  have joined : ∀ cell ∈ cells, cell.wire.length ≤ maximum :=
    cellsIs ▸ forall_mem_map.mpr fun original there =>
      (inStripe_wire_length stripeId original).trans_le (window.fits original there)
  have count : cells.length = stripe.length := by
    rw [← cellsIs, length_map]
  generalize lengthsIs : cells.map (fun cell => UInt16.ofNat cell.wire.length) = lengths
  unfold parityOverhead headerLen parityFixedLen alignmentReserve at reserve
  unfold maxCellBytes at path
  have length : ∀ cell ∈ cells, (UInt16.ofNat cell.wire.length).toNat = cell.wire.length := by
    intro cell member
    have fits := joined cell member
    exact UInt16.toNat_ofNat_of_lt' (by simp only [UInt16.size]; omega)
  have symbolLe : symbolSize lengths ≤ maximum + 1 := by
    refine symbolSize_le fun entry member => ?_
    rw [← lengthsIs] at member
    obtain ⟨cell, isCell, rfl⟩ := mem_map.mp member
    rw [length cell isCell]
    exact joined cell isCell
  have fits : ∀ cell ∈ cells, cell.wire.length ≤ symbolSize lengths := by
    intro cell member
    rw [← length cell member]
    refine le_symbolSize lengths _ ?_
    rw [← lengthsIs]
    exact mem_map_of_mem member
  have even := symbolSize_even lengths
  have positive : 0 < symbolSize lengths := by
    obtain ⟨cell, member⟩ := exists_mem_of_length_pos (l := cells) (by omega)
    have long := wire_long cell
    have bound := fits cell member
    omega
  have ordinary : ErasureCodec.Ordinary cells.length geometry.parityCells (symbolSize lengths) := by
    unfold maxDataCells at range
    unfold maxParityCells at parities
    exact ⟨by omega, by omega, by omega, by omega, positive, even⟩
  obtain ⟨recoveries, coded, recoveryCount, width⟩ := promised.encodes cells.length
    (symbolSize lengths) (cells.map fun cell => dataSymbol (symbolSize lengths) cell.wire) ordinary
    (length_map _) (forall_mem_map.mpr fun cell isCell => dataSymbol_length (fits cell isCell))
  refine ⟨{
    identity
    firstSequence
    stripeId
    symbolBytes := symbolSize lengths
    cells
    recoveries
    range := count ▸ range
    last := count ▸ window.last
    named := count ▸ named
    parities
    sequence := ?_
    owned := cellsIs ▸ forall_mem_map.mpr fun cell there => ⟨window.owned cell there, rfl⟩
    valid := cellsIs ▸ forall_mem_map.mpr fun cell there =>
      inStripe_validate stripeId (window.data cell there) (window.valid cell there)
    data := cellsIs ▸ forall_mem_map.mpr window.data
    fits
    even
    room := ?_
    coded
    count := recoveryCount
    width }, rfl, rfl, cellsIs.symm, ?_, symbolLe⟩
  · intro index cell found
    rw [← cellsIs, getElem?_map, Option.map_eq_some_iff] at found
    obtain ⟨original, there, rfl⟩ := found
    exact window.consecutive index original there
  · unfold headerLen parityFixedLen maxCellBytes
    omega
  · simp only [Codeword.lengths, lengthsIs]

theorem encodeProtected_spec (least : headerLen + 1 ≤ maximum)
    (reserve : maximum + parityOverhead stripe.length ≤ pathMaximum)
    (window : Window identity maximum firstSequence stripe)
    (range : 2 ≤ stripe.length ∧ stripe.length ≤ maxDataCells) :
    ∃ word : Codeword codec geometry.parityCells,
      encodeProtected codec geometry.parityCells identity pathMaximum maximum firstSequence stripe =
        .ok word.output ∧
      word.identity = identity ∧ word.cells = stripe.map (inStripe word.stripeId) ∧
      encodeStripeId firstSequence stripe.length = .ok word.stripeId ∧
      ∀ bytes ∈ word.datagrams, bytes.length ≤ pathMaximum := by
  obtain ⟨word, rfl, rfl, cells, size, bound⟩ :=
    window.codeword promised parities path reserve range
  have count : word.cells.length = stripe.length := by
    rw [cells, length_map]
  have fits : ∀ cell ∈ word.cells, cell.wire.length ≤ maximum :=
    cells ▸ forall_mem_map.mpr fun original there =>
      (inStripe_wire_length _ original).trans_le (window.fits original there)
  have named := word.named
  rw [count] at named
  have room : headerLen + (parityFixedLen + word.cells.length * 2) + word.symbolBytes ≤
      pathMaximum := by
    unfold parityOverhead alignmentReserve at reserve
    omega
  have joined : joinStripe word.stripeId word.firstSequence 0 stripe = .ok word.cells := by
    rw [cells]
    exact joinStripe_ok _ _ 0 stripe window.consecutive
  have lengths : stripeLengths word.cells = .ok word.lengths :=
    stripeLengths_ok word.cells word.data fun cell member => by
      have small := word.wire_small member
      unfold maxCellBytes at small
      omega
  have systematic : encodeAll maximum word.cells = .ok (word.cells.map wire) := by
    refine encodeAll_ok maximum word.cells fun cell member => ?_
    have size := fits cell member
    rw [wire_length] at size
    refine (encode_ok_iff _ _ _).mpr ⟨word.valid cell member, least, ?_, size, rfl⟩
    omega
  have supported := promised.supports _ _ _ word.ordinary
  have recoveries : codec.encode word.cells.length geometry.parityCells word.symbolBytes
      ((word.cells.map wire).map (dataSymbol word.symbolBytes)) = .ok word.recoveries := by
    rw [map_map]
    exact word.coded
  have parity := encodeParity_ok word pathMaximum 0 word.recoveries path room
    fun index recovery found => by rwa [Nat.zero_add]
  simp only [Nat.zero_add] at parity
  refine ⟨word, ?_, rfl, cells, named, ?_⟩
  · simp only [encodeProtected, named, ok_bind, joined, lengths, ← size, ensure_of _ _ room,
      ensure_of _ _ supported, systematic, recoveries, length_map, parity]
    rfl
  intro bytes member
  rcases word.mem_datagrams.mp member with ⟨index, cell, found, rfl⟩ | ⟨index, recovery, found, rfl⟩
  · have short := fits cell (mem_of_getElem? found)
    omega
  · rw [word.parity_wire_length found]
    exact room

end Stripe

/-! ### Whole trains -/

def singleOutput (cell : CellV2) : EncodedTrainV2 where
  systematic := [cell.wire]
  ordered := dataDatagrams [cell.wire]
  stats := { unprotectedTailCells := 1 }

/-- What the encoder makes of one stripe: a codeword, or a Cell as it is. -/
inductive StripeOutput (codec : ErasureCodec) (parityCells pathMaximum : Nat)
    (identity : TrainIdentity) : List CellV2 → EncodedTrainV2 → Prop
  | single (cell : CellV2) (own : TrainIdentity.ofCell cell = identity)
      (valid : cell.validate = .ok ()) (data : cell.kind = .data) (unstriped : cell.stripeId = 0)
      (fits : cell.wire.length ≤ pathMaximum) :
      StripeOutput codec parityCells pathMaximum identity [cell] (singleOutput cell)
  | striped (stripe : List CellV2) (word : Codeword codec parityCells)
      (own : word.identity = identity) (cells : word.cells = stripe.map (inStripe word.stripeId))
      (fits : ∀ bytes ∈ word.datagrams, bytes.length ≤ pathMaximum) :
      StripeOutput codec parityCells pathMaximum identity stripe word.output

variable {codec : ErasureCodec} {pathMaximum : Nat} {parityCells : Nat} {identity : TrainIdentity}

variable {output : EncodedTrainV2}

theorem StripeOutput.short {stripe : List CellV2}
    (made : StripeOutput codec parityCells pathMaximum identity stripe output) :
    ∀ datagram ∈ output.ordered, datagram.bytes.length ≤ pathMaximum := by
  intro datagram member
  cases made with
  | single cell own valid data unstriped fits =>
    obtain rfl : datagram = { bytes := cell.wire, recovery := false } := by
      simpa [singleOutput, dataDatagrams] using member
    exact fits
  | striped _ word own cells fits => exact fits _ (word.mem_output member)

def trainIdentity (context : TrainContext) : TrainIdentity where
  class' := context.class'
  sessionEpoch := context.sessionEpoch
  routeLabel := context.routeLabel
  trainId := context.trainId
  overlayHopLimit := context.overlayHopLimit
  overlayHops := 0

section Train

variable {context : TrainContext} {records : List TrainRecord} {train : PacketTrain}
  {groups : List (List RecordSegment)}

variable (checked : validateContext context = .ok ()) (layout : Layout context records train groups)
include checked layout

theorem train_cell (member : cell ∈ train.cells) :
    TrainIdentity.ofCell cell = trainIdentity context ∧ cell.kind = .data ∧ cell.stripeId = 0 ∧
      cell.validate = .ok () ∧ cell.wire.length ≤ context.maximumDatagramSize := by
  obtain ⟨encoded, -⟩ := layout.cell_wire checked member
  obtain ⟨valid, -, -, fits, -⟩ := (encode_ok_iff _ _ _).mp encoded
  obtain ⟨index, inside, rfl⟩ := layout.mem_cells.mp member
  exact ⟨rfl, rfl, rfl, valid, by rw [wire_length]; exact fits⟩

theorem train_sequence {index : Nat} (found : train.cells[index]? = some cell) :
    cell.cellSequence.toNat = index ∧ index < 65535 := by
  simp only [validateContext, do_eq_ok] at checked
  have count := layout.count
  rw [layout.cells, getElem?_mapIdx, Option.map_eq_some_iff] at found
  obtain ⟨segments, group, rfl⟩ := found
  have inside := (List.getElem?_eq_some_iff.mp group).1
  refine ⟨?_, by omega⟩
  exact UInt16.toNat_ofNat_of_lt' (by simp only [UInt16.size]; omega)

theorem chunk_window {size : Nat} {first : CellV2} {rest : List CellV2} (positive : 0 < size)
    (member : first :: rest ∈ chunks size train.cells) :
    Window (trainIdentity context) context.maximumDatagramSize first.cellSequence
        (first :: rest) ∧ (first :: rest).length ≤ size := by
  obtain ⟨-, short, start, window⟩ := chunks_mem positive member
  have place : ∀ index cell, (first :: rest)[index]? = some cell →
      train.cells[start + index]? = some cell := by
    intro index cell found
    rw [← window index (List.getElem?_eq_some_iff.mp found).1]
    exact found
  have inTrain : ∀ cell ∈ first :: rest, cell ∈ train.cells := by
    intro cell isCell
    obtain ⟨index, found⟩ := mem_iff_getElem?.mp isCell
    exact mem_of_getElem? (place index cell found)
  have begin := (train_sequence checked layout (place 0 first rfl)).1
  refine ⟨⟨?_, ?_, ?_, ?_, ?_, ?_⟩, short⟩
  · intro index cell found
    rw [(train_sequence checked layout (place index cell found)).1, begin]
    omega
  · have final := place rest.length _ (getElem?_eq_getElem (by simp))
    have bound := (train_sequence checked layout final).2
    rw [begin, length_cons]
    omega
  · exact fun cell isCell => (train_cell checked layout (inTrain cell isCell)).1
  · exact fun cell isCell => (train_cell checked layout (inTrain cell isCell)).2.1
  · exact fun cell isCell => (train_cell checked layout (inTrain cell isCell)).2.2.2.1
  · exact fun cell isCell => (train_cell checked layout (inTrain cell isCell)).2.2.2.2

end Train

theorem encodeStripes_ok {maximum : Nat} {made : List CellV2 → EncodedTrainV2 → Prop}
    {stripes : List (List CellV2)} (output : EncodedTrainV2)
    (each : ∀ stripe ∈ stripes, ∃ encoded, encodeStripe codec parityCells identity pathMaximum
      maximum stripe = .ok encoded ∧ made stripe encoded) :
    ∃ outputs, List.Forall₂ made stripes outputs ∧
      encodeStripes codec parityCells identity pathMaximum maximum stripes output =
        .ok (outputs.foldl append output) := by
  induction stripes generalizing output with
  | nil => exact ⟨[], .nil, rfl⟩
  | cons stripe rest ih =>
  obtain ⟨encoded, success, first⟩ := each stripe mem_cons_self
  obtain ⟨outputs, others, run⟩ := ih (output.append encoded)
    fun later member => each later (mem_cons_of_mem _ member)
  refine ⟨encoded :: outputs, .cons first others, ?_⟩
  simp [encodeStripes, success, ok_bind, run]

theorem foldl_append_ordered (outputs : List EncodedTrainV2) (output : EncodedTrainV2) :
    (outputs.foldl append output).ordered =
      output.ordered ++ outputs.flatMap ordered := by
  induction outputs generalizing output with
  | nil => simp
  | cons next rest ih =>
    rw [foldl_cons, ih, flatMap_cons, ← append_assoc]
    rfl

variable {records : List TrainRecord} {context : TrainContext} {train : PacketTrain}

variable {geometry : FecGeometryV2}

section
variable (promised : codec.Mds geometry.parityCells) (valid : geometry.validate = .ok ())
  (parity : 0 < geometry.parityCells) (path : pathMaximum ≤ maxCellBytes)
  (maximum : protectedCellMaximum pathMaximum geometry.dataCells =
    .ok context.maximumDatagramSize) (built : buildPacketTrain context records = .ok train)

include promised valid parity path maximum built in
/-- The encoder succeeds on every train that was built for the protected maximum, and its output
is the output of the stripes, one after the other. -/
theorem encode_spec : ∃ outputs,
      List.Forall₂ (StripeOutput codec geometry.parityCells pathMaximum (trainIdentity context))
        (chunks geometry.dataCells train.cells) outputs ∧
      CellStripeEncoder.encode codec { geometry } train.cells pathMaximum =
        .ok (outputs.foldl append {}) := by
  obtain ⟨checked, groups, layout⟩ := buildPacketTrain_layout built
  simp only [FecGeometryV2.validate, do_eq_ok] at valid
  obtain ⟨range, few⟩ := valid
  have limit := maximum
  simp only [protectedCellMaximum, do_eq_ok] at limit
  obtain ⟨-, large, limit⟩ := limit
  have positive : 0 < geometry.dataCells := by omega
  have each : ∀ stripe ∈ chunks geometry.dataCells train.cells, ∃ encoded,
      encodeStripe codec geometry.parityCells (trainIdentity context) pathMaximum
          context.maximumDatagramSize stripe = .ok encoded ∧
        StripeOutput codec geometry.parityCells pathMaximum (trainIdentity context) stripe
          encoded := by
    intro stripe member
    cases stripe with
    | nil => exact absurd rfl (chunks_mem positive member).1
    | cons first rest =>
    obtain ⟨window, short⟩ := chunk_window checked layout positive member
    cases rest with
    | nil =>
      -- the one Cell at the end of the train
      have inTrain : first ∈ train.cells := by
        rw [← chunks_flatten geometry.dataCells train.cells positive]
        exact mem_flatten.mpr ⟨[first], member, mem_cons_self⟩
      obtain ⟨own, data, unstriped, sound, fits⟩ := train_cell checked layout inTrain
      have same : { first with stripeId := 0 } = first := by rw [← unstriped]
      have wire : first.encode pathMaximum = .ok first.wire := by
        have long := wire_long first
        rw [wire_length] at fits long
        refine (encode_ok_iff _ _ _).mpr ⟨sound, ?_, path, by omega, rfl⟩
        omega
      refine ⟨singleOutput first, ?_, .single first own sound data unstriped (by omega)⟩
      simp only [encodeStripe, encodeUnprotected, same, wire, ok_bind]
      rfl
    | cons second others =>
    have reserve : context.maximumDatagramSize +
        parityOverhead (first :: second :: others).length ≤ pathMaximum := by
      unfold parityOverhead at limit large ⊢
      omega
    obtain ⟨word, encoded, own, cells, -, fits⟩ := encodeProtected_spec promised ⟨parity, few⟩ path
      (by unfold parityOverhead at limit large; omega) reserve window
      ⟨by simp, short.trans range.2⟩
    exact ⟨word.output, encoded, .striped _ word own cells fits⟩
  obtain ⟨outputs, stripes, run⟩ := encodeStripes_ok {} each
  refine ⟨outputs, stripes, ?_⟩
  cases cells : train.cells with
  | nil =>
    -- a built train is not empty
    have none := layout.cells
    rw [cells] at none
    have empty := congrArg length none
    rw [length_mapIdx, length_nil] at empty
    exact absurd (eq_nil_of_length_eq_zero empty.symm) layout.nonempty
  | cons first rest =>
  have same : ∀ cell ∈ first :: rest, cell.kind = .data ∧
      TrainIdentity.ofCell cell = trainIdentity context := by
    intro cell member
    rw [← cells] at member
    obtain ⟨own, data, -⟩ := train_cell checked layout member
    exact ⟨data, own⟩
  have identity := (same first mem_cons_self).2
  simp only [CellStripeEncoder.encode, identity, ensure_of _ _ same, ok_bind,
    if_neg (Nat.ne_of_gt parity), maximum]
  rw [← cells]
  exact run

/-! ### The stripe of a datagram -/

/-- The stripe that the Cell in a datagram names. -/
def stripeOf (bytes : Bytes) : Option StripeKey :=
  (CellV2.decode bytes).toOption.map StripeKey.fromCell

variable {bytes : Bytes}

theorem stripeOf_of_decode (decoded : decode bytes = .ok cell) :
    stripeOf bytes = some (StripeKey.fromCell cell) := by
  simp only [stripeOf, decoded, Except.toOption, Option.map_some]

theorem Codeword.stripeOf_eq (word : Codeword codec parityCells) (member : bytes ∈ word.datagrams) :
    stripeOf bytes = some word.key := by
  rcases word.mem_datagrams.mp member with ⟨index, cell, found, rfl⟩ | ⟨index, recovery, found, rfl⟩
  · have isCell := mem_of_getElem? found
    rw [stripeOf_of_decode (word.decode_wire isCell), word.fromCell_eq isCell]
  · exact stripeOf_of_decode (word.decode_parity found)

variable {groups : List (List RecordSegment)}

theorem train_nodup (checked : validateContext context = .ok ())
    (layout : Layout context records train groups) : train.cells.Nodup := by
  refine nodup_iff_getElem?_ne_getElem?.mpr fun left right ordered inside same => ?_
  have found := getElem?_eq_getElem inside
  have first := (train_sequence checked layout (same.trans found)).1
  have second := (train_sequence checked layout found).1
  omega

variable {key : StripeKey} {datagram : EncodedCellV2}

theorem StripeOutput.codeword {stripe : List CellV2} (path : pathMaximum ≤ maxCellBytes)
    (made : StripeOutput codec parityCells pathMaximum identity stripe output)
    (member : datagram ∈ output.ordered) (named : stripeOf datagram.bytes = some key)
    (striped : key.stripeId ≠ 0) :
    ∃ word : Codeword codec parityCells, output = word.output ∧ word.key = key ∧
      word.identity = identity ∧ word.cells = stripe.map (inStripe word.stripeId) ∧
      (∀ bytes ∈ word.datagrams, bytes.length ≤ pathMaximum) := by
  cases made with
  | single cell own sound data unstriped fits =>
    -- a Cell at the end of a train has no stripe
    obtain rfl : datagram = { bytes := cell.wire, recovery := false } := by
      simpa [singleOutput, dataDatagrams] using member
    have decoded : decode cell.wire = .ok cell :=
      (decode_ok_iff _ _).mpr ⟨sound, rfl, fits.trans path⟩
    rw [stripeOf_of_decode decoded] at named
    have same : cell.stripeId = key.stripeId :=
      congrArg StripeKey.stripeId (Option.some.inj named)
    exact absurd (same.symm.trans unstriped) striped
  | striped _ word own cells fits =>
    have isKey := (word.stripeOf_eq (word.mem_output member)).symm.trans named
    exact ⟨word, rfl, Option.some.inj isKey, own, cells, fits⟩

theorem codeword_head {stripe : List CellV2} (checked : validateContext context = .ok ())
    (layout : Layout context records train groups) {word : Codeword codec parityCells}
    (cells : word.cells = stripe.map (inStripe word.stripeId))
    (inTrain : ∀ cell ∈ stripe, cell ∈ train.cells) :
    ∃ first ∈ stripe, train.cells[word.firstSequence.toNat]? = some first := by
  have least := word.range.1
  rw [cells, length_map] at least
  cases stripe with
  | nil => simp at least
  | cons first rest =>
  have begin := word.sequence 0 (inStripe word.stripeId first) (by rw [cells]; rfl)
  obtain ⟨index, found⟩ := mem_iff_getElem?.mp (inTrain first mem_cons_self)
  have number := (train_sequence checked layout found).1
  have start : word.firstSequence.toNat = index := by
    rw [← number]
    exact begin.symm
  exact ⟨first, mem_cons_self, start ▸ found⟩

include promised valid parity path maximum built in
/-- A datagram of a sent train that names a stripe belongs to a codeword of the train, and so do all
others that name this stripe. -/
theorem sent_stripe {sent : EncodedTrainV2}
    (encoded : CellStripeEncoder.encode codec { geometry } train.cells pathMaximum = .ok sent)
    (member : datagram ∈ sent.ordered) (named : stripeOf datagram.bytes = some key)
    (striped : key.stripeId ≠ 0) : ∃ word : Codeword codec geometry.parityCells,
      word.key = key ∧ word.identity = trainIdentity context ∧
      (∀ cell ∈ word.cells, ∃ original ∈ train.cells, cell = inStripe word.stripeId original) ∧
      (∀ bytes ∈ word.datagrams, bytes.length ≤ pathMaximum) ∧
      (∀ other ∈ sent.ordered, stripeOf other.bytes = some key → other.bytes ∈ word.datagrams) ∧
      (word.datagrams.map length).sum ≤ ((sent.ordered.filter fun other =>
        stripeOf other.bytes = some key).map fun other => other.bytes.length).sum := by
  obtain ⟨outputs, stripes, run⟩ := encode_spec promised valid parity path maximum built
  obtain rfl := Except.ok.inj (run.symm.trans encoded)
  obtain ⟨checked, groups, layout⟩ := buildPacketTrain_layout built
  simp only [FecGeometryV2.validate, do_eq_ok] at valid
  have positive : 0 < geometry.dataCells := by omega
  have whole := chunks_flatten geometry.dataCells train.cells positive
  have inTrain : ∀ stripe ∈ chunks geometry.dataCells train.cells, ∀ cell ∈ stripe,
      cell ∈ train.cells := by
    intro stripe isStripe cell isCell
    rw [← whole]
    exact mem_flatten.mpr ⟨stripe, isStripe, isCell⟩
  have ordered := foldl_append_ordered outputs {}
  rw [ordered] at member ⊢
  -- the codeword and the chunk behind a datagram that names the stripe
  have owner : ∀ (other : EncodedCellV2), other ∈ outputs.flatMap EncodedTrainV2.ordered →
      stripeOf other.bytes = some key →
      ∃ (index : Nat) (word : Codeword codec geometry.parityCells) (stripe : List CellV2),
        outputs[index]? = some word.output ∧ other ∈ word.output.ordered ∧
        (chunks geometry.dataCells train.cells)[index]? = some stripe ∧ word.key = key ∧
        word.identity = trainIdentity context ∧ word.cells = stripe.map (inStripe word.stripeId) ∧
        (∀ bytes ∈ word.datagrams, bytes.length ≤ pathMaximum) := by
    intro other listed names
    obtain ⟨output, isOutput, inside⟩ := mem_flatMap.mp listed
    obtain ⟨index, found⟩ := mem_iff_getElem?.mp isOutput
    obtain ⟨bound, rfl⟩ := List.getElem?_eq_some_iff.mp found
    have chunkBound : index < (chunks geometry.dataCells train.cells).length :=
      stripes.length_eq ▸ bound
    have made := (forall₂_iff_get.mp stripes).2 index chunkBound bound
    obtain ⟨word, isWord, rest⟩ := made.codeword path inside names striped
    rw [get_eq_getElem] at isWord
    rw [isWord] at found inside
    exact ⟨index, word, _, found, inside, getElem?_eq_getElem chunkBound, rest⟩
  obtain ⟨place, word, stripe, found, -, chunk, isKey, own, cells, fits⟩ :=
    owner datagram member named
  have isStripe := mem_of_getElem? chunk
  refine ⟨word, isKey, own, ?_, fits, ?_, ?_⟩
  · exact cells ▸ forall_mem_map.mpr fun original there =>
      ⟨original, inTrain stripe isStripe original there, rfl⟩
  · -- two codewords with one key share their first Cell, so they are the same part of the train
    intro other listed names
    obtain ⟨index, twin, twinStripe, twinFound, within, twinChunk, twinKey, -, twinCells, -⟩ :=
      owner other listed names
    have sameId : twin.stripeId = word.stripeId :=
      congrArg StripeKey.stripeId (twinKey.trans isKey.symm)
    have sameFirst : twin.firstSequence = word.firstSequence := by
      have shape := twin.decodeStripeId_eq
      rw [sameId, word.decodeStripeId_eq] at shape
      exact (ok_pair_inj shape).1.symm
    obtain ⟨first, isFirst, at_⟩ :=
      codeword_head checked layout cells (inTrain stripe isStripe)
    obtain ⟨twinFirst, isTwinFirst, twinAt⟩ := codeword_head checked layout twinCells
      (inTrain twinStripe (mem_of_getElem? twinChunk))
    rw [sameFirst, at_] at twinAt
    obtain rfl := Option.some.inj twinAt
    have distinct : (chunks geometry.dataCells train.cells).flatten.Nodup := by
      rw [whole]
      exact train_nodup checked layout
    have samePlace := place_of_shared distinct twinChunk chunk isTwinFirst isFirst
    rw [samePlace, found] at twinFound
    rw [← Option.some.inj twinFound] at within
    exact word.mem_output within
  -- the datagrams of the codeword are among those that name the stripe
  have named : word.output.ordered.filter (fun other => stripeOf other.bytes = some key) =
      word.output.ordered := by
    refine filter_eq_self.mpr fun other listed => ?_
    simpa [isKey] using word.stripeOf_eq (word.mem_output listed)
  have part : word.output.ordered.Sublist ((outputs.flatMap EncodedTrainV2.ordered).filter
      fun other => stripeOf other.bytes = some key) := by
    rw [← named]
    refine List.Sublist.filter _ ?_
    exact sublist_flatten_of_mem (mem_map_of_mem (mem_of_getElem? found))
  have total := (part.map fun other => other.bytes.length).sum_le_sum fun _ _ => Nat.zero_le _
  rw [← word.output_bytes, map_map]
  exact total

end
end Ironet.Fec
