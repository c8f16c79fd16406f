import Ironet.Cell.RoundTrip
import Ironet.Reassembly.Table

/-!
# Byte accounting of one train

`TrainReassembler` caches the bytes of its partial records in one counter. The counter is exact
after every call, failed ones included, and a Cell adds at most its own bytes to it.
-/
namespace Ironet.Reassembly
open Support Cell RecordState

/-- The cached counter is the sum over the partial records. -/
def TrainReassembler.Balanced (self : TrainReassembler) : Prop :=
  self.bufferedBytes = self.records.weight RecordState.bufferedBytes

def segmentBytes (segment : RecordSegment) : Nat := segment.metadata.length + segment.data.length

/-- Only a segment that opens its record may carry metadata. -/
def MetadataAtStart (segment : RecordSegment) : Prop :=
  opensRecord segment.kind = false → segment.metadata = []

variable {segment : RecordSegment}

theorem metadataAtStart_of_validate
    (valid : segment.validate = .ok ()) : MetadataAtStart segment := by
  intro later
  simp only [RecordSegment.validate, do_eq_ok] at valid
  obtain ⟨-, -, -, -, -, -, -, -, kind⟩ := valid
  cases shape : segment.kind <;> simp [shape, opensRecord] at later
  all_goals
    simp only [RecordSegment.validateKind, shape, do_eq_ok] at kind
    exact kind.2.2

theorem decodedCell_segments (cell : DecodedCell) (segments : List RecordSegment)
    (body : cell.cell.body = .records segments) :
    ∀ segment ∈ segments, MetadataAtStart segment := by
  obtain ⟨bytes, decoded⟩ := cell.decoded
  have valid := ((CellV2.decode_ok_iff bytes cell.cell).mp decoded).1
  simp only [CellV2.validate, body, do_eq_ok] at valid
  obtain ⟨-, -, -, walked⟩ := valid
  intro segment member
  exact metadataAtStart_of_validate ((validateSegments_ok_iff segments).mp walked segment member)

/-! ### One record -/

theorem RecordState.insertMetadata_spec (state next : RecordState)
    (shape : MetadataAtStart segment) (inserted : state.insertMetadata segment = .ok next) :
    next.bufferedBytes = state.bufferedBytes +
        (if state.metadata.isNone then segment.metadata.length else 0) ∧
      next.dataBytes = state.dataBytes ∧ next.totalLen = state.totalLen := by
  unfold insertMetadata at inserted
  split at inserted
  · split at inserted
    · rename_i existing held
      split at inserted
      · cases inserted
        simp [held]
      · cases inserted
    · rename_i held
      cases inserted
      simp [held]
  · rename_i later
    cases inserted
    simp [shape (by simpa using later)]

theorem RecordState.insert_bytes (state next : RecordState) (segment : RecordSegment)
    (shape : MetadataAtStart segment) (inserted : state.insert segment = .ok next) :
    next.bufferedBytes = state.bufferedBytes + state.additionalBytes segment := by
  simp only [insert, do_eq_ok] at inserted
  obtain ⟨-, -, -, middle, opened, rfl⟩ := inserted
  obtain ⟨bytes, -⟩ := insertMetadata_spec state middle shape opened
  simp only [bytes, additionalBytes]
  omega

theorem RecordState.additionalBytes_le (state : RecordState) (segment : RecordSegment) :
    state.additionalBytes segment ≤ segmentBytes segment := by
  unfold additionalBytes segmentBytes
  split <;> omega

/-! ### One segment, one Cell -/

/-- What a call may do to the counter: it stays exact and grows by at most `allowance`. The limits
never change. -/
structure Charged (allowance : Nat) (before after : TrainReassembler) : Prop where
  balanced : after.Balanced
  bytes : after.bufferedBytes ≤ before.bufferedBytes + allowance
  limits : after.limits = before.limits

theorem Charged.refl {self : TrainReassembler} (balanced : self.Balanced) (allowance : Nat) :
    Charged allowance self self :=
  ⟨balanced, Nat.le_add_right _ _, rfl⟩

theorem Charged.trans {first second : Nat} {self middle next : TrainReassembler}
    (before : Charged first self middle) (after : Charged second middle next) :
    Charged (first + second) self next where
  balanced := after.balanced
  bytes := by
    have := before.bytes
    have := after.bytes
    omega
  limits := after.limits.trans before.limits

variable (self : TrainReassembler) (key : TrainKey)

theorem extendRecord_charged (segment : RecordSegment) (state : RecordState)
    (shape : MetadataAtStart segment) (balanced : self.Balanced)
    (found : self.records.lookup segment.recordId = some state) :
    Charged (segmentBytes segment) self (self.extendRecord key segment state).2 := by
  have atMost := state.additionalBytes_le segment
  have split := HashMap.weight_of_lookup bufferedBytes found
  unfold TrainReassembler.Balanced at balanced
  unfold TrainReassembler.extendRecord
  dsimp only
  split
  · exact .refl balanced _
  cases inserted : state.insert segment with
  | error message => exact .refl balanced _
  | ok next =>
  have grown := state.insert_bytes next segment shape inserted
  dsimp only
  split
  · -- a complete record takes its bytes along
    refine ⟨?_, ?_, rfl⟩
    · simp only [TrainReassembler.Balanced]
      omega
    · simp only
      omega
  refine ⟨?_, ?_, rfl⟩
  · simp only [TrainReassembler.Balanced, HashMap.weight_insert]
    omega
  · simp only
    omega

theorem acceptPartial_charged (shape : MetadataAtStart segment) (balanced : self.Balanced) :
    Charged (segmentBytes segment) self (self.acceptPartial key segment).2 := by
  unfold TrainReassembler.acceptPartial
  cases found : self.records.lookup segment.recordId with
  | some state => exact extendRecord_charged self key segment state shape balanced found
  | none =>
  dsimp only
  split
  · -- the fresh record state holds no bytes yet
    have opened : TrainReassembler.Balanced { self with
        records :=
          self.records.insert segment.recordId { totalLen := segment.totalLen.toNat } } := by
      simpa [TrainReassembler.Balanced, HashMap.weight_insert_of_absent _ _ found] using balanced
    obtain ⟨after, bytes, limits⟩ := extendRecord_charged _ key segment
      { totalLen := segment.totalLen.toNat } shape opened (AList.lookup_insert _)
    exact ⟨after, bytes, limits⟩
  · exact .refl balanced _

theorem acceptSegment_charged (shape : MetadataAtStart segment) (balanced : self.Balanced) :
    Charged (segmentBytes segment) self (self.acceptSegment key segment).2 := by
  unfold TrainReassembler.acceptSegment
  split
  · exact .refl balanced _
  split
  · unfold TrainReassembler.acceptFull
    split
    · exact .refl balanced _
    · exact ⟨balanced, Nat.le_add_right _ _, rfl⟩
  · exact acceptPartial_charged self key shape balanced

theorem acceptSegments_charged {segments : List RecordSegment} (completed : List CompletedRecord)
    (shape : ∀ segment ∈ segments, MetadataAtStart segment) (balanced : self.Balanced) :
    Charged (segments.map segmentBytes).sum self
      (self.acceptSegments key segments completed).2 := by
  induction segments generalizing self completed with
  | nil => exact .refl balanced _
  | cons segment rest ih =>
  have first := acceptSegment_charged self key (shape segment List.mem_cons_self) balanced
  unfold TrainReassembler.acceptSegments
  cases outcome : self.acceptSegment key segment with
  | mk result next =>
  rw [outcome] at first
  cases result with
  | error message => exact first.trans (.refl first.balanced _)
  | ok emitted =>
    exact first.trans (ih next _ (fun other member => shape other (List.mem_cons_of_mem _ member))
      first.balanced)

theorem acceptBody_charged {cell : CellV2} (reordered : Bool)
    (shape : ∀ segments, cell.body = .records segments →
      ∀ segment ∈ segments, MetadataAtStart segment)
    (balanced : self.Balanced) :
    Charged (ReassemblyTableV2.bodyBytes cell.body) self (self.acceptBody cell reordered).2 := by
  have closed : Charged 0 self self.observeClosure.2 := by
    unfold TrainReassembler.observeClosure
    split
    · split
      · exact ⟨balanced, Nat.le_refl _, rfl⟩
      · exact .refl balanced _
    · exact .refl balanced _
  unfold TrainReassembler.acceptBody
  cases body : cell.body with
  | parity payload => exact closed
  | records segments =>
  have walked := acceptSegments_charged self.observeClosure.2 (trainKey cell) []
    (shape segments body) closed.balanced
  dsimp only
  have total := closed.trans walked
  rw [Nat.zero_add] at total
  cases outcome : self.observeClosure.2.acceptSegments (trainKey cell) segments [] with
  | mk result next =>
    rw [outcome] at total
    cases result with
    | error message => exact total
    | ok records => exact total

theorem observeFlags_charged (cell : CellV2) (balanced : self.Balanced) :
    Charged 0 self (self.observeFlags cell).2 := by
  unfold TrainReassembler.observeFlags
  dsimp only
  split
  · exact .refl balanced _
  split
  · split <;> exact ⟨balanced, Nat.le_refl _, rfl⟩
  · exact ⟨balanced, Nat.le_refl _, rfl⟩

/-- A Cell adds at most its own bytes, and a Cell seen before adds none. -/
theorem accept_charged (cell : DecodedCell) (balanced : self.Balanced) :
    Charged (if self.cellSeen cell.cell.cellSequence then 0
      else ReassemblyTableV2.bodyBytes cell.cell.body) self (self.accept cell.cell).2 := by
  -- `allowance` hides the condition on duplicates until the code reaches its own test
  obtain ⟨allowance, charge⟩ : ∃ allowance, allowance =
      if self.cellSeen cell.cell.cellSequence then 0
      else ReassemblyTableV2.bodyBytes cell.cell.body := ⟨_, rfl⟩
  rw [← charge]
  unfold TrainReassembler.accept
  split
  · exact .refl balanced _
  dsimp only
  split
  · exact ⟨balanced, Nat.le_add_right _ _, rfl⟩
  split
  · exact ⟨balanced, Nat.le_add_right _ _, rfl⟩
  rename_i unseen
  have fresh : ¬ self.cellSeen cell.cell.cellSequence = true := unseen
  rw [if_neg fresh] at charge
  have marked : TrainReassembler.Balanced (TrainReassembler.markCellSeen
      { self with key := some (trainKey cell.cell) } cell.cell.cellSequence) := balanced
  have flagged := observeFlags_charged _ cell.cell marked
  cases outcome : (TrainReassembler.markCellSeen
      { self with key := some (trainKey cell.cell) } cell.cell.cellSequence).observeFlags
        cell.cell with
  | mk result next =>
  rw [outcome] at flagged
  have start : Charged 0 self next := ⟨flagged.balanced, flagged.bytes, flagged.limits⟩
  cases result with
  | error message => exact ⟨start.balanced, start.bytes.trans (by omega), start.limits⟩
  | ok _ =>
    have done := start.trans (acceptBody_charged next
      (self.maxSeenSequence.any fun maximum => cell.cell.cellSequence < maximum)
      (decodedCell_segments cell) start.balanced)
    rwa [Nat.zero_add, ← charge] at done

end Ironet.Reassembly
