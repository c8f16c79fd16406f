import Mathlib.Data.List.ModifyLast
import Ironet.Support.Tiling
import Ironet.Cell.RoundTrip
import Ironet.Train.Build

/-!
# The layout of a built train

What the packing loops produce, stated without the loops: every record is tiled by its segments,
the segments of a record that goes on in the next Cell close their Cell, and every Cell keeps the
limits of the wire format. The segments of a record are those with its id, so the layout does not
mention the order in which records were packed.
-/
namespace Ironet.Train
open Support Cell List RecordSegment

/-! ### One segment -/

def offsetOf (segment : RecordSegment) : Nat := segment.offset.toNat

def Final (segment : RecordSegment) : Prop := segment.kind = .full ∨ segment.kind = .end

/-- The segments are cut from the record one after the other. -/
structure CutFrom (record : TrainRecord) (first last : Nat) (segments : List RecordSegment) :
    Prop where
  tiles : Tiles offsetOf RecordSegment.endOffset first last segments
  pieces : ∀ segment ∈ segments,
    segment = recordSegment record (offsetOf segment) segment.endOffset

abbrev Cut (record : TrainRecord) (segments : List RecordSegment) : Prop :=
  CutFrom record 0 record.data.length segments

/-- The checks of `validate_record` that do not depend on the Cell size. -/
structure TrainRecord.Valid (record : TrainRecord) : Prop where
  recordId : record.recordId ≠ 0
  nonempty : record.data ≠ []
  data : record.data.length ≤ maxRecordBytes
  metadata : record.metadata.length ≤ maxMetadataBytes

section Segment

variable {record : TrainRecord} {offset stop : Nat}

theorem recordSegment_totalLen (valid : record.Valid) (offset stop : Nat) :
    (recordSegment record offset stop).totalLen.toNat = record.data.length := by
  have small : record.data.length ≤ 65535 := valid.data
  refine UInt32.toNat_ofNat_of_lt' ?_
  simp only [UInt32.size]
  omega

theorem recordSegment_offset (valid : record.Valid) (inside : offset ≤ record.data.length) :
    offsetOf (recordSegment record offset stop) = offset := by
  have small : record.data.length ≤ 65535 := valid.data
  refine UInt32.toNat_ofNat_of_lt' ?_
  simp only [UInt32.size]
  omega

theorem recordSegment_dataLen (offset : Nat) (inside : stop ≤ record.data.length) :
    (recordSegment record offset stop).data.length = stop - offset :=
  slice_length _ _ _ inside

theorem recordSegment_endOffset (valid : record.Valid) (ordered : offset ≤ stop)
    (inside : stop ≤ record.data.length) : (recordSegment record offset stop).endOffset = stop := by
  have start : (recordSegment record offset stop).offset.toNat = offset :=
    recordSegment_offset valid (ordered.trans inside)
  rw [endOffset, start, recordSegment_dataLen offset inside]
  omega

theorem recordSegment_metadata_length (valid : record.Valid) :
    (recordSegment record offset stop).metadata.length ≤ maxMetadataBytes := by
  simp only [recordSegment]
  split
  · exact valid.metadata
  · exact Nat.zero_le _

theorem recordSegment_final (record : TrainRecord) (offset stop : Nat) :
    Final (recordSegment record offset stop) ↔ stop = record.data.length := by
  simp only [Final, recordSegment, segmentKind]
  cases offset == 0 <;> cases ends : stop == record.data.length <;> simp_all

theorem recordSegment_full (record : TrainRecord) (offset stop : Nat) :
    (recordSegment record offset stop).kind = .full ↔ offset = 0 ∧ stop = record.data.length := by
  simp only [recordSegment, segmentKind]
  cases starts : offset == 0 <;> cases ends : stop == record.data.length <;> simp_all

theorem recordSegment_opens (record : TrainRecord) (offset stop : Nat) :
    ((recordSegment record offset stop).kind = .full ∨
      (recordSegment record offset stop).kind = .start) ↔ offset = 0 := by
  simp only [recordSegment, segmentKind]
  cases starts : offset == 0 <;> cases stop == record.data.length <;> simp_all

theorem recordSegment_validate (valid : record.Valid) (nonempty : offset < stop)
    (inside : stop ≤ record.data.length) :
    (recordSegment record offset stop).validate = .ok () := by
  have start : (recordSegment record offset stop).offset.toNat = offset :=
    recordSegment_offset valid (by omega)
  have total := recordSegment_totalLen valid offset stop
  have ending := recordSegment_endOffset valid (Nat.le_of_lt nonempty) inside
  have width := recordSegment_dataLen offset inside
  have small : record.data.length ≤ 65535 := valid.data
  have zero : (recordSegment record offset stop).offset = 0 ↔ offset = 0 := by
    rw [← UInt32.toNat_inj, start, UInt32.toNat_zero]
  simp only [validate, do_eq_ok, ending, total, width]
  refine ⟨rfl, valid.recordId, ⟨by omega, small⟩, ?_, by omega, recordSegment_metadata_length valid,
    by omega, inside, ?_⟩
  · intro empty
    rw [empty, length_nil] at width
    omega
  -- the kind says where the segment starts and ends
  have kind : (recordSegment record offset stop).kind =
      segmentKind (offset == 0) (stop == record.data.length) := rfl
  have metadata : (recordSegment record offset stop).metadata =
      if offset = 0 then record.metadata else [] := rfl
  unfold validateKind
  rw [ending, total, start, kind, metadata]
  cases starts : offset == 0 with
  | true =>
    have first : offset = 0 := by simpa using starts
    cases ends : stop == record.data.length with
    | true =>
      have last : stop = record.data.length := by simpa using ends
      simp only [segmentKind, do_eq_ok, zero]
      exact ⟨first, last⟩
    | false =>
      have more : stop ≠ record.data.length := by simpa using ends
      simp only [segmentKind, do_eq_ok, zero]
      exact ⟨first, by omega⟩
  | false =>
  have later : offset ≠ 0 := by simpa using starts
  cases ends : stop == record.data.length with
  | true =>
    have last : stop = record.data.length := by simpa using ends
    simp only [segmentKind, do_eq_ok, if_neg later]
    exact ⟨by omega, last, trivial⟩
  | false =>
    have more : stop ≠ record.data.length := by simpa using ends
    simp only [segmentKind, do_eq_ok, if_neg later]
    exact ⟨by omega, by omega, trivial⟩

end Segment

/-! ### The state of the packing loops -/

/-- The limits a finished Cell keeps. -/
structure GoodCell (capacity : Nat) (segments : List RecordSegment) : Prop where
  nonempty : segments ≠ []
  few : segments.length ≤ maxSegmentsPerCell
  fits : (segments.map RecordSegment.wireLen).sum ≤ capacity
  closing : ∀ segment ∈ segments.dropLast, Final segment

def openCells (context : TrainContext) (groups : List (List RecordSegment)) : List CellV2 :=
  groups.mapIdx fun index segments => openCell context (UInt16.ofNat index) segments

/-- The builder holds the given finished Cells and open segments. -/
structure Packed (context : TrainContext) (capacity : Nat) (groups : List (List RecordSegment))
    (state : BuildState) : Prop where
  cells : state.cells = openCells context groups
  good : ∀ segments ∈ groups, GoodCell capacity segments
  count : groups.length ≤ context.maximumCells
  used : state.used = (state.current.map RecordSegment.wireLen).sum
  room : state.used ≤ capacity
  few : state.current.length ≤ maxSegmentsPerCell
  closing : ∀ segment ∈ state.current.dropLast, Final segment

/-- Between two segments the open Cell is not full, and no record goes on in the next Cell. -/
structure Tidy (capacity : Nat) (state : BuildState) : Prop where
  room : state.used < capacity
  final : ∀ segment ∈ state.current, Final segment

def placed (groups : List (List RecordSegment)) (state : BuildState) : List RecordSegment :=
  groups.flatten ++ state.current

variable {capacity : Nat} {context : TrainContext} {state : BuildState}

theorem Packed.withStats {groups : List (List RecordSegment)}
    (packed : Packed context capacity groups state) (stats : TrainBuildStats) :
    Packed context capacity groups { state with stats } :=
  { packed with }

theorem Tidy.withStats (tidy : Tidy capacity state) (stats : TrainBuildStats) :
    Tidy capacity { state with stats } :=
  { tidy with }

section Packing

variable {context : TrainContext} {capacity : Nat} {groups : List (List RecordSegment)}
  {state next : BuildState}

theorem finishCell_spec (packed : Packed context capacity groups state)
    (run : finishCell context capacity state = .ok next) :
    Packed context capacity (groups ++ [state.current]) next ∧ next.current = [] ∧ next.used = 0 ∧
      placed (groups ++ [state.current]) next = placed groups state := by
  simp only [finishCell, do_eq_ok] at run
  obtain ⟨nonempty, below, fits, -, rfl⟩ := run
  have size : state.cells.length = groups.length := by
    rw [packed.cells, openCells, length_mapIdx]
  refine ⟨⟨?_, ?_, ?_, rfl, Nat.zero_le _, Nat.zero_le _, ?_⟩, rfl, rfl, ?_⟩
  · rw [packed.cells, openCells, openCells, mapIdx_append, length_mapIdx]
    simp
  · intro segments member
    rcases mem_append.mp member with old | new
    · exact packed.good segments old
    · obtain rfl := mem_singleton.mp new
      exact ⟨nonempty, packed.few, packed.used ▸ fits, packed.closing⟩
  · rw [length_append, length_singleton, ← size]
    exact below
  · intro segment member
    cases member
  · simp [placed]

theorem finishCellIf_spec {condition : Bool} (positive : 0 < capacity)
    (packed : Packed context capacity groups state) (tidy : condition = false → Tidy capacity state)
    (run : finishCellIf condition context capacity state = .ok next) :
    ∃ more, Packed context capacity (groups ++ more) next ∧ Tidy capacity next ∧
      placed (groups ++ more) next = placed groups state ∧
      (condition = true → next.current = [] ∧ next.used = 0) ∧
      (condition = false → next = state) := by
  cases condition with
  | false =>
    cases run
    exact ⟨[], by simpa using packed, tidy rfl, by simp [placed], nofun, fun _ => rfl⟩
  | true =>
  obtain ⟨done, empty, unused, same⟩ := finishCell_spec packed run
  refine ⟨[state.current], done, ⟨unused ▸ positive, ?_⟩, same, fun _ => ⟨empty, unused⟩, nofun⟩
  intro segment member
  rw [empty] at member
  cases member

variable {record : TrainRecord}

theorem placeSegment_spec {offset stop : Nat}
    (fitting : segmentHeaderLen + record.metadata.length < capacity)
    (inside : offset < record.data.length) (packed : Packed context capacity groups state)
    (tidy : Tidy capacity state)
    (run : placeSegment context capacity record offset state = .ok (next, stop)) :
    offset < stop ∧ stop ≤ record.data.length ∧ ∃ more,
      Packed context capacity (groups ++ more) next ∧ Tidy capacity next ∧
        placed (groups ++ more) next = placed groups state ++
          [recordSegment record offset stop] := by
  have positive : 0 < capacity := by omega
  simp only [placeSegment, do_eq_ok, Prod.mk.injEq] at run
  obtain ⟨first, firstRun, second, secondRun, progress, third, thirdRun, rfl, rfl⟩ := run
  -- a Cell with 64 segments takes no more
  obtain ⟨firstMore, firstPacked, firstTidy, firstPlaced, firstFull, firstSame⟩ :=
    finishCellIf_spec positive packed (fun _ => tidy) firstRun
  have fewFirst : first.current.length < maxSegmentsPerCell := by
    cases full : state.current.length == maxSegmentsPerCell with
    | true =>
      rw [(firstFull full).1]
      decide
    | false =>
      have few := packed.few
      have different : state.current.length ≠ maxSegmentsPerCell := by simpa using full
      rw [firstSame full]
      omega
  -- nor does one without room for a segment header and the metadata
  obtain ⟨secondMore, secondPacked, secondTidy, secondPlaced, secondFull, secondSame⟩ :=
    finishCellIf_spec positive firstPacked (fun _ => firstTidy) secondRun
  have fewSecond : second.current.length < maxSegmentsPerCell := by
    cases crowded : decide (capacity - first.used ≤
        segmentHeaderLen + if offset = 0 then record.metadata.length else 0) with
    | true =>
      rw [(secondFull crowded).1]
      decide
    | false =>
      rw [secondSame crowded]
      exact fewFirst
  set fixed := segmentHeaderLen + (if offset = 0 then record.metadata.length else 0) with fixedIs
  set take := min (capacity - second.used - fixed) (record.data.length - offset) with takeIs
  have inRecord : offset + take ≤ record.data.length := by omega
  have wire : (recordSegment record offset (offset + take)).wireLen = fixed + take := by
    have width := recordSegment_dataLen offset inRecord
    rw [wireLen, width, fixedIs]
    simp only [recordSegment]
    split <;> simp
  have pushed : Packed context capacity (groups ++ firstMore ++ secondMore) { second with
      current := second.current ++ [recordSegment record offset (offset + take)]
      used := second.used + (fixed + take) } := by
    refine ⟨secondPacked.cells, secondPacked.good, secondPacked.count, ?_, ?_, ?_, ?_⟩
    · simp only [map_append, map_cons, map_nil, sum_append, sum_cons,
        sum_nil, wire, secondPacked.used]
      omega
    · simp only
      omega
    · simp only [length_append, length_singleton]
      omega
    · simp only [dropLast_concat]
      exact secondTidy.final
  -- a segment that does not end the record fills the Cell
  have tidied : ((second.used + (fixed + take) == capacity) = false) → Tidy capacity { second with
      current := second.current ++ [recordSegment record offset (offset + take)]
      used := second.used + (fixed + take) } := by
    intro open'
    have different : second.used + (fixed + take) ≠ capacity := by simpa using open'
    have room := pushed.room
    refine ⟨?_, ?_⟩
    · simp only at room ⊢
      omega
    intro segment member
    rcases mem_append.mp member with old | new
    · exact secondTidy.final segment old
    · obtain rfl := mem_singleton.mp new
      refine (recordSegment_final _ _ _).mpr ?_
      omega
  obtain ⟨thirdMore, thirdPacked, thirdTidy, thirdPlaced, -, -⟩ :=
    finishCellIf_spec positive pushed tidied thirdRun
  refine ⟨by omega, inRecord, firstMore ++ secondMore ++ thirdMore, ?_, thirdTidy, ?_⟩
  · simpa using thirdPacked
  have secondAll : placed (groups ++ firstMore ++ secondMore) second = placed groups state :=
    secondPlaced.trans firstPlaced
  simp only [← append_assoc]
  rw [thirdPlaced, ← secondAll]
  simp [placed]

theorem placeRecord_spec (valid : record.Valid)
    (fitting : segmentHeaderLen + record.metadata.length < capacity) (fuel offset count : Nat)
    (groups : List (List RecordSegment)) (state : BuildState) {total : Nat}
    (inside : offset ≤ record.data.length) (enough : record.data.length - offset ≤ fuel)
    (packed : Packed context capacity groups state) (tidy : Tidy capacity state)
    (run : placeRecord context capacity record fuel offset count state = .ok (next, total)) :
    ∃ more cut, Packed context capacity (groups ++ more) next ∧ Tidy capacity next ∧
      placed (groups ++ more) next = placed groups state ++ cut ∧
      CutFrom record offset record.data.length cut := by
  induction fuel generalizing offset count groups state with
  | zero =>
    cases run
    have ended : offset = record.data.length := by omega
    exact ⟨[], [], by simpa using packed, tidy, by simp [placed], ended, by simp⟩
  | succ fuel ih =>
  unfold placeRecord at run
  split at run
  · rename_i below
    simp only [bind_eq_ok, Prod.exists] at run
    obtain ⟨middle, stop, step, rest⟩ := run
    obtain ⟨grows, inRecord, more, morePacked, moreTidy, morePlaced⟩ :=
      placeSegment_spec fitting below packed tidy step
    obtain ⟨later, cut, lastPacked, lastTidy, lastPlaced, tiles, pieces⟩ :=
      ih stop (count + 1) (groups ++ more) middle inRecord (by omega) morePacked moreTidy rest
    refine ⟨more ++ later, recordSegment record offset stop :: cut, ?_, lastTidy, ?_, ?_, ?_⟩
    · simpa using lastPacked
    · rw [← append_assoc, lastPlaced, morePlaced]
      simp
    · have starts : offsetOf (recordSegment record offset stop) = offset :=
        recordSegment_offset valid inside
      have ends := recordSegment_endOffset valid (Nat.le_of_lt grows) inRecord
      exact ⟨starts, ends.symm ▸ grows, ends.symm ▸ tiles⟩
    intro segment member
    rcases mem_cons.mp member with rfl | other
    · rw [recordSegment_offset valid inside,
        recordSegment_endOffset valid (Nat.le_of_lt grows) inRecord]
    · exact pieces segment other
  · rename_i past
    cases run
    have ended : offset = record.data.length := by omega
    exact ⟨[], [], by simpa using packed, tidy, by simp [placed], ended, by simp⟩

end Packing

/-! ### The layout -/

def segmentsOf (all : List RecordSegment) (record : TrainRecord) : List RecordSegment :=
  all.filter fun segment => segment.recordId == record.recordId

/-- Every record is cut into the segments with its id, and there are no others. -/
structure Split (records : List TrainRecord) (all : List RecordSegment) : Prop where
  ids : (records.map TrainRecord.recordId).Nodup
  valid : ∀ record ∈ records, record.Valid
  cut : ∀ record ∈ records, Cut record (segmentsOf all record)
  owned : ∀ segment ∈ all, ∃ record ∈ records, segment.recordId = record.recordId

variable {records : List TrainRecord} {cut : List RecordSegment}

theorem segmentsOf_cut {record other : TrainRecord} {first last : Nat}
    (isCut : CutFrom record first last cut) :
    segmentsOf cut other = if record.recordId = other.recordId then cut else [] := by
  have own : ∀ segment ∈ cut, segment.recordId = record.recordId := by
    intro segment member
    rw [isCut.pieces segment member]
    rfl
  split
  · rename_i same
    refine filter_eq_self.mpr fun segment member => ?_
    simp [own segment member, same]
  · rename_i different
    refine filter_eq_nil_iff.mpr fun segment member => ?_
    simpa [own segment member] using different

variable {all : List RecordSegment} {record : TrainRecord}

theorem Split.append (split : Split records all) (valid : record.Valid)
    (fresh : record.recordId ∉ records.map TrainRecord.recordId) (isCut : Cut record cut) :
    Split (records ++ [record]) (all ++ cut) where
  ids := by
    rw [map_append, map_singleton]
    exact nodup_append_comm.mp (nodup_cons.mpr ⟨fresh, split.ids⟩)
  valid other member := by
    rcases mem_append.mp member with old | new
    · exact split.valid other old
    · exact mem_singleton.mp new ▸ valid
  cut other member := by
    have parts : segmentsOf (all ++ cut) other = segmentsOf all other ++ segmentsOf cut other :=
      filter_append _ _
    rw [parts, segmentsOf_cut isCut]
    rcases mem_append.mp member with old | new
    · have different : record.recordId ≠ other.recordId := by
        intro same
        exact fresh (same ▸ mem_map_of_mem old)
      rw [if_neg different, append_nil]
      exact split.cut other old
    obtain rfl := mem_singleton.mp new
    have none : segmentsOf all other = [] := by
      refine filter_eq_nil_iff.mpr fun segment placedBefore same => ?_
      obtain ⟨owner, isRecord, id⟩ := split.owned segment placedBefore
      have clash : segment.recordId = other.recordId := by simpa using same
      exact fresh (clash ▸ id ▸ mem_map_of_mem isRecord)
    rw [none, if_pos rfl, nil_append]
    exact isCut
  owned segment member := by
    rcases mem_append.mp member with old | new
    · obtain ⟨owner, isRecord, id⟩ := split.owned segment old
      exact ⟨owner, mem_append_left _ isRecord, id⟩
    · refine ⟨record, mem_append_right _ (mem_singleton.mpr rfl), ?_⟩
      rw [isCut.pieces segment new]
      rfl

theorem validateRecord_ok (checked : validateRecord record capacity = .ok ()) :
    record.Valid ∧ segmentHeaderLen + record.metadata.length < capacity := by
  simp only [validateRecord, do_eq_ok] at checked
  obtain ⟨id, ⟨nonempty, length⟩, metadata, fitting⟩ := checked
  exact ⟨⟨id, nonempty, length, metadata⟩, fitting⟩

/-- The outer loop: what is placed is a split of the records so far. -/
theorem placeRecords_spec (records : List TrainRecord) (done : List TrainRecord)
    (ids : List UInt16) (groups : List (List RecordSegment)) (state next : BuildState)
    (known : ∀ id, id ∈ ids ↔ id ∈ done.map TrainRecord.recordId)
    (split : Split done (placed groups state)) (packed : Packed context capacity groups state)
    (tidy : Tidy capacity state)
    (run : placeRecords context capacity records ids state = .ok next) :
    ∃ more, Packed context capacity (groups ++ more) next ∧
      Split (done ++ records) (placed (groups ++ more) next) := by
  induction records generalizing done ids groups state with
  | nil =>
    cases run
    exact ⟨[], by simpa using packed, by simpa using split⟩
  | cons record rest ih =>
  simp only [placeRecords, do_eq_ok, Prod.exists] at run
  obtain ⟨checked, unused, middle, count, step, later⟩ := run
  obtain ⟨valid, fitting⟩ := validateRecord_ok checked
  obtain ⟨more, cut, morePacked, moreTidy, morePlaced, isCut⟩ :=
    placeRecord_spec valid fitting record.data.length 0 0 groups _ (Nat.zero_le _) (Nat.le_refl _)
      (packed.withStats _) (tidy.withStats _) step
  have fresh : record.recordId ∉ done.map TrainRecord.recordId :=
    fun known' => unused ((known record.recordId).mpr known')
  have extended : Split (done ++ [record]) (placed (groups ++ more) middle) := by
    rw [morePlaced]
    exact split.append valid fresh isCut
  have knownNext : ∀ id, id ∈ record.recordId :: ids ↔
      id ∈ (done ++ [record]).map TrainRecord.recordId := by
    intro id
    rw [mem_cons, known id, map_append, mem_append, map_singleton, mem_singleton, or_comm]
  -- the count of split records is only statistics
  obtain ⟨stats, counted⟩ : ∃ stats, (if 1 < count then { middle with stats := { middle.stats with
      splitRecords := middle.stats.splitRecords + 1 } } else middle) = { middle with stats } := by
    split <;> exact ⟨_, rfl⟩
  rw [counted] at later
  obtain ⟨last, lastPacked, lastSplit⟩ := ih (done ++ [record]) _ (groups ++ more)
    { middle with stats } knownNext extended (morePacked.withStats stats) (moreTidy.withStats stats)
    later
  exact ⟨more ++ last, by simpa using lastPacked,
    by simpa using lastSplit⟩

/-! ### The train -/

def boundaryFlags (count index : Nat) : UInt8 :=
  (if index = 0 then flagTrainStart else 0) ||| (if index + 1 = count then flagTrainEnd else 0)

def trainCell (context : TrainContext) (count index : Nat) (segments : List RecordSegment) :
    CellV2 :=
  { openCell context (UInt16.ofNat index) segments with flags := boundaryFlags count index }

/-- The finished train: its Cells carry the groups, which split the records. -/
structure Layout (context : TrainContext) (records : List TrainRecord) (train : PacketTrain)
    (groups : List (List RecordSegment)) : Prop where
  cells : train.cells = groups.mapIdx (trainCell context groups.length)
  nonempty : groups ≠ []
  count : groups.length ≤ context.maximumCells
  good : ∀ segments ∈ groups, GoodCell (context.maximumDatagramSize - headerLen) segments
  split : Split records groups.flatten

theorem markBoundaries_openCells (context : TrainContext) (groups : List (List RecordSegment)) :
    markBoundaries (openCells context groups) =
      groups.mapIdx (trainCell context groups.length) := by
  cases groups using reverseRecOn with
  | nil => rfl
  | append_singleton front last =>
  cases front with
  | nil =>
    have single := modifyLast_concat markEnd
      (markStart (openCell context (UInt16.ofNat 0) last)) []
    simpa [markBoundaries, openCells, trainCell, boundaryFlags, markStart, markEnd, openCell]
      using single
  | cons head middle =>
  -- the head is marked as the start, the last Cell as the end, the others not at all
  simp only [markBoundaries, openCells, mapIdx_append, mapIdx_cons, mapIdx_nil,
    cons_append, modifyHead_cons]
  rw [← cons_append, modifyLast_concat]
  simp only [length_append, length_cons, length_nil, cons_append]
  congr 1
  · simp [trainCell, boundaryFlags, markStart, openCell]
  congr 1
  · refine ext_getElem (by simp) ?_
    intro index inside _
    have below : index < middle.length := by simpa using inside
    have notLast : ¬ index = middle.length := by omega
    simp [trainCell, boundaryFlags, notLast, openCell]
  · simp [trainCell, boundaryFlags, markEnd, openCell]

theorem buildPacketTrain_layout {train : PacketTrain}
    (built : buildPacketTrain context records = .ok train) :
    validateContext context = .ok () ∧ ∃ groups, Layout context records train groups := by
  simp only [buildPacketTrain, do_eq_ok] at built
  obtain ⟨checked, -, middle, run, last, finish, nonempty, rfl⟩ := built
  refine ⟨checked, ?_⟩
  set capacity := context.maximumDatagramSize - headerLen with capacityIs
  have positive : 0 < capacity := by
    simp only [validateContext, do_eq_ok] at checked
    omega
  have start : Packed context capacity [] .empty :=
    ⟨rfl, by simp, Nat.zero_le _, rfl, Nat.zero_le _, Nat.zero_le _, by simp [BuildState.empty]⟩
  have tidy : Tidy capacity .empty := ⟨positive, by simp [BuildState.empty]⟩
  have nothing : Split [] (placed [] .empty) :=
    ⟨by simp, by simp, by simp, by simp [placed, BuildState.empty]⟩
  obtain ⟨groups, packed, split⟩ :=
    placeRecords_spec records [] [] [] .empty middle (by simp) nothing
    start tidy run
  rw [nil_append] at packed split
  rw [nil_append] at split
  -- the open Cell is finished if there is one
  cases remains : decide (middle.current ≠ []) with
  | true =>
    simp only [finishCellIf, remains, if_true] at finish
    obtain ⟨done, empty, -, same⟩ := finishCell_spec packed finish
    refine ⟨groups ++ [middle.current], ?_, by simp, done.count, done.good, ?_⟩
    · rw [done.cells, markBoundaries_openCells]
    · rw [← same, placed, empty, append_nil] at split
      exact split
  | false =>
  have empty : middle.current = [] := by simpa using remains
  simp only [finishCellIf, remains, Bool.false_eq_true, if_false, Except.ok.injEq] at finish
  subst finish
  refine ⟨groups, ?_, ?_, packed.count, packed.good, ?_⟩
  · rw [packed.cells, markBoundaries_openCells]
  · rintro rfl
    exact nonempty packed.cells
  · rw [placed, empty, append_nil] at split
    exact split

/-! ### The Cells of a train are valid -/

section Cells

variable {context : TrainContext} {records : List TrainRecord} {train : PacketTrain}
  {groups : List (List RecordSegment)}

variable {segment : RecordSegment}

theorem Split.piece (split : Split records all) (member : segment ∈ all) :
    ∃ record ∈ records, segment.recordId = record.recordId ∧ segment ∈ segmentsOf all record ∧
      segment = recordSegment record (offsetOf segment) segment.endOffset := by
  obtain ⟨record, isRecord, id⟩ := split.owned segment member
  have own : segment ∈ segmentsOf all record := mem_filter.mpr ⟨member, by simpa using id⟩
  exact ⟨record, isRecord, id, own, (split.cut record isRecord).pieces segment own⟩

theorem Split.validate (split : Split records all) (member : segment ∈ all) :
    segment.validate = .ok () := by
  obtain ⟨record, isRecord, -, own, piece⟩ := split.piece member
  obtain ⟨-, nonempty, inside⟩ := (split.cut record isRecord).tiles.bounds own
  rw [piece]
  exact recordSegment_validate (split.valid record isRecord) nonempty inside

/-- No segment occurs twice in a train. -/
theorem Split.nodup (split : Split records all) : all.Nodup := by
  refine nodup_iff_count_le_one.mpr fun segment => ?_
  by_cases member : segment ∈ all
  · obtain ⟨record, isRecord, id, -, -⟩ := split.piece member
    have own := nodup_iff_count_le_one.mp (split.cut record isRecord).tiles.nodup segment
    rwa [segmentsOf, count_filter (by simpa using id)] at own
  · rw [count_eq_zero_of_not_mem member]
    exact Nat.zero_le 1

theorem boundaryFlags_known (count index : Nat) :
    boundaryFlags count index &&& ~~~knownFlags = 0 := by
  unfold boundaryFlags
  split <;> split <;> decide

theorem Layout.mem_cells (layout : Layout context records train groups) {cell : CellV2} :
    cell ∈ train.cells ↔ ∃ index, ∃ inside : index < groups.length,
      trainCell context groups.length index groups[index] = cell := by
  rw [layout.cells, mem_mapIdx]

theorem Layout.cell_wire (checked : validateContext context = .ok ())
    (layout : Layout context records train groups) {cell : CellV2} (member : cell ∈ train.cells) :
    cell.encode context.maximumDatagramSize = .ok cell.wire ∧
      CellV2.decode cell.wire = .ok cell := by
  obtain ⟨index, inside, rfl⟩ := layout.mem_cells.mp member
  have isGroup := getElem_mem inside
  generalize groups[index] = segments at isGroup ⊢
  have good := layout.good segments isGroup
  simp only [validateContext, do_eq_ok] at checked
  obtain ⟨⟨least, most⟩, -, epoch, label, limit, id⟩ := checked
  have hops := UInt8.toNat_lt context.overlayHopLimit
  have valid : (trainCell context groups.length index segments).validate = .ok () := by
    refine (CellV2.validate_ok_iff _).mpr ⟨⟨boundaryFlags_known _ _, epoch, label, id, limit, ?_⟩,
      good.nonempty, good.few, ?_⟩
    · simp only [trainCell, openCell, UInt8.toNat_zero]
      omega
    · intro segment inside
      exact layout.split.validate (mem_flatten.mpr ⟨segments, isGroup, inside⟩)
  have size : headerLen + (trainCell context groups.length index segments).body.payloadLen ≤
      context.maximumDatagramSize := by
    have fits := good.fits
    simp only [trainCell, openCell, CellBody.payloadLen]
    omega
  have encoded :
      (trainCell context groups.length index segments).encode context.maximumDatagramSize =
      .ok (trainCell context groups.length index segments).wire :=
    (CellV2.encode_ok_iff _ _ _).mpr ⟨valid, by omega, most, size, rfl⟩
  refine ⟨encoded, (CellV2.decode_ok_iff _ _).mpr ⟨valid, rfl, ?_⟩⟩
  rw [CellV2.wire_length]
  exact size.trans most

end Cells

end Ironet.Train
