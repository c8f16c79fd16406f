import Ironet.Train.Layout
import Ironet.Reassembly.Budget

/-!
# Progress of a train that was built by the packer

The state of a reassembler that has received some segments of a laid-out train is a function of
the set of received segments: a record is delivered when all its segments are there, a partial
record holds exactly its received fragments in order, and every other record has left no trace.
-/
namespace Ironet.Reassembly
open Support Cell Train List RecordState

/-! ### One record -/

/-- The partial record that holds the received segments among those of a record. -/
def stateOf (record : TrainRecord) (segments : List RecordSegment) (got : Finset RecordSegment) :
    RecordState where
  totalLen := record.data.length
  metadata := if segments.any fun segment => segment ∈ got && offsetOf segment == 0 then
      some record.metadata else none
  fragments := (segments.filter (· ∈ got)).map fun segment => (offsetOf segment, segment.data)
  dataBytes := ((segments.filter (· ∈ got)).map fun segment => segment.data.length).sum
  bufferedBytes := ((segments.filter (· ∈ got)).map fun segment => segment.data.length).sum +
    if segments.any fun segment => segment ∈ got && offsetOf segment == 0 then
      record.metadata.length else 0

section Record

variable {record : TrainRecord} {segments : List RecordSegment} {got : Finset RecordSegment}
  {new : RecordSegment}

theorem opensRecord_iff (piece : new = recordSegment record (offsetOf new) new.endOffset) :
    opensRecord new.kind = true ↔ offsetOf new = 0 := by
  have opens := recordSegment_opens record (offsetOf new) new.endOffset
  rw [← piece] at opens
  simpa [opensRecord] using opens

theorem dataLen_eq (segment : RecordSegment) :
    segment.data.length = segment.endOffset - offsetOf segment := by
  unfold RecordSegment.endOffset offsetOf
  omega

/-- Received data adds up to at most the record, and to all of it when nothing is missing. -/
theorem dataBytes_le (cut : Cut record segments) :
    (stateOf record segments got).dataBytes ≤ record.data.length := by
  simp only [stateOf, dataLen_eq]
  exact cut.tiles.sum_filter_le _

theorem dataBytes_eq_iff (cut : Cut record segments) :
    (stateOf record segments got).dataBytes = record.data.length ↔
      ∀ segment ∈ segments, segment ∈ got := by
  have whole := cut.tiles.sum_filter_eq_iff fun segment => decide (segment ∈ got)
  simpa only [stateOf, dataLen_eq, decide_eq_true_eq, Nat.sub_zero] using whole

theorem bufferedBytes_le (cut : Cut record segments) (valid : record.Valid) :
    (stateOf record segments got).bufferedBytes ≤ record.data.length + maxMetadataBytes := by
  have data : ((segments.filter (· ∈ got)).map fun segment => segment.data.length).sum ≤
      record.data.length := dataBytes_le cut
  have metadata := valid.metadata
  simp only [stateOf]
  split <;> omega

theorem stateOf_nothing (none : ∀ segment ∈ segments, segment ∉ got) :
    stateOf record segments got = { totalLen := record.data.length } := by
  have empty : segments.filter (fun segment => decide (segment ∈ got)) = [] :=
    filter_eq_nil_iff.mpr fun segment member => by simpa using none segment member
  have unopened : segments.any (fun segment => decide (segment ∈ got) && offsetOf segment == 0) =
      false := by
    refine any_eq_false.mpr fun segment member => ?_
    simp [none segment member]
  simp [stateOf, empty, unopened]

theorem any_insert (got : Finset RecordSegment) (member : new ∈ segments) :
    (segments.any fun segment => segment ∈ insert new got && offsetOf segment == 0) =
      ((segments.any fun segment => segment ∈ got && offsetOf segment == 0) ||
        offsetOf new == 0) := by
  rw [Bool.eq_iff_iff]
  simp only [any_eq_true, Bool.and_eq_true, Bool.or_eq_true, decide_eq_true_eq, beq_iff_eq,
    Finset.mem_insert]
  constructor
  · rintro ⟨segment, inside, rfl | held, first⟩
    · exact .inr first
    · exact .inl ⟨segment, inside, held, first⟩
  · rintro (⟨segment, inside, held, first⟩ | first)
    · exact ⟨segment, inside, .inr held, first⟩
    · exact ⟨new, member, .inl rfl, first⟩

variable {front back : List RecordSegment}

theorem filter_insert (got : Finset RecordSegment) (distinct : (front ++ new :: back).Nodup) :
    (front ++ new :: back).filter (· ∈ insert new got) =
      front.filter (· ∈ got) ++ new :: back.filter (· ∈ got) := by
  have apart : ∀ list : List RecordSegment, new ∉ list →
      list.filter (· ∈ insert new got) = list.filter (· ∈ got) := by
    intro list absent
    refine filter_congr fun segment member => ?_
    have different : segment ≠ new := fun same => absent (same ▸ member)
    simp [different]
  have parts := nodup_append.mp distinct
  have notBack : new ∉ back := (nodup_cons.mp parts.2.1).1
  have notFront : new ∉ front := fun member => parts.2.2 new member new mem_cons_self rfl
  rw [filter_append, filter_cons_of_pos (by simp), apart front notFront, apart back notBack]

theorem filter_missing (missing : new ∉ got) : (front ++ new :: back).filter (· ∈ got) =
      front.filter (· ∈ got) ++ back.filter (· ∈ got) := by
  rw [filter_append, filter_cons_of_neg (by simpa using missing)]

theorem fragments_around (missing : new ∉ got)
    (tiles : Tiles offsetOf RecordSegment.endOffset 0 record.data.length (front ++ new :: back)) :
    (stateOf record (front ++ new :: back) got).fragmentsBefore (offsetOf new) =
        (front.filter (· ∈ got)).map (fun segment => (offsetOf segment, segment.data)) ∧
      (stateOf record (front ++ new :: back) got).fragmentsFrom (offsetOf new) =
        (back.filter (· ∈ got)).map (fun segment => (offsetOf segment, segment.data)) := by
  obtain ⟨before, behind⟩ :=
    tiles.takeWhile_filter fun segment => decide (segment ∈ got)
  simp only [fragmentsBefore, fragmentsFrom, stateOf,
    filter_missing missing, takeWhile_map, dropWhile_map, Function.comp_def]
  rw [before, behind]
  exact ⟨rfl, rfl⟩

theorem stateOf_insert (cut : Cut record segments) (valid : record.Valid)
    (member : new ∈ segments) (missing : new ∉ got) :
    (stateOf record segments got).insert new = .ok (stateOf record segments (insert new got)) := by
  have piece := cut.pieces new member
  have opened := any_insert got member
  have unique : ∀ segment ∈ segments, offsetOf segment = offsetOf new → segment = new :=
    fun segment inside same => cut.tiles.start_inj inside member same
  obtain ⟨front, back, rfl⟩ := append_of_mem member
  obtain ⟨before, behind⟩ := fragments_around missing cut.tiles
  have ordered := pairwise_append.mp cut.tiles.pairwise
  have total : new.totalLen.toNat = record.data.length := by
    rw [piece]
    exact recordSegment_totalLen valid _ _
  have noOverlapBefore : ∀ previous ∈ ((front.filter (· ∈ got)).map
      fun segment => (offsetOf segment, segment.data)).getLast?,
      fragmentEnd previous ≤ offsetOf new := by
    intro previous last
    obtain ⟨segment, kept, rfl⟩ := mem_map.mp (mem_of_mem_getLast? last)
    exact ordered.2.2 segment (mem_filter.mp kept).1 new mem_cons_self
  have noOverlapBehind : ∀ next ∈ ((back.filter (· ∈ got)).map
      fun segment => (offsetOf segment, segment.data)).head?, new.endOffset ≤ next.1 := by
    intro next first
    obtain ⟨segment, kept, rfl⟩ := mem_map.mp (mem_of_mem_head? first)
    exact (pairwise_cons.mp ordered.2.1).1 segment (mem_filter.mp kept).1
  have offset : new.offset.toNat = offsetOf new := rfl
  simp only [RecordState.insert, do_eq_ok, offset, before, behind]
  refine ⟨total.symm, noOverlapBefore, noOverlapBehind, ?_⟩
  have sorted := filter_insert got cut.tiles.nodup
  have bytes : (((front ++ new :: back).filter (· ∈ insert new got)).map
      fun segment => segment.data.length).sum =
      (((front ++ new :: back).filter (· ∈ got)).map fun segment => segment.data.length).sum +
        new.data.length := by
    rw [sorted, filter_missing missing]
    simp only [map_append, map_cons, sum_append, sum_cons]
    omega
  have fragments : ((front ++ new :: back).filter (· ∈ insert new got)).map
      (fun segment => (offsetOf segment, segment.data)) =
      (front.filter (· ∈ got)).map (fun segment => (offsetOf segment, segment.data)) ++
        (offsetOf new, new.data) ::
          (back.filter (· ∈ got)).map (fun segment => (offsetOf segment, segment.data)) := by
    rw [sorted, map_append, map_cons]
  by_cases first : offsetOf new = 0
  · -- the opening segment brings the metadata, which was not there yet
    have opens := (opensRecord_iff piece).mpr first
    have metadata : new.metadata = record.metadata := by
      rw [piece]
      simp [recordSegment, first]
    have unopened : (front ++ new :: back).any
        (fun segment => decide (segment ∈ got) && offsetOf segment == 0) = false := by
      refine any_eq_false.mpr fun segment inside held => ?_
      simp only [Bool.and_eq_true, decide_eq_true_eq, beq_iff_eq] at held
      exact missing (unique segment inside (held.2.trans first.symm) ▸ held.1)
    have absent : (stateOf record (front ++ new :: back) got).metadata = none := by
      simp [stateOf, unopened]
    refine ⟨{ stateOf record (front ++ new :: back) got with
      metadata := some new.metadata
      bufferedBytes := (stateOf record (front ++ new :: back) got).bufferedBytes +
        new.metadata.length }, ?_, ?_⟩
    · simp only [insertMetadata, opens, if_true, absent]
    simp only [stateOf, opened, unopened, bytes, fragments, metadata, first,
      beq_self_eq_true, Bool.or_true, if_true, mk.injEq, true_and, Bool.false_eq_true,
      if_false]
    omega
  have later : opensRecord new.kind = false :=
    Bool.eq_false_iff.mpr fun opens => first ((opensRecord_iff piece).mp opens)
  have sameOpen : (offsetOf new == 0) = false := by simpa using first
  refine ⟨stateOf record (front ++ new :: back) got, ?_, ?_⟩
  · simp only [insertMetadata, later, Bool.false_eq_true, if_false]
  simp only [stateOf, opened, sameOpen, Bool.or_false, bytes, fragments, mk.injEq, true_and]
  omega

theorem complete_iff (cut : Cut record segments) (valid : record.Valid) :
    (stateOf record segments got).complete = true ↔ ∀ segment ∈ segments, segment ∈ got := by
  rw [complete, Bool.and_eq_true, beq_iff_eq]
  constructor
  · rintro ⟨-, full⟩
    exact (dataBytes_eq_iff cut).mp full
  intro all
  refine ⟨?_, (dataBytes_eq_iff cut).mpr all⟩
  -- the first segment starts at zero
  have nonempty : 0 < record.data.length := length_pos_iff.mpr valid.nonempty
  cases segments with
  | nil =>
    have empty : 0 = record.data.length := cut.tiles
    omega
  | cons segment rest =>
    have begins : offsetOf segment = 0 := cut.tiles.1
    simp [stateOf, all segment mem_cons_self, begins]

/-- What the receiver learns about a delivered record. -/
def view (record : CompletedRecord) : TrainKey × UInt16 × Bytes × Nat × Bytes :=
  (record.train, record.recordId, record.metadata, record.totalLen, record.coalesce)

/-- What the sender put into the train. -/
def expected (key : TrainKey) (record : TrainRecord) : TrainKey × UInt16 × Bytes × Nat × Bytes :=
  (key, record.recordId, record.metadata, record.data.length, record.data)

theorem cut_data (cut : Cut record segments) :
    (segments.map RecordSegment.data).flatten = record.data := by
  have slices : segments.map RecordSegment.data =
      segments.map fun segment => slice record.data (offsetOf segment) segment.endOffset := by
    refine map_congr_left fun segment member => ?_
    exact congrArg RecordSegment.data (cut.pieces segment member)
  rw [slices, ← flatMap_def, cut.tiles.flatMap_slice]
  simp [slice]

theorem finish_view (cut : Cut record segments) (valid : record.Valid) (key : TrainKey)
    (all : ∀ segment ∈ segments, segment ∈ got) :
    view ((stateOf record segments got).finish key record.recordId) = expected key record := by
  have everything : segments.filter (fun segment => decide (segment ∈ got)) = segments :=
    filter_eq_self.mpr fun segment member => by simpa using all segment member
  have complete := (complete_iff cut valid).mpr all
  rw [RecordState.complete, Bool.and_eq_true] at complete
  have metadata : (stateOf record segments got).metadata.getD [] = record.metadata := by
    have present := complete.1
    simp only [stateOf] at present ⊢
    split at present
    · rename_i opened
      rw [if_pos opened, Option.getD_some]
    · cases present
  simp only [view, expected, finish, CompletedRecord.coalesce, metadata, Prod.mk.injEq, true_and]
  refine ⟨rfl, ?_⟩
  simp only [stateOf, everything, map_map, Function.comp_def]
  exact cut_data cut

end Record

end Ironet.Reassembly
