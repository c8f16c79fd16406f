import Mathlib.Data.List.GetD
import Ironet.Support.Chunks
import Ironet.Session.Limits
import Ironet.Reassembly.Delivery

/-!
# Exactly-once delivery of a train

The Cells of a built train may arrive in any order and any number of times. With the limits a
receiver derives from the negotiated ones, no arrival fails, every record is delivered once, and
the train is reported as complete as soon as its last Cell is there.

The limits suffice because a record that spans several Cells closes the Cell it starts in: there
are at most as many partial records as Cells, whatever the order.
-/
namespace Ironet.Reassembly
open Support Cell Train Session HashMap TrainReassembler TrainRecord List UInt16

/-! ### Partial records never exceed the limits -/

def Whole (all : List RecordSegment) (got : Finset RecordSegment) (record : TrainRecord) : Prop :=
  ∀ segment ∈ segmentsOf all record, segment ∈ got
  deriving Decidable

def Begun (all : List RecordSegment) (got : Finset RecordSegment) (record : TrainRecord) : Prop :=
  ∃ segment ∈ segmentsOf all record, segment ∈ got
  deriving Decidable

/-- The records that take more than one segment. -/
def splitRecords (records : List TrainRecord) (all : List RecordSegment) : List TrainRecord :=
  records.filter fun record => 2 ≤ (segmentsOf all record).length

/-- The limits leave room for all split records at once. -/
structure Roomy (records : List TrainRecord) (all : List RecordSegment)
    (limits : ReassemblyLimits) : Prop where
  count : (splitRecords records all).length ≤ limits.maximumActiveRecords
  bytes : ((splitRecords records all).map fun record => record.data.length + maxMetadataBytes).sum ≤
    limits.maximumBufferedBytes

theorem recordId_of_mem {all : List RecordSegment} {record : TrainRecord} {segment : RecordSegment}
    (own : segment ∈ segmentsOf all record) : segment.recordId = record.recordId := by
  simpa using (mem_filter.mp own).2

theorem two_le_length {segments : List RecordSegment} {left right : RecordSegment}
    (leftMember : left ∈ segments) (rightMember : right ∈ segments) (different : left ≠ right) :
    2 ≤ segments.length := by
  have pair : [left, right] ⊆ segments := by simp [leftMember, rightMember]
  exact (subperm_of_subset (by simp [different]) pair).length_le

section Splitting

variable {context : TrainContext} {records : List TrainRecord} {train : PacketTrain}
  {groups : List (List RecordSegment)}

theorem split_opening {all : List RecordSegment} (split : Split records all) {record : TrainRecord}
    (isSplit : record ∈ splitRecords records all) :
    ∃ segment ∈ segmentsOf all record, segment ∈ all ∧ ¬ Final segment := by
  obtain ⟨isRecord, several⟩ := mem_filter.mp isSplit
  have cut := split.cut record isRecord
  cases shape : segmentsOf all record with
  | nil => simp [shape] at several
  | cons segment rest =>
  have member : segment ∈ segmentsOf all record := shape ▸ mem_cons_self
  refine ⟨segment, mem_cons_self, (mem_filter.mp member).1, ?_⟩
  intro final
  rw [cut.pieces segment member] at final
  have ends := (recordSegment_final _ _ _).mp final
  have begins : offsetOf segment = 0 := by
    have tiles := cut.tiles
    rw [shape] at tiles
    exact tiles.1
  have only := cut.tiles.eq_singleton member begins ends
  rw [only] at several
  simp at several

variable (layout : Layout context records train groups)
include layout

theorem splitRecords_length : (splitRecords records groups.flatten).length ≤ groups.length := by
  have distinct : ((splitRecords records groups.flatten).map recordId).Nodup :=
    layout.split.ids.sublist (filter_sublist.map _)
  -- the segment that opens a split record is the last one of its Cell
  have last : ∀ id ∈ (splitRecords records groups.flatten).map recordId,
      id ∈ (groups.filterMap getLast?).map RecordSegment.recordId := by
    intro id member
    obtain ⟨record, isSplit, rfl⟩ := mem_map.mp member
    obtain ⟨segment, own, placed, notFinal⟩ := split_opening layout.split isSplit
    obtain ⟨segments, isGroup, inside⟩ := mem_flatten.mp placed
    have good := layout.good segments isGroup
    refine mem_map.mpr ⟨segment, mem_filterMap.mpr ⟨segments, isGroup, ?_⟩, ?_⟩
    · rw [← dropLast_append_getLast good.nonempty] at inside
      rcases mem_append.mp inside with early | final
      · exact absurd (good.closing _ early) notFinal
      · rw [mem_singleton.mp final, getLast?_eq_some_getLast]
    · exact recordId_of_mem own
  have count := (subperm_of_subset distinct last).length_le
  rw [length_map, length_map] at count
  exact count.trans (length_filterMap_le _ _)

/-- The limits a receiver derives from the negotiated ones are enough. -/
theorem perTrain_roomy {limits : WireLimitsV2}
    (cells : context.maximumCells = limits.maxCellsPerTrain.toNat)
    (data : (records.map fun record => record.data.length).sum ≤ limits.maxTrainSize.toNat) :
    Roomy records groups.flatten (perTrain limits) := by
  have split := splitRecords_length layout
  have count : groups.length ≤ limits.maxCellsPerTrain.toNat := cells ▸ layout.count
  refine ⟨split.trans count, ?_⟩
  have part : ((splitRecords records groups.flatten).map fun record => record.data.length).sum ≤
      (records.map fun record => record.data.length).sum :=
    (filter_sublist.map _).sum_le_sum fun _ _ => Nat.zero_le _
  have product : (splitRecords records groups.flatten).length * maxMetadataBytes ≤
      limits.maxCellsPerTrain.toNat * maxMetadataBytes :=
    Nat.mul_le_mul_right _ (split.trans count)
  rw [sum_map_add, map_const', sum_replicate, smul_eq_mul]
  simp only [perTrain, perTrainBytes]
  omega

end Splitting

/-! ### Progress -/

/-- The reassembler has received the given segments of a split train. -/
structure Progress (key : TrainKey) (records : List TrainRecord) (all : List RecordSegment)
    (got : Finset RecordSegment) (train : TrainReassembler) (out : List CompletedRecord) :
    Prop where
  balanced : train.Balanced
  completed : ∀ record ∈ records, record.recordId ∈ train.completedRecords ↔ Whole all got record
  held : ∀ record ∈ records, train.records.lookup record.recordId =
    if Begun all got record ∧ ¬ Whole all got record then
      some (stateOf record (segmentsOf all record) got) else none
  ids : ∀ id state, train.records.lookup id = some state → id ∈ records.map recordId
  out : (out.map view).Perm ((records.filter (Whole all got)).map (expected key))

section Steps

variable {key : TrainKey} {records : List TrainRecord} {all : List RecordSegment}
  {got : Finset RecordSegment} {self next : TrainReassembler} {out : List CompletedRecord}
  {new : RecordSegment} {record : TrainRecord}

theorem stateOf_congr {segments : List RecordSegment} {other : Finset RecordSegment}
    (same : ∀ segment ∈ segments, segment ∈ got ↔ segment ∈ other) :
    stateOf record segments got = stateOf record segments other := by
  have kept : segments.filter (fun segment => decide (segment ∈ got)) =
      segments.filter fun segment => decide (segment ∈ other) :=
    filter_congr fun segment member => by simp [same segment member]
  have opened : segments.any (fun segment => decide (segment ∈ got) && offsetOf segment == 0) =
      segments.any fun segment => decide (segment ∈ other) && offsetOf segment == 0 := by
    rw [Bool.eq_iff_iff]
    simp only [any_eq_true, Bool.and_eq_true, decide_eq_true_eq]
    refine exists_congr fun segment => and_congr_right fun member => ?_
    rw [same segment member]
  simp only [stateOf, kept, opened]

variable {other : TrainRecord}

section
variable (apart : new.recordId ≠ other.recordId)
include apart

theorem foreign : ∀ segment ∈ segmentsOf all other, segment ∈ got ↔ segment ∈ insert new got := by
  intro segment member
  have different : segment ≠ new := by
    rintro rfl
    exact apart (recordId_of_mem member)
  simp [different]

theorem whole_foreign : Whole all (insert new got) other ↔ Whole all got other :=
  forall₂_congr fun segment member => (foreign apart segment member).symm

theorem begun_foreign : Begun all (insert new got) other ↔ Begun all got other :=
  exists_congr fun segment => and_congr_right fun member => (foreign apart segment member).symm

end

theorem filter_grown {α : Type} {items : List α} {item : α} {p q : α → Bool}
    (distinct : items.Nodup) (member : item ∈ items) (before : p item = false)
    (after : q item = true) (others : ∀ other ∈ items, other ≠ item → p other = q other) :
    (items.filter q).Perm (items.filter p ++ [item]) := by
  have new : item ∉ items.filter p := by simp [before]
  have grown : (items.filter p ++ [item]).Nodup := by
    rw [← concat_eq_append]
    exact (distinct.filter p).concat new
  refine (perm_ext_iff_of_nodup (distinct.filter q) grown).mpr fun other => ?_
  rw [mem_append, mem_singleton, mem_filter, mem_filter]
  by_cases same : other = item
  · simp [same, member, after]
  · simp +contextual [same, others]

/-- What receiving one segment must do to the state, whichever branch does it. -/
structure Advanced (all : List RecordSegment) (got : Finset RecordSegment) (key : TrainKey)
    (record : TrainRecord) (new : RecordSegment) (before after : TrainReassembler)
    (emitted : List CompletedRecord) : Prop where
  balanced : after.Balanced
  completed : ∀ id, id ∈ after.completedRecords ↔
    id ∈ before.completedRecords ∨ (id = record.recordId ∧ Whole all (insert new got) record)
  own : after.records.lookup record.recordId = if Whole all (insert new got) record then none
    else some (stateOf record (segmentsOf all record) (insert new got))
  others : ∀ id, id ≠ record.recordId → after.records.lookup id = before.records.lookup id
  emitted : emitted.map view =
    if Whole all (insert new got) record then [expected key record] else []

theorem Progress.advance (split : Split records all) (isRecord : record ∈ records)
    (own : new ∈ segmentsOf all record) (missing : new ∉ got)
    (progress : Progress key records all got self out) {emitted : List CompletedRecord}
    (advanced : Advanced all got key record new self next emitted) :
    Progress key records all (insert new got) next (out ++ emitted) := by
  have id := recordId_of_mem own
  have notWhole : ¬ Whole all got record := fun whole => missing (whole new own)
  have begun : Begun all (insert new got) record := ⟨new, own, Finset.mem_insert_self _ _⟩
  have apart : ∀ other ∈ records, other ≠ record → new.recordId ≠ other.recordId :=
    fun other isOther different same =>
      different (inj_on_of_nodup_map split.ids isOther isRecord (same.symm.trans id))
  refine ⟨advanced.balanced, ?_, ?_, ?_, ?_⟩
  · intro other isOther
    rw [advanced.completed]
    by_cases same : other = record
    · subst same
      rw [progress.completed other isRecord]
      simp [notWhole]
    · have differs := apart other isOther same
      rw [progress.completed other isOther, whole_foreign differs]
      simp [← id, differs.symm]
  · intro other isOther
    by_cases same : other = record
    · subst same
      rw [advanced.own]
      by_cases whole : Whole all (insert new got) other
      · simp [whole]
      · simp [whole, begun]
    have differs := apart other isOther same
    rw [advanced.others other.recordId (id ▸ differs.symm), progress.held other isOther,
      stateOf_congr (foreign differs)]
    simp only [whole_foreign differs, begun_foreign differs]
  · intro recordId state found
    by_cases same : recordId = record.recordId
    · exact same ▸ mem_map_of_mem isRecord
    · rw [advanced.others recordId same] at found
      exact progress.ids recordId state found
  rw [map_append, advanced.emitted]
  have distinct : records.Nodup := List.Nodup.of_map _ split.ids
  have unchanged : ∀ other ∈ records, other ≠ record →
      decide (Whole all got other) = decide (Whole all (insert new got) other) := by
    intro other isOther different
    simp only [whole_foreign (apart other isOther different)]
  by_cases whole : Whole all (insert new got) record
  · rw [if_pos whole]
    have grown := (filter_grown distinct isRecord (by simpa using notWhole) (by simpa using whole)
      unchanged).map (expected key)
    rw [map_append, map_singleton] at grown
    exact (progress.out.append_right _).trans grown.symm
  rw [if_neg whole, append_nil]
  have same : records.filter (fun other => decide (Whole all (insert new got) other)) =
      records.filter fun other => decide (Whole all got other) := by
    refine filter_congr fun other isOther => ?_
    by_cases different : other = record
    · subst different
      simp [whole, notWhole]
    · exact (unchanged other isOther different).symm
  rw [same]
  exact progress.out

/-- The fields that segments do not touch. -/
structure SameHeader (before after : TrainReassembler) : Prop where
  limits : after.limits = before.limits
  key : after.key = before.key
  seenCells : after.seenCells = before.seenCells
  seenCellCount : after.seenCellCount = before.seenCellCount
  endSequence : after.endSequence = before.endSequence
  sawStart : after.sawStart = before.sawStart

theorem SameHeader.trans {first second third : TrainReassembler} (left : SameHeader first second)
    (right : SameHeader second third) : SameHeader first third where
  limits := right.limits.trans left.limits
  key := right.key.trans left.key
  seenCells := right.seenCells.trans left.seenCells
  seenCellCount := right.seenCellCount.trans left.seenCellCount
  endSequence := right.endSequence.trans left.endSequence
  sawStart := right.sawStart.trans left.sawStart

/-- The entries of the table are partial records of the train. -/
def Sized (records : List TrainRecord) (all : List RecordSegment)
    (table : HashMap UInt16 RecordState) : Prop :=
  ∀ id state, table.lookup id = some state → ∃ record ∈ splitRecords records all,
    record.recordId = id ∧ state.bufferedBytes ≤ record.data.length + maxMetadataBytes

variable {table : HashMap UInt16 RecordState}

theorem Sized.weight_le (split : Split records all) (sized : Sized records all table) :
    table.weight RecordState.bufferedBytes ≤
      ((splitRecords records all).map fun record => record.data.length + maxMetadataBytes).sum := by
  have ids : ((splitRecords records all).map recordId).Nodup :=
    split.ids.sublist (filter_sublist.map _)
  refine weight_le_sum _ _ recordId _ table ?_ ?_
  · intro id state found
    obtain ⟨record, isSplit, rfl, -⟩ := sized id state found
    exact mem_map_of_mem isSplit
  · intro record isSplit state found
    obtain ⟨other, otherSplit, same, bound⟩ := sized _ state found
    rwa [inj_on_of_nodup_map ids otherSplit isSplit same] at bound

theorem Sized.size_le (sized : Sized records all table) :
    table.size ≤ (splitRecords records all).length := by
  have bound := weight_le_sum (fun _ => 1) (fun _ => 1) recordId
    (splitRecords records all) table (fun id state found => by
      obtain ⟨record, isSplit, rfl, -⟩ := sized id state found
      exact mem_map_of_mem isSplit) (fun _ _ _ _ => Nat.le_refl 1)
  rw [size_eq_weight]
  simpa using bound

theorem Sized.insert {state : RecordState}
    (sized : Sized records all table) (isSplit : record ∈ splitRecords records all)
    (bound : state.bufferedBytes ≤ record.data.length + maxMetadataBytes) :
    Sized records all (table.insert record.recordId state) := by
  intro id held found
  rcases lookup_insert_eq_some.mp found with ⟨rfl, rfl⟩ | ⟨-, earlier⟩
  · exact ⟨record, isSplit, rfl, bound⟩
  · exact sized id held earlier

theorem Progress.sized (split : Split records all)
    (progress : Progress key records all got self out) :
    Sized records all self.records := by
  intro id state found
  obtain ⟨record, isRecord, rfl⟩ := mem_map.mp (progress.ids id state found)
  rw [progress.held record isRecord] at found
  split at found
  · rename_i partly
    obtain ⟨⟨first, firstOwn, firstGot⟩, notWhole⟩ := partly
    -- one segment is there and one is not
    obtain ⟨second, secondOwn, secondMissing⟩ : ∃ segment ∈ segmentsOf all record,
        segment ∉ got := by
      by_contra none
      push Not at none
      exact notWhole none
    have several := two_le_length firstOwn secondOwn (by rintro rfl; exact secondMissing firstGot)
    refine ⟨record, mem_filter.mpr ⟨isRecord, by simpa using several⟩, rfl, ?_⟩
    rw [← Option.some.inj found]
    exact bufferedBytes_le (split.cut record isRecord) (split.valid record isRecord)
  · cases found

theorem splitRecord_of_partial (split : Split records all) (isRecord : record ∈ records)
    (own : new ∈ segmentsOf all record) (notFull : new.kind ≠ .full) :
    record ∈ splitRecords records all := by
  refine mem_filter.mpr ⟨isRecord, ?_⟩
  have cut := split.cut record isRecord
  by_contra few
  match shape : segmentsOf all record with
  | [] => simp [shape] at own
  | [only] =>
    rw [shape] at cut own
    obtain rfl := mem_singleton.mp own
    obtain ⟨begins, -, ends⟩ := cut.tiles
    have full := (recordSegment_full record (offsetOf new) new.endOffset).mpr ⟨begins, ends⟩
    rw [← cut.pieces new own] at full
    exact notFull full
  | first :: second :: rest =>
    rw [shape] at few
    simp at few

theorem extendRecord_advanced (opened : TrainReassembler) (split : Split records all)
    (roomy : Roomy records all opened.limits) (isRecord : record ∈ records)
    (isSplit : record ∈ splitRecords records all) (own : new ∈ segmentsOf all record)
    (missing : new ∉ got) (balanced : opened.Balanced) (sized : Sized records all opened.records)
    (found : opened.records.lookup record.recordId =
      some (stateOf record (segmentsOf all record) got)) :
    ∃ emitted next, opened.extendRecord key new (stateOf record (segmentsOf all record) got) =
        (.ok emitted, next) ∧
      Advanced all got key record new opened next emitted.toList ∧ SameHeader opened next := by
  have cut := split.cut record isRecord
  have valid := split.valid record isRecord
  have id := recordId_of_mem own
  have shape : MetadataAtStart new :=
    metadataAtStart_of_validate (split.validate (mem_filter.mp own).1)
  have inserted := stateOf_insert cut valid own missing
  have grown := RecordState.insert_bytes _ _ new shape inserted
  have bound : (stateOf record (segmentsOf all record) (insert new got)).bufferedBytes ≤
      record.data.length + maxMetadataBytes := bufferedBytes_le cut valid
  -- the counter after the insertion is the weight of the table with the new state
  have budget : opened.bufferedBytes +
      (stateOf record (segmentsOf all record) got).additionalBytes new ≤
        opened.limits.maximumBufferedBytes := by
    have before := weight_of_lookup RecordState.bufferedBytes found
    have after := (sized.insert isSplit bound).weight_le split
    rw [weight_insert] at after
    have most := roomy.bytes
    unfold TrainReassembler.Balanced at balanced
    omega
  have charged := extendRecord_charged opened key new _ shape balanced (id ▸ found)
  have complete : (stateOf record (segmentsOf all record) (insert new got)).complete = true ↔
      Whole all (insert new got) record := complete_iff cut valid
  unfold extendRecord at charged ⊢
  simp only [if_neg (Nat.not_lt.mpr budget), inserted, id] at charged ⊢
  by_cases whole : Whole all (insert new got) record
  · rw [if_pos (complete.mpr whole)] at charged ⊢
    refine ⟨_, _, rfl, ⟨charged.balanced, ?_, ?_, ?_, ?_⟩, ⟨rfl, rfl, rfl, rfl, rfl, rfl⟩⟩
    · intro other
      simp [whole, or_comm]
    · rw [if_pos whole]
      exact AList.lookup_erase _ _
    · intro other different
      exact AList.lookup_erase_ne different
    · rw [if_pos whole, Option.toList_some, map_singleton, finish_view cut valid key whole]
  rw [if_neg (mt complete.mp whole)] at charged ⊢
  refine ⟨_, _, rfl, ⟨charged.balanced, ?_, ?_, ?_, ?_⟩, ⟨rfl, rfl, rfl, rfl, rfl, rfl⟩⟩
  · intro other
    simp [whole]
  · rw [if_neg whole]
    exact AList.lookup_insert _
  · intro other different
    exact AList.lookup_insert_ne different
  · rw [if_neg whole, Option.toList_none, map_nil]

section
variable (split : Split records all) (roomy : Roomy records all self.limits)
  (progress : Progress key records all got self out)
include split roomy progress

theorem acceptSegment_advanced (isRecord : record ∈ records) (own : new ∈ segmentsOf all record)
    (missing : new ∉ got) : ∃ emitted next, self.acceptSegment key new = (.ok emitted, next) ∧
      Advanced all got key record new self next emitted.toList ∧ SameHeader self next := by
  have cut := split.cut record isRecord
  have valid := split.valid record isRecord
  have id := recordId_of_mem own
  have notWhole : ¬ Whole all got record := fun whole => missing (whole new own)
  have notDone : new.recordId ∉ self.completedRecords := by
    rw [id, progress.completed record isRecord]
    exact notWhole
  have held := progress.held record isRecord
  have total : new.totalLen.toNat = record.data.length := by
    rw [cut.pieces new own]
    exact recordSegment_totalLen valid _ _
  unfold acceptSegment
  rw [if_neg notDone]
  by_cases full : new.kind = .full
  · -- a full segment is the only one of its record
    have only : segmentsOf all record = [new] := by
      have piece := cut.pieces new own
      rw [piece] at full
      obtain ⟨begins, ends⟩ := (recordSegment_full _ _ _).mp full
      exact cut.tiles.eq_singleton own begins ends
    have whole : Whole all (insert new got) record := by
      intro segment member
      rw [only, mem_singleton] at member
      exact member ▸ Finset.mem_insert_self _ _
    have absent : self.records.lookup new.recordId = none := by
      rw [id, held, if_neg]
      rintro ⟨⟨segment, member, there⟩, -⟩
      rw [only, mem_singleton] at member
      exact missing (member ▸ there)
    rw [if_pos full, acceptFull, absent]
    refine ⟨_, _, rfl, ⟨progress.balanced, ?_, ?_, fun _ _ => rfl, ?_⟩,
      ⟨rfl, rfl, rfl, rfl, rfl, rfl⟩⟩
    · intro other
      simp [whole, id, or_comm]
    · rw [if_pos whole, ← id]
      exact absent
    have data : new.data = record.data := by
      have joined := cut_data cut
      rw [only] at joined
      simpa using joined
    have metadata : new.metadata = record.metadata := by
      have begins : offsetOf new = 0 := by
        have tiles := cut.tiles
        rw [only] at tiles
        exact tiles.1
      rw [cut.pieces new own]
      simp [recordSegment, begins]
    rw [if_pos whole]
    simp [view, expected, CompletedRecord.coalesce, id, data, total, metadata]
  rw [if_neg full]
  have isSplit := splitRecord_of_partial split isRecord own full
  have sized := progress.sized split
  unfold acceptPartial
  rw [id, held]
  by_cases begun : Begun all got record
  · rw [if_pos ⟨begun, notWhole⟩] at held ⊢
    exact extendRecord_advanced self split roomy isRecord isSplit own missing progress.balanced
      sized held
  -- the first segment of the record opens it
  rw [if_neg (fun both => begun both.1)] at held ⊢
  have nothing : ∀ segment ∈ segmentsOf all record, segment ∉ got :=
    fun segment member there => begun ⟨segment, member, there⟩
  have empty : stateOf record (segmentsOf all record) got =
      { totalLen := record.data.length } := stateOf_nothing nothing
  have bound : (stateOf record (segmentsOf all record) got).bufferedBytes ≤
      record.data.length + maxMetadataBytes := bufferedBytes_le cut valid
  have larger := sized.insert isSplit bound
  have room : self.records.size < self.limits.maximumActiveRecords := by
    have count := larger.size_le
    rw [size_insert_of_absent _ held] at count
    exact count.trans roomy.count
  rw [if_pos room, total, ← empty]
  have balanced : Balanced { self with
      records := self.records.insert record.recordId
        (stateOf record (segmentsOf all record) got) } := by
    have before := progress.balanced
    unfold TrainReassembler.Balanced at before ⊢
    rw [weight_insert_of_absent _ _ held, empty]
    simpa using before
  obtain ⟨emitted, next, run, advanced, header⟩ := extendRecord_advanced { self with
      records := self.records.insert record.recordId
        (stateOf record (segmentsOf all record) got) } split roomy isRecord isSplit own missing
    balanced larger (AList.lookup_insert _)
  refine ⟨emitted, next, run, { advanced with others := ?_ }, { header with }⟩
  intro other different
  rw [advanced.others other different]
  exact AList.lookup_insert_ne different

theorem acceptSegment_progress (member : new ∈ all) (missing : new ∉ got) :
    ∃ emitted next, self.acceptSegment key new = (.ok emitted, next) ∧
      Progress key records all (insert new got) next (out ++ emitted.toList) ∧
      SameHeader self next := by
  obtain ⟨record, isRecord, -, own, -⟩ := split.piece member
  obtain ⟨emitted, next, run, advanced, header⟩ :=
    acceptSegment_advanced split roomy progress isRecord own missing
  exact ⟨emitted, next, run, progress.advance split isRecord own missing advanced, header⟩

end

theorem acceptSegments_progress (split : Split records all) (segments : List RecordSegment)
    (got : Finset RecordSegment) (self : TrainReassembler) (out completed : List CompletedRecord)
    (roomy : Roomy records all self.limits) (progress : Progress key records all got self out)
    (distinct : segments.Nodup) (placed : ∀ segment ∈ segments, segment ∈ all)
    (missing : ∀ segment ∈ segments, segment ∉ got) :
    ∃ emitted next, self.acceptSegments key segments completed =
      (.ok (completed ++ emitted), next) ∧
      Progress key records all (got ∪ segments.toFinset) next (out ++ emitted) ∧
      SameHeader self next := by
  induction segments generalizing got self out completed with
  | nil =>
    refine ⟨[], self, by simp [acceptSegments], by simpa using progress,
      ⟨rfl, rfl, rfl, rfl, rfl, rfl⟩⟩
  | cons segment rest ih =>
  obtain ⟨notLater, restDistinct⟩ := nodup_cons.mp distinct
  obtain ⟨emitted, next, run, advanced, header⟩ := acceptSegment_progress split roomy progress
    (placed segment mem_cons_self) (missing segment mem_cons_self)
  obtain ⟨later, final, restRun, done, restHeader⟩ := ih (insert segment got) next _
    (completed ++ emitted.toList) (header.limits ▸ roomy) advanced restDistinct
    (fun other inside => placed other (mem_cons_of_mem _ inside)) (fun other inside => by
      rw [Finset.mem_insert, not_or]
      exact ⟨fun same => notLater (same ▸ inside), missing other (mem_cons_of_mem _ inside)⟩)
  have union : got ∪ (segment :: rest).toFinset = insert segment got ∪ rest.toFinset := by
    ext other
    simp only [Finset.mem_union, Finset.mem_insert, mem_toFinset, mem_cons]
    tauto
  refine ⟨emitted.toList ++ later, final, ?_, ?_, header.trans restHeader⟩
  · simp [acceptSegments, run, restRun]
  · rw [union, ← append_assoc]
    exact done

end Steps

/-! ### Cells in any order -/

/-- The segments of the Cells with the given indices. -/
def received (groups : List (List RecordSegment)) (seen : Finset Nat) : Finset RecordSegment :=
  seen.biUnion fun index => (groups.getD index []).toFinset

/-- The reassembler has seen exactly the Cells with the given indices. -/
structure Seen (context : TrainContext) (records : List TrainRecord)
    (groups : List (List RecordSegment)) (limits : ReassemblyLimits) (seen : Finset Nat)
    (train : TrainReassembler) (out : List CompletedRecord) : Prop where
  limits : train.limits = limits
  key : ∀ key, train.key = some key → key = trainKey (trainCell context groups.length 0 [])
  inside : seen ⊆ Finset.range groups.length
  cells : ∀ index < groups.length, UInt16.ofNat index ∈ train.seenCells ↔ index ∈ seen
  count : train.seenCellCount = seen.card
  start : train.sawStart = decide (0 ∈ seen)
  stop : train.endSequence =
    if groups.length - 1 ∈ seen then some (UInt16.ofNat (groups.length - 1)) else none
  progress : Progress (trainKey (trainCell context groups.length 0 [])) records groups.flatten
    (received groups seen) train out

section Cells

variable {context : TrainContext} {records : List TrainRecord} {train : PacketTrain}
  {groups : List (List RecordSegment)} {limits : ReassemblyLimits} {seen : Finset Nat}
  {self : TrainReassembler} {out : List CompletedRecord}

theorem received_insert (groups : List (List RecordSegment)) (seen : Finset Nat) (index : Nat) :
    received groups (insert index seen) =
      received groups seen ∪ (groups.getD index []).toFinset := by
  rw [received, Finset.biUnion_insert, Finset.union_comm]
  rfl

variable {index : Nat}

theorem segments_missing (layout : Layout context records train groups)
    (inside : index < groups.length) (unseen : index ∉ seen) :
    ∀ segment ∈ groups[index], segment ∉ received groups seen := by
  intro segment member there
  obtain ⟨other, otherSeen, otherMember⟩ := Finset.mem_biUnion.mp there
  rw [mem_toFinset, getD_eq_getElem?_getD] at otherMember
  cases found : groups[other]? with
  | none => simp [found] at otherMember
  | some segments =>
    rw [found] at otherMember
    -- two Cells of a list without repetition share no segment
    have same := place_of_shared layout.split.nodup found (getElem?_eq_getElem inside) otherMember
      member
    exact unseen (same ▸ otherSeen)

theorem received_all (groups : List (List RecordSegment)) :
    ∀ segment ∈ groups.flatten, segment ∈ received groups (Finset.range groups.length) := by
  intro segment member
  obtain ⟨segments, isGroup, inside⟩ := mem_flatten.mp member
  obtain ⟨index, bound, rfl⟩ := mem_iff_getElem.mp isGroup
  refine Finset.mem_biUnion.mpr ⟨index, Finset.mem_range.mpr bound, ?_⟩
  rwa [mem_toFinset, getD_eq_getElem _ _ bound]

theorem whole_all (record : TrainRecord) :
    Whole groups.flatten (received groups (Finset.range groups.length)) record :=
  fun segment own => received_all groups segment (mem_filter.mp own).1

theorem Seen.drained (state : Seen context records groups limits seen self out)
    (all : seen = Finset.range groups.length) : self.records.size = 0 ∧ self.bufferedBytes = 0 := by
  have empty : ∀ id, self.records.lookup id = none := by
    intro id
    refine Option.eq_none_iff_forall_not_mem.mpr fun held found => ?_
    obtain ⟨record, isRecord, rfl⟩ := mem_map.mp (state.progress.ids id held found)
    have lookup := state.progress.held record isRecord
    rw [all, if_neg (fun both => both.2 (whole_all record))] at lookup
    rw [Option.mem_def, lookup] at found
    cases found
  rw [size_eq_weight, weight_eq_zero_of_empty _ empty]
  exact ⟨rfl, state.progress.balanced.trans (weight_eq_zero_of_empty _ empty)⟩

theorem indexNat (inside : index < groups.length) (few : groups.length ≤ 65535) :
    (ofNat index).toNat = index := by
  refine toNat_ofNat_of_lt' ?_
  simp only [UInt16.size]
  omega

theorem Seen.isComplete_iff (state : Seen context records groups limits seen self out)
    (nonempty : groups ≠ []) (few : groups.length ≤ 65535) :
    self.isComplete = true ↔ seen = Finset.range groups.length := by
  have positive : 0 < groups.length := length_pos_iff.mpr nonempty
  have last : (ofNat (groups.length - 1)).toNat + 1 = groups.length := by
    rw [indexNat (by omega) few]
    omega
  unfold isComplete
  rw [state.stop, state.start, state.count]
  constructor
  · intro complete
    split at complete
    · cases complete
    rename_i sequence found
    split at found
    · cases found
      simp only [Bool.and_eq_true, beq_iff_eq] at complete
      refine Finset.eq_of_subset_of_card_le state.inside ?_
      rw [Finset.card_range, complete.2, last]
    · cases found
  rintro rfl
  have drained := (state.drained rfl).1
  have lastSeen : groups.length - 1 ∈ Finset.range groups.length :=
    Finset.mem_range.mpr (by omega)
  rw [if_pos lastSeen]
  simp only [Finset.mem_range, positive, decide_true, drained, beq_self_eq_true, Bool.and_true,
    Finset.card_range, last]

theorem trainKey_trainCell (count index : Nat) (segments : List RecordSegment) :
    trainKey (trainCell context count index segments) = trainKey (trainCell context count 0 []) :=
  rfl

theorem hasFlag_trainCell (count index : Nat) (segments : List RecordSegment) :
    hasFlag (trainCell context count index segments) flagTrainStart = decide (index = 0) ∧
      hasFlag (trainCell context count index segments) flagTrainEnd =
        decide (index + 1 = count) := by
  simp only [hasFlag, trainCell, boundaryFlags]
  split <;> split <;> simp_all <;> decide

theorem observeFlags_seen (state : Seen context records groups limits seen self out)
    (inside : index < groups.length) (few : groups.length ≤ 65535) (segments : List RecordSegment)
    (marked : TrainReassembler) (sameStart : marked.sawStart = self.sawStart)
    (sameStop : marked.endSequence = self.endSequence) :
    ∃ flagged, marked.observeFlags (trainCell context groups.length index segments) =
        (.ok (), flagged) ∧
      flagged = { marked with sawStart := flagged.sawStart, endSequence := flagged.endSequence } ∧
      flagged.sawStart = decide (0 ∈ insert index seen) ∧
      flagged.endSequence = if groups.length - 1 ∈ insert index seen then
        some (ofNat (groups.length - 1)) else none := by
  have sequence : (trainCell context groups.length index segments).cellSequence =
      ofNat index := rfl
  unfold observeFlags
  rw [(hasFlag_trainCell ..).1, (hasFlag_trainCell ..).2, sequence]
  have zero : (decide (index = 0) && ofNat index != 0) = false := by
    by_cases first : index = 0 <;> simp [first]
  rw [zero]
  simp only [Bool.false_eq_true, if_false, sameStart, state.start, sameStop, state.stop]
  have started : (decide (0 ∈ seen) || decide (index = 0)) = decide (0 ∈ insert index seen) := by
    rw [Bool.eq_iff_iff]
    simp only [Bool.or_eq_true, decide_eq_true_eq, Finset.mem_insert]
    rw [or_comm, @eq_comm _ index 0]
  by_cases last : index + 1 = groups.length
  · -- the last Cell closes the train, and no other Cell can have done so
    have isLast : groups.length - 1 = index := by omega
    rw [decide_eq_true last, if_pos rfl, isLast]
    have agrees : (if index ∈ seen then some (ofNat index) else none).any
        (· != ofNat index) = false := by
      split <;> simp
    simp only [agrees, Bool.false_eq_true, if_false, Finset.mem_insert_self, if_true]
    exact ⟨_, rfl, rfl, started, rfl⟩
  · have notLast : groups.length - 1 ≠ index := by omega
    rw [decide_eq_false last, if_neg (by decide)]
    refine ⟨_, rfl, rfl, started, ?_⟩
    simp [notLast]

theorem Seen.nothing (layout : Layout context records train groups) (limits : ReassemblyLimits) :
    Seen context records groups limits ∅ { limits } [] := by
  have nothing : ∀ record ∈ records, ¬ Whole groups.flatten (received groups ∅) record := by
    intro record isRecord whole
    have cut := layout.split.cut record isRecord
    have nonempty : 0 < record.data.length :=
      length_pos_iff.mpr (layout.split.valid record isRecord).nonempty
    cases shape : segmentsOf groups.flatten record with
    | nil =>
      rw [shape] at cut
      have zero : 0 = record.data.length := cut.tiles
      omega
    | cons segment rest =>
      have there := whole segment (shape ▸ mem_cons_self)
      simp [received] at there
  refine ⟨rfl, nofun, Finset.empty_subset _, by simp, rfl, by simp, by simp, ⟨rfl, ?_, ?_, ?_, ?_⟩⟩
  · intro record isRecord
    simpa using nothing record isRecord
  · intro record isRecord
    rw [if_neg]
    · rfl
    · rintro ⟨⟨segment, -, there⟩, -⟩
      simp [received] at there
  · intro id state found
    cases found
  have none : records.filter (fun record =>
      decide (Whole groups.flatten (received groups ∅) record)) = [] :=
    filter_eq_nil_iff.mpr fun record isRecord => by simpa using nothing record isRecord
  rw [none]
  exact List.Perm.nil

/-- The Cell is accepted and counted. -/
def Counts (context : TrainContext) (records : List TrainRecord)
    (groups : List (List RecordSegment)) (limits : ReassemblyLimits) (seen : Finset Nat)
    (self : TrainReassembler) (out : List CompletedRecord) (index : Nat) (cell : CellV2) : Prop :=
  ∃ output next, self.accept cell = (.ok output, next) ∧ output.trainComplete = next.isComplete ∧
    Seen context records groups limits (insert index seen) next (out ++ output.records)

section
variable (few : groups.length ≤ 65535) (bounded : groups.length ≤ limits.maximumCells)
  (state : Seen context records groups limits seen self out) (inside : index < groups.length)
include few bounded state inside

theorem accept_entry (segments : List RecordSegment) :
    self.key.any (· != trainKey (trainCell context groups.length index segments)) = false ∧
      ¬ self.limits.maximumCells ≤ (ofNat index).toNat := by
  refine ⟨?_, ?_⟩
  · cases held : self.key with
    | none => rfl
    | some key => simp [state.key key held, trainKey_trainCell]
  · rw [indexNat inside few, state.limits]
    omega

theorem accept_new (layout : Layout context records train groups)
    (roomy : Roomy records groups.flatten limits) (unseen : index ∉ seen) :
    Counts context records groups limits seen self out index
      (trainCell context groups.length index groups[index]) := by
  obtain ⟨sameKey, belowLimit⟩ := accept_entry few bounded state inside groups[index]
  have sequence : (trainCell context groups.length index groups[index]).cellSequence =
      ofNat index := rfl
  have notSeen : ofNat index ∉ self.seenCells := by
    rw [state.cells index inside]
    exact unseen
  unfold Counts accept
  simp only [sameKey, Bool.false_eq_true, if_false, sequence, belowLimit,
    cellSeen, notSeen, decide_false]
  obtain ⟨flagged, run, frame, started, stopped⟩ := observeFlags_seen state inside few groups[index]
    (markCellSeen { self with
      key := some (trainKey (trainCell context groups.length index groups[index])) }
      (ofNat index)) rfl rfl
  rw [run]
  unfold acceptBody
  -- the closure statistics leave everything else alone
  obtain ⟨closed, closure⟩ : ∃ closureObserved,
      flagged.observeClosure.2 = { flagged with closureObserved } := by
    unfold observeClosure
    split
    · split
      · exact ⟨true, rfl⟩
      · exact ⟨_, rfl⟩
    · exact ⟨_, rfl⟩
  have body : (trainCell context groups.length index groups[index]).body = .records groups[index] :=
    rfl
  simp only [body, closure]
  have flaggedProgress : Progress (trainKey (trainCell context groups.length 0 [])) records
      groups.flatten (received groups seen) { flagged with closureObserved := closed } out := by
    rw [frame]
    exact { state.progress with }
  have flaggedRoomy : Roomy records groups.flatten flagged.limits := by
    rw [frame]
    exact state.limits ▸ roomy
  have groupMember : groups[index] ∈ groups := getElem_mem inside
  have distinct : groups[index].Nodup :=
    (nodup_flatten.mp layout.split.nodup).1 _ groupMember
  obtain ⟨emitted, next, segmentsRun, progress, header⟩ := acceptSegments_progress layout.split
    groups[index] _ { flagged with closureObserved := closed } out [] flaggedRoomy flaggedProgress
    distinct
    (fun segment member => mem_flatten.mpr ⟨_, groupMember, member⟩)
    (segments_missing layout inside unseen)
  rw [trainKey_trainCell, segmentsRun]
  refine ⟨_, _, rfl, rfl, ?_⟩
  rw [frame] at header
  have cellsNow : next.seenCells = insert (ofNat index) self.seenCells := header.seenCells
  have countNow : next.seenCellCount = self.seenCellCount + 1 := header.seenCellCount
  have keyNow : next.key = some (trainKey (trainCell context groups.length 0 [])) := header.key
  refine ⟨header.limits.trans state.limits, ?_, ?_, ?_, ?_, ?_, ?_, ?_⟩
  · intro key held
    exact (Option.some.inj (keyNow.symm.trans held)).symm
  · exact Finset.insert_subset (Finset.mem_range.mpr inside) state.inside
  · intro other otherInside
    rw [cellsNow, Finset.mem_insert, Finset.mem_insert, state.cells other otherInside]
    refine or_congr_left ?_
    rw [← UInt16.toNat_inj, indexNat inside few, indexNat otherInside few]
  · rw [countNow, Finset.card_insert_of_notMem unseen, state.count]
  · rw [header.sawStart]
    exact started
  · rw [header.endSequence]
    exact stopped
  · rw [received_insert, getD_eq_getElem _ _ inside]
    exact progress

theorem accept_duplicate (duplicate : index ∈ seen) :
    Counts context records groups limits seen self out index
      (trainCell context groups.length index groups[index]) := by
  obtain ⟨sameKey, belowLimit⟩ := accept_entry few bounded state inside groups[index]
  have sequence : (trainCell context groups.length index groups[index]).cellSequence =
      ofNat index := rfl
  have there : ofNat index ∈ self.seenCells := (state.cells index inside).mpr duplicate
  unfold Counts accept
  simp only [sameKey, Bool.false_eq_true, if_false, sequence, belowLimit,
    cellSeen, there, decide_true, if_true]
  refine ⟨_, _, rfl, rfl, ?_⟩
  rw [Finset.insert_eq_of_mem duplicate, append_nil]
  refine { state with key := ?_, progress := { state.progress with } }
  intro key held
  cases held
  rfl

end

theorem accept_seen (layout : Layout context records train groups) (few : groups.length ≤ 65535)
    (bounded : groups.length ≤ limits.maximumCells) (roomy : Roomy records groups.flatten limits)
    (state : Seen context records groups limits seen self out) {cell : CellV2}
    (member : cell ∈ train.cells) :
    Counts context records groups limits seen self out cell.cellSequence.toNat cell := by
  obtain ⟨index, inside, rfl⟩ := layout.mem_cells.mp member
  have number : (trainCell context groups.length index groups[index]).cellSequence.toNat = index :=
    indexNat inside few
  rw [number]
  by_cases duplicate : index ∈ seen
  · exact accept_duplicate few bounded state inside duplicate
  · exact accept_new few bounded state inside layout roomy duplicate

end Cells

/-! ### Runs -/

/-- Hand over the Cells one after the other; the outputs with the states they leave behind. -/
def TrainReassembler.acceptAll (self : TrainReassembler) :
    List CellV2 → Except String (List (ReassemblyOutput × TrainReassembler))
  | [] => .ok []
  | cell :: rest =>
    match self.accept cell with
    | (.error message, _) => .error message
    | (.ok output, next) => do
      let later ← next.acceptAll rest
      .ok ((output, next) :: later)

def Arrives (context : TrainContext) (cell arrival : CellV2) : Prop :=
  ∃ bytes, cell.encode context.maximumDatagramSize = .ok bytes ∧ CellV2.decode bytes = .ok arrival

def indices (arrivals : List CellV2) : Finset Nat :=
  (arrivals.map fun cell => cell.cellSequence.toNat).toFinset

/-- The records delivered along a trace. -/
def delivered (outputs : List (ReassemblyOutput × TrainReassembler)) : List CompletedRecord :=
  outputs.flatMap fun step => step.1.records

section Runs

variable {context : TrainContext} {records : List TrainRecord} {train : PacketTrain}
  {groups : List (List RecordSegment)} {limits : ReassemblyLimits}

theorem indices_cons (cell : CellV2) (rest : List CellV2) :
    indices (cell :: rest) = insert cell.cellSequence.toNat (indices rest) := by
  simp [indices]

theorem acceptAll_seen (layout : Layout context records train groups) (few : groups.length ≤ 65535)
    (bounded : groups.length ≤ limits.maximumCells) (roomy : Roomy records groups.flatten limits)
    (arrivals : List CellV2) (seen : Finset Nat) (self : TrainReassembler)
    (out : List CompletedRecord) (state : Seen context records groups limits seen self out)
    (members : ∀ cell ∈ arrivals, cell ∈ train.cells) :
    ∃ outputs, self.acceptAll arrivals = .ok outputs ∧ outputs.length = arrivals.length ∧
      (∃ last, Seen context records groups limits (seen ∪ indices arrivals) last
        (out ++ delivered outputs)) ∧
      ∀ turn output next, outputs[turn]? = some (output, next) →
        output.trainComplete = next.isComplete ∧
        Seen context records groups limits (seen ∪ indices (arrivals.take (turn + 1))) next
          (out ++ delivered (outputs.take (turn + 1))) := by
  induction arrivals generalizing seen self out with
  | nil =>
    refine ⟨[], rfl, rfl, ⟨self, by simpa [indices, delivered] using state⟩, ?_⟩
    intro turn output next found
    simp at found
  | cons cell rest ih =>
  obtain ⟨output, next, run, complete, after⟩ :=
    accept_seen layout few bounded roomy state (members cell mem_cons_self)
  obtain ⟨later, restRun, length, ⟨last, final⟩, steps⟩ := ih _ next _ after
    (fun other member => members other (mem_cons_of_mem _ member))
  have union : ∀ some : List CellV2, insert cell.cellSequence.toNat seen ∪ indices some =
      seen ∪ indices (cell :: some) := by
    intro some
    rw [indices_cons, Finset.insert_union, Finset.union_insert]
  have joined : ∀ some : List (ReassemblyOutput × TrainReassembler),
      out ++ output.records ++ delivered some = out ++ delivered ((output, next) :: some) := by
    intro some
    simp [delivered]
  refine ⟨(output, next) :: later, ?_, ?_, ⟨last, ?_⟩, ?_⟩
  · simp only [acceptAll, run, restRun, ok_bind]
  · rw [length_cons, length_cons, length]
  · rw [← union, ← joined]
    exact final
  intro turn answer reached found
  cases turn with
  | zero =>
    obtain ⟨rfl, rfl⟩ : output = answer ∧ next = reached := by simpa using found
    refine ⟨complete, ?_⟩
    simpa [indices, delivered] using after
  | succ turn =>
    obtain ⟨reports, described⟩ := steps turn answer reached (by simpa using found)
    refine ⟨reports, ?_⟩
    rw [take_succ_cons, take_succ_cons, ← union, ← joined]
    exact described

theorem arrives_iff (checked : validateContext context = .ok ())
    (layout : Layout context records train groups) {cell arrival : CellV2}
    (member : cell ∈ train.cells) : Arrives context cell arrival ↔ arrival = cell := by
  obtain ⟨encoded, decoded⟩ := layout.cell_wire checked member
  constructor
  · rintro ⟨bytes, sent, received⟩
    obtain rfl := Except.ok.inj (encoded.symm.trans sent)
    exact (Except.ok.inj (decoded.symm.trans received)).symm
  · rintro rfl
    exact ⟨_, encoded, decoded⟩

variable {arrivals : List CellV2}

theorem mem_indices {index : Nat} :
    index ∈ indices arrivals ↔ ∃ cell ∈ arrivals, cell.cellSequence.toNat = index := by
  simp only [indices, mem_toFinset, mem_map]

section
variable (layout : Layout context records train groups) (few : groups.length ≤ 65535)
include layout few

theorem indices_cells : indices train.cells = Finset.range groups.length := by
  ext index
  rw [mem_indices, Finset.mem_range]
  constructor
  · rintro ⟨cell, isCell, rfl⟩
    obtain ⟨position, inside, rfl⟩ := layout.mem_cells.mp isCell
    exact (indexNat inside few).trans_lt inside
  · exact fun inside => ⟨_, layout.mem_cells.mpr ⟨index, inside, rfl⟩, indexNat inside few⟩

theorem cell_of_number {cell other : CellV2} (isCell : cell ∈ train.cells)
    (isOther : other ∈ train.cells) (same : cell.cellSequence.toNat = other.cellSequence.toNat) :
    cell = other := by
  obtain ⟨left, leftInside, rfl⟩ := layout.mem_cells.mp isCell
  obtain ⟨right, rightInside, rfl⟩ := layout.mem_cells.mp isOther
  obtain rfl : left = right :=
    (indexNat leftInside few).symm.trans (same.trans (indexNat rightInside few))
  rfl

theorem indices_eq_range_iff (members : ∀ cell ∈ arrivals, cell ∈ train.cells) :
    indices arrivals = Finset.range groups.length ↔ ∀ cell ∈ train.cells, cell ∈ arrivals := by
  rw [← indices_cells layout few]
  constructor
  · intro all cell isCell
    obtain ⟨arrival, member, number⟩ := mem_indices.mp (all ▸ mem_indices.mpr ⟨cell, isCell, rfl⟩)
    rwa [← cell_of_number layout few (members arrival member) isCell number]
  · intro all
    ext index
    rw [mem_indices, mem_indices]
    exact exists_congr fun cell => and_congr_left fun _ => ⟨members cell, all cell⟩

end

end Runs

/-- Cells of a built train, each arriving at least once, in any order and with any repetitions,
are all accepted; every record is delivered exactly once, as it was sent; the train is reported
complete from the arrival of the last missing Cell on, and then nothing is buffered. -/
theorem exactly_once_delivery (limits : WireLimitsV2) (context : TrainContext)
    (records : List TrainRecord) (train : PacketTrain)
    (cells : context.maximumCells = limits.maxCellsPerTrain.toNat)
    (data : (records.map fun record => record.data.length).sum ≤ limits.maxTrainSize.toNat)
    (built : buildPacketTrain context records = .ok train) :
    ∃ fresh, new (perTrain limits) = .ok fresh ∧
      (∀ cell ∈ train.cells, ∃ arrival, Arrives context cell arrival) ∧
      ∀ arrivals : List CellV2,
        (∀ arrival ∈ arrivals, ∃ cell ∈ train.cells, Arrives context cell arrival) →
        (∀ cell ∈ train.cells, ∃ arrival ∈ arrivals, Arrives context cell arrival) →
        ∃ outputs, fresh.acceptAll arrivals = .ok outputs ∧
          ((delivered outputs).map view).Perm (records.map (expected {
            class' := context.class'
            sessionEpoch := context.sessionEpoch
            routeLabel := context.routeLabel
            trainId := context.trainId })) ∧
          ∀ turn output next, outputs[turn]? = some (output, next) →
            (output.trainComplete = true ↔ ∀ cell ∈ train.cells,
              ∃ arrival ∈ arrivals.take (turn + 1), Arrives context cell arrival) ∧
            (output.trainComplete = true → next.bufferedBytes = 0) := by
  obtain ⟨checked, groups, layout⟩ := buildPacketTrain_layout built
  have roomy := perTrain_roomy layout cells data
  have positive : 0 < groups.length := length_pos_iff.mpr layout.nonempty
  have bounded : groups.length ≤ (perTrain limits).maximumCells := by
    have count := layout.count
    rwa [cells] at count
  have few : groups.length ≤ 65535 := by
    have small := toNat_lt limits.maxCellsPerTrain
    simp only [perTrain] at bounded
    omega
  have made : new (perTrain limits) = .ok { limits := perTrain limits } := by
    simp only [new, ReassemblyLimits.validate, do_eq_ok]
    have small := toNat_lt limits.maxCellsPerTrain
    simp only [perTrain, perTrainBytes] at bounded ⊢
    exact ⟨⟨⟨by omega, by omega⟩, ⟨by omega, by omega⟩, by omega⟩, trivial⟩
  have arrives : ∀ {cell arrival : CellV2}, cell ∈ train.cells →
      (Arrives context cell arrival ↔ arrival = cell) :=
    fun member => arrives_iff checked layout member
  have empty := Seen.nothing layout (perTrain limits)
  refine ⟨_, made, fun cell member => ⟨cell, (arrives member).mpr rfl⟩, ?_⟩
  intro arrivals fromTrain every
  have members : ∀ arrival ∈ arrivals, arrival ∈ train.cells := by
    intro arrival member
    obtain ⟨cell, isCell, arrived⟩ := fromTrain arrival member
    rwa [(arrives isCell).mp arrived]
  obtain ⟨outputs, run, -, ⟨last, final⟩, steps⟩ :=
    acceptAll_seen layout few bounded roomy arrivals ∅ _ [] empty members
  refine ⟨outputs, run, ?_, ?_⟩
  · have all : indices arrivals = Finset.range groups.length := by
      refine (indices_eq_range_iff layout few members).mpr fun cell isCell => ?_
      obtain ⟨arrival, member, arrived⟩ := every cell isCell
      rwa [← (arrives isCell).mp arrived]
    have out := final.progress.out
    rw [Finset.empty_union, all, nil_append] at out
    have whole : records.filter (fun record => decide (Whole groups.flatten
        (received groups (Finset.range groups.length)) record)) = records :=
      filter_eq_self.mpr fun record _ => by simpa using whole_all record
    rw [whole] at out
    exact out
  intro turn output next found
  obtain ⟨reports, described⟩ := steps turn output next found
  rw [Finset.empty_union] at described
  have early : ∀ arrival ∈ arrivals.take (turn + 1), arrival ∈ train.cells :=
    fun arrival member => members arrival (mem_of_mem_take member)
  have complete := described.isComplete_iff layout.nonempty few
  rw [reports]
  refine ⟨?_, fun done => (described.drained (complete.mp done)).2⟩
  rw [complete, indices_eq_range_iff layout few early]
  refine forall₂_congr fun cell isCell => ?_
  constructor
  · exact fun member => ⟨cell, member, (arrives isCell).mpr rfl⟩
  · rintro ⟨arrival, member, arrived⟩
    rwa [← (arrives isCell).mp arrived]

def sampleLimits : WireLimitsV2 where
  maxDatagramSize := 60
  maxControlSize := 1024
  maxTrainSize := 100
  maxRecordSize := 100
  maxCellsPerTrain := 4
  maxActiveTrains := 1

/-- Cells of sixty bytes. -/
def sampleContext : TrainContext where
  class' := .bulk
  sessionEpoch := 1
  routeLabel := 2
  overlayHopLimit := 8
  trainId := 3
  maximumDatagramSize := 60
  maximumCells := 4

/-- A record of ten bytes spans two Cells, and a second one follows it. -/
def sampleRecords : List TrainRecord :=
  [{ recordId := 1, metadata := [], data := replicate 10 7 },
    { recordId := 2, metadata := [], data := [9] }]

def sampleTrain : PacketTrain :=
  (buildPacketTrain sampleContext sampleRecords).toOption.getD { cells := [], stats := {} }

theorem sampleTrain_evaluated : (buildPacketTrain sampleContext sampleRecords).toOption.isSome ∧
      sampleTrain.cells.length = 3 := by
  constructor <;> decide +kernel

theorem sampleTrain_built : buildPacketTrain sampleContext sampleRecords = .ok sampleTrain := by
  exact eq_ok_getD _ sampleTrain_evaluated.1

theorem exactly_once_delivery_sample :
    ∃ train, buildPacketTrain sampleContext sampleRecords = .ok train ∧ train.cells.length = 3 ∧
      ∃ fresh, new (perTrain sampleLimits) = .ok fresh ∧
        (∀ cell ∈ train.cells, ∃ arrival, Arrives sampleContext cell arrival) ∧
        ∀ arrivals : List CellV2,
          (∀ arrival ∈ arrivals, ∃ cell ∈ train.cells, Arrives sampleContext cell arrival) →
          (∀ cell ∈ train.cells, ∃ arrival ∈ arrivals, Arrives sampleContext cell arrival) →
          ∃ outputs, fresh.acceptAll arrivals = .ok outputs ∧
            ((delivered outputs).map view).Perm (sampleRecords.map (expected {
              class' := .bulk
              sessionEpoch := 1
              routeLabel := 2
              trainId := 3 })) ∧
            ∀ turn output next, outputs[turn]? = some (output, next) →
              (output.trainComplete = true ↔ ∀ cell ∈ train.cells,
                ∃ arrival ∈ arrivals.take (turn + 1), Arrives sampleContext cell arrival) ∧
              (output.trainComplete = true → next.bufferedBytes = 0) :=
  ⟨sampleTrain, sampleTrain_built, sampleTrain_evaluated.2,
    exactly_once_delivery sampleLimits sampleContext sampleRecords sampleTrain rfl (by decide)
      sampleTrain_built⟩

end Ironet.Reassembly
