import Ironet.Reassembly.Sharing

/-!
# When a train counts as complete

`is_complete` compares the number of sequences seen with the sequence of the END Cell. Seen are also
Cells behind the END Cell, so for accepted Cells the comparison says that the train is covered
exactly when there were none of these.
-/
namespace Ironet.Reassembly
open Support Cell Train Finset TrainReassembler

section
variable {self next : TrainReassembler} {cell : CellV2} (self : TrainReassembler)

theorem acceptSegments_sameHeader (key : TrainKey)
    (segments : List RecordSegment) (completed : List CompletedRecord) :
    SameHeader self (self.acceptSegments key segments completed).2 := by
  induction segments generalizing self completed with
  | nil => exact ⟨rfl, rfl, rfl, rfl, rfl, rfl⟩
  | cons segment rest ih =>
  have first : SameHeader self (self.acceptSegment key segment).2 := by
    simp only [acceptSegment, acceptFull, acceptPartial, extendRecord]
    repeat' split
    all_goals exact ⟨rfl, rfl, rfl, rfl, rfl, rfl⟩
  unfold acceptSegments
  generalize self.acceptSegment key segment = outcome at first
  obtain ⟨message | emitted, next⟩ := outcome
  · exact first
  · exact first.trans (ih next _)

theorem acceptBody_sameHeader (cell : CellV2) (reordered : Bool) :
    SameHeader self (self.acceptBody cell reordered).2 ∧
      ∀ output ∈ (self.acceptBody cell reordered).1.toOption,
        output.trainComplete = (self.acceptBody cell reordered).2.isComplete := by
  have closed : SameHeader self self.observeClosure.2 := by
    unfold observeClosure
    repeat' split
    all_goals exact ⟨rfl, rfl, rfl, rfl, rfl, rfl⟩
  unfold acceptBody
  cases cell.body with
  | parity payload => exact ⟨closed, nofun⟩
  | records segments =>
  have walked := acceptSegments_sameHeader self.observeClosure.2 (trainKey cell) segments []
  dsimp only
  generalize self.observeClosure.2.acceptSegments (trainKey cell) segments [] = outcome at walked
  obtain ⟨message | records, next⟩ := outcome
  · exact ⟨closed.trans walked, nofun⟩
  · exact ⟨closed.trans walked, fun output is => Option.some.inj is ▸ rfl⟩

/-- What an `accept` that returns `Ok` does to the sequences: it drops a copy, or marks the Cell and
notes the end that it may be. -/
structure Marks (before : TrainReassembler) (cell : CellV2) (output : ReassemblyOutput)
    (next : TrainReassembler) : Prop where
  seen : (cell.cellSequence ∈ before.seenCells ∧ next.seenCells = before.seenCells ∧
      next.seenCellCount = before.seenCellCount) ∨
    (cell.cellSequence ∉ before.seenCells ∧
      next.seenCells = insert cell.cellSequence before.seenCells ∧
      next.seenCellCount = before.seenCellCount + 1)
  ends : ∀ ending ∈ next.endSequence, ending ∈ before.endSequence ∨
    hasFlag cell flagTrainEnd = true ∧ cell.cellSequence = ending
  complete : output.trainComplete = next.isComplete

theorem observeFlags_ok (accepted : (self.observeFlags cell).1 = .ok ()) :
    let flagged := (self.observeFlags cell).2
    flagged.seenCells = self.seenCells ∧ flagged.seenCellCount = self.seenCellCount ∧
      ∀ ending ∈ flagged.endSequence, ending ∈ self.endSequence ∨
        hasFlag cell flagTrainEnd = true ∧ cell.cellSequence = ending := by
  unfold observeFlags at accepted ⊢
  split_ifs at accepted ⊢ with early ends
  · dsimp only at accepted ⊢
    split_ifs at accepted ⊢
    exact ⟨rfl, rfl, fun ending isEnd => .inr ⟨ends, Option.some.inj isEnd⟩⟩
  · exact ⟨rfl, rfl, fun ending isEnd => .inl isEnd⟩

theorem accept_marks {output : ReassemblyOutput}
    (accepted : (self.accept cell).1 = .ok output) :
    Marks self cell output (self.accept cell).2 := by
  unfold accept at accepted ⊢
  split_ifs at accepted ⊢ with other
  dsimp only at accepted ⊢
  split_ifs at accepted ⊢ with long copy
  · cases accepted
    exact ⟨.inl ⟨by simpa [cellSeen] using copy, rfl, rfl⟩, fun ending => .inl, rfl⟩
  have fresh : cell.cellSequence ∉ self.seenCells := by simpa [cellSeen] using copy
  -- marking comes first, so only the flags and the body can still fail
  have flags := @observeFlags_ok cell
    (markCellSeen { self with key := some (trainKey cell) } cell.cellSequence)
  generalize (markCellSeen { self with key := some (trainKey cell) }
    cell.cellSequence).observeFlags cell = outcome at accepted flags ⊢
  obtain ⟨message | done, flagged⟩ := outcome
  · cases accepted
  obtain ⟨seen, count, ends⟩ := flags rfl
  obtain ⟨same, complete⟩ := acceptBody_sameHeader flagged cell
    (self.maxSeenSequence.any fun maximum => cell.cellSequence < maximum)
  dsimp only at accepted ⊢
  exact ⟨.inr ⟨fresh, same.seenCells.trans seen, same.seenCellCount.trans count⟩,
    fun ending isEnd => ends ending (same.endSequence ▸ isEnd),
    complete output (by rw [accepted]; rfl)⟩

/-! ### Runs -/

/-- Every `accept` of the run returns `Ok`. -/
def acceptsAll : TrainReassembler → List CellV2 → Bool
  | _, [] => true
  | self, cell :: rest =>
    (self.accept cell).1.toOption.isSome && acceptsAll (self.accept cell).2 rest

/-- Along a run the sequences are counted once each, they are those of the Cells, and the end is one
of the END Cells. -/
theorem run_counts {cells : List CellV2} (accepted : acceptsAll self cells = true)
    (counted : self.seenCellCount = self.seenCells.card) :
    let after := cells.foldl (fun self cell => (self.accept cell).2) self
    after.seenCellCount = after.seenCells.card ∧
      (∀ sequence, sequence ∈ after.seenCells ↔
        sequence ∈ self.seenCells ∨ ∃ cell ∈ cells, cell.cellSequence = sequence) ∧
      ∀ ending ∈ after.endSequence, ending ∈ self.endSequence ∨
        ∃ cell ∈ cells, hasFlag cell flagTrainEnd = true ∧ cell.cellSequence = ending := by
  induction cells generalizing self with
  | nil => simp [counted]
  | cons cell rest ih =>
  rw [acceptsAll, Bool.and_eq_true] at accepted
  obtain ⟨returned, others⟩ := accepted
  have marks := accept_marks self (eq_ok_getD {} returned)
  have counts : (self.accept cell).2.seenCellCount = (self.accept cell).2.seenCells.card := by
    rcases marks.seen with ⟨-, seen, count⟩ | ⟨fresh, seen, count⟩
    · rw [count, seen, counted]
    · rw [count, seen, card_insert_of_notMem fresh, counted]
  have members : ∀ sequence, sequence ∈ (self.accept cell).2.seenCells ↔
      sequence ∈ self.seenCells ∨ cell.cellSequence = sequence := by
    intro sequence
    rcases marks.seen with ⟨old, seen, -⟩ | ⟨-, seen, -⟩ <;> grind
  obtain ⟨count, seen, ends⟩ := ih _ others counts
  refine ⟨count, fun sequence => ?_, fun ending isEnd => ?_⟩
  · rw [List.foldl_cons, seen, members, or_assoc]
    simp only [List.mem_cons, exists_eq_or_imp]
  · rcases ends ending isEnd with before | later
    · exact (marks.ends ending before).imp_right fun here => ⟨cell, List.mem_cons_self, here⟩
    · obtain ⟨found, member, is⟩ := later
      exact .inr ⟨found, List.mem_cons_of_mem _ member, is⟩

/-- Of as many sequences as there are up to `last`, all of those are among them exactly when none is
behind `last`. -/
theorem upTo_iff {seen : Finset UInt16} {last : UInt16} (enough : seen.card = last.toNat + 1) :
    (∀ sequence ≤ last, sequence ∈ seen) ↔ ∀ sequence ∈ seen, sequence ≤ last := by
  have isUpTo : ∀ sequence : UInt16,
      sequence ∈ (range (last.toNat + 1)).image UInt16.ofNat ↔ sequence ≤ last := by
    intro sequence
    simp only [mem_image, mem_range, UInt16.le_iff_toNat_le]
    constructor
    · rintro ⟨number, below, rfl⟩
      simp only [UInt16.toNat_ofNat']
      omega
    · exact fun below => ⟨sequence.toNat, by omega, UInt16.ofNat_toNat⟩
  have few : ((range (last.toNat + 1)).image UInt16.ofNat).card = seen.card := by
    rw [enough, card_image_of_injOn, card_range]
    intro a below b below' same
    have := last.toNat_lt
    simp only [coe_range, Set.mem_Iio] at below below'
    have := congrArg UInt16.toNat same
    rwa [UInt16.toNat_ofNat', UInt16.toNat_ofNat', Nat.mod_eq_of_lt (by omega),
      Nat.mod_eq_of_lt (by omega)] at this
  constructor
  · intro covered sequence inside
    have same := eq_of_subset_of_card_le (fun sequence below =>
      covered sequence ((isUpTo sequence).mp below)) few.ge
    exact (isUpTo sequence).mp (same ▸ inside)
  · intro within sequence below
    have same := eq_of_subset_of_card_le (fun sequence inside =>
      (isUpTo sequence).mpr (within sequence inside)) few.le
    exact same ▸ (isUpTo sequence).mpr below

/-- **Completion.** When the last of the accepted Cells of a train reports it complete, every
sequence up to the END Cell was accepted exactly when none of the Cells is behind the END Cell. -/
theorem complete_covers_iff (limits : ReassemblyLimits) (cells : List CellV2) (last : CellV2)
    (accepted : acceptsAll { limits } (cells ++ [last]) = true) (output : ReassemblyOutput)
    (ran : ((collect limits cells).accept last).1 = .ok output)
    (complete : output.trainComplete = true) :
    ∃ ending ∈ cells ++ [last], hasFlag ending flagTrainEnd = true ∧
      ((∀ sequence ≤ ending.cellSequence, ∃ cell ∈ cells ++ [last], cell.cellSequence = sequence) ↔
        ∀ cell ∈ cells ++ [last], cell.cellSequence ≤ ending.cellSequence) := by
  have finished : (collect limits (cells ++ [last])).isComplete = true := by
    rw [collect_snoc, ← (accept_marks (collect limits cells) ran).complete, complete]
  obtain ⟨counted, seen, ends⟩ := run_counts { limits } accepted rfl
  change (collect limits (cells ++ [last])).seenCellCount = _ at counted
  generalize isAfter : collect limits (cells ++ [last]) = after at finished counted
  rw [← collect, isAfter] at counted seen ends
  cases isEnd : after.endSequence with
  | none => simp [isComplete, isEnd] at finished
  | some ending =>
  simp only [isComplete, isEnd, Bool.and_eq_true, beq_iff_eq] at finished
  have upTo := upTo_iff (counted.symm.trans finished.2)
  rcases ends ending isEnd with none | ⟨endCell, member, flagged, rfl⟩
  · cases none
  refine ⟨endCell, member, flagged, ?_⟩
  simp only [seen, notMem_empty, false_or] at upTo
  rw [upTo]
  constructor
  · intro within cell offered
    exact within _ ⟨cell, offered, rfl⟩
  · rintro within _ ⟨cell, offered, rfl⟩
    exact within cell offered

end

/-! ### A Cell behind the end -/

/-- START with sequence 0, a Cell with sequence 3, END with sequence 2. -/
def gappedTrain : List CellV2 :=
  [oneRecordCell flagTrainStart 0, oneRecordCell 0 3, oneRecordCell flagTrainEnd 2]

/-- The three Cells complete their train although sequence 1 is missing, and when it arrives the
tombstone drops it. -/
theorem complete_with_a_gap :
    gappedTrain.map (fun cell => (CellV2.decode cell.wire).toOption) = gappedTrain.map some ∧
    ((collect sampleTableLimits.perTrain (gappedTrain.take 2)).accept
      (oneRecordCell flagTrainEnd 2)).1.toOption.map ReassemblyOutput.trainComplete = some true ∧
    (collect sampleTableLimits.perTrain gappedTrain).cellSeen 1 = false ∧
    ((gappedTrain.foldl (fun table cell => (table.acceptAt ⟨id, .refl⟩ cell 1).2)
      ({ limits := sampleTableLimits } : ReassemblyTableV2)).acceptAt
        ⟨id, .refl⟩ (oneRecordCell 0 1)
        2).1.toOption.map (fun output => (output.duplicateCell, output.records)) =
      some (true, []) := by
  decide +kernel

/-- The END Cell first, then a Cell out of order: the last one completes the train. -/
def reversedTrain : List CellV2 :=
  [oneRecordCell flagTrainEnd 2, oneRecordCell 0 1, oneRecordCell flagTrainStart 0]

theorem complete_covers_iff_reversed :
    ∃ ending ∈ reversedTrain, hasFlag ending flagTrainEnd = true ∧
      ∀ sequence ≤ ending.cellSequence, ∃ cell ∈ reversedTrain, cell.cellSequence = sequence := by
  obtain ⟨ending, offered, flagged, covers⟩ := complete_covers_iff sampleTableLimits.perTrain
    (reversedTrain.take 2) (oneRecordCell flagTrainStart 0) (by decide +kernel) _
    (eq_ok_getD {} (by decide +kernel)) (by decide +kernel)
  have isEnd : ∀ cell ∈ reversedTrain, hasFlag cell flagTrainEnd = true →
      cell.cellSequence = 2 := by
    decide
  exact ⟨ending, offered, flagged, covers.mpr (by rw [isEnd ending offered flagged]; decide)⟩

end Ironet.Reassembly
