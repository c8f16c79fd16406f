import Ironet.Fec.Collector

/-!
# Restoring the missing Cells

What `try_recover` and the end of `push_at` do with a live stripe: nothing but a new time stamp
while there are too few shards, and otherwise the missing data Cells, bit by bit, and the end of
the stripe.
-/
namespace Ironet.Fec
open Support Cell CellStripeDecoder List

section Word

variable {codec : ErasureCodec} {parityCells : Nat} {word : Codeword codec parityCells}

/-! ### Symbols by index -/

variable (word) in
/-- The data symbols at the given places, with their index. -/
def indexed (places : List Nat) : List (Nat × Symbol) :=
  places.filterMap fun index => (word.symbols[index]?).map (Prod.mk index)

theorem indexed_cons {index : Nat} {rest : List Nat} {cell : CellV2}
    (found : word.cells[index]? = some cell) : indexed word (index :: rest) =
      (index, dataSymbol word.symbolBytes cell.wire) :: indexed word rest := by
  simp [indexed, Codeword.symbols, found]

theorem indexed_fst {places : List Nat} (inside : ∀ index ∈ places, index < word.cells.length) :
    (indexed word places).map Prod.fst = places := by
  induction places with
  | nil => rfl
  | cons index rest ih =>
    have found := getElem?_eq_getElem (inside index mem_cons_self)
    rw [indexed_cons found, map_cons, ih fun later member =>
      inside later (mem_cons_of_mem _ member)]

theorem mem_indexed {places : List Nat} {entry : Nat × Symbol}
    (member : entry ∈ indexed word places) :
    word.symbols[entry.1]? = some entry.2 := by
  obtain ⟨index, -, made⟩ := mem_filterMap.mp member
  obtain ⟨symbol, found, rfl⟩ := Option.map_eq_some_iff.mp made
  exact found

section Recover

variable {held parity : List Nat} {stripe : DecodeStripe}

section
variable (holds : Holds word held parity stripe)
include holds

theorem held_perm : ((range word.cells.length).filter (· ∈ held)).Perm held := by
  refine (perm_ext_iff_of_nodup (nodup_range.filter _) holds.nodup).mpr fun index => ?_
  simp only [mem_filter, mem_range, decide_eq_true_eq]
  exact ⟨And.right, fun member => ⟨holds.inside index member, member⟩⟩

theorem present_eq (index : Nat) (recovery : Symbol) :
    present stripe (word.metadata index recovery) = held.length := by
  have received : present stripe (word.metadata index recovery) =
      (range word.cells.length).countP (· ∈ held) := by
    refine countP_congr fun place member => ?_
    have inside := mem_range.mp member
    have sequence : stripeSequence (word.metadata index recovery).firstSequence place =
        some (word.sequenceOf place) := word.stripeSequence_eq inside
    simp only [sequence, Option.any_some, decide_eq_true_eq]
    constructor
    · intro there
      by_contra new
      rw [holds.lookup_eq_none inside new] at there
      cases there
    · intro isHeld
      rw [holds.wires place _ isHeld (getElem?_eq_getElem inside)]
      rfl
  rw [received, countP_eq_length_filter, (held_perm holds).length_eq]

theorem expandOriginals_eq (index : Nat) (recovery : Symbol) (places : List Nat)
    (expanded : List (Nat × Bytes)) (inside : ∀ place ∈ places, place < word.cells.length) :
    expandOriginals stripe (word.metadata index recovery) places expanded =
      .ok (.ok (expanded ++ indexed word (places.filter (· ∈ held)))) := by
  induction places generalizing expanded with
  | nil => simp [expandOriginals, indexed]
  | cons place rest ih =>
  have bound := inside place mem_cons_self
  have others : ∀ later ∈ rest, later < word.cells.length := fun later member =>
    inside later (mem_cons_of_mem _ member)
  have sequence : stripeSequence (word.metadata index recovery).firstSequence place =
      some (word.sequenceOf place) := word.stripeSequence_eq bound
  unfold expandOriginals
  simp only [sequence]
  by_cases isHeld : place ∈ held
  · have found := getElem?_eq_getElem bound
    have symbol := expandSymbol_wire
      (word.fits _ (mem_of_getElem? found))
    have size : (word.metadata index recovery).symbolBytes = word.symbolBytes := rfl
    simp only [holds.wires place _ isHeld found, size, symbol, ok_bind, ih _ others]
    rw [filter_cons_of_pos (by simpa using isHeld), indexed_cons found, append_assoc]
    rfl
  · simp only [holds.lookup_eq_none bound isHeld, ih _ others]
    rw [filter_cons_of_neg (by simpa using isHeld)]

end

variable (index : Nat) (recovery : Symbol)

theorem restoreCell_eq {place : Nat} {cell : CellV2} (found : word.cells[place]? = some cell)
    (shim : stripe.routingShim = word.shim) (new : word.sequenceOf place ∉ stripe.delivered) :
    restoreCell word.key (word.metadata index recovery) stripe place
        (dataSymbol word.symbolBytes cell.wire) =
      .ok (.ok (some (word.sequenceOf place, cell.wire.length, cell)),
        { stripe with delivered := insert (word.sequenceOf place) stripe.delivered }) := by
  have inside := (List.getElem?_eq_some_iff.mp found).1
  have member := mem_of_getElem? found
  obtain ⟨table, length⟩ := word.lengths_get found
  have sequence : stripeSequence (word.metadata index recovery).firstSequence place =
      some (word.sequenceOf place) := word.stripeSequence_eq inside
  have entry : (word.metadata index recovery).lengths[place]? =
      some (UInt16.ofNat cell.wire.length) := table
  have width := dataSymbol_length (word.fits cell member)
  have fits : cell.wire.length ≤ (dataSymbol word.symbolBytes cell.wire).length := by
    rw [width]
    exact word.fits cell member
  have bytes : restoreShim ((dataSymbol word.symbolBytes cell.wire).take cell.wire.length)
      stripe.routingShim = .ok cell.wire := by
    have long : overlayHopsOffset <
        ((dataSymbol word.symbolBytes cell.wire).take cell.wire.length).length := by
      rw [length_take, Nat.min_eq_left fits]
      exact wire_long cell
    rw [restoreShim, if_pos long, shim, ← word.shim_eq member]
    exact congrArg Except.ok (dataSymbol_restore word.symbolBytes cell)
  have identity : StripeKey.fromCell cell = word.key ∧ cell.cellSequence = word.sequenceOf place :=
    ⟨word.fromCell_eq member, word.cellSequence_eq found⟩
  simp only [restoreCell, sequence, restoredBytes, entry, length, if_pos fits, bytes, ok_bind,
    word.decode_wire member, if_pos identity, if_neg new]

theorem restoreCells_eq (places : List Nat) (stripe : DecodeStripe)
    (output : List (UInt16 × Nat × CellV2)) (shim : stripe.routingShim = word.shim)
    (nodup : places.Nodup) (inside : ∀ place ∈ places, place < word.cells.length)
    (new : ∀ place ∈ places, word.sequenceOf place ∉ stripe.delivered) : ∃ restored delivered,
      restoreCells word.key (word.metadata index recovery) (indexed word places) stripe output =
        .ok (.ok (output ++ restored), { stripe with delivered }) ∧
      restored.map (fun entry => entry.2.2) = pick word.cells places ∧
      ∀ sequence, sequence ∈ delivered ↔
        sequence ∈ stripe.delivered ∨ sequence ∈ places.map word.sequenceOf := by
  induction places generalizing stripe output with
  | nil =>
    refine ⟨[], stripe.delivered, ?_, rfl, by simp⟩
    simp [indexed, restoreCells]
  | cons place rest ih =>
  have bound := inside place mem_cons_self
  have found := getElem?_eq_getElem bound
  obtain ⟨fresh, others⟩ := nodup_cons.mp nodup
  have first := restoreCell_eq index recovery found shim (new place mem_cons_self)
  obtain ⟨restored, delivered, run, cells, marked⟩ := ih
    { stripe with delivered := insert (word.sequenceOf place) stripe.delivered }
    (output ++ [(word.sequenceOf place, (word.cells[place]).wire.length, word.cells[place])])
    shim others
    (fun later member => inside later (mem_cons_of_mem _ member)) (by
      intro later member isNew
      rcases Finset.mem_insert.mp isNew with same | old
      · have equal := word.sequenceOf_inj (inside later (mem_cons_of_mem _ member)) bound same
        exact fresh (equal ▸ member)
      · exact new later (mem_cons_of_mem _ member) old)
  refine ⟨(word.sequenceOf place, (word.cells[place]).wire.length, word.cells[place]) :: restored,
    delivered, ?_, ?_, ?_⟩
  · rw [indexed_cons found, restoreCells, first]
    simp only [ok_bind, Option.toList_some, run, append_assoc, singleton_append]
  · rw [map_cons, cells, ← singleton_append, ← pick_singleton found, ← pick_append,
      singleton_append]
  · intro sequence
    rw [marked, Finset.mem_insert, map_cons, mem_cons]
    tauto

theorem indexed_of_fst {entries : List (Nat × Symbol)}
    (symbols : ∀ entry ∈ entries, word.symbols[entry.1]? = some entry.2) :
    indexed word (entries.map Prod.fst) = entries := by
  induction entries with
  | nil => rfl
  | cons entry rest ih =>
  obtain ⟨index, symbol⟩ := entry
  have found := symbols (index, symbol) mem_cons_self
  have others := ih fun later member => symbols later (mem_cons_of_mem _ member)
  simp only [indexed, map_cons, filterMap_cons, found, Option.map_some] at others ⊢
  rw [others]

/-- The places of the data Cells that were not received. -/
def lostPlaces (count : Nat) (held : List Nat) : List Nat :=
  (range count).filter (· ∉ held)

theorem held_lost_perm (holds : Holds word held parity stripe) :
    (held ++ lostPlaces word.cells.length held).Perm (range word.cells.length) := by
  have split := filter_append_perm (fun index => decide (index ∈ held))
    (range word.cells.length)
  have same : lostPlaces word.cells.length held =
      (range word.cells.length).filter fun index => !decide (index ∈ held) := by
    simp [lostPlaces]
  rw [same]
  exact ((held_perm holds).symm.append_right _).trans split

variable (word held) in
theorem missing_eq : ErasureCodec.missing word.symbols
        (indexed word ((range word.cells.length).filter (· ∈ held))) =
      indexed word (lostPlaces word.cells.length held) := by
  have inside : ∀ index ∈ (range word.cells.length).filter (· ∈ held),
      index < word.cells.length := fun index member =>
    mem_range.mp (mem_of_mem_filter member)
  have places := ErasureCodec.missing_indices word.symbols
    (indexed word ((range word.cells.length).filter (· ∈ held)))
  rw [indexed_fst inside, word.symbols_length] at places
  have own : ∀ entry ∈ ErasureCodec.missing word.symbols
      (indexed word ((range word.cells.length).filter (· ∈ held))),
      word.symbols[entry.1]? = some entry.2 := by
    intro entry member
    simp only [ErasureCodec.missing, mem_map, mem_filter] at member
    obtain ⟨⟨symbol, index⟩, ⟨there, -⟩, rfl⟩ := member
    exact mem_zipIdx_iff_getElem?.mp there
  rw [← indexed_of_fst own, places, lostPlaces]
  refine congrArg (indexed word) (filter_congr fun index member => ?_)
  simp [member]

/-- With enough shards, recovery puts out the Cells that were not received, and then all Cells of
the stripe are delivered. -/
theorem recover_collects (promised : codec.Mds parityCells) (decoder : CellStripeDecoder)
    (holds : Holds word held parity stripe) (index : Nat) (recovery : Symbol)
    (enough : word.cells.length ≤ held.length + parity.length) :
    ∃ restored delivered,
      recover codec decoder word.key stripe (word.metadata index recovery) =
        .ok (.ok (some restored), { decoder with
          stripes := decoder.stripes.insert word.key { stripe with delivered } }) ∧
      restored.map (fun entry => entry.2.2) =
        pick word.cells (lostPlaces word.cells.length held) ∧
      ∀ place < word.cells.length, word.sequenceOf place ∈ delivered := by
  have inRange : ∀ place ∈ range word.cells.length, place < word.cells.length :=
    fun place member => mem_range.mp member
  have lostInside : ∀ place ∈ lostPlaces word.cells.length held, place < word.cells.length :=
    fun place member => inRange place (mem_of_mem_filter member)
  have expanded := expandOriginals_eq holds index recovery (range word.cells.length) [] inRange
  rw [nil_append] at expanded
  have received : ErasureCodec.Received word.symbols
      (indexed word ((range word.cells.length).filter (· ∈ held))) := by
    refine ⟨?_, fun entry member => mem_indexed member⟩
    rw [indexed_fst fun place member => inRange place (mem_of_mem_filter member)]
    exact nodup_range.filter _
  have parityReceived : ErasureCodec.Received word.recoveries
      (stripe.recoveries.entries.map fun entry => (entry.1, entry.2)) := by
    refine ⟨?_, ?_⟩
    · rw [map_map]
      exact stripe.recoveries.nodupKeys
    intro entry member
    obtain ⟨⟨place, symbol⟩, isEntry, rfl⟩ := mem_map.mp member
    have found := HashMap.lookup_eq_some_iff.mpr isEntry
    rw [← holds.symbols place ((holds.recoveries.keys _).mpr (HashMap.mem_of_lookup found))]
    exact found
  have counts : word.cells.length ≤
      (indexed word ((range word.cells.length).filter (· ∈ held))).length +
        (stripe.recoveries.entries.map fun entry => (entry.1, entry.2)).length := by
    have data : (indexed word ((range word.cells.length).filter (· ∈ held))).length =
        held.length := by
      rw [← (held_perm holds).length_eq, ← length_map Prod.fst,
        indexed_fst fun place member => inRange place (mem_of_mem_filter member)]
    have symbols : stripe.recoveries.entries.length = parity.length :=
      holds.recoveries.length_eq.symm
    rw [data, length_map, symbols]
    exact enough
  have decoded := promised.restores word.cells.length word.symbolBytes word.symbols word.recoveries
    _ _ word.ordinary word.symbols_length word.symbols_width word.coded received
      parityReceived counts
  rw [missing_eq word held] at decoded
  obtain ⟨restored, delivered, run, cells, marked⟩ := restoreCells_eq index recovery
    (lostPlaces word.cells.length held) stripe [] holds.shim (nodup_range.filter _) lostInside
    fun place member => holds.not_delivered (lostInside place member)
      (by simpa using (mem_filter.mp member).2)
  have supported : codec.supports (word.metadata index recovery).dataCells
      (word.metadata index recovery).parityCells (word.metadata index recovery).symbolBytes =
        true :=
    promised.supports _ _ _ word.ordinary
  have opened : expandOriginals stripe (word.metadata index recovery)
      (range (word.metadata index recovery).dataCells) [] = _ := expanded
  have decode : codec.decode (word.metadata index recovery).dataCells
      (word.metadata index recovery).parityCells (word.metadata index recovery).symbolBytes
      (indexed word ((range word.cells.length).filter (· ∈ held)))
      (stripe.recoveries.entries.map fun entry => (entry.1, entry.2)) = _ := decoded
  refine ⟨restored, delivered, ?_, cells, fun place inside => ?_⟩
  · rw [recover, if_pos supported, opened]
    simp only [ok_bind, decode, run]
    rfl
  refine (marked _).mpr ?_
  by_cases isHeld : place ∈ held
  · exact .inl ((holds.delivered _).mpr (mem_map_of_mem isHeld))
  · exact .inr (mem_map_of_mem (mem_filter.mpr ⟨mem_range.mpr inside, by simpa using isHeld⟩))

end Recover

/-! ### The end of a push -/

section Finish

variable {held parity : List Nat} {stripe : DecodeStripe} {decoder : CellStripeDecoder}

theorem stripeComplete_iff {index : Nat} {recovery : Symbol}
    (live : decoder.stripes.lookup word.key = some stripe)
    (geometry : stripe.geometry = some (word.metadata index recovery)) :
    decoder.stripeComplete word.key = true ↔
      ∀ place < word.cells.length, word.sequenceOf place ∈ stripe.delivered := by
  simp only [stripeComplete, live, Option.any_some, geometry, all_eq_true, mem_range]
  refine forall₂_congr fun place inside => ?_
  have sequence : stripeSequence (word.metadata index recovery).firstSequence place =
      some (word.sequenceOf place) := word.stripeSequence_eq inside
  simp [sequence]

variable (now : Instant)

theorem touch_lookup (live : decoder.stripes.lookup word.key = some stripe) :
    (decoder.touch word.key now).stripes.lookup word.key = some { stripe with updated := now } ∧
      SameLimits decoder (decoder.touch word.key now) := by
  simp only [touch, live]
  exact ⟨AList.lookup_insert _, rfl, rfl, rfl⟩

theorem trimCompleted_keeps (maximum : Nat) (front : List StripeKey) (key : StripeKey)
    (completed : HashMap StripeKey Unit) (positive : 0 < maximum)
    (listed : HashMap.Lists (front ++ [key]) completed) :
    (trimCompleted maximum (front ++ [key]) completed).2.lookup key = some () := by
  have held : completed.lookup key = some () := by
    obtain ⟨⟨⟩, found⟩ := listed.lookup_isSome (mem_append_right _ mem_cons_self)
    exact found
  induction front generalizing completed with
  | nil =>
    have single := listed.length_eq
    simp only [nil_append, length_singleton] at single
    rw [nil_append, trimCompleted, HashMap.dropOldest, if_neg (by omega)]
    exact held
  | cons oldest rest ih =>
  rw [cons_append, trimCompleted, HashMap.dropOldest]
  split
  · have erased := listed.erase (List.Perm.refl _)
    obtain ⟨⟨⟩, found⟩ := erased.lookup_isSome (mem_append_right _ mem_cons_self)
    exact ih _ erased found
  · exact held

theorem complete_lookup (valid : DecoderInvariant decoder) {key : StripeKey}
    (absent : decoder.completed.lookup key = none) :
    (decoder.complete key).completed.lookup key = some () ∧
      SameLimits decoder (decoder.complete key) := by
  refine ⟨?_, rfl, rfl, rfl⟩
  exact trimCompleted_keeps _ _ key _ valid.positive (valid.completedListed.insert_fresh absent ())

variable (word) in
/-- What a push leaves behind: too few shards, or a finished stripe and its missing Cells. -/
def AfterPush (held parity : List Nat) (now : Instant) (decoder : CellStripeDecoder)
    (cells : List CellV2) (answer : Answer FecDecodeOutputV2) : Prop :=
  ∃ final, answer.1 = .ok final ∧ SameLimits decoder answer.2 ∧
    ((∃ stripe, answer.2.stripes.lookup word.key = some stripe ∧ stripe.updated = now ∧
        Holds word held parity stripe ∧
        (parity ≠ [] → held.length + parity.length < word.cells.length) ∧ final.cells = cells) ∨
      (answer.2.completed.lookup word.key = some () ∧ ∃ lost,
        (held ++ lost).Perm (range word.cells.length) ∧
          final.cells = cells ++ pick word.cells lost))

variable (output : FecDecodeOutputV2)

theorem settle_live (live : decoder.stripes.lookup word.key = some stripe)
    (holds : Holds word held parity stripe)
    (few : parity ≠ [] → held.length + parity.length < word.cells.length) :
    AfterPush word held parity now decoder output.cells
      (.ok (decoder.settle word.key now output).1, (decoder.settle word.key now output).2) := by
  have open_ : decoder.stripeComplete word.key = false := by
    rw [Bool.eq_false_iff]
    intro done
    by_cases known : parity = []
    · simp [stripeComplete, live, holds.unshaped known] at done
    obtain ⟨index, recovery, geometry⟩ := holds.shaped known
    have all := (stripeComplete_iff live geometry).mp done
    have every : (range word.cells.length) ⊆ held := by
      intro place member
      by_contra new
      exact holds.not_delivered (mem_range.mp member) new (all place (mem_range.mp member))
    have count := (subperm_of_subset nodup_range every).length_le
    rw [length_range] at count
    have less := few known
    omega
  obtain ⟨lookedUp, limits⟩ := touch_lookup now live
  simp only [settle, open_, Bool.false_eq_true, if_false]
  exact ⟨output, rfl, limits, .inl ⟨_, lookedUp, rfl, holds.touched now, few, rfl⟩⟩

theorem settle_done (valid : DecoderInvariant decoder) {index : Nat} {recovery : Symbol}
    (live : decoder.stripes.lookup word.key = some stripe)
    (geometry : stripe.geometry = some (word.metadata index recovery))
    (all : ∀ place < word.cells.length, word.sequenceOf place ∈ stripe.delivered) :
    ∃ final, (decoder.settle word.key now output) = (final, decoder.complete word.key) ∧
      final.cells = output.cells ∧
      (decoder.complete word.key).completed.lookup word.key = some () ∧
      SameLimits decoder (decoder.complete word.key) := by
  have done := (stripeComplete_iff live geometry).mpr all
  obtain ⟨tombstone, limits⟩ := complete_lookup valid (valid.disjoint _ _ live)
  simp only [settle, done, if_true]
  refine ⟨_, rfl, ?_, tombstone, limits⟩
  split <;> rfl

/-- The part of `push_at` behind the store. -/
def finish (codec : ErasureCodec) (self : CellStripeDecoder) (key : StripeKey) (now : Instant)
    (output : FecDecodeOutputV2) : Except Panic (Answer FecDecodeOutputV2) := do
  match ← tryRecover codec self key with
  | (.error message, self) => .ok (.error message, self)
  | (.ok recovered, self) =>
    let (output, self) := self.settle key now (self.addRecovered key now output recovered)
    .ok (.ok output, self)

theorem pushStriped_eq_finish {cell : CellV2} {bytes : Bytes} {shape : UInt16 × Nat}
    {key : StripeKey} {output final : FecDecodeOutputV2} {after : CellStripeDecoder}
    (stored : decoder.store key shape cell bytes output = .ok (.ok final, after)) :
    pushStriped codec decoder key shape cell bytes now output =
      finish codec after key now final := by
  rw [pushStriped, stored]
  rfl

theorem finish_collects (promised : codec.Mds parityCells) (now : Instant)
    (output : FecDecodeOutputV2) (valid : DecoderInvariant decoder)
    (live : decoder.stripes.lookup word.key = some stripe) (holds : Holds word held parity stripe) :
    Returns (finish codec decoder word.key now output)
      (AfterPush word held parity now decoder output.cells) := by
  have idle : tryRecover codec decoder word.key = .ok (.ok none, decoder) →
      finish codec decoder word.key now output =
        .ok (.ok (decoder.settle word.key now output).1,
          (decoder.settle word.key now output).2) := by
    intro none
    rw [finish, none]
    rfl
  by_cases known : parity = []
  · -- without parity there is no geometry
    have none : tryRecover codec decoder word.key = .ok (.ok none, decoder) := by
      simp only [tryRecover, live, holds.unshaped known]
    rw [idle none]
    exact .ok (settle_live now output live holds fun some => absurd known some)
  obtain ⟨index, recovery, geometry⟩ := holds.shaped known
  have counted : present stripe (word.metadata index recovery) = held.length :=
    present_eq holds index recovery
  have symbols : stripe.recoveries.size = parity.length := holds.recoveries.length_eq.symm
  have count : (word.metadata index recovery).dataCells = word.cells.length := rfl
  by_cases all : held.length = word.cells.length
  · -- every data Cell arrived, so the parity was not needed
    have none : tryRecover codec decoder word.key = .ok (.ok none, decoder) := by
      simp [tryRecover, live, geometry, counted, count, all]
    have places : held.Perm (range word.cells.length) :=
      perm_range_of_length holds.nodup holds.inside (Nat.le_of_eq all.symm)
    obtain ⟨final, settled, cells, tombstone, limits⟩ := settle_done now output valid live geometry
      fun place inside => (holds.delivered _).mpr
        (mem_map_of_mem (places.mem_iff.mpr (mem_range.mpr inside)))
    rw [idle none, settled]
    exact .ok ⟨final, rfl, limits,
      .inr ⟨tombstone, [], by simpa using places, by simpa using cells⟩⟩
  by_cases few : held.length + parity.length < word.cells.length
  · have none : tryRecover codec decoder word.key = .ok (.ok none, decoder) := by
      simp [tryRecover, live, geometry, counted, count, symbols, few]
    rw [idle none]
    exact .ok (settle_live now output live holds fun _ => few)
  -- the missing Cells are restored
  obtain ⟨restored, delivered, run, cells, marked⟩ := recover_collects promised decoder holds
    index recovery (Nat.le_of_not_lt few)
  have recovered : tryRecover codec decoder word.key = .ok (.ok (some restored), { decoder with
        stripes := decoder.stripes.insert word.key { stripe with delivered } }) := by
    simpa [tryRecover, live, geometry, counted, count, symbols, all, few] using run
  have relabelled : DecoderInvariant { decoder with
      stripes := decoder.stripes.insert word.key { stripe with delivered } } :=
    relabelStripe_invariant valid live rfl rfl
  obtain ⟨final, settled, same, tombstone, limits⟩ := settle_done now
    (addRecovered { decoder with
      stripes := decoder.stripes.insert word.key { stripe with delivered } } word.key now
      output (some restored)) relabelled (AList.lookup_insert _) geometry marked
  rw [finish, recovered]
  simp only [ok_bind, settled]
  refine .ok ⟨final, rfl, ⟨limits.sessionEpoch, limits.ttl, limits.maximumBufferedBytes⟩,
    .inr ⟨tombstone, _, held_lost_perm holds, ?_⟩⟩
  rw [same, ← cells]
  rfl

end Finish

end Word

end Ironet.Fec
