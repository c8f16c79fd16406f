import Ironet.Support.Pick
import Ironet.Fec.Codeword
import Ironet.Fec.DecoderInvariant

/-!
# Collecting a stripe

The decoder on the datagrams of one codeword, in any order and with repetitions. While the stripe
is live the decoder has put out exactly the data Cells it received; as soon as parity is there and
there are as many distinct shards as data Cells, it puts out the missing ones and keeps a tombstone.
-/
namespace Ironet.Fec
open Support Cell CellStripeDecoder List HashMap

/-! ### What a push leaves alone -/

/-- Epoch, lifetime and budget are the same. -/
structure SameLimits (before after : CellStripeDecoder) : Prop where
  sessionEpoch : after.sessionEpoch = before.sessionEpoch
  ttl : after.ttl = before.ttl
  maximumBufferedBytes : after.maximumBufferedBytes = before.maximumBufferedBytes

variable (decoder : CellStripeDecoder)

theorem SameLimits.refl : SameLimits decoder decoder := ⟨rfl, rfl, rfl⟩

theorem SameLimits.trans {first second third : CellStripeDecoder} (before : SameLimits first second)
    (after : SameLimits second third) : SameLimits first third :=
  ⟨after.sessionEpoch.trans before.sessionEpoch, after.ttl.trans before.ttl,
    after.maximumBufferedBytes.trans before.maximumBufferedBytes⟩

theorem Evicted.sameLimits {before after : CellStripeDecoder} (evicted : Evicted before after) :
    SameLimits before after :=
  ⟨evicted.sessionEpoch, evicted.ttl, evicted.maximumBufferedBytes⟩

variable (now : Instant)

/-- A stripe that was touched less than a lifetime ago survives the sweep. -/
theorem expireLoop_keeps (fuel : Nat) (decoder : CellStripeDecoder) (key : StripeKey)
    (stripe : DecodeStripe) (found : decoder.stripes.lookup key = some stripe)
    (young : now - stripe.updated < decoder.ttl) :
    (expireLoop now fuel decoder).2.stripes.lookup key = some stripe := by
  induction fuel generalizing decoder with
  | zero => exact found
  | succ fuel ih =>
  unfold expireLoop
  cases front : decoder.order with
  | nil => exact found
  | cons entry rest =>
  obtain ⟨candidate, generation⟩ := entry
  dsimp only
  split
  · exact found
  split
  · rename_i current
    obtain ⟨old, lookedUp, expired⟩ := (Option.any_eq_true _ _).mp current
    simp only [Bool.and_eq_true, decide_eq_true_eq] at expired
    have other : key ≠ candidate := by
      rintro rfl
      obtain rfl : stripe = old := Option.some.inj (found.symm.trans lookedUp)
      exact Nat.not_lt.mpr expired.2 young
    refine ih _ ?_ young
    exact lookup_erase_eq_some.mpr ⟨other, found⟩
  · exact ih _ found young

theorem expire_keeps (key : StripeKey) (stripe : DecodeStripe)
    (found : decoder.stripes.lookup key = some stripe)
    (young : now - stripe.updated < decoder.ttl) :
    (decoder.expire now).2.stripes.lookup key = some stripe :=
  expireLoop_keeps now decoder.order.length decoder key stripe found young

/-- `reserve` succeeds for a stripe that fits the budget alone: everything else may go. -/
theorem reserve_roomy {decoder : CellStripeDecoder} {additional : Nat} {kept : StripeKey}
    {stripe : DecodeStripe} (valid : DecoderInvariant decoder)
    (found : decoder.stripes.lookup kept = some stripe)
    (room : stripe.bufferedBytes + additional ≤ decoder.maximumBufferedBytes) :
    Returns (decoder.reserve additional kept) fun (result, after) =>
      result = .ok () ∧ DecoderInvariant after ∧ Evicted decoder after ∧
        after.stripes.lookup kept = some stripe := by
  refine (reserve_returns additional valid.toDecoderCore found).bind ?_
  rintro after ⟨core, evicted, live, done⟩
  have fits : after.bufferedBytes + additional ≤ after.maximumBufferedBytes := by
    rw [evicted.maximumBufferedBytes]
    rcases done with fits | alone
    · exact fits
    -- only the kept stripe is left, and it fits
    have others : weight DecodeStripe.bufferedBytes (after.stripes.erase kept) = 0 := by
      have sizes := size_of_lookup live
      have empty : (after.stripes.erase kept).entries = [] :=
        eq_nil_of_length_eq_zero (by simp only [size] at sizes alone; omega)
      simp [weight, empty]
    have split := weight_of_lookup DecodeStripe.bufferedBytes live
    have total := core.bytes
    omega
  rw [if_pos fits]
  exact .ok ⟨rfl, ⟨core, evicted.budget valid.budget⟩, evicted, live⟩

theorem ensureStripe_fresh {decoder : CellStripeDecoder} {key : StripeKey} (shim : RoutingShim)
    {shape : UInt16 × Nat} (core : DecoderCore decoder) (absent : decoder.stripes.lookup key = none)
    (shaped : decodeStripeId key.stripeId = .ok shape) :
    ∃ after, decoder.ensureStripe key now shim = (.ok (), after) ∧ SameLimits decoder after ∧
      after.stripes.lookup key =
        some { created := now, updated := now, repairShape := shape, routingShim := shim } := by
  obtain ⟨-, evicted, room⟩ := evictLoop_core decoder.order.length decoder core (Nat.le_refl _)
  rw [← evicted.maximumStripes] at room
  have opened : decoder.ensureStripe key now shim =
      (.ok (), { evictLoop decoder.order.length decoder with
        stripes := (evictLoop decoder.order.length decoder).stripes.insert key
          { created := now, updated := now, repairShape := shape, routingShim := shim }
        order := (evictLoop decoder.order.length decoder).order ++ [(key, now)] }) := by
    simp only [ensureStripe, absent, insertStripe, if_pos room, shaped]
  refine ⟨_, opened, evicted.sameLimits.trans ⟨rfl, rfl, rfl⟩, ?_⟩
  exact AList.lookup_insert _

section Word

variable {codec : ErasureCodec} {parityCells : Nat} (word : Codeword codec parityCells)

/-! ### Received shards -/

/-- The Cells of the datagrams of a stripe. -/
inductive Shard : CellV2 → Prop
  | data (index : Nat) (cell : CellV2) (found : word.cells[index]? = some cell) : Shard cell
  | parity (index : Nat) (recovery : Symbol) (found : word.recoveries[index]? = some recovery) :
      Shard (word.parity index recovery)

/-- The live stripe holds the data Cells and the recovery symbols at the given places, and nothing
else. -/
structure Holds (held parity : List Nat) (stripe : DecodeStripe) : Prop where
  inside : ∀ index ∈ held, index < word.cells.length
  originals : HashMap.Lists (held.map word.sequenceOf) stripe.originals
  wires : ∀ index cell, index ∈ held → word.cells[index]? = some cell →
    stripe.originals.lookup (word.sequenceOf index) = some cell.wire
  recoveries : HashMap.Lists parity stripe.recoveries
  symbols : ∀ index ∈ parity, stripe.recoveries.lookup index = word.recoveries[index]?
  delivered : ∀ sequence, sequence ∈ stripe.delivered ↔ sequence ∈ held.map word.sequenceOf
  shim : stripe.routingShim = word.shim
  unshaped : parity = [] → stripe.geometry = none
  shaped : parity ≠ [] → ∃ index recovery, stripe.geometry = some (word.metadata index recovery)

variable {word} {index : Nat} {cell : CellV2} {recovery : Symbol}

namespace Holds

variable {held parity : List Nat} {stripe : DecodeStripe}

theorem fresh (now : Instant) (shape : UInt16 × Nat) :
    Holds word [] []
      { created := now, updated := now, repairShape := shape, routingShim := word.shim }
    where
  inside := by simp
  originals := .nil
  wires := by simp
  recoveries := .nil
  symbols := by simp
  delivered := by simp
  shim := rfl
  unshaped _ := rfl
  shaped nonempty := absurd rfl nonempty

section
variable (holds : Holds word held parity stripe)
include holds

theorem touched (now : Instant) :
    Holds word held parity { stripe with updated := now } := { holds with }

theorem nodup : held.Nodup :=
  List.Nodup.of_map _ holds.originals.nodup

theorem parity_inside : ∀ index ∈ parity, index < word.recoveries.length := by
  intro index member
  obtain ⟨recovery, found⟩ := holds.recoveries.lookup_isSome member
  rw [holds.symbols index member] at found
  exact (List.getElem?_eq_some_iff.mp found).1

theorem lookup_eq_none (inside : index < word.cells.length) (new : index ∉ held) :
    stripe.originals.lookup (word.sequenceOf index) = none := by
  refine AList.lookup_eq_none.mpr fun member => new ?_
  obtain ⟨other, isHeld, same⟩ := mem_map.mp ((holds.originals.keys _).mpr member)
  rwa [← word.sequenceOf_inj (holds.inside other isHeld) inside same]

theorem not_delivered (inside : index < word.cells.length) (new : index ∉ held) :
    word.sequenceOf index ∉ stripe.delivered := by
  intro member
  obtain ⟨other, isHeld, same⟩ := mem_map.mp ((holds.delivered _).mp member)
  exact new (word.sequenceOf_inj (holds.inside other isHeld) inside same ▸ isHeld)

theorem withOriginal (found : word.cells[index]? = some cell) (new : index ∉ held) :
    Holds word (held ++ [index]) parity (stripe.withOriginal cell.cellSequence cell.wire) := by
  have inside := (List.getElem?_eq_some_iff.mp found).1
  have sequence := word.cellSequence_eq found
  refine { holds with inside := ?_, originals := ?_, wires := ?_, delivered := ?_ }
  · exact inside_snoc holds.inside inside
  · rw [map_append, sequence]
    exact holds.originals.insert_fresh (holds.lookup_eq_none inside new) cell.wire
  · intro other its member there
    simp only [DecodeStripe.withOriginal, sequence]
    by_cases same : other = index
    · subst same
      obtain rfl : cell = its := Option.some.inj (found.symm.trans there)
      exact AList.lookup_insert _
    · have old := (mem_append.mp member).resolve_right (by simpa using same)
      rw [AList.lookup_insert_ne fun equal =>
        same (word.sequenceOf_inj (holds.inside other old) inside equal)]
      exact holds.wires other its old there
  · intro other
    simp only [DecodeStripe.withOriginal, Finset.mem_insert, map_append, mem_append,
      map_cons, map_nil, mem_singleton, holds.delivered, sequence]
    exact or_comm

theorem withRecovery
    {geometry : Option ParityPayload} (found : word.recoveries[index]? = some recovery)
    (new : index ∉ parity)
    (shaped : ∃ index recovery, geometry = some (word.metadata index recovery)) :
    Holds word held (parity ++ [index])
      ({ stripe with geometry }.withRecovery (word.metadata index recovery)) := by
  refine { holds with recoveries := ?_, symbols := ?_, unshaped := ?_, shaped := fun _ => shaped }
  · have absent : stripe.recoveries.lookup index = none :=
      AList.lookup_eq_none.mpr fun member => new ((holds.recoveries.keys _).mpr member)
    exact holds.recoveries.insert_fresh absent recovery
  · intro other member
    simp only [DecodeStripe.withRecovery, Codeword.metadata]
    by_cases same : other = index
    · rw [same, AList.lookup_insert, found]
    · have old := (mem_append.mp member).resolve_right (by simpa using same)
      rw [AList.lookup_insert_ne same]
      exact holds.symbols other old
  · simp

theorem bufferedBytes_le :
    stripe.bufferedBytes ≤ ((pick word.cells held).map fun cell => cell.wire.length).sum +
      ((pick word.parityWires parity).map length).sum := by
  have data : stripe.originals.weight length ≤
      (held.map fun index => (word.cells[index]?).elim 0 fun cell => cell.wire.length).sum := by
    refine weight_le_sum _ _ word.sequenceOf held _ (fun sequence bytes found => ?_)
      (fun index member bytes found => ?_)
    · exact (holds.originals.keys _).mpr (mem_of_lookup found)
    · have at_ := getElem?_eq_getElem (holds.inside index member)
      rw [holds.wires index _ member at_] at found
      obtain rfl := Option.some.inj found
      rw [at_, Option.elim_some]
  have symbols : stripe.recoveries.weight length ≤
      (parity.map fun index => (word.parityWires[index]?).elim 0 length).sum := by
    refine weight_le_sum _ _ id parity _ (fun index bytes found => ?_)
      (fun index member bytes found => ?_)
    · rw [map_id]
      exact (holds.recoveries.keys _).mpr (mem_of_lookup found)
    rw [id_eq, holds.symbols index member] at found
    have wire : word.parityWires[index]? = some (word.parity index bytes).wire := by
      rw [Codeword.parityWires, getElem?_mapIdx, found, Option.map_some]
    rw [wire, Option.elim_some, word.parity_wire_length found,
      word.width bytes (mem_of_getElem? found)]
    omega
  have pickData : (held.map fun index =>
      (word.cells[index]?).elim 0 fun cell => cell.wire.length).sum =
        ((pick word.cells held).map fun cell => cell.wire.length).sum :=
    sum_elim_pick _ _ _
  have pickParity : (parity.map fun index => (word.parityWires[index]?).elim 0 length).sum =
      ((pick word.parityWires parity).map length).sum :=
    sum_elim_pick _ _ _
  rw [DecodeStripe.bufferedBytes]
  omega

end

theorem total_eq : (word.datagrams.map length).sum =
    (word.cells.map fun cell => cell.wire.length).sum +
      (word.parityWires.map length).sum := by
  simp [Codeword.datagrams, Function.comp_def]

variable {budget : Nat}

variable (holds : Holds word held parity stripe) (enough : (word.datagrams.map length).sum ≤ budget)
include holds enough

theorem room_data (found : word.cells[index]? = some cell) (new : index ∉ held) :
    stripe.bufferedBytes + cell.wire.length ≤ budget := by
  have inside := (List.getElem?_eq_some_iff.mp found).1
  have buffered := holds.bufferedBytes_le
  have count : word.parityWires.length = word.recoveries.length := by simp [Codeword.parityWires]
  have data := sum_pick_le (fun cell : CellV2 => cell.wire.length)
    (nodup_snoc holds.nodup new) (inside_snoc holds.inside inside)
  have symbols := sum_pick_le length holds.recoveries.nodup
    fun place member => count ▸ holds.parity_inside place member
  rw [pick_append, pick_singleton found, map_append, sum_append] at data
  simp only [map_cons, map_nil, sum_cons, sum_nil] at data
  rw [total_eq] at enough
  omega

theorem room_parity (found : word.recoveries[index]? = some recovery) (new : index ∉ parity) :
    stripe.bufferedBytes + recovery.length ≤ budget := by
  have inside := (List.getElem?_eq_some_iff.mp found).1
  have buffered := holds.bufferedBytes_le
  have count : word.parityWires.length = word.recoveries.length := by simp [Codeword.parityWires]
  have wire : word.parityWires[index]? = some (word.parity index recovery).wire := by
    rw [Codeword.parityWires, getElem?_mapIdx, found, Option.map_some]
  have data := sum_pick_le (fun cell : CellV2 => cell.wire.length) holds.nodup
    holds.inside
  have symbols := sum_pick_le length
    (nodup_snoc holds.recoveries.nodup new) (count ▸ inside_snoc holds.parity_inside inside)
  rw [pick_append, pick_singleton wire, map_append, sum_append] at symbols
  simp only [map_cons, map_nil, sum_cons, sum_nil, word.parity_wire_length found] at symbols
  rw [total_eq] at enough
  rw [word.width recovery (mem_of_getElem? found)]
  omega

end Holds

/-! ### Storing a shard -/

variable (word) in
/-- The shard is among the received ones. -/
def Has (held parity : List Nat) (bytes : Bytes) : Prop :=
  (∃ index cell, index ∈ held ∧ word.cells[index]? = some cell ∧ bytes = cell.wire) ∨
    ∃ index recovery, index ∈ parity ∧ word.recoveries[index]? = some recovery ∧
      bytes = (word.parity index recovery).wire

theorem Has.mono {held held' parity parity' : List Nat} {bytes : Bytes}
    (has : Has word held parity bytes) (data : held ⊆ held') (symbols : parity ⊆ parity') :
    Has word held' parity' bytes := by
  rcases has with ⟨index, cell, member, rest⟩ | ⟨index, recovery, member, rest⟩
  · exact .inl ⟨index, cell, data member, rest⟩
  · exact .inr ⟨index, recovery, symbols member, rest⟩

variable (word) in
/-- What storing a shard does: it succeeds, the shard is held, and a new data Cell is put out. -/
def AfterStore (held parity : List Nat) (bytes : Bytes) (decoder : CellStripeDecoder)
    (output : FecDecodeOutputV2) (answer : Answer FecDecodeOutputV2) : Prop :=
  ∃ fresh parity' stripe final, answer.1 = .ok final ∧
    final.cells = output.cells ++ pick word.cells fresh ∧ SameLimits decoder answer.2 ∧
    answer.2.stripes.lookup word.key = some stripe ∧
    Holds word (held ++ fresh) parity' stripe ∧ parity ⊆ parity' ∧
    Has word (held ++ fresh) parity' bytes

section Store

variable {held parity : List Nat} {stripe : DecodeStripe} {decoder : CellStripeDecoder}

theorem storeData_collects (holds : Holds word held parity stripe)
    (valid : DecoderInvariant decoder) (live : decoder.stripes.lookup word.key = some stripe)
    (enough : (word.datagrams.map length).sum ≤ decoder.maximumBufferedBytes)
    (found : word.cells[index]? = some cell)
    (output : FecDecodeOutputV2) : Returns (decoder.storeData word.key cell cell.wire output)
      (AfterStore word held parity cell.wire decoder output) := by
  have inside := (List.getElem?_eq_some_iff.mp found).1
  have sequence := word.cellSequence_eq found
  unfold storeData
  simp only [live]
  by_cases old : index ∈ held
  · have here : stripe.originals.lookup cell.cellSequence = some cell.wire := by
      rw [sequence]
      exact holds.wires index cell old found
    simp only [here, if_true]
    refine .ok ⟨[], parity, stripe, output, rfl, by simp, .refl _, live, by simpa using holds,
      List.Subset.refl _, .inl ⟨index, cell, by simpa using old, found, rfl⟩⟩
  have absent : stripe.originals.lookup cell.cellSequence = none := by
    rw [sequence]
    exact holds.lookup_eq_none inside old
  simp only [absent]
  refine (reserve_roomy valid live (holds.room_data enough found old)).bind ?_
  rintro ⟨result, after⟩ ⟨rfl, -, evicted, stillLive⟩
  simp only [stillLive]
  refine .ok ⟨[index], parity, _, _, rfl, ?_, evicted.sameLimits.trans ⟨rfl, rfl, rfl⟩,
    AList.lookup_insert _, holds.withOriginal found old, List.Subset.refl _,
    .inl ⟨index, cell, by simp, found, rfl⟩⟩
  rw [pick_singleton found]

theorem storeRecovery_collects {metadata : ParityPayload} (valid : DecoderInvariant decoder)
    (live : decoder.stripes.lookup word.key = some stripe)
    (absent : stripe.recoveries.lookup metadata.recoveryIndex = none)
    (room : stripe.bufferedBytes + metadata.recovery.length ≤ decoder.maximumBufferedBytes) :
    Returns (decoder.storeRecovery word.key stripe metadata) fun (result, after) =>
      result = .ok () ∧ SameLimits decoder after ∧
        after.stripes.lookup word.key = some (stripe.withRecovery metadata) := by
  unfold storeRecovery
  simp only [absent]
  refine (reserve_roomy valid live room).bind ?_
  rintro ⟨result, after⟩ ⟨rfl, -, evicted, stillLive⟩
  simp only [stillLive]
  exact .ok ⟨rfl, evicted.sameLimits.trans ⟨rfl, rfl, rfl⟩, AList.lookup_insert _⟩

section
variable (holds : Holds word held parity stripe) (valid : DecoderInvariant decoder)
  (live : decoder.stripes.lookup word.key = some stripe)
  (enough : (word.datagrams.map length).sum ≤ decoder.maximumBufferedBytes)
include holds valid live enough

theorem storeParity_collects (found : word.recoveries[index]? = some recovery) :
    Returns (decoder.storeParity word.key (word.firstSequence, word.cells.length)
        (word.payload index recovery)) fun (result, after) =>
      ∃ parity' stripe', result = .ok () ∧ SameLimits decoder after ∧
        after.stripes.lookup word.key = some stripe' ∧ Holds word held parity' stripe' ∧
        parity ⊆ parity' ∧ index ∈ parity' := by
  have agrees : (word.metadata index recovery).dataCells = word.cells.length ∧
      (word.metadata index recovery).firstSequence = word.firstSequence := ⟨rfl, rfl⟩
  unfold storeParity
  simp only [word.decode_payload found, if_pos agrees, live]
  by_cases old : index ∈ parity
  · -- a duplicate of a symbol that is there
    obtain ⟨other, its, geometry⟩ := holds.shaped (ne_nil_of_mem old)
    have same : sameGeometry (word.metadata other its) (word.metadata index recovery) = true := by
      simp [sameGeometry, Codeword.metadata]
    have held : stripe.recoveries.lookup (word.metadata index recovery).recoveryIndex =
        some (word.metadata index recovery).recovery :=
      (holds.symbols index old).trans found
    simp only [geometry, same, if_true, storeRecovery, held]
    exact .ok ⟨parity, stripe, rfl, .refl _, live, holds, List.Subset.refl _, old⟩
  have absent : stripe.recoveries.lookup (word.metadata index recovery).recoveryIndex = none :=
    AList.lookup_eq_none.mpr fun member => old ((holds.recoveries.keys _).mpr member)
  have room : stripe.bufferedBytes + (word.metadata index recovery).recovery.length ≤
      decoder.maximumBufferedBytes := holds.room_parity enough found old
  have more : index ∈ parity ++ [index] := mem_append_right _ mem_cons_self
  cases known : parity with
  | nil =>
    -- the first parity Cell fixes the geometry
    simp only [holds.unshaped known]
    have labelled : DecoderInvariant { decoder with
        stripes := decoder.stripes.insert word.key
          { stripe with geometry := some (word.metadata index recovery) } } :=
      relabelStripe_invariant valid live rfl rfl
    refine (storeRecovery_collects labelled (AList.lookup_insert _) absent room).imp ?_
    rintro ⟨result, after⟩ ⟨rfl, limits, stored⟩
    exact ⟨parity ++ [index], _, rfl,
      ⟨limits.sessionEpoch, limits.ttl, limits.maximumBufferedBytes⟩, stored,
      holds.withRecovery found old ⟨index, recovery, rfl⟩, subset_append_left _ _, more⟩
  | cons first rest =>
  obtain ⟨other, its, geometry⟩ := holds.shaped (by simp [known])
  have same : sameGeometry (word.metadata other its) (word.metadata index recovery) = true := by
    simp [sameGeometry, Codeword.metadata]
  simp only [geometry, same, if_true]
  refine (storeRecovery_collects valid live absent room).imp ?_
  rintro ⟨result, after⟩ ⟨rfl, limits, stored⟩
  rw [← known]
  exact ⟨parity ++ [index], _, rfl, limits, stored,
    holds.withRecovery found old ⟨other, its, geometry⟩, subset_append_left _ _, more⟩

theorem store_collects (shard : Shard word cell) (output : FecDecodeOutputV2) :
    Returns (decoder.store word.key (word.firstSequence, word.cells.length) cell cell.wire output)
      (AfterStore word held parity cell.wire decoder output) := by
  unfold store
  cases shard with
  | data index _ found =>
    have kind := word.data cell (mem_of_getElem? found)
    unfold CellV2.kind at kind
    cases body : cell.body with
    | records segments => exact storeData_collects holds valid live enough found output
    | parity payload => simp [body] at kind
  | parity index recovery found =>
    refine (storeParity_collects holds valid live enough found).bind ?_
    rintro ⟨result, after⟩ ⟨parity', stripe', rfl, limits, stored, grown, more, member⟩
    refine .ok ⟨[], parity', stripe', _, rfl, by simp, limits, stored, by simpa using grown, more,
      .inr ⟨index, recovery, member, found, rfl⟩⟩

end

end Store

end Word

end Ironet.Fec
