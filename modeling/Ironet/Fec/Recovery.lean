import Ironet.Fec.EncoderSpec
import Ironet.Fec.Restore

/-!
# Recovery of protected stripes

The encoder of the sender and the decoder of the receiver together: whatever order the datagrams of
a stripe arrive in, and however often, the decoder puts out every data Cell of the stripe once as
soon as there are as many distinct datagrams as data Cells.
-/
namespace Ironet.Fec
open Support Cell Train CellStripeDecoder List ErasureCodec CellStripeEncoder

/-- Push datagrams one after the other, each at its own time. -/
def CellStripeDecoder.pushAll (codec : ErasureCodec) : CellStripeDecoder → List (Bytes × Instant) →
    Except Panic (List (Except String FecDecodeOutputV2) × CellStripeDecoder)
  | self, [] => .ok ([], self)
  | self, (bytes, now) :: rest => do
    let (result, self) ← self.pushAt codec bytes now
    let (results, self) ← self.pushAll codec rest
    .ok (result :: results, self)

variable {codec : ErasureCodec}

theorem pushAll_cons {decoder next final : CellStripeDecoder} {bytes : Bytes}
    {now : Instant} {rest : List (Bytes × Instant)} {result : Except String FecDecodeOutputV2}
    {results : List (Except String FecDecodeOutputV2)}
    (first : decoder.pushAt codec bytes now = .ok (result, next))
    (others : next.pushAll codec rest = .ok (results, final)) :
    decoder.pushAll codec ((bytes, now) :: rest) = .ok (result :: results, final) := by
  simp only [CellStripeDecoder.pushAll, first, ok_bind, others]

section Word

variable {codec : ErasureCodec} {parityCells : Nat} {word : Codeword codec parityCells}

/-! ### One push -/

namespace Shard

variable {cell : CellV2}

section
variable (shard : Shard word cell)
include shard

theorem decoded : CellV2.decode cell.wire = .ok cell := by
  cases shard with
  | data index _ found => exact word.decode_wire (mem_of_getElem? found)
  | parity index recovery found => exact word.decode_parity found

theorem key_eq : StripeKey.fromCell cell = word.key := by
  cases shard with
  | data index _ found => exact word.fromCell_eq (mem_of_getElem? found)
  | parity index recovery found => rfl

theorem shim_eq : (cell.overlayHopLimit, cell.overlayHops) = word.shim := by
  cases shard with
  | data index _ found => exact word.shim_eq (mem_of_getElem? found)
  | parity index recovery found => rfl

theorem stripeId_eq : cell.stripeId = word.stripeId :=
  congrArg StripeKey.stripeId shard.key_eq

theorem epoch_eq : cell.sessionEpoch = word.identity.sessionEpoch :=
  congrArg StripeKey.sessionEpoch shard.key_eq

theorem inside : ¬ (cell.kind = .data ∧
    insideStripe (word.firstSequence, word.cells.length) cell.cellSequence = false) := by
  rintro ⟨kind, outside⟩
  cases shard with
  | data index _ found =>
    rw [word.cellSequence_eq found,
      word.insideStripe_eq (List.getElem?_eq_some_iff.mp found).1] at outside
    cases outside
  | parity index recovery found => cases kind

end

theorem of_mem {bytes : Bytes} (member : bytes ∈ word.datagrams) :
    ∃ cell, Shard word cell ∧ bytes = cell.wire := by
  rcases word.mem_datagrams.mp member with ⟨index, cell, found, rfl⟩ | ⟨index, recovery, found, rfl⟩
  · exact ⟨cell, .data index cell found, rfl⟩
  · exact ⟨_, .parity index recovery found, rfl⟩

end Shard

variable {decoder : CellStripeDecoder} {cell : CellV2}

theorem pushAt_shard (shard : Shard word cell) (now : Instant)
    (epoch : decoder.sessionEpoch = word.identity.sessionEpoch) :
    decoder.pushAt codec cell.wire now = pushCell codec (decoder.expire now).2 cell cell.wire now
      { expiredStripes := (decoder.expire now).1 } := by
  have same : cell.sessionEpoch = decoder.sessionEpoch := shard.epoch_eq.trans epoch.symm
  have striped : cell.stripeId ≠ 0 := by
    rw [shard.stripeId_eq]
    exact word.stripeId_ne_zero
  simp only [pushAt, shard.decoded, if_pos same, if_neg striped]

theorem pushCell_late (shard : Shard word cell) (now : Instant)
    (output : FecDecodeOutputV2) (tombstone : decoder.completed.lookup word.key = some ()) :
    pushCell codec decoder cell cell.wire now output =
      .ok (.ok (lateOutput cell output), decoder) := by
  have shape : decodeStripeId cell.stripeId = .ok (word.firstSequence, word.cells.length) := by
    rw [shard.stripeId_eq]
    exact word.decodeStripeId_eq
  rw [← shard.key_eq] at tombstone
  simp [pushCell, shape, if_neg shard.inside, tombstone]

theorem lateOutput_cells (cell : CellV2) (output : FecDecodeOutputV2) :
    (lateOutput cell output).cells = output.cells := by
  unfold lateOutput
  cases cell.body <;> rfl

variable {last : Instant} {now : Instant}

theorem pushCell_open {opened : CellStripeDecoder} (shard : Shard word cell)
    (output : FecDecodeOutputV2) (unfinished : decoder.completed.lookup word.key = none)
    (ensured : decoder.ensureStripe word.key now word.shim = (.ok (), opened)) :
    pushCell codec decoder cell cell.wire now output =
      pushStriped codec opened word.key (word.firstSequence, word.cells.length) cell cell.wire now
        output := by
  have shape : decodeStripeId cell.stripeId = .ok (word.firstSequence, word.cells.length) := by
    rw [shard.stripeId_eq]
    exact word.decodeStripeId_eq
  rw [← shard.key_eq] at unfinished ensured ⊢
  simp [pushCell, shape, if_neg shard.inside, unfinished, shard.shim_eq, ensured]

/-! ### Runs -/

variable (word) in
/-- How far the decoder is with a stripe: the datagrams pushed so far and the Cells put out. -/
inductive Progress (decoder : CellStripeDecoder) (last : Instant) :
    List Bytes → List CellV2 → Prop
  | fresh (absent : decoder.stripes.lookup word.key = none)
      (unfinished : decoder.completed.lookup word.key = none) : Progress decoder last [] []
  | live (stripe : DecodeStripe) (held parity : List Nat) (seen : List Bytes)
      (found : decoder.stripes.lookup word.key = some stripe) (updated : stripe.updated = last)
      (holds : Holds word held parity stripe)
      (few : parity ≠ [] → held.length + parity.length < word.cells.length)
      (covered : ∀ bytes ∈ seen, Has word held parity bytes) :
      Progress decoder last seen (pick word.cells held)
  | done (seen : List Bytes) (cells : List CellV2)
      (tombstone : decoder.completed.lookup word.key = some ())
      (all : cells.Perm word.cells) : Progress decoder last seen cells

variable {seen : List Bytes} {cells : List CellV2}

theorem Progress.updated_eq {stripe : DecodeStripe}
    (progress : Progress word decoder last seen cells) (valid : DecoderInvariant decoder)
    (found : decoder.stripes.lookup word.key = some stripe) : stripe.updated = last := by
  cases progress with
  | fresh absent unfinished =>
    rw [absent] at found
    cases found
  | live old held parity _ lookedUp updated holds few covered =>
    obtain rfl := Option.some.inj (lookedUp.symm.trans found)
    exact updated
  | done _ _ tombstone all =>
    rw [valid.disjoint _ _ found] at tombstone
    cases tombstone

section
variable (promised : codec.Mds parityCells)
include promised

theorem pushStriped_progress {stripe : DecodeStripe} {held parity : List Nat} (now : Instant)
    (output : FecDecodeOutputV2) (valid : DecoderInvariant decoder)
    (live : decoder.stripes.lookup word.key = some stripe) (holds : Holds word held parity stripe)
    (enough : (word.datagrams.map length).sum ≤ decoder.maximumBufferedBytes)
    (covered : ∀ bytes ∈ seen, Has word held parity bytes) (shard : Shard word cell) :
    Returns (pushStriped codec decoder word.key (word.firstSequence, word.cells.length) cell
        cell.wire now output) fun (result, after) =>
      ∃ final added, result = .ok final ∧ final.cells = output.cells ++ added ∧
        SameLimits decoder after ∧
        Progress word after now (seen ++ [cell.wire]) (pick word.cells held ++ added) := by
  obtain ⟨⟨result, stored⟩, storeRun, afterStore⟩ :=
    store_collects holds valid live enough shard output
  obtain ⟨fresh, parity', stripe', middle, rfl, cells, limits, stillLive, grown, more, has⟩ :=
    afterStore
  have storedValid : DecoderInvariant stored := by
    obtain ⟨answer, run, kept⟩ := store_spec
      (word.firstSequence, word.cells.length) cell cell.wire output valid live
    obtain rfl := Except.ok.inj (storeRun.symm.trans run)
    exact kept.1
  have seenNow : ∀ bytes ∈ seen ++ [cell.wire], Has word (held ++ fresh) parity' bytes := by
    intro bytes member
    rcases mem_append.mp member with old | new
    · exact (covered bytes old).mono (subset_append_left _ _) more
    · rw [mem_singleton.mp new]
      exact has
  rw [pushStriped_eq_finish now storeRun]
  refine (finish_collects promised now middle storedValid stillLive grown).imp ?_
  rintro ⟨answer, after⟩ ⟨final, rfl, kept, outcome⟩
  rcases outcome with ⟨last, found, updated, still, few, same⟩ | ⟨tombstone, lost, places, out⟩
  · refine ⟨final, pick word.cells fresh, rfl, by rw [same, cells], limits.trans kept, ?_⟩
    rw [← pick_append]
    exact .live last (held ++ fresh) parity' _ found updated still few seenNow
  refine ⟨final, pick word.cells fresh ++ pick word.cells lost, rfl, ?_, limits.trans kept, ?_⟩
  · rw [out, cells, append_assoc]
  · refine .done _ _ tombstone ?_
    rw [← append_assoc, ← pick_append, ← pick_append]
    exact pick_all places

theorem pushAt_progress (valid : DecoderInvariant decoder)
    (epoch : decoder.sessionEpoch = word.identity.sessionEpoch)
    (enough : (word.datagrams.map length).sum ≤ decoder.maximumBufferedBytes)
    (young : ∀ stripe, decoder.stripes.lookup word.key = some stripe →
      now - stripe.updated < decoder.ttl)
    (progress : Progress word decoder last seen cells) (shard : Shard word cell) :
    Returns (decoder.pushAt codec cell.wire now) fun (result, after) =>
      ∃ final, result = .ok final ∧ SameLimits decoder after ∧
        Progress word after now (seen ++ [cell.wire]) (cells ++ final.cells) := by
  obtain ⟨core, evicted⟩ := expire_core decoder now valid.toDecoderCore
  have swept : DecoderInvariant (decoder.expire now).2 := ⟨core, evicted.budget valid.budget⟩
  have limits := evicted.sameLimits
  rw [pushAt_shard shard now epoch]
  generalize (decoder.expire now).1 = expired
  -- what the store and its end do with a stripe that was found or opened
  have opened : ∀ (stripe : DecodeStripe) (held parity : List Nat) (after : CellStripeDecoder),
      (∀ bytes ∈ seen, Has word held parity bytes) → cells = pick word.cells held →
      (decoder.expire now).2.completed.lookup word.key = none →
      (decoder.expire now).2.ensureStripe word.key now word.shim = (.ok (), after) →
      SameLimits (decoder.expire now).2 after → after.stripes.lookup word.key = some stripe →
      Holds word held parity stripe →
      Returns (pushCell codec (decoder.expire now).2 cell cell.wire now
          { expiredStripes := expired }) fun (result, after) =>
        ∃ final, result = .ok final ∧ SameLimits decoder after ∧
          Progress word after now (seen ++ [cell.wire]) (cells ++ final.cells) := by
    intro stripe held parity after covered out unfinished ensured same found holds
    obtain ⟨afterCore, bytes, maximum, -⟩ := ensureStripe_core
      core unfinished ensured
    have afterValid : DecoderInvariant after := ⟨afterCore, maximum ▸ bytes.trans swept.budget⟩
    have room : (word.datagrams.map length).sum ≤ after.maximumBufferedBytes := by
      rw [same.maximumBufferedBytes, limits.maximumBufferedBytes]
      exact enough
    rw [pushCell_open shard _ unfinished ensured, out]
    refine (pushStriped_progress promised now _ afterValid found holds room covered shard).imp ?_
    rintro ⟨result, final⟩ ⟨produced, added, rfl, produces, kept, next⟩
    refine ⟨produced, rfl, (limits.trans same).trans kept, ?_⟩
    rw [produces, nil_append]
    exact next
  cases progress with
  | fresh absent unfinished =>
    have still := HashMap.lookup_of_absent (evicted.stripes _) absent
    obtain ⟨after, ensured, same, found⟩ := ensureStripe_fresh now
      word.shim core still word.decodeStripeId_eq
    exact opened _ [] [] after (by simp) rfl (evicted.completed ▸ unfinished) ensured same found
      (.fresh now _)
  | live stripe held parity _ found updated holds few covered =>
    have still := expire_keeps decoder now word.key stripe found (young stripe found)
    have ensured : (decoder.expire now).2.ensureStripe word.key now word.shim =
        (.ok (), (decoder.expire now).2) := by
      simp [ensureStripe, still, holds.shim]
    exact opened stripe held parity _ covered rfl (core.disjoint _ _ still) ensured (.refl _) still
      holds
  | done _ _ tombstone all =>
  have kept : (decoder.expire now).2.completed.lookup word.key = some () := by
    rw [evicted.completed]
    exact tombstone
  rw [pushCell_late shard now _ kept]
  refine .ok ⟨_, rfl, limits, .done _ _ kept ?_⟩
  rw [lateOutput_cells, append_nil]
  exact all

/-- Any number of pushes, as long as the stripe does not get too old in between. -/
theorem pushAll_progress (arrivals : List (Bytes × Instant)) (decoder : CellStripeDecoder)
    (last : Instant) (seen : List Bytes) (cells : List CellV2) (valid : DecoderInvariant decoder)
    (epoch : decoder.sessionEpoch = word.identity.sessionEpoch)
    (enough : (word.datagrams.map length).sum ≤ decoder.maximumBufferedBytes)
    (shards : ∀ arrival ∈ arrivals, arrival.1 ∈ word.datagrams)
    (young : ∀ arrival ∈ arrivals.head?, ∀ stripe, decoder.stripes.lookup word.key = some stripe →
      arrival.2 - stripe.updated < decoder.ttl)
    (gaps : arrivals.IsChain fun earlier later => later.2 - earlier.2 < decoder.ttl)
    (progress : Progress word decoder last seen cells) :
    Returns (decoder.pushAll codec arrivals) fun (results, after) =>
      ∃ (outputs : List FecDecodeOutputV2) (last : Instant), results = outputs.map .ok ∧
        Progress word after last (seen ++ arrivals.map Prod.fst)
          (cells ++ outputs.flatMap FecDecodeOutputV2.cells) := by
  induction arrivals generalizing decoder last seen cells with
  | nil => exact .ok ⟨[], last, rfl, by simpa using progress⟩
  | cons arrival rest ih =>
  obtain ⟨bytes, now⟩ := arrival
  obtain ⟨cell, shard, wire⟩ := Shard.of_mem (shards (bytes, now) mem_cons_self)
  subst wire
  have pushed := pushAt_progress promised valid epoch enough
    (young (cell.wire, now) rfl) progress shard
  obtain ⟨⟨result, after⟩, run, final, rfl, limits, next⟩ := pushed
  have afterValid := pushAt_keeps valid run
  have youngNext : ∀ arrival ∈ rest.head?, ∀ stripe,
      after.stripes.lookup word.key = some stripe → arrival.2 - stripe.updated < after.ttl := by
    intro later isNext stripe found
    rw [next.updated_eq afterValid found, limits.ttl]
    obtain ⟨tail, rfl⟩ := head?_eq_some_iff.mp isNext
    exact (isChain_cons_cons.mp gaps).1
  obtain ⟨⟨results, finalState⟩, others, outputs, stamp, rfl, progress⟩ := ih after now
    (seen ++ [cell.wire]) (cells ++ final.cells) afterValid (limits.sessionEpoch.trans epoch)
    (limits.maximumBufferedBytes ▸ enough)
    (fun later member => shards later (mem_cons_of_mem _ member)) youngNext
    (limits.ttl ▸ gaps.tail) next
  refine ⟨_, pushAll_cons run others, final :: outputs, stamp, rfl, ?_⟩
  rw [append_assoc, append_assoc] at progress
  exact progress

end

/-- As many distinct datagrams as data Cells give the whole stripe. -/
theorem Progress.perm (progress : Progress word decoder last seen cells)
    (enough : word.cells.length ≤ seen.dedup.length) : cells.Perm word.cells := by
  cases progress with
  | fresh absent unfinished =>
    have least := word.range.1
    rw [dedup_nil, length_nil] at enough
    omega
  | live stripe held parity _ found updated holds few covered =>
    have shards : seen.dedup ⊆ pick (word.cells.map CellV2.wire) held ++
        pick word.parityWires parity := by
      intro bytes member
      rcases covered bytes (mem_dedup.mp member) with
        ⟨index, cell, isHeld, at_, rfl⟩ | ⟨index, recovery, isHeld, at_, rfl⟩
      · refine mem_append_left _ (mem_filterMap.mpr ⟨index, isHeld, ?_⟩)
        rw [getElem?_map, at_, Option.map_some]
      · refine mem_append_right _ (mem_filterMap.mpr ⟨index, isHeld, ?_⟩)
        rw [Codeword.parityWires, getElem?_mapIdx, at_, Option.map_some]
    have count := (subperm_of_subset (nodup_dedup seen) shards).length_le
    have data := length_filterMap_le (fun place => (word.cells.map CellV2.wire)[place]?) held
    have symbols := length_filterMap_le (fun place => word.parityWires[place]?) parity
    rw [length_append, pick, pick] at count
    have known : parity = [] := by
      by_contra some
      have less := few some
      omega
    rw [known, length_nil] at symbols
    exact pick_all (perm_range_of_length holds.nodup holds.inside (by rw [known] at count; omega))
  | done _ _ tombstone all => exact all

end Word

/-! ### Unprotected Cells -/

theorem pushAt_unstriped {decoder : CellStripeDecoder} {cell : CellV2}
    (now : Instant) (valid : cell.validate = .ok ()) (data : cell.kind = .data)
    (fits : cell.wire.length ≤ maxCellBytes) (unstriped : cell.stripeId = 0)
    (epoch : cell.sessionEpoch = decoder.sessionEpoch) :
    decoder.pushAt codec cell.wire now =
      .ok (.ok { expiredStripes := (decoder.expire now).1, cells := [cell] },
        (decoder.expire now).2) := by
  have decoded := (CellV2.decode_ok_iff _ _).mpr ⟨valid, rfl, fits⟩
  unfold CellV2.kind at data
  simp only [pushAt, decoded, if_pos epoch, if_pos unstriped]
  cases body : cell.body with
  | records segments => rfl
  | parity payload => simp [body] at data

/-- Without a stripe there is no memory: every copy is put out. -/
theorem pushAll_unstriped {cell : CellV2} (valid : cell.validate = .ok ())
    (data : cell.kind = .data) (fits : cell.wire.length ≤ maxCellBytes)
    (unstriped : cell.stripeId = 0) (arrivals : List (Bytes × Instant))
    (decoder : CellStripeDecoder) (core : DecoderCore decoder)
    (epoch : cell.sessionEpoch = decoder.sessionEpoch)
    (copies : ∀ arrival ∈ arrivals, arrival.1 = cell.wire) :
    Returns (decoder.pushAll codec arrivals) fun (results, _) =>
      ∃ outputs : List FecDecodeOutputV2, results = outputs.map .ok ∧
        outputs.map FecDecodeOutputV2.cells = arrivals.map fun _ => [cell] := by
  induction arrivals generalizing decoder with
  | nil => exact .ok ⟨[], rfl, rfl⟩
  | cons arrival rest ih =>
  obtain ⟨bytes, now⟩ := arrival
  have same : bytes = cell.wire := copies (bytes, now) mem_cons_self
  subst same
  obtain ⟨swept, evicted⟩ := expire_core decoder now core
  obtain ⟨⟨results, final⟩, others, outputs, rfl, cells⟩ := ih _ swept
    (epoch.trans evicted.sessionEpoch.symm) fun later member =>
      copies later (mem_cons_of_mem _ member)
  have first : decoder.pushAt codec cell.wire now = _ :=
    pushAt_unstriped now valid data fits unstriped epoch
  exact ⟨_, pushAll_cons first others, _ :: outputs, rfl, by rw [map_cons, map_cons, cells]⟩

/-! ### The whole path -/

/-- The Cells of a stripe as the encoder sends them: under the id of their stripe, which is zero
for a single Cell. -/
def joined (stripe : List CellV2) : List CellV2 :=
  match stripe with
  | first :: _ :: _ =>
    stripe.map (inStripe ((encodeStripeId first.cellSequence stripe.length).toOption.getD 0))
  | _ => stripe

/-- The decoder of the session is in a state that its calls can reach (see `run_invariant`), has not
met the stripe yet, and has a byte budget for the whole stripe. -/
structure Ready (decoder : CellStripeDecoder) (context : TrainContext) (stripe : List CellV2)
    (output : EncodedTrainV2) : Prop where
  invariant : DecoderInvariant decoder
  epoch : decoder.sessionEpoch = context.sessionEpoch
  absent : ∀ cell ∈ joined stripe, decoder.stripes.lookup (StripeKey.fromCell cell) = none
  unfinished : ∀ cell ∈ joined stripe, decoder.completed.lookup (StripeKey.fromCell cell) = none
  budget : (output.ordered.map fun datagram => datagram.bytes.length).sum ≤
    decoder.maximumBufferedBytes

/-- The arrivals are datagrams of the stripe behind the same number of hops, less than a stripe
lifetime apart. -/
structure Arriving (ttl : Duration) (count : Nat) (output : EncodedTrainV2)
    (arrivals : List (Bytes × Instant)) : Prop where
  datagrams : ∀ arrival ∈ arrivals, ∃ datagram ∈ output.ordered,
    advanceHops count datagram.bytes = .ok arrival.1
  gaps : arrivals.IsChain fun earlier later => later.2 - earlier.2 < ttl

/-- Every push succeeds. A single Cell is put out for every copy that arrives; of two or more Cells
each one is put out once, when at least as many distinct datagrams arrived. -/
def Recovers (codec : ErasureCodec) (context : TrainContext) (stripe : List CellV2)
    (output : EncodedTrainV2) : Prop :=
  ∀ (decoder : CellStripeDecoder) (count : Nat) (arrivals : List (Bytes × Instant)),
    Ready decoder context stripe output → Arriving decoder.ttl count output arrivals →
    ∃ (outputs : List FecDecodeOutputV2) (after : CellStripeDecoder),
      decoder.pushAll codec arrivals = .ok (outputs.map .ok, after) ∧
      (∀ cell, stripe = [cell] →
        outputs.map FecDecodeOutputV2.cells = arrivals.map fun _ => [cell.hop count]) ∧
      (2 ≤ stripe.length → stripe.length ≤ (arrivals.map Prod.fst).dedup.length →
        (outputs.flatMap FecDecodeOutputV2.cells).Perm
          ((joined stripe).map fun cell => cell.hop count))

variable {context : TrainContext}

theorem singleOutput_recovers {cell : CellV2} {pathMaximum : Nat}
    (path : pathMaximum ≤ maxCellBytes) (own : TrainIdentity.ofCell cell = trainIdentity context)
    (valid : cell.validate = .ok ()) (data : cell.kind = .data) (unstriped : cell.stripeId = 0)
    (fits : cell.wire.length ≤ pathMaximum) :
    Recovers codec context [cell] (singleOutput cell) := by
  intro decoder count arrivals ready arriving
  have short : cell.wire.length ≤ maxCellBytes := fits.trans path
  have same : cell.sessionEpoch = decoder.sessionEpoch :=
    (congrArg TrainIdentity.sessionEpoch own).trans ready.epoch.symm
  have copies : ∀ arrival ∈ arrivals, count < cell.overlayHopLimit.toNat ∧
      arrival.1 = (cell.hop count).wire := by
    intro arrival member
    obtain ⟨datagram, sent, advanced⟩ := arriving.datagrams arrival member
    obtain rfl : datagram = { bytes := cell.wire, recovery := false } := by
      simpa [singleOutput, dataDatagrams] using sent
    exact (advanceHops_ok_iff cell count arrival.1 valid short).mp advanced
  cases arrivals with
  | nil => exact ⟨[], decoder, rfl, fun _ _ => rfl, fun several => by simp at several⟩
  | cons first rest =>
  have enough := (copies first mem_cons_self).1
  have size : (cell.hop count).wire.length ≤ maxCellBytes := by
    rw [CellV2.hop, CellV2.withShim_wire_length]
    exact short
  obtain ⟨⟨results, after⟩, run, outputs, rfl, cells⟩ := pushAll_unstriped
    (cell.hop_validate count valid enough) data size unstriped (first :: rest) decoder
    ready.invariant.toDecoderCore same (fun arrival member => (copies arrival member).2)
  refine ⟨outputs, after, run, ?_, fun several => by simp at several⟩
  intro only isCell
  obtain rfl : cell = only := by simpa using isCell
  exact cells

theorem codeword_recovers {parityCells : Nat} {stripe : List CellV2}
    (promised : codec.Mds parityCells) {word : Codeword codec parityCells}
    (own : word.identity = trainIdentity context)
    (cells : word.cells = stripe.map (inStripe word.stripeId)) :
    Recovers codec context stripe word.output := by
  intro decoder count arrivals ready arriving
  have length : word.cells.length = stripe.length := by rw [cells, length_map]
  have several := word.range.1
  have joinedIs : joined stripe = word.cells := by
    match stripe, cells, length with
    | [], _, length => simp [length] at several
    | [_], _, length => simp [length] at several
    | first :: second :: rest, cells, length =>
      have begin := word.sequence 0 (inStripe word.stripeId first) (by rw [cells]; rfl)
      have sequence : first.cellSequence = word.firstSequence := by
        rw [← UInt16.toNat_inj]
        exact begin
      have named := word.named
      rw [length] at named
      simp only [joined, sequence, named, Except.toOption, Option.getD_some]
      exact cells.symm
  have isWord : ∀ datagram ∈ word.output.ordered, datagram.bytes ∈ word.datagrams := by
    intro datagram member
    rw [← word.output_bytes]
    exact mem_map_of_mem member
  have budget : (word.datagrams.map List.length).sum ≤ decoder.maximumBufferedBytes := by
    have total := ready.budget
    rw [← word.output_bytes, map_map]
    exact total
  have notSingle : ∀ cell, stripe ≠ [cell] := by
    rintro cell rfl
    simp [length] at several
  obtain ⟨cell, member⟩ := word.exists_cell
  cases arrivals with
  | nil =>
    refine ⟨[], decoder, rfl, fun cell only => absurd only (notSingle cell), fun _ enough => ?_⟩
    simp only [map_nil, dedup_nil, length_nil] at enough
    omega
  | cons first rest =>
  -- something arrived, so the hop limit lasts
  have enough : count < word.identity.overlayHopLimit.toNat := by
    obtain ⟨datagram, sent, advanced⟩ := arriving.datagrams first mem_cons_self
    obtain ⟨shardCell, shard, wire⟩ := Shard.of_mem (isWord datagram sent)
    obtain ⟨valid, -, fits⟩ := (CellV2.decode_ok_iff _ _).mp shard.decoded
    rw [wire] at advanced
    have limit := ((advanceHops_ok_iff shardCell count first.1 valid fits).mp advanced).1
    have hops : shardCell.overlayHopLimit = word.identity.overlayHopLimit :=
      congrArg Prod.fst shard.shim_eq
    rwa [hops] at limit
  have sizes : ((word.hop count enough).datagrams.map List.length).sum ≤
      decoder.maximumBufferedBytes := by
    rw [word.hop_datagrams_length enough]
    exact budget
  have shards : ∀ arrival ∈ first :: rest, arrival.1 ∈ (word.hop count enough).datagrams := by
    intro arrival isArrival
    obtain ⟨datagram, sent, advanced⟩ := arriving.datagrams arrival isArrival
    exact word.mem_datagrams_hop enough (isWord datagram sent) advanced
  have epoch : decoder.sessionEpoch = (word.hop count enough).identity.sessionEpoch := by
    rw [ready.epoch]
    exact (congrArg TrainIdentity.sessionEpoch own).symm
  have key : StripeKey.fromCell cell = (word.hop count enough).key := word.fromCell_eq member
  have absent := ready.absent cell (joinedIs ▸ member)
  have unfinished := ready.unfinished cell (joinedIs ▸ member)
  rw [key] at absent unfinished
  obtain ⟨⟨results, after⟩, run, outputs, last, rfl, progress⟩ := pushAll_progress promised
    (first :: rest) decoder 0 [] [] ready.invariant epoch sizes shards
    (fun arrival _ stripe found => by
      rw [absent] at found
      cases found) arriving.gaps (.fresh absent unfinished)
  refine ⟨outputs, after, run, fun cell only => absurd only (notSingle cell), fun _ distinct => ?_⟩
  rw [joinedIs]
  have count : (word.hop _ enough).cells.length = stripe.length := by
    rw [← length]
    exact length_map _
  exact progress.perm (by rw [count]; exact distinct)

/-- A train that was built for the protected maximum is encoded into datagrams of at most the path
maximum, stripe by stripe, and every stripe is recovered from as many distinct datagrams as it has
data Cells. A single Cell at the end of a train has no parity and no stripe, so the decoder puts it
out for every copy. -/
theorem stripe_recovery (codec : ErasureCodec) (geometry : FecGeometryV2) (pathMaximum : Nat)
    (context : TrainContext) (records : List TrainRecord) (train : PacketTrain)
    (promised : codec.Mds geometry.parityCells) (valid : geometry.validate = .ok ())
    (parity : 0 < geometry.parityCells) (path : pathMaximum ≤ maxCellBytes)
    (maximum : protectedCellMaximum pathMaximum geometry.dataCells =
      .ok context.maximumDatagramSize) (built : buildPacketTrain context records = .ok train) :
    ∃ encoded outputs,
      CellStripeEncoder.encode codec { geometry } train.cells pathMaximum = .ok encoded ∧
      encoded.ordered = outputs.flatMap EncodedTrainV2.ordered ∧
      (∀ datagram ∈ encoded.ordered, datagram.bytes.length ≤ pathMaximum) ∧
      List.Forall₂ (Recovers codec context) (chunks geometry.dataCells train.cells) outputs := by
  obtain ⟨outputs, stripes, run⟩ := encode_spec promised valid parity path maximum built
  have ordered := foldl_append_ordered outputs {}
  refine ⟨_, outputs, run, ordered, ?_, ?_⟩
  · intro datagram member
    rw [ordered] at member
    obtain ⟨output, isOutput, inside⟩ := mem_flatMap.mp member
    obtain ⟨index, found⟩ := mem_iff_getElem?.mp isOutput
    obtain ⟨bound, rfl⟩ := List.getElem?_eq_some_iff.mp found
    have made := (forall₂_iff_get.mp stripes).2 index (stripes.length_eq ▸ bound) bound
    exact made.short datagram inside
  refine stripes.imp fun stripe output made => ?_
  cases made with
  | single cell own sound data unstriped fits =>
    exact singleOutput_recovers path own sound data unstriped fits
  | striped _ word own cells fits => exact codeword_recovers promised own cells

/-- Cells of sixty bytes, so that parity fits a path of 113 bytes. -/
def smallContext : TrainContext where
  class' := .bulk
  sessionEpoch := 1
  routeLabel := 2
  overlayHopLimit := 8
  trainId := 3
  maximumDatagramSize := 60
  maximumCells := 4

def pairGeometry : FecGeometryV2 := { dataCells := 2, parityCells := 1 }

def trainOf (context : TrainContext) (records : List TrainRecord) : PacketTrain :=
  (buildPacketTrain context records).toOption.getD { cells := [], stats := {} }

/-- Three Cells: a stripe of two and a Cell at the end. -/
def threeCells : List TrainRecord :=
  [{ recordId := 1, metadata := [], data := List.replicate 10 7 },
    { recordId := 2, metadata := [], data := [9] }]

theorem threeCells_evaluated : (buildPacketTrain smallContext threeCells).toOption.isSome ∧
      (chunks 2 (trainOf smallContext threeCells).cells).map length = [2, 1] := by
  constructor <;> decide +kernel

theorem threeCells_built :
    buildPacketTrain smallContext threeCells = .ok (trainOf smallContext threeCells) := by
  exact eq_ok_getD _ threeCells_evaluated.1

theorem stripe_recovery_pair :
    buildPacketTrain smallContext threeCells = .ok (trainOf smallContext threeCells) ∧
      (chunks 2 (trainOf smallContext threeCells).cells).map List.length = [2, 1] ∧
      ∃ encoded outputs,
        CellStripeEncoder.encode ErasureCodec.xorCodec { geometry := pairGeometry }
          (trainOf smallContext threeCells).cells 113 = .ok encoded ∧
        encoded.ordered = outputs.flatMap EncodedTrainV2.ordered ∧
        (∀ datagram ∈ encoded.ordered, datagram.bytes.length ≤ 113) ∧
        List.Forall₂ (Recovers xorCodec smallContext)
          (chunks 2 (trainOf smallContext threeCells).cells) outputs :=
  ⟨threeCells_built, threeCells_evaluated.2,
    stripe_recovery xorCodec pairGeometry 113 smallContext threeCells _
      xorCodec_mds rfl (by decide) (by decide) rfl threeCells_built⟩

def oneCell : List TrainRecord := [{ recordId := 1, metadata := [], data := [9] }]

def loneCell : CellV2 where
  class' := .bulk
  flags := flagTrainStart ||| flagTrainEnd
  sessionEpoch := 1
  routeLabel := 2
  trainId := 3
  cellSequence := 0
  stripeId := 0
  overlayHopLimit := 8
  overlayHops := 0
  body := .records [{
    kind := .full
    flags := 0
    recordId := 1
    totalLen := 1
    offset := 0
    metadata := []
    data := [9] }]

def idleDecoder (maximumBufferedBytes : Nat) : CellStripeDecoder :=
  { sessionEpoch := 1, ttl := 1000, maximumStripes := 4, maximumBufferedBytes }

def pushedCells (decoder : CellStripeDecoder) (datagrams : List Bytes) :
    Except Panic (List (Except String (List CellV2))) :=
  (decoder.pushAll ErasureCodec.xorCodec (datagrams.map fun bytes => (bytes, 0))).map
    fun answer => answer.1.map (Except.map FecDecodeOutputV2.cells)

/-- The limits of recovery. A copy of an unprotected Cell is put out again; a path of more than the
largest Cell has a protected maximum, but no datagram can be encoded for it; and a decoder whose
budget is smaller than a datagram of the stripe fails. -/
theorem recovery_limits :
    ((buildPacketTrain smallContext oneCell).map PacketTrain.cells = .ok [loneCell] ∧
      CellStripeEncoder.encode ErasureCodec.xorCodec { geometry := pairGeometry } [loneCell] 113 =
        .ok (singleOutput loneCell) ∧
      pushedCells (idleDecoder 4096) [loneCell.wire, loneCell.wire] =
        .ok [.ok [loneCell], .ok [loneCell]]) ∧
    (protectedCellMaximum 65536 pairGeometry.dataCells = .ok 65483 ∧
      (buildPacketTrain { smallContext with maximumDatagramSize := 65483 } oneCell).bind
          (fun train => encode xorCodec { geometry := pairGeometry }
            train.cells 65536) = .error "invalid V2 cell maximum") ∧
    (encode xorCodec { geometry := pairGeometry }
        (trainOf smallContext threeCells).cells 113).toOption.map
          (fun encoded => pushedCells (idleDecoder 16) (encoded.systematic.take 2)) =
      some (.ok [.error "V2 FEC buffered byte limit exceeded",
        .error "V2 FEC buffered byte limit exceeded"]) := by
  refine ⟨⟨?_, ?_, ?_⟩, ⟨?_, ?_⟩, ?_⟩ <;> decide +kernel

end Ironet.Fec
