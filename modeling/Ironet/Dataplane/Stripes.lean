import Ironet.Dataplane.Receive
import Ironet.Fec.Recovery
import Ironet.Reassembly.Sharing

/-!
# A stripe at the receiver

The way of the datagrams of one protected stripe through `V2Rx`: the decoder of the epoch collects
them and hands data Cells to the reassembly table, which refuses none of them. Looking for Repair
candidates in between changes nothing but a mark.
-/
namespace Ironet.Dataplane
open Support Cell Train Fec Reassembly Repair V2Rx CellV2 List

/-! ### Traces -/

/-- Accept datagrams one after the other, whatever the calls return. -/
def V2Rx.acceptAll (codec : ErasureCodec) : V2Rx → List (Bytes × Ambient) →
    Except Panic (List (Except String ReassemblyOutput) × V2Rx)
  | self, [] => .ok ([], self)
  | self, (bytes, ambient) :: rest => do
    let (result, self) ← self.acceptDatagram codec ambient bytes
    let (results, self) ← self.acceptAll codec rest
    .ok (result :: results, self)

/-- The Cells that a datagram brings to the reassembly table of its epoch. -/
def V2Rx.handed (codec : ErasureCodec) (self : V2Rx) (ambient : Ambient) (bytes : Bytes) :
    List CellV2 :=
  match decode bytes with
  | .error _ => []
  | .ok cell =>
    match self.epochs.lookup cell.sessionEpoch with
    | none => []
    | some { fecDecoder := none, .. } => [cell]
    | some { fecDecoder := some decoder, .. } =>
      match decoder.pushAt codec bytes ambient.now with
      | .ok (.ok decoded, _) => decoded.cells
      | _ => []

/-- The Cells that datagrams bring to the table, up to the first that fails. -/
def V2Rx.handedAll (codec : ErasureCodec) : V2Rx → List (Bytes × Ambient) → List CellV2
  | _, [] => []
  | self, (bytes, ambient) :: rest =>
    match self.acceptDatagram codec ambient bytes with
    | .ok (.ok _, after) => self.handed codec ambient bytes ++ after.handedAll codec rest
    | _ => []

variable {codec : ErasureCodec}

/-- The loop over repaired Cells is the same as accepting them, as long as nothing fails. -/
theorem acceptRepairedCells_of_acceptAll (arrivals : List (Bytes × Ambient)) (rx after : V2Rx)
    (outputs : List ReassemblyOutput) (combined : ReassemblyOutput)
    (run : rx.acceptAll codec arrivals = .ok (outputs.map .ok, after)) :
    rx.acceptRepairedCells codec arrivals combined =
      .ok (.ok (outputs.foldl ReassemblyOutput.merge combined), after) := by
  induction arrivals generalizing rx outputs combined with
  | nil =>
    obtain ⟨none, rfl⟩ := ok_pair_inj run
    obtain rfl : outputs = [] := map_eq_nil_iff.mp none.symm
    rfl
  | cons arrival rest ih =>
  simp only [V2Rx.acceptAll, bind_eq_ok] at run
  obtain ⟨⟨result, next⟩, first, ⟨results, final⟩, others, answer⟩ := run
  obtain ⟨shape, rfl⟩ := ok_pair_inj answer
  cases outputs with
  | nil => cases shape
  | cons output later =>
    obtain ⟨rfl, rfl⟩ := List.cons.inj shape
    simp only [acceptRepairedCells, first, ok_bind, foldl_cons]
    exact ih next later _ others

/-! ### Cells of the train -/

/-- The Cell is one of the train, up to its stripe and its hop fields. -/
def FromTrain (train : PacketTrain) (cell : CellV2) : Prop :=
  ∃ original ∈ train.cells, ∃ stripeId limit hops, cell =
    { original with stripeId, overlayHopLimit := limit, overlayHops := hops }

theorem acceptAt_relabelled (table : ReassemblyTableV2) (order : TrainOrder) (cell : CellV2)
    (now : Instant) (stripeId : UInt32) (limit hops : UInt8) :
    table.acceptAt order { cell with stripeId, overlayHopLimit := limit, overlayHops := hops } now =
      table.acceptAt order cell now := rfl

variable {cell : CellV2}

variable {train : PacketTrain} {key : TrainKey} {table : ReassemblyTableV2} {bytes : Bytes}

theorem bodyBytes_le (decoded : decode bytes = .ok cell) :
    ReassemblyTableV2.bodyBytes cell.body ≤ Cell.maxRecordBytes := by
  obtain ⟨-, rfl, fits⟩ := (decode_ok_iff _ _).mp decoded
  rw [wire_length] at fits
  have inside : ReassemblyTableV2.bodyBytes cell.body ≤ cell.body.payloadLen := by
    cases cell.body with
    | parity payload => exact Nat.zero_le _
    | records segments =>
      refine sum_le_sum fun segment _ => ?_
      simp only [RecordSegment.wireLen]
      omega
  unfold maxCellBytes at fits
  unfold Cell.maxRecordBytes
  omega

/-- What the table of an epoch needs to take the Cells of a train. -/
structure Collecting (train : PacketTrain) (key : TrainKey) (table : ReassemblyTableV2) : Prop where
  invariant : TableInvariant table
  epoch : table.limits.sessionEpoch = key.sessionEpoch
  admits : Admits train table.limits.perTrain
  consistent : Consistent train key table

theorem Collecting.acceptAt (collecting : Collecting train key table) (order : TrainOrder)
    (now : Instant) (keyed : ∀ cell ∈ train.cells, trainKey cell = key)
    (decoded : decode bytes = .ok cell) (fromTrain : FromTrain train cell) :
    ∃ output after, table.acceptAt order cell now = (.ok output, after) ∧
      Collecting train key after := by
  have valid := (acceptAt_invariant order ⟨cell, bytes, decoded⟩ now collecting.invariant).1
  have small : ReassemblyTableV2.bodyBytes cell.body ≤ table.limits.maximumBufferedBytes := by
    have least := collecting.invariant.limits
    simp only [ReassemblyTableLimits.validate, do_eq_ok] at least
    exact (bodyBytes_le decoded).trans least.2.2.1
  obtain ⟨original, member, stripeId, limit, hops, rfl⟩ := fromTrain
  rw [acceptAt_relabelled] at valid ⊢
  have isKey := keyed original member
  have epoch : original.sessionEpoch = table.limits.sessionEpoch :=
    (congrArg TrainKey.sessionEpoch isKey).trans collecting.epoch.symm
  obtain ⟨output, after, run, limits, consistent⟩ := acceptAt_consistent order now collecting.admits
    collecting.invariant (isKey ▸ collecting.consistent) member epoch small
  rw [run] at valid
  exact ⟨output, after, run, valid, limits ▸ collecting.epoch, limits ▸ collecting.admits,
    isKey ▸ consistent⟩

variable (ambient : Ambient)

theorem Collecting.acceptCells (keyed : ∀ cell ∈ train.cells, trainKey cell = key)
    (cells : List CellV2) (combined : ReassemblyOutput) (table : ReassemblyTableV2)
    (collecting : Collecting train key table)
    (each : ∀ cell ∈ cells, decode cell.wire = .ok cell ∧ FromTrain train cell) :
    ∃ output after, V2Rx.acceptCells ambient cells combined table = (.ok output, after) ∧
      Collecting train key after := by
  induction cells generalizing combined table with
  | nil => exact ⟨combined, table, rfl, collecting⟩
  | cons cell rest ih =>
  obtain ⟨decoded, fromTrain⟩ := each cell mem_cons_self
  obtain ⟨output, next, run, kept⟩ :=
    collecting.acceptAt ambient.trains ambient.now keyed decoded fromTrain
  obtain ⟨final, after, others, last⟩ := ih (combined.merge output) next kept
    fun later member => each later (mem_cons_of_mem _ member)
  exact ⟨final, after, by simp only [V2Rx.acceptCells, run, others], last⟩

/-! ### Datagrams of a stripe -/

theorem wire_not_cover (cell : CellV2) : CoverPaddingV2.isRecord cell.wire = false := by
  have front : cell.wire.take 4 = magic := by
    simp [wire, encodeContiguousWithHeader, encodeHeader, magic]
  rw [CoverPaddingV2.isRecord, front]
  decide

/-- The way of a Cell with a stripe id through an epoch with a decoder. -/
theorem acceptDatagram_striped {rx : V2Rx} {decoder : CellStripeDecoder}
    (decoded : decode cell.wire = .ok cell) (striped : cell.stripeId ≠ 0)
    (short : cell.wire.length ≤ rx.negotiated.limits.maxDatagramSize.toNat)
    (active : rx.epochs.lookup cell.sessionEpoch =
      some { reassembly := table, fecDecoder := some decoder }) :
    rx.acceptDatagram codec ambient cell.wire =
      (do
        let (result, state) ← acceptStriped codec ambient table decoder cell.wire
        .ok (result, { rx with epochs := rx.epochs.insert cell.sessionEpoch state })) := by
  obtain ⟨valid, -, fits⟩ := (decode_ok_iff _ _).mp decoded
  have header := cell.decode_header valid fits
  have stripeId : cell.routeHeader.stripeId ≠ 0 := striped
  have found : rx.epochs.lookup cell.routeHeader.sessionEpoch =
      some { reassembly := table, fecDecoder := some decoder } := active
  simp only [acceptDatagram, if_neg (Nat.not_lt.mpr short), wire_not_cover, Bool.false_eq_true,
    if_false, header, acceptRoutedDatagram, found, acceptInEpoch, if_neg stripeId]
  rfl

/-- Put other receive state into an epoch. -/
def V2Rx.setEpoch (rx : V2Rx) (epoch : UInt32) (table : ReassemblyTableV2)
    (decoder : CellStripeDecoder) : V2Rx :=
  { rx with epochs := rx.epochs.insert epoch { reassembly := table, fecDecoder := some decoder } }

section Word

variable {codec : ErasureCodec} {parityCells : Nat} {word : Codeword codec parityCells}
  {train : PacketTrain} {key : TrainKey} {rx : V2Rx} {table : ReassemblyTableV2}
  {decoder : CellStripeDecoder}

variable (word train key) in
/-- The receiver has an epoch with a decoder for the stripe, and every datagram of the stripe keeps
to the limits. -/
structure Listening (rx : V2Rx) (table : ReassemblyTableV2) (decoder : CellStripeDecoder) :
    Prop where
  active : rx.epochs.lookup word.identity.sessionEpoch =
    some { reassembly := table, fecDecoder := some decoder }
  collecting : Collecting train key table
  keyed : ∀ cell ∈ train.cells, trainKey cell = key
  fromTrain : ∀ cell ∈ word.cells, FromTrain train cell
  valid : DecoderInvariant decoder
  epoch : decoder.sessionEpoch = word.identity.sessionEpoch
  budget : (word.datagrams.map List.length).sum ≤ decoder.maximumBufferedBytes
  short : ∀ bytes ∈ word.datagrams, bytes.length ≤ rx.negotiated.limits.maxDatagramSize.toNat

variable {last : Instant} {seen : List Bytes} {cells : List CellV2}

theorem progress_cells (progress : Progress word decoder last seen cells) :
    ∀ cell ∈ cells, cell ∈ word.cells := by
  cases progress with
  | fresh absent unfinished => exact fun cell member => (not_mem_nil member).elim
  | live stripe held parity _ found updated holds few covered =>
    intro cell member
    obtain ⟨index, -, place⟩ := mem_filterMap.mp member
    exact mem_of_getElem? place
  | done _ _ tombstone all => exact fun cell member => all.mem_iff.mp member

theorem Shard.mem (shard : Shard word cell) : cell.wire ∈ word.datagrams := by
  refine word.mem_datagrams.mpr ?_
  cases shard with
  | data index _ found => exact .inl ⟨index, cell, found, rfl⟩
  | parity index recovery found => exact .inr ⟨index, recovery, found, rfl⟩

theorem Shard.striped (shard : Shard word cell) : cell.stripeId ≠ 0 := by
  rw [shard.stripeId_eq]
  exact word.stripeId_ne_zero

theorem acceptDatagram_progress (promised : codec.Mds parityCells) {ambient : Ambient}
    (listening : Listening word train key rx table decoder)
    (young : ∀ stripe, decoder.stripes.lookup word.key = some stripe →
      ambient.now - stripe.updated < decoder.ttl)
    (progress : Progress word decoder last seen cells) (shard : Shard word cell) :
    ∃ output table' decoder',
      rx.acceptDatagram codec ambient cell.wire =
        .ok (.ok output, rx.setEpoch word.identity.sessionEpoch table' decoder') ∧
      Collecting train key table' ∧ DecoderInvariant decoder' ∧ SameLimits decoder decoder' ∧
      Progress word decoder' ambient.now (seen ++ [cell.wire])
        (cells ++ rx.handed codec ambient cell.wire) := by
  have pushed := pushAt_progress promised listening.valid listening.epoch
    listening.budget young progress shard
  obtain ⟨⟨result, decoder'⟩, run, final, rfl, limits, next⟩ := pushed
  have active := listening.active
  rw [← shard.epoch_eq] at active
  have handed : rx.handed codec ambient cell.wire = final.cells := by
    simp only [V2Rx.handed, shard.decoded, active, run]
  -- what the decoder puts out goes to the table
  have own : ∀ other ∈ final.cells, decode other.wire = .ok other ∧
      FromTrain train other := by
    intro other member
    have isCell := progress_cells next other (mem_append_right _ member)
    exact ⟨word.decode_wire isCell, listening.fromTrain other isCell⟩
  obtain ⟨output, table', accepts, collecting⟩ := listening.collecting.acceptCells ambient
    listening.keyed final.cells { fec := fecStats final } table own
  refine ⟨output, table', decoder', ?_, collecting, pushAt_keeps listening.valid run, limits, ?_⟩
  · rw [acceptDatagram_striped ambient shard.decoded (Shard.striped shard)
      (listening.short _ (Shard.mem shard)) active]
    simp only [acceptStriped, run, ok_bind, accepts, shard.epoch_eq, V2Rx.setEpoch]
  · rw [handed]
    exact next

theorem Listening.next {table' : ReassemblyTableV2} {decoder' : CellStripeDecoder}
    (listening : Listening word train key rx table decoder)
    (collecting : Collecting train key table') (valid : DecoderInvariant decoder')
    (limits : SameLimits decoder decoder') :
    Listening word train key (rx.setEpoch word.identity.sessionEpoch table' decoder') table'
      decoder' where
  active := AList.lookup_insert _
  collecting := collecting
  keyed := listening.keyed
  fromTrain := listening.fromTrain
  valid := valid
  epoch := limits.sessionEpoch.trans listening.epoch
  budget := by
    rw [limits.maximumBufferedBytes]
    exact listening.budget
  short := listening.short

/-- Nothing but the epoch of the stripe changed. -/
structure OnlyEpoch (epoch : UInt32) (before after : V2Rx) : Prop where
  others : ∀ other, other ≠ epoch → after.epochs.lookup other = before.epochs.lookup other
  negotiated : after.negotiated = before.negotiated

/-- Any number of datagrams of the stripe, as long as it does not get too old in between. -/
theorem acceptAll_progress (promised : codec.Mds parityCells) (arrivals : List (Bytes × Ambient))
    (rx : V2Rx) (table : ReassemblyTableV2) (decoder : CellStripeDecoder) (last : Instant)
    (seen : List Bytes) (cells : List CellV2)
    (listening : Listening word train key rx table decoder)
    (shards : ∀ arrival ∈ arrivals, arrival.1 ∈ word.datagrams)
    (young : ∀ arrival ∈ arrivals.head?, ∀ stripe,
      decoder.stripes.lookup word.key = some stripe → arrival.2.now - stripe.updated < decoder.ttl)
    (gaps : (arrivals.map fun arrival => arrival.2.now).IsChain fun earlier later =>
      later - earlier < decoder.ttl) (progress : Progress word decoder last seen cells) :
    ∃ (outputs : List ReassemblyOutput) (after : V2Rx) (table' : ReassemblyTableV2)
      (decoder' : CellStripeDecoder) (last' : Instant),
      rx.acceptAll codec arrivals = .ok (outputs.map .ok, after) ∧
      Listening word train key after table' decoder' ∧ SameLimits decoder decoder' ∧
      OnlyEpoch word.identity.sessionEpoch rx after ∧
      last' = (arrivals.getLast?.elim last fun arrival => arrival.2.now) ∧
      Progress word decoder' last' (seen ++ arrivals.map Prod.fst)
        (cells ++ rx.handedAll codec arrivals) := by
  induction arrivals generalizing rx table decoder last seen cells with
  | nil =>
    refine ⟨[], rx, table, decoder, last, rfl, listening, .refl _, ⟨fun _ _ => rfl, rfl⟩, rfl, ?_⟩
    simpa [V2Rx.handedAll] using progress
  | cons arrival rest ih =>
  obtain ⟨bytes, ambient⟩ := arrival
  obtain ⟨cell, shard, wire⟩ := Shard.of_mem (shards (bytes, ambient) mem_cons_self)
  subst wire
  obtain ⟨output, table', decoder', run, collecting, valid, limits, next⟩ :=
    acceptDatagram_progress promised listening (young (cell.wire, ambient) rfl) progress
      shard
  have still := listening.next collecting valid limits
  have youngNext : ∀ arrival ∈ rest.head?, ∀ stripe,
      decoder'.stripes.lookup word.key = some stripe →
      arrival.2.now - stripe.updated < decoder'.ttl := by
    intro later isNext stripe found
    rw [next.updated_eq valid found, limits.ttl]
    obtain ⟨tail, rfl⟩ := head?_eq_some_iff.mp isNext
    exact (isChain_cons_cons.mp gaps).1
  obtain ⟨outputs, after, table'', decoder'', last', others, final, same, only, stamp, made⟩ :=
    ih _ table' decoder' ambient.now (seen ++ [cell.wire]) _ still
      (fun later member => shards later (mem_cons_of_mem _ member)) youngNext
      (limits.ttl ▸ gaps.tail) next
  refine ⟨output :: outputs, after, table'', decoder'', last', ?_, final, limits.trans same, ?_,
    ?_, ?_⟩
  · simp only [V2Rx.acceptAll, run, ok_bind, others, map_cons]
  · refine ⟨fun other different => ?_, ?_⟩
    · rw [only.others other different]
      exact AList.lookup_insert_ne different
    · exact only.negotiated
  · rw [stamp, getLast?_cons]
    cases rest.getLast? <;> rfl
  · simpa [V2Rx.handedAll, run] using made

end Word

/-! ### Looking for Repair candidates -/

/-- What holds of every epoch, and survives the search in its decoder, still holds behind the
search; and what the search in one decoder finds is all that it finds. -/
theorem gatherCandidates_keeps (good : UInt32 → RxEpochState → Prop) (fine : MissingStripeV2 → Prop)
    (ambient : Ambient) (minimumAge : Duration)
    (step : ∀ epoch reassembly decoder, good epoch { reassembly, fecDecoder := some decoder } →
      good epoch ⟨reassembly,
          some (decoder.repairCandidates ambient.stripes ambient.now minimumAge).2⟩ ∧
        ∀ candidate ∈ (decoder.repairCandidates ambient.stripes ambient.now minimumAge).1,
          fine candidate)
    (order : List UInt32) (epochs : HashMap UInt32 RxEpochState)
    (all : ∀ epoch state, epochs.lookup epoch = some state → good epoch state) :
    (∀ epoch state, (gatherCandidates ambient minimumAge order epochs).2.lookup epoch = some state →
        good epoch state) ∧
      (∀ epoch, ((gatherCandidates ambient minimumAge order epochs).2.lookup epoch).isSome =
        (epochs.lookup epoch).isSome) ∧
      ∀ candidate ∈ (gatherCandidates ambient minimumAge order epochs).1, fine candidate := by
  induction order generalizing epochs with
  | nil => exact ⟨all, fun _ => rfl, fun _ member => (not_mem_nil member).elim⟩
  | cons epoch rest ih =>
  unfold gatherCandidates
  split
  · rename_i reassembly decoder found
    obtain ⟨kept, candidates⟩ := step epoch reassembly decoder (all epoch _ found)
    have allNext : ∀ other state, (epochs.insert epoch ⟨reassembly,
        some (decoder.repairCandidates ambient.stripes ambient.now minimumAge).2⟩).lookup other =
        some state → good other state := by
      intro other state lookedUp
      rcases HashMap.lookup_insert_eq_some.mp lookedUp with ⟨rfl, rfl⟩ | ⟨-, old⟩
      · exact kept
      · exact all other state old
    obtain ⟨final, sameKeys, others⟩ := ih _ allNext
    refine ⟨final, fun other => ?_, fun candidate member => ?_⟩
    · refine (sameKeys other).trans ?_
      by_cases same : other = epoch
      · rw [same, AList.lookup_insert, found]
        rfl
      · rw [AList.lookup_insert_ne same]
    · rcases mem_append.mp member with first | later
      · exact candidates candidate first
      · exact others candidate later
  · exact ih epochs all

theorem requestRepairs_from {now : Instant} {maximumRequests : Nat}
    (candidates : List MissingStripeV2)
    (batch final : RepairRequestBatchV2) (pending after : PendingRepairRequestsV2)
    (run : requestRepairs now maximumRequests candidates batch pending = .ok (final, after)) :
    ∀ request ∈ final.requests, request ∈ batch.requests ∨ ∃ missing ∈ candidates,
      request.key = repairKey missing ∧ request.missingSequences = missing.missingSequences := by
  induction candidates generalizing batch pending with
  | nil =>
    obtain ⟨rfl, rfl⟩ := ok_pair_inj run
    exact fun request member => .inl member
  | cons missing rest ih =>
  intro request member
  simp only [requestRepairs] at run
  split_ifs at run
  · -- a suppressed candidate
    rcases ih _ _ run request member with old | ⟨other, listed, same⟩
    · exact .inl old
    · exact .inr ⟨other, mem_cons_of_mem _ listed, same⟩
  obtain ⟨⟨requestId, begun⟩, -, run⟩ := (bind_eq_ok _ _ _).mp run
  rcases ih _ _ run request member with old | ⟨other, listed, same⟩
  · rcases mem_append.mp old with old | new
    · exact .inl old
    · rw [mem_singleton.mp new]
      exact .inr ⟨missing, mem_cons_self, rfl, rfl⟩
  · exact .inr ⟨other, mem_cons_of_mem _ listed, same⟩

/-- The key under which Repair knows a stripe. -/
def repairKeyOf (key : StripeKey) : RepairKeyV2 where
  class' := key.class'
  sessionEpoch := key.sessionEpoch
  routeLabel := key.routeLabel
  trainId := key.trainId
  stripeId := key.stripeId

theorem repairKeyOf_inj {left right : StripeKey} (same : repairKeyOf left = repairKeyOf right) :
    left = right := by
  cases left
  cases right
  simpa [repairKeyOf] using same

variable {order : IterationOrder (Sigma fun _ : StripeKey => DecodeStripe)} {minimumAge : Duration}

theorem candidate_live {decoder : CellStripeDecoder} {candidate : MissingStripeV2} {now : Instant}
    (member : candidate ∈ (decoder.repairCandidates order now minimumAge).1) :
    ∃ key stripe, decoder.stripes.lookup key = some stripe ∧ repairKey candidate = repairKeyOf key ∧
      candidate.missingSequences = CellStripeDecoder.missingSequences stripe := by
  obtain ⟨entry, listed, rfl⟩ := mem_map.mp member
  have held : entry ∈ decoder.stripes.entries :=
    (order.perm _).mem_iff.mp (mem_of_mem_filter listed)
  exact ⟨entry.1, entry.2, HashMap.lookup_eq_some_iff.mpr held, rfl, rfl⟩

section Asking

variable {codec : ErasureCodec} {parityCells : Nat} {word : Codeword codec parityCells}
  {train : PacketTrain} {key : TrainKey} {rx : V2Rx} {table : ReassemblyTableV2}
  {decoder : CellStripeDecoder} {last : Instant} {seen : List Bytes} {cells : List CellV2}

theorem lookup_marked (order : IterationOrder (Sigma fun _ : StripeKey => DecodeStripe))
    (now : Instant) (minimumAge : Duration) (key : StripeKey) :
    (decoder.repairCandidates order now minimumAge).2.stripes.lookup key =
      (decoder.stripes.lookup key).map fun stripe => { stripe with
        repairRequested := stripe.repairRequested ||
          CellStripeDecoder.wantsRepair stripe now minimumAge } :=
  HashMap.lookup_mapValues _ key decoder.stripes

theorem progress_marked (order : IterationOrder (Sigma fun _ : StripeKey => DecodeStripe))
    (now : Instant) (minimumAge : Duration) (progress : Progress word decoder last seen cells) :
    Progress word (decoder.repairCandidates order now minimumAge).2 last seen cells := by
  cases progress with
  | fresh absent unfinished =>
    refine .fresh ?_ unfinished
    rw [lookup_marked, absent]
    rfl
  | live stripe held parity _ found updated holds few covered =>
    refine .live { stripe with
      repairRequested := stripe.repairRequested ||
        CellStripeDecoder.wantsRepair stripe now minimumAge } held parity seen ?_ updated ?_
          few covered
    · rw [lookup_marked, found]
      rfl
    · exact { holds with }
  | done _ _ tombstone all => exact .done _ _ tombstone all

/-- A stripe with a candidate is live, and the candidate lacks what was put out. -/
theorem candidate_progress {now : Instant} {candidate : MissingStripeV2}
    (progress : Progress word decoder last seen cells) (valid : DecoderInvariant decoder)
    (member : candidate ∈ (decoder.repairCandidates order now minimumAge).1)
    (own : repairKey candidate = repairKeyOf word.key) :
    (∃ stripe, decoder.stripes.lookup word.key = some stripe) ∧
      ∀ cell ∈ cells, cell.cellSequence ∉ candidate.missingSequences := by
  obtain ⟨key, stripe, found, named, missing⟩ := candidate_live member
  obtain rfl := repairKeyOf_inj (named.symm.trans own)
  refine ⟨⟨stripe, found⟩, ?_⟩
  cases progress with
  | fresh absent unfinished =>
    rw [absent] at found
    cases found
  | live same held parity _ lookedUp updated holds few covered =>
    obtain rfl := Option.some.inj (lookedUp.symm.trans found)
    intro cell isCell lacking
    obtain ⟨index, isHeld, place⟩ := mem_filterMap.mp isCell
    rw [missing, CellStripeDecoder.missingSequences, mem_filter, word.cellSequence_eq place]
      at lacking
    have put : word.sequenceOf index ∈ same.delivered :=
      (holds.delivered _).mpr (mem_map_of_mem isHeld)
    simp [put] at lacking
  | done _ _ tombstone all =>
    rw [valid.disjoint _ _ found] at tombstone
    cases tombstone

variable (word table decoder last seen cells) in
/-- The stripe is in the decoder of its own epoch as it was, up to marks, and in no other. -/
def StripeKept (epoch : UInt32) (state : RxEpochState) : Prop :=
  (epoch = word.identity.sessionEpoch → ∃ other,
    state = { reassembly := table, fecDecoder := some other } ∧ DecoderInvariant other ∧
      SameLimits decoder other ∧ Progress word other last seen cells ∧
      (other.stripes.lookup word.key).isSome = (decoder.stripes.lookup word.key).isSome) ∧
  (epoch ≠ word.identity.sessionEpoch → ∀ other, state.fecDecoder = some other →
    other.stripes.lookup word.key = none)

variable (word decoder cells) in
/-- A candidate for the stripe says that the stripe is live, and lacks what was put out. -/
def CandidateSound (candidate : MissingStripeV2) : Prop :=
  repairKey candidate = repairKeyOf word.key →
    (decoder.stripes.lookup word.key).isSome = true ∧
      ∀ cell ∈ cells, cell.cellSequence ∉ candidate.missingSequences

theorem repairCandidates_kept (ambient : Ambient) (minimumAge : Duration) (epoch : UInt32)
    (reassembly : ReassemblyTableV2) (other : CellStripeDecoder)
    (kept : StripeKept word table decoder last seen cells epoch ⟨reassembly, some other⟩) :
    StripeKept word table decoder last seen cells epoch ⟨reassembly,
        some (other.repairCandidates ambient.stripes ambient.now minimumAge).2⟩ ∧
      ∀ candidate ∈ (other.repairCandidates ambient.stripes ambient.now minimumAge).1,
        CandidateSound word decoder cells candidate := by
  obtain ⟨own, foreign⟩ := kept
  by_cases isOwn : epoch = word.identity.sessionEpoch
  · obtain ⟨same, shape, valid, limits, progress, live⟩ := own isOwn
    obtain ⟨rfl, sameDecoder⟩ := RxEpochState.mk.inj shape
    obtain rfl := Option.some.inj sameDecoder
    refine ⟨⟨fun _ => ⟨_, rfl, ?_, ?_, ?_, ?_⟩, fun different => absurd isOwn different⟩, ?_⟩
    · exact repairCandidates_invariant _ _ _ valid
    · exact ⟨limits.sessionEpoch, limits.ttl, limits.maximumBufferedBytes⟩
    · exact progress_marked _ _ _ progress
    · rw [lookup_marked, Option.isSome_map, live]
    intro candidate member named
    obtain ⟨⟨stripe, found⟩, lacking⟩ := candidate_progress progress valid member named
    refine ⟨?_, lacking⟩
    rw [← live, found]
    rfl
  have absent := foreign isOwn other rfl
  refine ⟨⟨fun same => absurd same isOwn, fun _ marked isMarked => ?_⟩, ?_⟩
  · obtain rfl := Option.some.inj isMarked
    rw [lookup_marked, absent]
    rfl
  -- a decoder of another epoch has no candidate for the stripe
  intro candidate member named
  obtain ⟨key, stripe, found, isKey, -⟩ := candidate_live member
  obtain rfl := repairKeyOf_inj (isKey.symm.trans named)
  rw [absent] at found
  cases found

/-- Asking for repairs leaves the stripe as it is. A request for it says that it is live, and names
only Cells that were not put out. -/
theorem repairRequests_progress {ambient : Ambient} {maximumRequests : Nat}
    {batch : RepairRequestBatchV2} {after : V2Rx}
    (listening : Listening word train key rx table decoder)
    (progress : Progress word decoder last seen cells)
    (elsewhere : ∀ epoch state other, rx.epochs.lookup epoch = some state →
      state.fecDecoder = some other → epoch ≠ word.identity.sessionEpoch →
      other.stripes.lookup word.key = none)
    (run : rx.repairRequestsBounded ambient minimumAge maximumRequests = .ok (batch, after)) :
    ∃ decoder', Listening word train key after table decoder' ∧ SameLimits decoder decoder' ∧
      Progress word decoder' last seen cells ∧
      ∀ request ∈ batch.requests, request.key = repairKeyOf word.key →
        (∃ stripe, decoder'.stripes.lookup word.key = some stripe) ∧
          ∀ cell ∈ cells, cell.cellSequence ∉ request.missingSequences := by
  simp only [repairRequestsBounded, bind_eq_ok] at run
  obtain ⟨⟨requested, pending⟩, requests, answer⟩ := run
  obtain ⟨rfl, rfl⟩ := ok_pair_inj answer
  have all : ∀ epoch state, rx.epochs.lookup epoch = some state →
      StripeKept word table decoder last seen cells epoch state := by
    intro epoch state found
    refine ⟨?_, fun foreign other isDecoder => elsewhere epoch state other found isDecoder foreign⟩
    rintro rfl
    rw [listening.active] at found
    exact ⟨decoder, (Option.some.inj found).symm, listening.valid, .refl _, progress, rfl⟩
  obtain ⟨kept, sameKeys, sound⟩ := gatherCandidates_keeps
    (StripeKept word table decoder last seen cells) (CandidateSound word decoder cells) ambient
    minimumAge (repairCandidates_kept ambient minimumAge) rx.epochOrder rx.epochs all
  have still := sameKeys word.identity.sessionEpoch
  rw [listening.active, Option.isSome_some, Option.isSome_iff_exists] at still
  obtain ⟨state, found⟩ := still
  obtain ⟨decoder', rfl, valid, limits, made, live⟩ := (kept _ _ found).1 rfl
  refine ⟨decoder', ⟨found, listening.collecting, listening.keyed, listening.fromTrain, valid,
    limits.sessionEpoch.trans listening.epoch, ?_, listening.short⟩, limits, made, ?_⟩
  · rw [limits.maximumBufferedBytes]
    exact listening.budget
  intro request member named
  rcases requestRepairs_from _ _ _ _ _ requests request member with none | ⟨missing, listed, same⟩
  · exact (not_mem_nil none).elim
  have candidate := (perm_insertionSort repairOrder _).mem_iff.mp listed
  obtain ⟨isLive, lacking⟩ := sound missing candidate (same.1.symm.trans named)
  rw [← live, Option.isSome_iff_exists] at isLive
  rw [same.2]
  exact ⟨isLive, lacking⟩

end Asking
end Ironet.Dataplane
