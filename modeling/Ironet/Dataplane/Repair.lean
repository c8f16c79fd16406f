import Ironet.Dataplane.Stripes

/-!
# Repair over transit

A receiver asks for the Cells it misses of a stripe, and the sender answers with the Cells as it
sent them. Transit nodes count hops in the Cells of a stripe but not in a response, so a repaired
Cell matches the live stripe only when the stripe came without transit.
-/
namespace Ironet.Dataplane
open Support Cell Train Fec Reassembly Repair Session V2Rx CellStripeDecoder
open ErasureCodec List RepairCacheV2

variable {stripe : DecodeStripe}

section Word

variable {codec : ErasureCodec} {parityCells : Nat} {word : Codeword codec parityCells}
  {train : PacketTrain} {key : TrainKey} {rx : V2Rx} {table : ReassemblyTableV2}
  {decoder : CellStripeDecoder} {count : Nat} {enough : count < word.identity.overlayHopLimit.toNat}

variable {last : Instant} {seen : List Bytes} {cells : List CellV2} {cell : CellV2}

/-- A live stripe that crossed transit hops refuses a Cell as it was sent. -/
theorem acceptDatagram_crossed {ambient : Ambient} (positive : 0 < count)
    (listening : Listening (word.hop count enough) train key rx table decoder)
    (found : decoder.stripes.lookup word.key = some stripe)
    (shim : stripe.routingShim = (word.hop count enough).shim)
    (young : ambient.now - stripe.updated < decoder.ttl) (member : cell ∈ word.cells) :
    ∃ after, rx.acceptDatagram codec ambient cell.wire =
      .ok (.error "V2 FEC stripe crossed overlay hop generations", after) := by
  have decoded := word.decode_wire member
  have isKey := word.fromCell_eq member
  obtain ⟨own, isStripe⟩ := word.owned cell member
  have striped : cell.stripeId ≠ 0 := isStripe ▸ word.stripeId_ne_zero
  have epoch : cell.sessionEpoch = word.identity.sessionEpoch :=
    congrArg TrainIdentity.sessionEpoch own
  have shape : decodeStripeId cell.stripeId = .ok (word.firstSequence, word.cells.length) := by
    rw [isStripe]
    exact word.decodeStripeId_eq
  have inside : ¬ (cell.kind = .data ∧
      insideStripe (word.firstSequence, word.cells.length) cell.cellSequence = false) := by
    rintro ⟨-, outside⟩
    obtain ⟨index, place⟩ := mem_iff_getElem?.mp member
    rw [word.cellSequence_eq place, word.insideStripe_eq (List.getElem?_eq_some_iff.mp place).1]
      at outside
    cases outside
  -- the hop fields of the stripe and of the Cell differ
  have different : stripe.routingShim ≠ (cell.overlayHopLimit, cell.overlayHops) := by
    intro same
    have sent : cell.overlayHopLimit = word.identity.overlayHopLimit :=
      congrArg TrainIdentity.overlayHopLimit own
    have remaining := (cell.hop_fields count (word.valid cell member) (sent ▸ enough)).1
    have unchanged : (cell.hop count).overlayHopLimit = cell.overlayHopLimit := by
      have first : word.identity.overlayHopLimit - UInt8.ofNat count = cell.overlayHopLimit :=
        congrArg Prod.fst (shim.symm.trans same)
      rw [← sent] at first
      exact first
    rw [unchanged] at remaining
    rw [← sent] at enough
    omega
  obtain ⟨core, -⟩ := expire_core decoder ambient.now listening.valid.toDecoderCore
  have still := expire_keeps decoder ambient.now word.key stripe found young
  have unfinished := core.disjoint _ _ still
  rw [← isKey] at still unfinished
  have pushed : decoder.pushAt codec cell.wire ambient.now =
      .ok (.error "V2 FEC stripe crossed overlay hop generations",
        (decoder.expire ambient.now).2) := by
    have same : cell.sessionEpoch = decoder.sessionEpoch := epoch.trans listening.epoch.symm
    simp [pushAt, decoded, if_pos same, if_neg striped, pushCell, shape, if_neg inside, unfinished,
      ensureStripe, still, if_neg different]
  have short : cell.wire.length ≤ rx.negotiated.limits.maxDatagramSize.toNat := by
    have hopped : (cell.hop count).wire ∈ (word.hop count enough).datagrams :=
      mem_append_left _ (mem_map_of_mem (mem_map_of_mem member))
    have bound := listening.short _ hopped
    rwa [CellV2.hop, CellV2.withShim_wire_length] at bound
  have active := listening.active
  rw [← show cell.sessionEpoch = (word.hop count enough).identity.sessionEpoch from epoch] at active
  rw [acceptDatagram_striped ambient decoded striped short active]
  simp only [acceptStriped, pushed, ok_bind]
  exact ⟨_, rfl⟩

variable (progress : Fec.Progress word decoder last seen cells)
include progress

/-- What was met of the stripe was put out, if it is a data Cell. -/
theorem progress_covers (member : cell ∈ word.cells) (met : cell.wire ∈ seen) : cell ∈ cells := by
  have decoded := word.decode_wire member
  cases progress with
  | fresh absent unfinished => exact (not_mem_nil met).elim
  | live stripe held parity _ found updated holds few covered =>
    rcases covered _ met with ⟨index, other, isHeld, place, wire⟩ |
      ⟨index, recovery, -, place, wire⟩
    · rw [wire, word.decode_wire (mem_of_getElem? place)] at decoded
      obtain rfl := Except.ok.inj decoded
      exact mem_filterMap.mpr ⟨index, isHeld, place⟩
    -- a parity Cell has another kind
    rw [wire, word.decode_parity place] at decoded
    have kind := word.data cell member
    rw [← Except.ok.inj decoded] at kind
    cases kind
  | done _ _ tombstone all => exact all.mem_iff.mpr member

/-- The live stripe has the hop fields of its datagrams. -/
theorem progress_shim (valid : DecoderInvariant decoder)
    (found : decoder.stripes.lookup word.key = some stripe) : stripe.routingShim = word.shim := by
  cases progress with
  | fresh absent unfinished =>
    rw [absent] at found
    cases found
  | live same held parity _ lookedUp updated holds few covered =>
    obtain rfl := Option.some.inj (lookedUp.symm.trans found)
    exact holds.shim
  | done _ _ tombstone all =>
    rw [valid.disjoint _ _ found] at tombstone
    cases tombstone

end Word

/-! ### Responses -/

/-- The Cells that a Repair response brings to the reassembly table. -/
def V2Rx.repairedCells (codec : ErasureCodec) (self : V2Rx) (response : RepairResponseV2)
    (now : Instant) (ambient : Nat → Ambient) : List CellV2 :=
  match self.pendingRepairs.complete response now with
  | (.ok (some _), pendingRepairs) =>
    { self with pendingRepairs }.handedAll codec
      (response.cells.mapIdx fun index bytes => (bytes, ambient index))
  | _ => []

/-- The outstanding request that a response would be matched with. -/
def V2Rx.outstanding (self : V2Rx) (requestId : UInt64) (now : Instant) :
    Option PendingRepairRequestV2 :=
  (self.pendingRepairs.expire now).2.entries.lookup requestId

/-- The response to the request is accepted, and every requested Cell that was cached is delivered
to the reassembly table. -/
def Repaired (codec : ErasureCodec) (rx : V2Rx) (cache : RepairCacheV2) (request : RepairRequestV2)
    (answeredAt now : Instant) (ambient : Nat → Ambient) : Prop :=
  (∃ answer after, rx.acceptRepairResponseAt codec
    (cache.respond request answeredAt).1 now ambient =
    .ok (.ok answer, after)) ∧
  ∀ sequence ∈ request.missingSequences, ∀ bytes,
    (cache.expire answeredAt).2.cachedCell request.key sequence = some bytes →
    ∃ cell ∈ rx.repairedCells codec (cache.respond request answeredAt).1 now ambient,
      cell.wire = bytes

/-- The request is still outstanding and the stripe came without transit, or no requested Cell was
cached. -/
def Repairable (hops : Nat) (outstanding : Option PendingRepairRequestV2)
    (request : RepairRequestV2)
    (cells : List Bytes) : Prop :=
  match outstanding with
  | none => cells = []
  | some pending => pending.key = request.key ∧ (hops = 0 ∨ cells = [])

variable {cache : RepairCacheV2}

theorem mem_respond {request : RepairRequestV2} {now : Instant}
    {bytes : Bytes} : bytes ∈ (cache.respond request now).1.cells ↔
      ∃ sequence ∈ request.missingSequences,
        (cache.expire now).2.cachedCell request.key sequence = some bytes :=
  mem_filterMap

section Exchange

variable {codec : ErasureCodec} {parityCells : Nat} {word : Codeword codec parityCells}
  {train : PacketTrain} {key : TrainKey} {rx : V2Rx} {table : ReassemblyTableV2}
  {decoder : CellStripeDecoder} {count : Nat} {enough : count < word.identity.overlayHopLimit.toNat}
  {last : Instant} {seen : List Bytes} {cells : List CellV2}

/-- The Cells of a response to a stripe that came without transit are all accepted, and those that
were missing are put out. -/
theorem repairedCells_direct (promised : codec.Mds parityCells) {datagrams : List (Bytes × Ambient)}
    {enough : 0 < word.identity.overlayHopLimit.toNat}
    (listening : Listening (word.hop 0 enough) train key rx table decoder)
    (progress : Fec.Progress (word.hop 0 enough) decoder last seen cells)
    (young : ∀ datagram ∈ datagrams.head?, datagram.2.now - last < decoder.ttl)
    (gaps : (datagrams.map fun datagram => datagram.2.now).IsChain fun earlier later =>
      later - earlier < decoder.ttl)
    (own : ∀ datagram ∈ datagrams, ∃ cell ∈ word.cells, datagram.1 = cell.wire ∧ cell ∉ cells) :
    (∃ output after, rx.acceptRepairedCells codec datagrams {} = .ok (.ok output, after)) ∧
      ∀ datagram ∈ datagrams, ∃ cell ∈ rx.handedAll codec datagrams, cell.wire = datagram.1 := by
  have sameCells : (word.hop 0 enough).cells = word.cells := by
    have unchanged : word.cells.map (fun cell => cell.hop 0) = word.cells := by
      simp only [CellV2.hop_zero, map_id']
    exact unchanged
  have shards : ∀ datagram ∈ datagrams, datagram.1 ∈ (word.hop 0 enough).datagrams := by
    intro datagram member
    obtain ⟨cell, isCell, wire, -⟩ := own datagram member
    rw [wire, Codeword.datagrams, sameCells]
    exact mem_append_left _ (mem_map_of_mem isCell)
  obtain ⟨outputs, after, table', decoder', last', run, -, -, -, -, made⟩ :=
    acceptAll_progress promised datagrams rx table decoder last seen cells listening shards
      (fun datagram isFirst stripe found => by
        rw [progress.updated_eq listening.valid found]
        exact young datagram isFirst) gaps progress
  refine ⟨⟨_, after, acceptRepairedCells_of_acceptAll datagrams rx after outputs {} run⟩, ?_⟩
  intro datagram member
  obtain ⟨cell, isCell, wire, fresh⟩ := own datagram member
  have met : cell.wire ∈ seen ++ datagrams.map Prod.fst := by
    rw [← wire]
    exact mem_append_right _ (mem_map_of_mem member)
  have put := progress_covers made (sameCells ▸ isCell) met
  exact ⟨cell, (mem_append.mp put).resolve_left fresh, wire.symm⟩

/-- The Cells of a response to a stripe that crossed transit hops are refused. -/
theorem repairedCells_crossed {bytes : Bytes} {ambient : Ambient}
    {rest : List (Bytes × Ambient)} (positive : 0 < count)
    (listening : Listening (word.hop count enough) train key rx table decoder)
    (progress : Fec.Progress (word.hop count enough) decoder last seen cells)
    (found : decoder.stripes.lookup word.key = some stripe)
    (young : ambient.now - last < decoder.ttl)
    (own : ∃ cell ∈ word.cells, bytes = cell.wire) :
    ∃ after, rx.acceptRepairedCells codec ((bytes, ambient) :: rest) {} =
      .ok (.error "V2 FEC stripe crossed overlay hop generations", after) := by
  obtain ⟨cell, member, rfl⟩ := own
  have hopped : decoder.stripes.lookup (word.hop count enough).key = some stripe := found
  have updated := progress.updated_eq listening.valid hopped
  have shim := progress_shim progress listening.valid hopped
  obtain ⟨after, refused⟩ := acceptDatagram_crossed positive listening found shim
    (updated ▸ young) member
  exact ⟨after, by simp only [acceptRepairedCells, refused, ok_bind]⟩

variable {request : RepairRequestV2} {answeredAt now : Instant} {ambient : Nat → Ambient}
  {response : RepairResponseV2}

/-- Every requested Cell that was cached is in the response, and nothing else is. -/
theorem repaired_iff_cells (answers : (cache.respond request answeredAt).1 = response) :
    Repaired codec rx cache request answeredAt now ambient ↔
      (∃ answer after, rx.acceptRepairResponseAt codec response now ambient =
        .ok (.ok answer, after)) ∧
      ∀ bytes ∈ response.cells,
        ∃ cell ∈ rx.repairedCells codec response now ambient, cell.wire = bytes := by
  unfold Repaired
  rw [answers]
  refine and_congr_right fun _ => ⟨fun delivered bytes member => ?_, fun delivered => ?_⟩
  · rw [← answers] at member
    obtain ⟨sequence, isMissing, held⟩ := mem_respond.mp member
    exact delivered sequence isMissing bytes held
  · intro sequence isMissing bytes held
    refine delivered bytes ?_
    rw [← answers]
    exact mem_respond.mpr ⟨sequence, isMissing, held⟩

theorem acceptRepairResponseAt_eq (codec : ErasureCodec) (now : Instant) (ambient : Nat → Ambient)
    (active : (rx.epochs.lookup response.key.sessionEpoch).isSome = true) :
    match rx.outstanding response.requestId now with
    | none =>
      (∃ after, rx.acceptRepairResponseAt codec response now ambient = .ok (.ok none, after)) ∧
        rx.repairedCells codec response now ambient = []
    | some pending =>
      if pending.key = response.key then ∃ pendingRepairs observation,
        rx.acceptRepairResponseAt codec response now ambient = (do
          let (result, after) ← { rx with pendingRepairs }.acceptRepairedCells codec
            (response.cells.mapIdx fun index bytes => (bytes, ambient index)) {}
          .ok (result.map fun output => some (output, observation), after)) ∧
        rx.repairedCells codec response now ambient = { rx with pendingRepairs }.handedAll codec
          (response.cells.mapIdx fun index bytes => (bytes, ambient index))
      else ∃ message after,
        rx.acceptRepairResponseAt codec response now ambient = .ok (.error message, after) := by
  obtain ⟨state, found⟩ := Option.isSome_iff_exists.mp active
  unfold V2Rx.outstanding
  split
  · rename_i absent
    have completed : rx.pendingRepairs.complete response now =
        (.ok none, (rx.pendingRepairs.expire now).2) := by
      simp only [PendingRepairRequestsV2.complete, absent]
    simp only [acceptRepairResponseAt, V2Rx.repairedCells, completed]
    exact ⟨⟨_, rfl⟩, trivial⟩
  rename_i pending isPending
  split
  · rename_i same
    have completed : ∃ observation pendingRepairs, rx.pendingRepairs.complete response now =
        (.ok (some observation), pendingRepairs) := by
      simp only [PendingRepairRequestsV2.complete, isPending, if_pos same]
      exact ⟨_, _, rfl⟩
    obtain ⟨observation, pendingRepairs, completed⟩ := completed
    refine ⟨pendingRepairs, observation, ?_, ?_⟩
    · simp only [acceptRepairResponseAt, completed, found]
    · simp only [V2Rx.repairedCells, completed]
  rename_i different
  have completed : ∃ message pendingRepairs, rx.pendingRepairs.complete response now =
      (.error message, pendingRepairs) := by
    simp only [PendingRepairRequestsV2.complete, isPending, if_neg different]
    exact ⟨_, _, rfl⟩
  obtain ⟨message, pendingRepairs, completed⟩ := completed
  simp only [acceptRepairResponseAt, completed]
  exact ⟨message, _, rfl⟩

theorem readings_eq (cells : List Bytes) (ambient : Nat → Ambient) :
    (cells.mapIdx fun index bytes => (bytes, ambient index)).map (fun datagram => datagram.2.now) =
      (List.range cells.length).map fun index => (ambient index).now := by
  refine ext_getElem (by simp) fun index left right => ?_
  simp

theorem Listening.pending (pendingRepairs : PendingRepairRequestsV2)
    (listening : Listening word train key rx table decoder) :
    Listening word train key { rx with pendingRepairs } table decoder :=
  { listening with }

/-- The response to a request for a live stripe repairs it exactly when the stripe came without
transit, or has nothing to repair it with. -/
theorem repaired_iff (promised : codec.Mds parityCells)
    (listening : Listening (word.hop count enough) train key rx table decoder)
    (progress : Fec.Progress (word.hop count enough) decoder last seen cells)
    (found : decoder.stripes.lookup word.key = some stripe)
    (own : request.key = repairKeyOf word.key)
    (lacking : ∀ cell ∈ cells, cell.cellSequence ∉ request.missingSequences)
    (cached : ∀ sequence bytes, (cache.expire answeredAt).2.cachedCell request.key sequence =
      some bytes → ∃ cell ∈ word.cells, bytes = cell.wire ∧ cell.cellSequence = sequence)
    (live : (last :: (List.range (cache.respond request answeredAt).1.cells.length).map fun index =>
      (ambient index).now).IsChain fun earlier later => later - earlier < decoder.ttl) :
    Repaired codec rx cache request answeredAt now ambient ↔
      Repairable count (rx.outstanding request.requestId now) request
        (cache.respond request answeredAt).1.cells := by
  obtain ⟨response, answers⟩ : ∃ response, (cache.respond request answeredAt).1 = response :=
    ⟨_, rfl⟩
  have isKey : response.key = request.key := by rw [← answers]; rfl
  have isId : response.requestId = request.requestId := by rw [← answers]; rfl
  have fromStripe : ∀ bytes ∈ response.cells,
      ∃ cell ∈ word.cells, bytes = cell.wire ∧ cell.cellSequence ∈ request.missingSequences := by
    intro bytes member
    rw [← answers] at member
    obtain ⟨sequence, isMissing, held⟩ := mem_respond.mp member
    obtain ⟨cell, isCell, wire, named⟩ := cached sequence bytes held
    exact ⟨cell, isCell, wire, named ▸ isMissing⟩
  have active : (rx.epochs.lookup response.key.sessionEpoch).isSome = true := by
    have isActive : rx.epochs.lookup (repairKeyOf word.key).sessionEpoch = _ := listening.active
    rw [isKey, own, isActive]
    rfl
  rw [repaired_iff_cells answers, answers, ← isId]
  rw [answers] at live
  have outcome := acceptRepairResponseAt_eq codec now ambient active
  unfold Repairable
  rw [← isKey]
  cases pending : rx.outstanding response.requestId now with
  | none =>
    -- nothing is delivered for a request that is not outstanding
    rw [pending] at outcome
    obtain ⟨⟨after, accepts⟩, nothing⟩ := outcome
    rw [nothing]
    constructor
    · rintro ⟨-, delivered⟩
      refine eq_nil_iff_forall_not_mem.mpr fun bytes member => ?_
      obtain ⟨cell, impossible, -⟩ := delivered bytes member
      exact not_mem_nil impossible
    · intro empty
      refine ⟨⟨_, after, accepts⟩, fun bytes member => ?_⟩
      rw [empty] at member
      exact (not_mem_nil member).elim
  | some entry =>
  rw [pending] at outcome
  dsimp only at outcome ⊢
  split at outcome
  · rename_i same
    obtain ⟨pendingRepairs, observation, accepts, delivers⟩ := outcome
    have listens := listening.pending pendingRepairs
    rw [accepts, delivers]
    simp only [same, true_and]
    rw [← readings_eq] at live
    cases shape : response.cells with
    | nil =>
      refine ⟨fun _ => .inr rfl, fun _ => ⟨⟨_, _, rfl⟩, fun bytes member => ?_⟩⟩
      exact (not_mem_nil member).elim
    | cons bytes rest =>
    rw [shape] at live fromStripe
    have first : (ambient 0).now - last < decoder.ttl := by
      rw [mapIdx_cons, map_cons] at live
      exact (isChain_cons_cons.mp live).1
    rcases Nat.eq_zero_or_pos count with zero | positive
    · subst zero
      obtain ⟨⟨output, after, run⟩, put⟩ := repairedCells_direct promised listens progress
        (fun datagram isFirst => by
          obtain rfl : (bytes, ambient 0) = datagram := by simpa using isFirst
          exact first) live.tail
        (fun datagram member => by
          obtain ⟨index, bound, rfl⟩ := mem_mapIdx.mp member
          obtain ⟨cell, isCell, wire, isMissing⟩ := fromStripe _ (getElem_mem bound)
          exact ⟨cell, isCell, wire, fun old => lacking cell old isMissing⟩)
      refine ⟨fun _ => .inl rfl, fun _ => ⟨⟨some (output, observation), after, ?_⟩, ?_⟩⟩
      · rw [run]
        rfl
      · intro wanted member
        obtain ⟨index, bound, rfl⟩ := mem_iff_getElem.mp member
        exact put _ (mem_mapIdx.mpr ⟨index, bound, rfl⟩)
    obtain ⟨cell, isCell, wire, -⟩ := fromStripe bytes mem_cons_self
    obtain ⟨after, refused⟩ := repairedCells_crossed positive listens progress found first
      ⟨cell, isCell, wire⟩
    constructor
    · rintro ⟨⟨answer, reached, accepted⟩, -⟩
      rw [mapIdx_cons, refused] at accepted
      cases accepted
    · rintro (zero | empty)
      · exact absurd zero (Nat.ne_of_gt positive)
      · cases empty
  · rename_i different
    obtain ⟨message, after, refuses⟩ := outcome
    rw [refuses]
    simp [different]

end Exchange

/-! ### The whole exchange -/

/-- The receiver has the epoch of the train, has not met the stripe yet, what it holds of the train
it got from the train, and the decoder has a byte budget for the stripe. -/
structure Prepared (rx : V2Rx) (table : ReassemblyTableV2) (decoder : CellStripeDecoder)
    (context : TrainContext) (train : PacketTrain) (sent : EncodedTrainV2) (key : StripeKey) :
    Prop where
  active : rx.epochs.lookup context.sessionEpoch =
    some { reassembly := table, fecDecoder := some decoder }
  tableInvariant : TableInvariant table
  tableEpoch : table.limits.sessionEpoch = context.sessionEpoch
  perTrain : table.limits.perTrain = perTrain rx.negotiated.limits
  consistent : Consistent train (contextKey context) table
  decoderInvariant : DecoderInvariant decoder
  decoderEpoch : decoder.sessionEpoch = context.sessionEpoch
  absent : decoder.stripes.lookup key = none
  unfinished : decoder.completed.lookup key = none
  elsewhere : ∀ epoch state other, rx.epochs.lookup epoch = some state →
    state.fecDecoder = some other → epoch ≠ context.sessionEpoch → other.stripes.lookup key = none
  budget : ((sent.ordered.filter fun datagram => stripeOf datagram.bytes = some key).map
    fun datagram => datagram.bytes.length).sum ≤ decoder.maximumBufferedBytes

variable {codec : ErasureCodec}

theorem Prepared.listening {parityCells pathMaximum : Nat} {rx : V2Rx} {table : ReassemblyTableV2}
    {decoder : CellStripeDecoder} {context : TrainContext} {records : List TrainRecord}
    {train : PacketTrain} {sent : EncodedTrainV2} {count : Nat}
    (word : Codeword codec parityCells) (enough : count < word.identity.overlayHopLimit.toNat)
    (prepared : Prepared rx table decoder context train sent word.key)
    (built : buildPacketTrain context records = .ok train)
    (own : word.identity = trainIdentity context)
    (fromTrain : ∀ cell ∈ word.cells, ∃ original ∈ train.cells,
      cell = inStripe word.stripeId original)
    (fits : ∀ bytes ∈ word.datagrams, bytes.length ≤ pathMaximum)
    (total : (word.datagrams.map List.length).sum ≤
      ((sent.ordered.filter fun other => stripeOf other.bytes = some word.key).map fun other =>
        other.bytes.length).sum)
    (path : pathMaximum ≤ rx.negotiated.limits.maxDatagramSize.toNat)
    (cells : context.maximumCells = rx.negotiated.limits.maxCellsPerTrain.toNat)
    (data : (records.map fun record => record.data.length).sum ≤
      rx.negotiated.limits.maxTrainSize.toNat) :
    Listening (word.hop count enough) train (contextKey context) rx table decoder := by
  have epoch : word.identity.sessionEpoch = context.sessionEpoch :=
    congrArg TrainIdentity.sessionEpoch own
  refine ⟨?_, ⟨prepared.tableInvariant, prepared.tableEpoch, ?_, prepared.consistent⟩,
    fun cell member => trainKey_of_built built member, ?_, prepared.decoderInvariant, ?_, ?_, ?_⟩
  · exact epoch ▸ prepared.active
  · rw [prepared.perTrain]
    exact perTrain_admits cells data built
  · intro cell member
    obtain ⟨sentCell, isSent, rfl⟩ := mem_map.mp member
    obtain ⟨original, isOriginal, rfl⟩ := fromTrain sentCell isSent
    exact ⟨original, isOriginal, _, _, _, rfl⟩
  · exact prepared.decoderEpoch.trans epoch.symm
  · rw [word.hop_datagrams_length enough]
    exact total.trans prepared.budget
  -- hops do not change the length of a datagram
  intro bytes member
  have length : bytes.length ∈ (word.hop count enough).datagrams.map List.length :=
    mem_map_of_mem member
  rw [word.hop_datagrams_length enough] at length
  obtain ⟨original, isOriginal, same⟩ := mem_map.mp length
  rw [← same]
  exact (fits original isOriginal).trans path

/-- Nobody asks for a stripe that no decoder holds. -/
theorem not_requested {rx after : V2Rx} {ambient : Ambient} {minimumAge : Duration}
    {maximumRequests : Nat} {batch : RepairRequestBatchV2} {key : StripeKey}
    (nowhere : ∀ epoch state other, rx.epochs.lookup epoch = some state →
      state.fecDecoder = some other → other.stripes.lookup key = none)
    (run : rx.repairRequestsBounded ambient minimumAge maximumRequests = .ok (batch, after)) :
    ∀ request ∈ batch.requests, request.key ≠ repairKeyOf key := by
  simp only [repairRequestsBounded, bind_eq_ok] at run
  obtain ⟨⟨requested, pending⟩, requests, answer⟩ := run
  obtain ⟨rfl, rfl⟩ := ok_pair_inj answer
  obtain ⟨-, -, others⟩ := gatherCandidates_keeps
    (fun _ state => ∀ other, state.fecDecoder = some other → other.stripes.lookup key = none)
    (fun candidate => repairKey candidate ≠ repairKeyOf key) ambient minimumAge
    (fun epoch reassembly decoder absent => by
      have none := absent decoder rfl
      refine ⟨fun other isOther => ?_, fun candidate member named => ?_⟩
      · obtain rfl := Option.some.inj isOther
        rw [lookup_marked, none]
        rfl
      · obtain ⟨found, stripe, held, isFound, -⟩ := candidate_live member
        rw [repairKeyOf_inj (isFound.symm.trans named), none] at held
        cases held)
    rx.epochOrder rx.epochs (fun epoch state found other => nowhere epoch state other found)
  intro request member
  rcases requestRepairs_from _ _ _ _ _ requests request member with none | ⟨missing, listed, same⟩
  · exact (not_mem_nil none).elim
  · rw [same.1]
    exact others missing ((perm_insertionSort repairOrder _).mem_iff.mp listed)

/-- What the cache holds of a stripe are data Cells of the stripe, as long as nothing else was
inserted under its key. -/
theorem cached_of_honest {parityCells : Nat} {word : Codeword codec parityCells}
    {cacheTtl : Duration} {cacheBytes cacheStripes : Nat} {fresh : RepairCacheV2}
    {calls : List CacheCall} {sequence : UInt16} {bytes : Bytes} {answeredAt : Instant}
    (made : new cacheTtl cacheBytes cacheStripes = .ok fresh)
    (honest : ∀ bytes ∈ calls.flatMap CacheCall.inserted, stripeOf bytes = some word.key →
      bytes ∈ word.datagrams)
    (held : ((fresh.run calls).expire answeredAt).2.cachedCell (repairKeyOf word.key) sequence =
      some bytes) :
    ∃ cell ∈ word.cells, bytes = cell.wire ∧ cell.cellSequence = sequence := by
  have ran := run_from calls fresh [] (new_from made)
  have swept := ran.fewer (expire_fewer (fresh.run calls) answeredAt)
  obtain ⟨inserted, cell, decoded, kind, isKey, isSequence⟩ :=
    cachedCell_from swept held
  have named : StripeKey.fromCell cell = word.key := repairKeyOf_inj isKey
  have member := honest bytes inserted (by rw [stripeOf_of_decode decoded, named])
  rcases word.mem_datagrams.mp member with ⟨index, own, found, rfl⟩ | ⟨index, recovery, found, rfl⟩
  · have isCell := mem_of_getElem? found
    rw [word.decode_wire isCell] at decoded
    obtain rfl := Except.ok.inj decoded
    exact ⟨own, isCell, rfl, isSequence⟩
  · -- parity is never cached
    rw [word.decode_parity found] at decoded
    rw [← Except.ok.inj decoded] at kind
    cases kind

/-- Repair over a path with any number of transit hops: a protected train is sent, some datagrams of
a stripe arrive behind the hops, the receiver asks for what it misses, and gets the answer of the
sender's cache while the stripe is still live. The answer is accepted and delivers every requested
Cell that was cached exactly when the request is still outstanding and there was no transit hop, or
when no requested Cell was cached. -/
theorem repair_over_transit (codec : ErasureCodec) (geometry : FecGeometryV2) (pathMaximum : Nat)
    (context : TrainContext) (records : List TrainRecord) (train : PacketTrain)
    (sent : EncodedTrainV2) (key : StripeKey) (hops : Nat) (rx received asked : V2Rx)
    (table : ReassemblyTableV2) (decoder : CellStripeDecoder) (arrivals : List (Bytes × Ambient))
    (results : List (Except String ReassemblyOutput)) (asking : Ambient) (minimumAge : Duration)
    (maximumRequests : Nat) (batch : RepairRequestBatchV2) (request : RepairRequestV2)
    (cacheTtl : Duration) (cacheBytes cacheStripes : Nat) (fresh : RepairCacheV2)
    (calls : List CacheCall) (answeredAt now : Instant) (ambient : Nat → Ambient)
    (promised : codec.Mds geometry.parityCells) (valid : geometry.validate = .ok ())
    (parity : 0 < geometry.parityCells) (path : pathMaximum ≤ maxCellBytes)
    (maximum : protectedCellMaximum pathMaximum geometry.dataCells =
      .ok context.maximumDatagramSize)
    (built : buildPacketTrain context records = .ok train)
    (encoded : CellStripeEncoder.encode codec { geometry } train.cells pathMaximum = .ok sent)
    (striped : key.stripeId ≠ 0)
    (datagram : pathMaximum ≤ rx.negotiated.limits.maxDatagramSize.toNat)
    (cells : context.maximumCells = rx.negotiated.limits.maxCellsPerTrain.toNat)
    (data : (records.map fun record => record.data.length).sum ≤
      rx.negotiated.limits.maxTrainSize.toNat)
    (prepared : Prepared rx table decoder context train sent key)
    (arrived : ∀ arrival ∈ arrivals, ∃ datagram ∈ sent.ordered,
      stripeOf datagram.bytes = some key ∧ advanceHops hops datagram.bytes = .ok arrival.1)
    (receives : rx.acceptAll codec arrivals = .ok (results, received))
    (asks : received.repairRequestsBounded asking minimumAge maximumRequests = .ok (batch, asked))
    (derived : request ∈ batch.requests) (own : request.key = repairKeyOf key)
    (made : new cacheTtl cacheBytes cacheStripes = .ok fresh)
    (honest : ∀ bytes ∈ calls.flatMap CacheCall.inserted, stripeOf bytes = some key →
      ∃ datagram ∈ sent.ordered, datagram.bytes = bytes)
    (live : (arrivals.map (fun arrival => arrival.2.now) ++
      (List.range ((fresh.run calls).respond request answeredAt).1.cells.length).map
        fun index => (ambient index).now).IsChain fun earlier later =>
          later - earlier < decoder.ttl) :
    Repaired codec asked (fresh.run calls) request answeredAt now ambient ↔
      Repairable hops (asked.outstanding request.requestId now) request
        ((fresh.run calls).respond request answeredAt).1.cells := by
  cases arrivals with
  | nil =>
    -- a stripe of which nothing arrived is not asked for
    obtain ⟨-, rfl⟩ := ok_pair_inj receives
    refine absurd own (not_requested (fun epoch state other found isDecoder => ?_) asks
      request derived)
    by_cases same : epoch = context.sessionEpoch
    · rw [same, prepared.active] at found
      obtain rfl := Option.some.inj found
      obtain rfl := Option.some.inj isDecoder
      exact prepared.absent
    · exact prepared.elsewhere epoch state other found isDecoder same
  | cons first rest =>
  obtain ⟨firstSent, isSent, firstNamed, firstAdvanced⟩ := arrived first mem_cons_self
  obtain ⟨word, rfl, isContext, fromTrain, fits, inWord, total⟩ := sent_stripe promised valid parity
    path maximum built encoded isSent firstNamed striped
  have enough : hops < word.identity.overlayHopLimit.toNat := by
    obtain ⟨cell, shard, wire⟩ := Shard.of_mem (inWord firstSent isSent firstNamed)
    obtain ⟨sound, -, small⟩ := (CellV2.decode_ok_iff _ _).mp shard.decoded
    rw [wire] at firstAdvanced
    have limit := ((advanceHops_ok_iff cell hops first.1 sound small).mp firstAdvanced).1
    have same : cell.overlayHopLimit = word.identity.overlayHopLimit :=
      congrArg Prod.fst shard.shim_eq
    rwa [same] at limit
  have listening := prepared.listening word enough built isContext fromTrain fits total datagram
    cells data
  have shards : ∀ arrival ∈ first :: rest, arrival.1 ∈ (word.hop hops enough).datagrams := by
    intro arrival member
    obtain ⟨original, isOriginal, named, advanced⟩ := arrived arrival member
    exact word.mem_datagrams_hop enough (inWord original isOriginal named) advanced
  obtain ⟨gaps, later, meets⟩ := isChain_append.mp live
  -- the arrivals
  obtain ⟨outputs, after, table', decoder', last, run, listens, limits, only, stamp, progress⟩ :=
    acceptAll_progress promised (first :: rest) rx table decoder 0 [] [] listening shards
      (fun arrival _ stripe found => by
        rw [show decoder.stripes.lookup (word.hop hops enough).key = none from prepared.absent]
          at found
        cases found) gaps (.fresh prepared.absent prepared.unfinished)
  obtain ⟨-, rfl⟩ := ok_pair_inj (run.symm.trans receives)
  -- the request
  have epoch : word.identity.sessionEpoch = context.sessionEpoch :=
    congrArg TrainIdentity.sessionEpoch isContext
  obtain ⟨decoder'', still, same, kept, sound⟩ := repairRequests_progress listens progress
    (fun other state found isState isDecoder foreign => by
      rw [only.others other foreign] at isState
      exact prepared.elsewhere other state found isState isDecoder (epoch ▸ foreign)) asks
  obtain ⟨⟨stripe, found⟩, lacking⟩ := sound request derived own
  -- the response
  have lifetime : decoder''.ttl = decoder.ttl := same.ttl.trans limits.ttl
  refine repaired_iff promised still kept found own lacking ?_ ?_
  · intro sequence bytes held
    rw [own] at held
    refine cached_of_honest made (fun bytes member named => ?_) held
    obtain ⟨original, isOriginal, rfl⟩ := honest bytes member named
    exact inWord original isOriginal named
  rw [lifetime, isChain_cons]
  refine ⟨fun reading isFirst => meets last ?_ reading isFirst, later⟩
  rw [stamp, getLast?_map]
  cases final : (first :: rest).getLast? with
  | none => simp at final
  | some arrival => rfl

/-! ### One lost Cell -/

def lossySent : EncodedTrainV2 :=
  (CellStripeEncoder.encode xorCodec { geometry := pairGeometry }
    (trainOf smallContext threeCells).cells 113).toOption.getD {}

/-- The stripe of its first two Cells. -/
def lossyKey : StripeKey where
  class' := .bulk
  sessionEpoch := 1
  routeLabel := 2
  trainId := 3
  stripeId := 33554433

variable (hops : Nat)

/-- Of the stripe only the first Cell arrives, behind some transit hops. -/
def lossyArrivals : List (Bytes × Ambient) :=
  (lossySent.systematic.take 1).filterMap fun bytes =>
    (advanceHops hops bytes).toOption.map fun advanced => (advanced, calm 0)

def lossyReceived : List (Except String ReassemblyOutput) × V2Rx :=
  (localRx.acceptAll xorCodec (lossyArrivals hops)).toOption.getD ([], localRx)

def lossyAsked : RepairRequestBatchV2 × V2Rx :=
  ((lossyReceived hops).2.repairRequestsBounded (calm 10) 5 4).toOption.getD ({}, localRx)

/-- The request for the second Cell. -/
def lossyRequest : RepairRequestV2 where
  key := repairKeyOf lossyKey
  requestId := 1
  missingSequences := [1]

/-- The sender caches its data Cells. -/
def lossyCalls : List CacheCall := [.insertAt ⟨id, fun _ => .rfl⟩ lossySent.systematic 0]

def emptyCache : RepairCacheV2 := { ttl := 1000, maximumBytes := 4096, maximumStripes := 4 }

/-- What the receiver says to the answer, and how many Cells it got from it. -/
def lossyAnswer : Option (Except String Bool × Nat) :=
  let response := ((emptyCache.run lossyCalls).respond lossyRequest 15).1
  let rx := (lossyAsked hops).2
  (rx.acceptRepairResponseAt xorCodec response 20 fun _ => calm 20).toOption.map
    fun answer => (answer.1.map Option.isSome,
      (rx.repairedCells xorCodec response 20 fun _ => calm 20).length)

theorem lossy_evaluated :
    (CellStripeEncoder.encode xorCodec { geometry := pairGeometry }
        (trainOf smallContext threeCells).cells 113).toOption.isSome ∧
      (localRx.acceptAll xorCodec (lossyArrivals 0)).toOption.isSome ∧
      ((lossyReceived 0).2.repairRequestsBounded (calm 10) 5 4).toOption.isSome ∧
      lossyRequest ∈ (lossyAsked 0).1.requests ∧
      (lossyArrivals 1).length = 1 ∧ (lossyAsked 1).1.requests = [lossyRequest] ∧
      ((emptyCache.run lossyCalls).respond lossyRequest 15).1.cells =
        (lossySent.systematic.drop 1).take 1 ∧
      lossyAnswer 0 = some (.ok true, 1) ∧
      lossyAnswer 1 = some (.error "V2 FEC stripe crossed overlay hop generations", 0) := by
  refine ⟨?_, ?_, ?_, ?_, ?_, ?_, ?_, ?_, ?_⟩ <;> decide +kernel

/-- Where the Cells of these runs come from, and that the stripe outlives them and fits. -/
theorem lossy_stripe : (∀ arrival ∈ lossyArrivals 0, ∃ datagram ∈ lossySent.ordered,
      stripeOf datagram.bytes = some lossyKey ∧
        advanceHops 0 datagram.bytes = .ok arrival.1) ∧
    (∀ bytes ∈ lossyCalls.flatMap CacheCall.inserted, stripeOf bytes = some lossyKey →
      ∃ datagram ∈ lossySent.ordered, datagram.bytes = bytes) ∧
    ((lossyArrivals 0).map (fun arrival => arrival.2.now) ++
      (List.range ((emptyCache.run lossyCalls).respond lossyRequest 15).1.cells.length).map
        fun _ => (calm 20).now).IsChain
          (fun earlier later => later - earlier < localDecoder.ttl) ∧
    ((lossySent.ordered.filter fun datagram => stripeOf datagram.bytes = some lossyKey).map
      fun datagram => datagram.bytes.length).sum ≤ localDecoder.maximumBufferedBytes := by
  refine ⟨?_, ?_, ?_, ?_⟩ <;> decide +kernel

/-- The same Cell is lost and asked for with and without a transit hop on the path. Without the hop
the cached Cell is taken; behind it the answer is refused and nothing is delivered. -/
theorem repair_crosses_hops :
    (lossyArrivals 1).length = 1 ∧ (lossyAsked 1).1.requests = [lossyRequest] ∧
      ((emptyCache.run lossyCalls).respond lossyRequest 15).1.cells =
        (lossySent.systematic.drop 1).take 1 ∧
      lossyAnswer 0 = some (.ok true, 1) ∧
      lossyAnswer 1 = some (.error "V2 FEC stripe crossed overlay hop generations", 0) ∧
      ¬ Repaired xorCodec (lossyAsked 1).2 (emptyCache.run lossyCalls) lossyRequest
        15 20 (fun _ => calm 20) := by
  obtain ⟨-, -, -, -, arrived, asked, found, direct, crossed⟩ := lossy_evaluated
  refine ⟨arrived, asked, found, direct, crossed, ?_⟩
  rintro ⟨⟨answer, after, accepted⟩, -⟩
  have refused := crossed
  simp only [lossyAnswer, accepted, Except.toOption, Option.map_some, Option.some.injEq,
    Prod.mk.injEq, Except.map, reduceCtorEq, false_and] at refused

theorem localRx_prepared :
    Prepared localRx localTable localDecoder smallContext (trainOf smallContext threeCells)
      lossySent lossyKey where
  active := AList.lookup_insert _
  tableInvariant := new_invariant localTable.limits localTable rfl
  tableEpoch := rfl
  perTrain := rfl
  consistent := by
    rintro timed (slot | found)
    · cases slot
    · cases found
  decoderInvariant := withLimits_invariant 1 defaultReassemblyTimeout 4 131070 localDecoder rfl
  decoderEpoch := rfl
  absent := rfl
  unfinished := rfl
  elsewhere := by
    intro epoch state other found isDecoder foreign
    rw [show localRx.epochs.lookup epoch = none from AList.lookup_insert_ne foreign] at found
    cases found
  budget := lossy_stripe.2.2.2

theorem lossySent_encoded :
    CellStripeEncoder.encode xorCodec { geometry := pairGeometry }
      (trainOf smallContext threeCells).cells 113 = .ok lossySent := by
  exact eq_ok_getD _ lossy_evaluated.1

theorem lossyReceived_run : localRx.acceptAll xorCodec (lossyArrivals 0) =
      .ok ((lossyReceived 0).1, (lossyReceived 0).2) := by
  rw [Prod.mk.eta]
  exact eq_ok_getD _ lossy_evaluated.2.1

theorem lossyAsked_run : (lossyReceived 0).2.repairRequestsBounded (calm 10) 5 4 =
      .ok ((lossyAsked 0).1, (lossyAsked 0).2) := by
  rw [Prod.mk.eta]
  exact eq_ok_getD _ lossy_evaluated.2.2.1

theorem repair_over_transit_direct :
    Repaired xorCodec (lossyAsked 0).2 (emptyCache.run lossyCalls) lossyRequest 15 20
        (fun _ => calm 20) ↔
      Repairable 0 ((lossyAsked 0).2.outstanding lossyRequest.requestId 20) lossyRequest
        ((emptyCache.run lossyCalls).respond lossyRequest 15).1.cells :=
  repair_over_transit xorCodec pairGeometry 113 smallContext threeCells
    (trainOf smallContext threeCells) lossySent lossyKey 0 localRx (lossyReceived 0).2
    (lossyAsked 0).2 localTable localDecoder (lossyArrivals 0) (lossyReceived 0).1 (calm 10) 5 4
    (lossyAsked 0).1 lossyRequest 1000 4096 4 emptyCache lossyCalls 15 20 (fun _ => calm 20)
    xorCodec_mds rfl (by decide) (by decide) rfl threeCells_built lossySent_encoded
    (by decide) (by decide) rfl (by decide) localRx_prepared lossy_stripe.1 lossyReceived_run
    lossyAsked_run lossy_evaluated.2.2.2.1 rfl rfl lossy_stripe.2.1 lossy_stripe.2.2.1

end Ironet.Dataplane
