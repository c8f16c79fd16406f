import Ironet.Cell.RoundTrip
import Ironet.Fec.RoundTrip
import Ironet.Fec.DecoderInvariant

/-!
# Panics on the receive path

`try_recover` copies received Cells into symbols whose size some parity Cell announced, and reads
the hop bytes of restored Cells whose length a parity Cell announced. Nothing in the decoder
compares the two sources, so a well-formed parity Cell can make a slice run out of range. The
decoder is safe in every run in which they agree: restored Cells have room for a header, and no
data Cell is longer than the symbol of its stripe.
-/
namespace Ironet.Fec
open Support Cell CellStripeDecoder StripeKey

/-! ### Agreement of the two sources -/

/-- The geometry of a stripe, if known, covers a header and every Cell received so far. -/
structure Covers (geometry : ParityPayload) (originals : HashMap UInt16 Bytes) : Prop where
  table : geometry.lengths.length = geometry.dataCells
  header : headerLen ≤ geometry.symbolBytes
  lengths : ∀ length ∈ geometry.lengths,
    headerLen ≤ length.toNat ∧ length.toNat ≤ geometry.symbolBytes
  originals : ∀ sequence original, originals.lookup sequence = some original →
    original.length ≤ geometry.symbolBytes

def Agrees (geometry : Option ParityPayload) (originals : HashMap UInt16 Bytes) : Prop :=
  ∀ known, geometry = some known → Covers known originals

variable (decoder : CellStripeDecoder)

/-- What a peer has to respect: a data Cell fits the symbol of its stripe, and a parity Cell
announces Cells with a header and a symbol that is as long as every data Cell of the stripe. -/
def Fits (cell : CellV2) (bytes : Bytes) : Prop :=
  match cell.body with
  | .records _ => ∀ stripe geometry,
      decoder.stripes.lookup (StripeKey.fromCell cell) = some stripe →
      stripe.geometry = some geometry → bytes.length ≤ geometry.symbolBytes
  | .parity payload => ∀ metadata, decodeParityPayload payload = .ok metadata →
      (∀ length ∈ metadata.lengths, headerLen ≤ length.toNat) ∧
      ∀ stripe, decoder.stripes.lookup (StripeKey.fromCell cell) = some stripe →
        ∀ sequence original, stripe.originals.lookup sequence = some original →
          original.length ≤ metadata.symbolBytes

def SafeCall : DecoderCall → Prop
  | .pushAt bytes _ => ∀ cell, CellV2.decode bytes = .ok cell → Fits decoder cell bytes
  | _ => True

/-- Every call of the run is safe in the state it meets. -/
def SafeRun (codec : ErasureCodec) : CellStripeDecoder → List DecoderCall → Prop
  | _, [] => True
  | decoder, next :: rest => SafeCall decoder next ∧
      ∀ after, decoder.call codec next = .ok after → SafeRun codec after rest

variable {decoder : CellStripeDecoder} (codec : ErasureCodec)

/-! ### Recovery on an agreeing stripe -/

variable {geometry : ParityPayload} {originals : HashMap UInt16 Bytes}

section
variable (covers : Covers geometry originals)
include covers

theorem expandSymbol_returns {original : Bytes} (fits : original.length ≤ geometry.symbolBytes) :
    Returns (expandSymbol geometry.symbolBytes original) fun _ => True := by
  have header : 36 ≤ geometry.symbolBytes := covers.header
  have room : overlayHopsOffset <
      (original ++ List.replicate (geometry.symbolBytes - original.length) 0).length := by
    rw [List.length_append, List.length_replicate]
    unfold overlayHopsOffset
    omega
  rw [expandSymbol, if_pos fits, normalizeRoutingShim, if_pos room]
  exact .ok trivial

/-- A restored symbol has the announced length, and so room for the hop bytes. -/
theorem restoredBytes_returns (shim : RoutingShim)
    {index : Nat} {symbol : Bytes} (inside : index < geometry.dataCells)
    (width : symbol.length = geometry.symbolBytes) :
    Returns (restoredBytes geometry shim index symbol) fun _ => True := by
  have entry : index < geometry.lengths.length := covers.table ▸ inside
  obtain ⟨least, most⟩ := covers.lengths _ (List.getElem_mem entry)
  have room : overlayHopsOffset < (symbol.take geometry.lengths[index].toNat).length := by
    rw [List.length_take, width]
    unfold overlayHopsOffset
    unfold headerLen at least
    omega
  rw [restoredBytes, List.getElem?_eq_getElem entry]
  dsimp only
  rw [if_pos (width ▸ most), restoreShim, if_pos room]
  exact .ok trivial

end

/-- Recovery on an agreeing stripe does not panic. -/
theorem protects_agrees {codec : ErasureCodec} (promised : codec.WellFormed) :
    Protects codec (fun _ => False) Agrees where
  bare := by rintro _ ⟨⟩
  copies stripe geometry agrees shaped := by
    have covers := agrees geometry shaped
    refine ⟨fun sequence original held => ?_, fun _ _ restored decoded entry member shim => ?_⟩
    · exact (expandSymbol_returns covers (covers.originals sequence original held)).yields
    · obtain ⟨inside, width⟩ := promised.restored _ _ _ _ _ _ decoded entry member
      exact (restoredBytes_returns covers shim inside width).yields

/-! ### Safe runs -/

variable {cell : CellV2} {bytes : Bytes} {now : Instant}

theorem storable_of_fits (fits : Fits decoder cell bytes) :
    Storable Agrees decoder cell bytes := by
  intro stripe edited agrees known change geometry shaped
  unfold StoreEdit at change
  unfold Fits at fits
  cases body : cell.body with
  | records segments =>
    simp only [body] at change fits
    subst change
    have covers := agrees geometry shaped
    refine { covers with originals := fun sequence original held => ?_ }
    rcases HashMap.lookup_insert_eq_some.mp held with ⟨rfl, rfl⟩ | ⟨-, earlier⟩
    · rcases known with found | ⟨bare, -⟩
      · exact fits stripe geometry found shaped
      · cases bare.symm.trans shaped
    · exact covers.originals sequence original earlier
  | parity payload =>
  simp only [body] at change fits
  obtain ⟨metadata, decoded, sameOriginals, sameGeometry | newGeometry⟩ := change
  · rw [sameOriginals]
    exact agrees geometry (sameGeometry ▸ shaped)
  -- the geometry of this Cell: valid on its own, and long enough by assumption
  obtain rfl : metadata = geometry := Option.some.inj (newGeometry.symm.trans shaped)
  obtain ⟨headers, symbols⟩ := fits metadata decoded
  have valid := (decodeParityPayload_valid decoded).1
  have nonempty : 0 < metadata.lengths.length := by
    have counts := valid.dataCells.1
    rw [valid.lengths]
    omega
  have first := List.getElem_mem nonempty
  refine ⟨valid.lengths, (headers _ first).trans (valid.bounds _ first).2, ?_, ?_⟩
  · exact fun length member => ⟨headers length member, (valid.bounds length member).2⟩
  rw [sameOriginals]
  rcases known with found | ⟨-, empty⟩
  · exact symbols stripe found
  · intro sequence original held
    rw [empty] at held
    cases held

theorem run_safe {codec : ErasureCodec} (promised : codec.WellFormed) (decoder : CellStripeDecoder)
    (calls : List DecoderCall) (valid : DecoderInvariant decoder) (agree : Every Agrees decoder)
    (safe : SafeRun codec decoder calls) :
    Returns (decoder.run codec calls) DecoderInvariant := by
  induction calls generalizing decoder with
  | nil => exact .ok valid
  | cons next rest ih =>
  obtain ⟨now, later⟩ := safe
  have storable : ∀ bytes time cell, next = .pushAt bytes time →
      CellV2.decode bytes = .ok cell → Storable Agrees decoder cell bytes := by
    rintro bytes time cell rfl decoded
    exact storable_of_fits (now cell decoded)
  obtain ⟨after, run, afterValid, afterAgree⟩ :=
    (call_keeps (protects_agrees promised) valid agree storable).returns
  simp only [CellStripeDecoder.run, run, ok_bind]
  exact ih after afterValid afterAgree (later after run)

/-! ### Inconsistent parity -/

/-- The parity Cell does not parse, or contradicts its stripe id, the geometry of its stripe or a
recovery symbol that is there already. -/
def Inconsistent (decoder : CellStripeDecoder) (cell : CellV2) (payload : Bytes) : Prop :=
  ∀ metadata, decodeParityPayload payload = .ok metadata →
    decodeStripeId cell.stripeId ≠ .ok (metadata.firstSequence, metadata.dataCells) ∨
    ∃ stripe, decoder.stripes.lookup (StripeKey.fromCell cell) = some stripe ∧
      ((∃ existing, stripe.geometry = some existing ∧ sameGeometry existing metadata = false) ∨
        ∃ existing, stripe.recoveries.lookup metadata.recoveryIndex = some existing ∧
          existing ≠ metadata.recovery)

theorem storeParity_inconsistent {shape : UInt16 × Nat} {payload : Bytes} {stripe : DecodeStripe}
    (found : decoder.stripes.lookup (fromCell cell) = some stripe)
    (identified : decodeStripeId cell.stripeId = .ok shape)
    (bad : Inconsistent decoder cell payload) :
    ∃ message after, decoder.storeParity (fromCell cell) shape payload =
      .ok (.error message, after) := by
  unfold storeParity
  split
  · exact ⟨_, _, rfl⟩
  rename_i metadata decoded
  split
  · rename_i same
    obtain ⟨count, first⟩ := same
    rcases bad metadata decoded with disagrees | ⟨held, lookedUp, conflict⟩
    · rw [identified, count, first] at disagrees
      exact absurd rfl disagrees
    obtain rfl : stripe = held := Option.some.inj (found.symm.trans lookedUp)
    simp only [found]
    rcases conflict with ⟨existing, shaped, differs⟩ | ⟨existing, stored, differs⟩
    · simp only [shaped, differs]
      exact ⟨_, _, rfl⟩
    -- whatever the geometry says, the stored symbol differs
    have rejected : ∀ self : CellStripeDecoder, ∀ relabelled : DecodeStripe,
        relabelled.recoveries = stripe.recoveries →
        ∃ message after, self.storeRecovery (fromCell cell) relabelled metadata =
          .ok (.error message, after) := by
      intro self relabelled sameRecoveries
      unfold storeRecovery
      rw [sameRecoveries, stored]
      dsimp only
      rw [if_neg differs]
      exact ⟨_, _, rfl⟩
    cases stripe.geometry with
    | none => exact rejected _ _ rfl
    | some geometry =>
      dsimp only
      split
      · exact rejected _ _ rfl
      · exact ⟨_, _, rfl⟩
  · exact ⟨_, _, rfl⟩

theorem pushAt_inconsistent {payload : Bytes} (valid : DecoderInvariant decoder)
    (decoded : CellV2.decode bytes = .ok cell) (parity : cell.body = .parity payload)
    (pending : decoder.completed.lookup (fromCell cell) = none)
    (bad : Inconsistent (decoder.expire now).2 cell payload) :
    ∃ message after, decoder.pushAt codec bytes now = .ok (.error message, after) := by
  obtain ⟨core, evicted⟩ := expire_core decoder now valid.toDecoderCore
  rw [← evicted.completed] at pending
  unfold pushAt
  simp only [decoded, parity]
  split
  · split
    · exact ⟨_, _, rfl⟩
    generalize (decoder.expire now).2 = swept at bad core pending
    unfold pushCell
    dsimp only
    split
    · exact ⟨_, _, rfl⟩
    rename_i shape identified
    split
    · exact ⟨_, _, rfl⟩
    rw [pending]
    cases ensured : swept.ensureStripe (fromCell cell) now
        (cell.overlayHopLimit, cell.overlayHops) with
    | mk result opened =>
    cases result with
    | error message => exact ⟨_, _, rfl⟩
    | ok _ =>
    obtain ⟨-, -, -, -, isLive, -⟩ := ensureStripe_core core pending ensured
    obtain ⟨stripe, found, -⟩ := isLive rfl
    have stillBad : Inconsistent opened cell payload := by
      intro metadata parsed
      refine (bad metadata parsed).imp_right ?_
      rintro ⟨stripe, lookedUp, conflict⟩
      -- a live stripe is not touched by `ensure_stripe`
      have same : opened = swept := by
        unfold ensureStripe at ensured
        simp only [lookedUp] at ensured
        split at ensured <;> cases ensured
        rfl
      exact ⟨stripe, same ▸ lookedUp, conflict⟩
    obtain ⟨message, after, rejected⟩ :=
      storeParity_inconsistent found identified stillBad
    refine ⟨message, after, ?_⟩
    simp only [pushStriped, store, parity, rejected, ok_bind]
    rfl
  · exact ⟨_, _, rfl⟩

/-! ### The receive path -/

/-- A run whose pushes respect the agreement does not panic, and afterwards inconsistent parity of
a pending stripe is reported as an error. -/
theorem receive_path_panic_free (codec : ErasureCodec) (promised : codec.WellFormed)
    (sessionEpoch : UInt32) (ttl : Duration) (maximumStripes maximumBufferedBytes : Nat)
    (fresh : CellStripeDecoder)
    (made : withLimits sessionEpoch ttl maximumStripes maximumBufferedBytes = .ok fresh)
    (calls : List DecoderCall) (safe : SafeRun codec fresh calls) :
    ∃ decoder, fresh.run codec calls = .ok decoder ∧
      ∀ bytes now cell payload, CellV2.decode bytes = .ok cell → cell.body = .parity payload →
        decoder.completed.lookup (StripeKey.fromCell cell) = none →
        Inconsistent (decoder.expire now).2 cell payload →
        ∃ message after, decoder.pushAt codec bytes now = .ok (.error message, after) := by
  have valid := withLimits_invariant sessionEpoch ttl maximumStripes maximumBufferedBytes fresh made
  have agree : Every Agrees fresh := by
    simp only [withLimits, do_eq_ok] at made
    obtain ⟨-, -, -, -, rfl⟩ := made
    intro key stripe found
    cases found
  obtain ⟨decoder, run, afterValid⟩ := run_safe promised fresh calls valid agree safe
  refine ⟨decoder, run, ?_⟩
  intro bytes now cell payload decoded parity pending bad
  exact pushAt_inconsistent codec afterValid decoded parity pending bad

/-- Parity with a symbol of two bytes; it parses. -/
def tinyParity : CellV2 := { firstData with body := .parity (pairParity 1 2 [9, 9]) }

theorem fairParity_parses :
    decodeParityPayload (pairParity 53 54 pairSymbol) = .ok {
      dataCells := 2, parityCells := 1, recoveryIndex := 0, firstSequence := 0, symbolBytes := 54,
      lengths := [53, 53], recovery := pairSymbol } := by
  decide +kernel

theorem receive_path_panic_free_pair : ∃ decoder, sampleDecoder.run ErasureCodec.xorCodec
        [.pushAt firstData.wire 0, .pushAt fairParity.wire 1] = .ok decoder ∧
      ∀ bytes now cell payload, CellV2.decode bytes = .ok cell → cell.body = .parity payload →
        decoder.completed.lookup (StripeKey.fromCell cell) = none →
        Inconsistent (decoder.expire now).2 cell payload →
        ∃ message after, decoder.pushAt ErasureCodec.xorCodec bytes now =
          .ok (.error message, after) := by
  refine receive_path_panic_free ErasureCodec.xorCodec ErasureCodec.xorCodec_wellFormed 1
    1000 4 4096
    sampleDecoder rfl _ ⟨?_, fun after ran => ⟨?_, fun _ _ => trivial⟩⟩
  · -- the first Cell meets an empty decoder
    intro cell decoded
    obtain rfl : firstData = cell := Except.ok.inj decoded
    intro stripe geometry found
    cases found
  intro cell decoded
  obtain rfl : fairParity = cell := Except.ok.inj decoded
  obtain rfl := Except.ok.inj ran
  intro metadata parsed
  obtain rfl := Except.ok.inj (fairParity_parses.symm.trans parsed)
  refine ⟨by decide, fun stripe found sequence original held => ?_⟩
  obtain rfl := Option.some.inj found
  rcases HashMap.lookup_insert_eq_some.mp held with ⟨-, rfl⟩ | ⟨-, none⟩
  · decide
  · cases none

/-- Two datagrams that decode, with a parity payload that parses, end the decoder: the data Cell
does not fit the symbol the parity Cell announces. -/
theorem tiny_symbol_panics :
    withLimits 1 1000 4 4096 = .ok sampleDecoder ∧
      CellV2.decode firstData.wire = .ok firstData ∧
      CellV2.decode tinyParity.wire = .ok tinyParity ∧
      decodeParityPayload (pairParity 1 2 [9, 9]) = .ok {
        dataCells := 2, parityCells := 1, recoveryIndex := 0, firstSequence := 0, symbolBytes := 2,
        lengths := [1, 1], recovery := [9, 9] } ∧
      sampleDecoder.run ErasureCodec.xorCodec
        [.pushAt firstData.wire 0, .pushAt tinyParity.wire 1] = .error .sliceIndexOutOfRange := by
  refine ⟨rfl, by decide, by decide, by decide, ?_⟩
  apply eq_error_of_failure
  decide

end Ironet.Fec
