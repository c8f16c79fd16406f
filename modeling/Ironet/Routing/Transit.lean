import Ironet.Cell.Transit
import Ironet.Routing.Snapshot

/-!
# Transit through compiled views

A chain of views that all forward a Cell changes its two hop bytes and nothing else, and ends where
the limit is used up. The report of a Cell that expired is itself a valid record: the hops that the
Cell would have crossed are then exactly the limit it entered the overlay with.
-/
namespace Ironet.Routing
open Support Ironet.Mesh Ironet.Cell CellRouteHeaderV2

/-! ### The expiry report -/

namespace OamTtlExpiredV2

def oamMagic : Mesh.Bytes := [0x4f, 0x45, 0x56, 0x32]
def oamVersion : UInt8 := 1
def oamTtlExpired : UInt8 := 1
def oamTtlExpiredLen : Nat := 72

variable (self : OamTtlExpiredV2)

def validate : Except String Unit := do
  ensure (self.snapshotGeneration ≠ 0) "V2 OAM generation zero is reserved"
  ensure (self.routeEpoch ≠ 0) "V2 OAM route epoch zero is reserved"
  let _ ← RouteLabelV2.new self.routeLabel
  let _ ← AdjacencyIdV2.new self.incoming
  ensure (self.trainId ≠ 0) "V2 OAM train ID zero is reserved"
  ensure (self.ingressHopLimit ≠ 0) "V2 OAM ingress hop limit is zero"
  ensure (self.ingressHopLimit.toNat ≤ self.traversedHops.toNat)
    "V2 TTL-expired OAM was emitted before expiry"

/-- The fields behind the reserved ones. -/
def fields : Mesh.Bytes :=
  putU64 self.snapshotGeneration ++ putU32 self.routeEpoch ++ putU32 self.routeLabel ++
    putU64 self.trainId ++ putU16 self.cellSequence ++ [self.ingressHopLimit] ++
    [self.traversedHops] ++ putU32 self.incoming ++ self.reporter.bytes

def encode : Except String Mesh.Bytes := do
  self.validate
  .ok (oamMagic ++ [oamVersion] ++ [oamTtlExpired] ++ putU16 0 ++ self.fields)

def decode (bytes : Mesh.Bytes) : Except String OamTtlExpiredV2 := do
  ensure (bytes.length = oamTtlExpiredLen) "invalid V2 OAM length"
  ensure (slice bytes 0 4 = oamMagic) "invalid V2 OAM magic"
  ensure (byteAt bytes 4 = oamVersion) "unsupported V2 OAM version"
  ensure (byteAt bytes 5 = oamTtlExpired) "unsupported V2 OAM reason"
  ensure (slice bytes 6 8 = [0, 0]) "non-zero V2 OAM reserved field"
  let reporter ← key32At bytes 40
  let value : OamTtlExpiredV2 := {
    snapshotGeneration := getU64 (slice bytes 8 16)
    routeEpoch := getU32 (slice bytes 16 20)
    routeLabel := getU32 (slice bytes 20 24)
    trainId := getU64 (slice bytes 24 32)
    cellSequence := getU16 (slice bytes 32 34)
    ingressHopLimit := byteAt bytes 34
    traversedHops := byteAt bytes 35
    incoming := getU32 (slice bytes 36 40)
    reporter }
  value.validate
  .ok value

variable {self : OamTtlExpiredV2}

theorem validate_eq_ok_iff :
    self.validate = .ok () ↔ self.snapshotGeneration ≠ 0 ∧ self.routeEpoch ≠ 0 ∧
      self.routeLabel ≠ 0 ∧ self.incoming ≠ 0 ∧ self.trainId ≠ 0 ∧ self.ingressHopLimit ≠ 0 ∧
        self.ingressHopLimit.toNat ≤ self.traversedHops.toNat := by
  simp [validate, RouteLabelV2.new, AdjacencyIdV2.new, do_eq_ok]

/-- A valid report comes back from the wire. -/
theorem encode_decode (valid : self.validate = .ok ()) : (self.encode >>= decode) = .ok self := by
  obtain ⟨bytes, isBytes⟩ : ∃ bytes, bytes =
      oamMagic ++ [oamVersion] ++ [oamTtlExpired] ++ putU16 0 ++ self.fields := ⟨_, rfl⟩
  have length : bytes.length = 72 := by
    simp [isBytes, fields, oamMagic, self.reporter.width]
  have whole : slice bytes 0 72 = bytes := by rw [← length, slice_full]
  have parts : slice bytes 0 72 = [oamMagic, [oamVersion], [oamTtlExpired], putU16 0,
      putU64 self.snapshotGeneration, putU32 self.routeEpoch, putU32 self.routeLabel,
      putU64 self.trainId, putU16 self.cellSequence, [self.ingressHopLimit], [self.traversedHops],
      putU32 self.incoming, self.reporter.bytes].flatten := by
    rw [whole, isBytes]
    simp [fields]
  have four : oamMagic.length = 4 := rfl
  rw [slice_eq_flatten_iff (by simp [four, self.reporter.width]) (by omega)] at parts
  simp only [FieldsAt, four, self.reporter.width, List.length_cons, List.length_nil, putU16_length,
    putU32_length, putU64_length, Nat.reduceAdd, and_true] at parts
  obtain ⟨isMagic, isVersion, isReason, reserved, rest⟩ := parts
  simp (disch := omega) only [slice_eq_singleton_iff, slice_eq_putU16_iff, slice_eq_putU32_iff,
    slice_eq_putU64_iff] at isVersion isReason rest
  obtain ⟨generation, epoch, label, train, sequence, ingress, traversed, incoming, reporter⟩ := rest
  rw [encode, valid, ok_bind, ok_bind, ← isBytes]
  simp only [decode, do_eq_ok, key32At_eq_ok_iff]
  refine ⟨length, isMagic, isVersion, isReason, reserved, self.reporter, reporter, ?_⟩
  rw [generation, epoch, label, train, sequence, ingress, traversed, incoming]
  exact ⟨valid, rfl⟩

end OamTtlExpiredV2

/-! ### One view -/

variable {snapshot : DataplaneSnapshotV2} {incoming : AdjacencyIdV2} {bytes : Mesh.Bytes}

variable {disposition : TransitDispositionV2}

theorem dispatchCell_cases (dispatched : snapshot.dispatchCell incoming bytes = .ok disposition) :
    incoming ≠ 0 ∧ ∃ header, decode bytes = .ok header ∧
      ((snapshot.labels.lookup header.routeLabel = none ∧ disposition = .drop .unknownLabel) ∨
        ∃ entry, snapshot.labels.lookup header.routeLabel = some entry ∧
          ((entry.routeEpoch ≠ header.sessionEpoch ∧ disposition = .drop .staleRouteEpoch) ∨
            (entry.routeEpoch = header.sessionEpoch ∧
              snapshot.dispatchAction incoming bytes header entry = .ok disposition))) := by
  simp only [DataplaneSnapshotV2.dispatchCell, AdjacencyIdV2.new, do_eq_ok] at dispatched
  obtain ⟨-, ⟨nonzero, -⟩, header, decoded, found⟩ := dispatched
  refine ⟨nonzero, header, decoded, ?_⟩
  cases known : snapshot.labels.lookup header.routeLabel with
  | none =>
    rw [known] at found
    exact .inl ⟨rfl, (Except.ok.inj found).symm⟩
  | some entry =>
  rw [known] at found
  refine .inr ⟨entry, rfl, ?_⟩
  dsimp only at found
  split at found
  · rename_i stale
    exact .inl ⟨stale, (Except.ok.inj found).symm⟩
  · rename_i current
    exact .inr ⟨not_not.mp current, found⟩

theorem dispatchCell_forward {nextHop : AdjacencyIdV2} {forwarded : ForwardedCellV2}
    (dispatched : snapshot.dispatchCell incoming bytes = .ok (.forward nextHop forwarded)) :
    advanceOverlayHop bytes = .ok forwarded := by
  obtain ⟨-, header, -, ⟨-, none⟩ | ⟨entry, -, ⟨-, none⟩ | ⟨-, acted⟩⟩⟩ :=
    dispatchCell_cases dispatched
  · cases none
  · cases none
  unfold DataplaneSnapshotV2.dispatchAction at acted
  split at acted
  · split at acted <;> cases acted
  split at acted
  · cases acted
  split at acted
  · cases acted
  split at acted
  · cases acted
  · simp only [do_eq_ok, TransitDispositionV2.forward.injEq] at acted
    obtain ⟨cell, advanced, -, rfl⟩ := acted
    exact advanced

/-- The action of a current label never leaves the Cell to another view. -/
theorem dispatchAction_answered {header : CellRouteHeaderV2} {entry : LabelRouteV2}
    (acted : snapshot.dispatchAction incoming bytes header entry = .ok disposition) :
    disposition.unanswered = false := by
  unfold DataplaneSnapshotV2.dispatchAction at acted
  split at acted
  · split at acted <;> obtain rfl := Except.ok.inj acted <;> rfl
  split_ifs at acted
  · obtain rfl := Except.ok.inj acted
    rfl
  · obtain rfl := Except.ok.inj acted
    rfl
  · obtain rfl := Except.ok.inj acted
    rfl
  · simp only [do_eq_ok] at acted
    obtain ⟨cell, -, rfl⟩ := acted
    rfl

variable {oam : OamTtlExpiredV2}

section
variable (dispatched : snapshot.dispatchCell incoming bytes = .ok (.ttlExpired oam))
include dispatched

theorem dispatchCell_ttlExpired : incoming ≠ 0 ∧ ∃ header entry, decode bytes = .ok header ∧
      entry.routeEpoch = header.sessionEpoch ∧ header.overlayHopLimit.toNat ≤ 1 ∧
        oam = snapshot.ttlExpired incoming entry header := by
  obtain ⟨nonzero, header, decoded, ⟨-, none⟩ | ⟨entry, -, ⟨-, none⟩ | ⟨current, acted⟩⟩⟩ :=
    dispatchCell_cases dispatched
  · cases none
  · cases none
  refine ⟨nonzero, header, entry, decoded, current, ?_⟩
  unfold DataplaneSnapshotV2.dispatchAction at acted
  split at acted
  · split at acted <;> cases acted
  split at acted
  · cases acted
  split at acted
  · cases acted
  · split at acted
    · rename_i expired
      exact ⟨expired, (TransitDispositionV2.ttlExpired.inj (Except.ok.inj acted)).symm⟩
    · simp only [do_eq_ok, reduceCtorEq, and_false, exists_false] at acted

/-- The report of an expired Cell is valid, and counts the limit it came with. -/
theorem ttlExpired_valid : oam.validate = .ok () ∧ ∀ header, decode bytes = .ok header →
      oam.traversedHops.toNat = header.ingressHopLimit := by
  obtain ⟨nonzero, header, entry, decoded, current, expired, rfl⟩ :=
    dispatchCell_ttlExpired dispatched
  obtain ⟨valid, -⟩ := (decode_ok_iff _ _).mp decoded
  have limit : header.overlayHopLimit.toNat = 1 := by
    have positive := valid.hopLimit
    rw [Ne, ← UInt8.toNat_inj, UInt8.toNat_zero] at positive
    omega
  have accounted := valid.hops
  have ingress : header.ingressHopLimit = header.overlayHops.toNat + 1 := by
    unfold ingressHopLimit
    omega
  have small : min 255 (header.overlayHops.toNat + 1) = header.overlayHops.toNat + 1 := by omega
  have byte : (UInt8.ofNat (header.overlayHops.toNat + 1)).toNat = header.overlayHops.toNat + 1 :=
    UInt8.toNat_ofNat_of_lt' (by simp only [UInt8.size]; omega)
  constructor
  · refine OamTtlExpiredV2.validate_eq_ok_iff.mpr ⟨snapshot.generation_ne_zero, ?_,
      valid.routeLabel, nonzero, valid.trainId, ?_, ?_⟩
    · change entry.routeEpoch ≠ 0
      rw [current]
      exact valid.sessionEpoch
    · change UInt8.ofNat header.ingressHopLimit ≠ 0
      rw [ingress, Ne, ← UInt8.toNat_inj, byte, UInt8.toNat_zero]
      omega
    · change (UInt8.ofNat header.ingressHopLimit).toNat ≤
        (UInt8.ofNat (min 255 (header.overlayHops.toNat + 1))).toNat
      rw [ingress, small]
  · intro other again
    obtain rfl := Except.ok.inj (decoded.symm.trans again)
    change (UInt8.ofNat (min 255 (header.overlayHops.toNat + 1))).toNat = _
    rw [small, byte, ingress]

end

/-! ### Chains -/

/-- A Cell that every view of the chain forwards, in the order it meets them. -/
def forwardChain : List (DataplaneSnapshotV2 × AdjacencyIdV2) → Mesh.Bytes → Option Mesh.Bytes
  | [], bytes => some bytes
  | (snapshot, incoming) :: rest, bytes =>
    match snapshot.dispatchCell incoming bytes with
    | .ok (.forward _ forwarded) => forwardChain rest forwarded.bytes
    | _ => none

theorem forwardChain_advances {chain : List (DataplaneSnapshotV2 × AdjacencyIdV2)}
    {final : Mesh.Bytes} (forwarded : forwardChain chain bytes = some final) :
    advanceHops chain.length bytes = .ok final := by
  induction chain generalizing bytes with
  | nil => exact congrArg Except.ok (Option.some.inj forwarded)
  | cons hop rest ih =>
  simp only [forwardChain] at forwarded
  split at forwarded
  · rename_i nextHop cell dispatched
    rw [List.length_cons, advanceHops, dispatchCell_forward dispatched, ok_bind]
    exact ih forwarded
  · cases forwarded

/-- What a chain of forwards leaves of a Cell. -/
structure Transparent (count : Nat) (bytes final : Mesh.Bytes) (cell : CellV2) : Prop where
  length : final.length = bytes.length
  others : ∀ index, index ≠ overlayHopLimitOffset → index ≠ overlayHopsOffset →
    byteAt final index = byteAt bytes index
  limit : (byteAt final overlayHopLimitOffset).toNat + count =
    (byteAt bytes overlayHopLimitOffset).toNat
  hops : (byteAt final overlayHopsOffset).toNat = (byteAt bytes overlayHopsOffset).toNat + count
  decodes : ∃ after, CellV2.decode final = .ok after ∧ after.body = cell.body ∧
    after.routeHeader.ingressHopLimit = cell.routeHeader.ingressHopLimit

theorem byteAt_setShim (bytes : Mesh.Bytes) (limit hops : UInt8) {index : Nat}
    (notLimit : index ≠ overlayHopLimitOffset) (notHops : index ≠ overlayHopsOffset) :
    byteAt (setShim bytes limit hops) index = byteAt bytes index := by
  rw [byteAt, byteAt, setShim, List.getD_eq_getElem?_getD, List.getD_eq_getElem?_getD,
    List.getElem?_set_ne notHops.symm, List.getElem?_set_ne notLimit.symm]

theorem byteAt_wire_shim (cell : CellV2) :
    byteAt cell.wire overlayHopLimitOffset = cell.overlayHopLimit ∧
      byteAt cell.wire overlayHopsOffset = cell.overlayHops := by
  rw [cell.wire_eq]
  constructor
  · rw [byteAt, List.getD_eq_getElem?_getD,
      List.getElem?_append_right (headerFront_length _ _).le, headerFront_length]
    rfl
  · rw [byteAt, List.getD_eq_getElem?_getD,
      List.getElem?_append_right (by rw [headerFront_length]; decide), headerFront_length]
    rfl

theorem hop_transparent {cell : CellV2} {count : Nat} (valid : cell.validate = .ok ())
    (fits : cell.wire.length ≤ maxCellBytes) (enough : count < cell.overlayHopLimit.toNat) :
    Transparent count cell.wire (cell.hop count).wire cell := by
  obtain ⟨limit, hops⟩ := cell.hop_fields count valid enough
  obtain ⟨isLimit, isHops⟩ := byteAt_wire_shim cell
  obtain ⟨isLimit', isHops'⟩ := byteAt_wire_shim (cell.hop count)
  constructor
  · rw [CellV2.hop, CellV2.withShim_wire_length]
  · intro index notLimit notHops
    rw [CellV2.hop, CellV2.withShim_wire, byteAt_setShim _ _ _ notLimit notHops]
  · rw [isLimit, isLimit', limit]
    omega
  · rw [isHops, isHops', hops]
  refine ⟨cell.hop count, decode_hop valid fits enough, rfl, ?_⟩
  change min 255 ((cell.hop count).overlayHopLimit.toNat + (cell.hop count).overlayHops.toNat) =
    min 255 (cell.overlayHopLimit.toNat + cell.overlayHops.toNat)
  omega

/-- Whatever chain of views forwards an encoded Cell, only the hop bytes change, by one per hop and
within the limit; and every expiry report encodes, decodes to itself and counts the ingress
limit. -/
theorem transit_transparency :
    (∀ (bytes : Mesh.Bytes) (cell : CellV2), CellV2.decode bytes = .ok cell →
      ∀ (chain : List (DataplaneSnapshotV2 × AdjacencyIdV2)) (final : Mesh.Bytes),
        forwardChain chain bytes = some final →
          chain.length ≤ cell.overlayHopLimit.toNat - 1 ∧
            Transparent chain.length bytes final cell) ∧
    ∀ (snapshot : DataplaneSnapshotV2) (incoming : AdjacencyIdV2) (bytes : Mesh.Bytes)
      (oam : OamTtlExpiredV2), snapshot.dispatchCell incoming bytes = .ok (.ttlExpired oam) →
        (oam.encode >>= OamTtlExpiredV2.decode) = .ok oam ∧
          ∃ header, CellRouteHeaderV2.decode bytes = .ok header ∧
            oam.traversedHops.toNat = header.ingressHopLimit := by
  constructor
  · intro bytes cell decoded chain final forwarded
    obtain ⟨valid, rfl, fits⟩ := (CellV2.decode_ok_iff _ _).mp decoded
    obtain ⟨enough, rfl⟩ := (advanceHops_ok_iff cell chain.length final valid fits).mp
      (forwardChain_advances forwarded)
    exact ⟨by omega, hop_transparent valid fits enough⟩
  · intro snapshot incoming bytes oam dispatched
    obtain ⟨valid, counts⟩ := ttlExpired_valid dispatched
    obtain ⟨-, header, -, decoded, -⟩ := dispatchCell_ttlExpired dispatched
    exact ⟨OamTtlExpiredV2.encode_decode valid, header, decoded, counts header decoded⟩

/-- A view that relays one label from adjacency 1 to adjacency 2. -/
def relayView : DataplaneSnapshotV2 where
  generation := 1
  localNode := .ofNat 1
  prefixes := {}
  underlayExclusions := .compile []
  labels := (∅ : HashMap RouteLabelV2 LabelRouteV2).insert 11 ⟨11, 7, .forward 1 2⟩
  sourceRoutes := ∅
  generation_ne_zero := by decide

/-- Two relays in a row. -/
theorem transit_transparency_relays :
    forwardChain [(relayView, 1), (relayView, 1)] sampleParity.wire =
        some (sampleParity.hop 2).wire ∧
      Transparent 2 sampleParity.wire (sampleParity.hop 2).wire sampleParity := by
  have relayed : forwardChain [(relayView, 1), (relayView, 1)] sampleParity.wire =
      some (sampleParity.hop 2).wire := by
    decide
  refine ⟨relayed, ?_⟩
  have decoded : CellV2.decode sampleParity.wire = .ok sampleParity := rfl
  exact (transit_transparency.1 _ _ decoded _ _ relayed).2

end Ironet.Routing
