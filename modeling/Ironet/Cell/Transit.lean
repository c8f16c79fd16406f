import Ironet.Cell.RoundTrip

/-!
# Cells in transit

Transit nodes change two bytes of a Cell, the remaining and the crossed overlay hops, and do not
decode the rest. On the wire of a valid Cell this is the same as changing the two fields.
-/
namespace Ironet.Cell
open Support CellV2 UInt8

/-- The Cell with other hop fields. -/
def CellV2.withShim (cell : CellV2) (limit hops : UInt8) : CellV2 :=
  { cell with overlayHopLimit := limit, overlayHops := hops }

variable (cell : CellV2) (limit hops : UInt8)

@[simp] theorem withShim_withShim (limit hops limit' hops' : UInt8) :
    (cell.withShim limit hops).withShim limit' hops' = cell.withShim limit' hops' := rfl

/-- Everything in front of the hop bytes. -/
def headerFront (flags : UInt8) (header : CellRouteHeaderV2) : Bytes :=
  magic ++ [major, header.kind.toWire, header.class'.toWire, flags] ++
    putU32 header.sessionEpoch ++ putU32 header.routeLabel ++ putU64 header.trainId ++
    putU16 header.cellSequence ++ putU32 header.stripeId ++ putU16 header.segmentCount ++
    putU16 header.payloadLen

theorem headerFront_length (flags : UInt8) (header : CellRouteHeaderV2) :
    (headerFront flags header).length = overlayHopLimitOffset := by
  simp [headerFront, magic, overlayHopLimitOffset]

variable (bytes : Bytes)

/-- Overwrite the two hop bytes. -/
def setShim (limit hops : UInt8) : Bytes :=
  (bytes.set overlayHopLimitOffset limit).set overlayHopsOffset hops

@[simp] theorem setShim_length (limit hops : UInt8) :
    (setShim bytes limit hops).length = bytes.length := by
  simp [setShim]

theorem setShim_append {front : Bytes} (back : Bytes) (limit hops limit' hops' : UInt8)
    (width : front.length = overlayHopLimitOffset) :
    setShim (front ++ limit :: hops :: back) limit' hops' = front ++ limit' :: hops' :: back := by
  have first : overlayHopLimitOffset = front.length := width.symm
  have second : overlayHopsOffset = front.length + 1 := by
    rw [width]
    rfl
  rw [setShim, first, second, List.set_append_right _ _ (Nat.le_refl _), Nat.sub_self,
    List.set_cons_zero, List.set_append_right _ _ (Nat.le_add_right _ _), Nat.add_sub_cancel_left,
    List.set_cons_succ, List.set_cons_zero]

theorem setShim_setShim (limit hops limit' hops' : UInt8) :
    setShim (setShim bytes limit hops) limit' hops' = setShim bytes limit' hops' := by
  have apart : overlayHopLimitOffset ≠ overlayHopsOffset := by decide
  simp only [setShim]
  rw [List.set_comm hops limit' apart.symm, List.set_set, List.set_set]

theorem CellV2.wire_eq : cell.wire = headerFront cell.flags cell.routeHeader ++
      cell.overlayHopLimit :: cell.overlayHops :: cell.body.encode := by
  simp only [wire, encodeContiguousWithHeader, encodeHeader, headerFront,
    List.append_assoc, List.cons_append, List.nil_append]
  rfl

theorem CellV2.withShim_wire : (cell.withShim limit hops).wire = setShim cell.wire limit hops := by
  rw [cell.wire_eq, setShim_append _ _ _ _ _ (headerFront_length _ _), wire_eq]
  rfl

theorem CellV2.withShim_wire_length :
    (cell.withShim limit hops).wire.length = cell.wire.length := by
  rw [withShim_wire, setShim_length]

/-- Only the hop fields of a valid Cell have to be checked again. -/
theorem CellV2.withShim_validate (valid : cell.validate = .ok ()) (positive : limit ≠ 0)
    (accounted : limit.toNat + hops.toNat ≤ 255) :
    (cell.withShim limit hops).validate = .ok () := by
  obtain ⟨⟨flags, epoch, label, train, -, -⟩, shape⟩ := (validate_ok_iff cell).mp valid
  exact (validate_ok_iff _).mpr ⟨⟨flags, epoch, label, train, positive, accounted⟩, shape⟩

/-! ### Hops -/

/-- The Cell behind `count` transit hops. -/
def CellV2.hop (cell : CellV2) (count : Nat) : CellV2 :=
  cell.withShim (cell.overlayHopLimit - UInt8.ofNat count) (cell.overlayHops + UInt8.ofNat count)

/-- `advance_overlay_hop` at every transit node. -/
def advanceHops : Nat → Bytes → Except String Bytes
  | 0, bytes => .ok bytes
  | count + 1, bytes => do
    let forwarded ← advanceOverlayHop bytes
    advanceHops count forwarded.bytes

theorem CellV2.hop_zero : cell.hop 0 = cell := by
  cases cell
  simp [hop, withShim]

variable (count : Nat)

theorem CellV2.hop_succ : (cell.hop 1).hop count = cell.hop (count + 1) := by
  have more : ofNat (count + 1) = 1 + ofNat count := by
    rw [UInt8.ofNat_add, UInt8.add_comm]
    rfl
  have limit : cell.overlayHopLimit - ofNat 1 - ofNat count =
      cell.overlayHopLimit - (1 + ofNat count) := by
    rw [UInt8.sub_eq_add_neg, UInt8.sub_eq_add_neg, UInt8.sub_eq_add_neg, UInt8.neg_add,
      UInt8.sub_eq_add_neg, UInt8.add_assoc]
    rfl
  have hops : cell.overlayHops + ofNat 1 + ofNat count =
      cell.overlayHops + (1 + ofNat count) := by
    rw [UInt8.add_assoc]
    rfl
  simp only [hop, withShim_withShim, more]
  rw [← limit, ← hops]
  rfl

section
variable (valid : cell.validate = .ok ())
include valid

/-- The hop fields after `count` hops, without wrapping. -/
theorem CellV2.hop_fields (enough : count < cell.overlayHopLimit.toNat) :
    (cell.hop count).overlayHopLimit.toNat = cell.overlayHopLimit.toNat - count ∧
      (cell.hop count).overlayHops.toNat = cell.overlayHops.toNat + count := by
  obtain ⟨⟨-, -, -, -, -, accounted⟩, -⟩ := (validate_ok_iff cell).mp valid
  have number : (ofNat count).toNat = count :=
    toNat_ofNat_of_lt' (by simp only [size]; omega)
  refine ⟨?_, ?_⟩
  · have ordered : ofNat count ≤ cell.overlayHopLimit := by
      rw [le_iff_toNat_le, number]
      omega
    simp only [hop, withShim]
    rw [UInt8.toNat_sub_of_le _ _ ordered, number]
  · simp only [hop, withShim, UInt8.toNat_add, number]
    omega

theorem CellV2.hop_validate (enough : count < cell.overlayHopLimit.toNat) :
    (cell.hop count).validate = .ok () := by
  obtain ⟨limit, hops⟩ := cell.hop_fields count valid enough
  obtain ⟨⟨-, -, -, -, -, accounted⟩, -⟩ := (validate_ok_iff cell).mp valid
  refine cell.withShim_validate _ _ valid ?_ ?_
  · intro zero
    have value := congrArg toNat zero
    rw [UInt8.toNat_zero] at value
    simp only [hop, withShim] at limit
    omega
  · simp only [hop, withShim] at limit hops
    omega

theorem advanceOverlayHop_wire (fits : cell.wire.length ≤ maxCellBytes)
    (enough : 1 < cell.overlayHopLimit.toNat) :
    ∃ header, advanceOverlayHop cell.wire = .ok { bytes := (cell.hop 1).wire, header } := by
  obtain ⟨⟨-, -, -, -, -, accounted⟩, -⟩ := (validate_ok_iff cell).mp valid
  have header := cell.decode_header valid fits
  simp only [advanceOverlayHop, header, ok_bind, do_eq_ok, ForwardedCellV2.mk.injEq]
  have limit : cell.routeHeader.overlayHopLimit = cell.overlayHopLimit := rfl
  have hops : cell.routeHeader.overlayHops = cell.overlayHops := rfl
  refine ⟨_, ?_, ?_, ?_, rfl⟩
  · exact enough
  · rw [hops]
    omega
  · rw [hop, withShim_wire, limit, hops]
    rfl

/-- Any number of transit hops of a valid Cell, as long as its limit lasts. -/
theorem advanceHops_wire (fits : cell.wire.length ≤ maxCellBytes)
    (enough : count < cell.overlayHopLimit.toNat) :
    advanceHops count cell.wire = .ok (cell.hop count).wire := by
  induction count generalizing cell with
  | zero => rw [hop_zero, advanceHops]
  | succ count ih =>
  obtain ⟨header, first⟩ := advanceOverlayHop_wire cell valid fits (by omega)
  have limit := (cell.hop_fields 1 valid (by omega)).1
  have rest := ih (cell.hop 1) (cell.hop_validate 1 valid (by omega))
    (by rw [hop, withShim_wire_length]; exact fits) (by omega)
  simp only [advanceHops, first, ok_bind]
  rw [rest, hop_succ]

end

/-- A Cell gets through exactly as many hops as its limit allows. -/
theorem advanceHops_ok_iff (bytes : Bytes) (valid : cell.validate = .ok ())
    (fits : cell.wire.length ≤ maxCellBytes) : advanceHops count cell.wire = .ok bytes ↔
      count < cell.overlayHopLimit.toNat ∧ bytes = (cell.hop count).wire := by
  constructor
  · intro advanced
    have enough : count < cell.overlayHopLimit.toNat := by
      induction count generalizing cell with
      | zero =>
        obtain ⟨⟨-, -, -, -, positive, -⟩, -⟩ := (validate_ok_iff cell).mp valid
        rw [Ne, ← UInt8.toNat_inj, UInt8.toNat_zero] at positive
        omega
      | succ count ih =>
      have header := cell.decode_header valid fits
      simp only [advanceHops, bind_eq_ok] at advanced
      obtain ⟨forwarded, first, rest⟩ := advanced
      have several : 1 < cell.overlayHopLimit.toNat := by
        simp only [advanceOverlayHop, header, ok_bind, do_eq_ok] at first
        exact first.1
      obtain ⟨_, hop⟩ := advanceOverlayHop_wire cell valid fits several
      obtain rfl := Except.ok.inj (hop.symm.trans first)
      have less := ih (cell.hop 1) (cell.hop_validate 1 valid several)
        (by rw [CellV2.hop, CellV2.withShim_wire_length]; exact fits) rest
      rw [(cell.hop_fields 1 valid several).1] at less
      omega
    refine ⟨enough, ?_⟩
    have wire := advanceHops_wire cell count valid fits enough
    exact Except.ok.inj (advanced.symm.trans wire)
  · rintro ⟨enough, rfl⟩
    exact advanceHops_wire cell count valid fits enough

/-- A Cell behind transit hops decodes to the Cell with other hop fields. -/
theorem decode_hop {cell : CellV2} {count : Nat} (valid : cell.validate = .ok ())
    (fits : cell.wire.length ≤ maxCellBytes) (enough : count < cell.overlayHopLimit.toNat) :
    decode (cell.hop count).wire = .ok (cell.hop count) := by
  refine (decode_ok_iff _ _).mpr ⟨cell.hop_validate count valid enough, rfl, ?_⟩
  rw [hop, withShim_wire_length]
  exact fits

end Ironet.Cell
