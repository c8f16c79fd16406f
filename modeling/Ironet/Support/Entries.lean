import Ironet.Support.Checked
import Ironet.Support.BigEndian

/-!
# Tables of fixed-width entries

A decoder that reads a counted table of entries of one width. If it accepts exactly the encodings of
good entries, then the table is accepted exactly when it is the concatenation of such encodings.
-/
namespace Support

variable {α : Type}

/-- `count` entries of `width` bytes each, from the cursor on. -/
def decodeEntries (decode : List UInt8 → Except String α) (width : Nat) (bytes : List UInt8) :
    Nat → Nat → Except String (List α)
  | 0, _ => .ok []
  | count + 1, cursor => do
    let entry ← decode (slice bytes cursor (cursor + width))
    let rest ← decodeEntries decode width bytes count (cursor + width)
    .ok (entry :: rest)

/-- What the decoder of one entry accepts: the encodings of the good values. -/
structure EntryCodec (width : Nat) (encode : α → List UInt8) (decode : List UInt8 → Except String α)
    (good : α → Prop) : Prop where
  length : ∀ value, (encode value).length = width
  accepts : ∀ entry value, entry.length = width →
    (decode entry = .ok value ↔ good value ∧ entry = encode value)

namespace EntryCodec

variable {width : Nat} {encode : α → List UInt8} {decode : List UInt8 → Except String α}
  {good : α → Prop}

theorem length_flatMap (codec : EntryCodec width encode decode good) (values : List α) :
    (values.flatMap encode).length = values.length * width := by
  simp [List.length_flatMap, codec.length]

theorem decodeEntries_ok_iff (codec : EntryCodec width encode decode good) (bytes : List UInt8)
    (count cursor : Nat) (fits : cursor + count * width ≤ bytes.length) (values : List α) :
    decodeEntries decode width bytes count cursor = .ok values ↔
      values.length = count ∧ (∀ value ∈ values, good value) ∧
        slice bytes cursor (cursor + count * width) = values.flatMap encode := by
  induction count generalizing cursor values with
  | zero =>
    have none : slice bytes cursor (cursor + 0 * width) = [] := by simp [slice]
    rw [none]
    simp only [decodeEntries, Except.ok.injEq, eq_comm (a := []), List.length_eq_zero_iff]
    constructor
    · rintro rfl
      simp
    · rintro ⟨empty, -⟩
      exact empty
  | succ count ih =>
  rw [Nat.succ_mul] at fits
  have width' : (slice bytes cursor (cursor + width)).length = width := by
    rw [slice_length _ _ _ (by omega)]
    omega
  have split : slice bytes cursor (cursor + (count + 1) * width) =
      slice bytes cursor (cursor + width) ++
        slice bytes (cursor + width) (cursor + width + count * width) := by
    rw [slice_append_slice _ _ _ _ (by omega) (by omega), Nat.succ_mul]
    congr 1
    omega
  simp only [decodeEntries, do_eq_ok, split]
  constructor
  · rintro ⟨entry, isEntry, rest, isRest, rfl⟩
    obtain ⟨entryGood, entryBytes⟩ := (codec.accepts _ _ width').mp isEntry
    obtain ⟨length, restGood, restBytes⟩ := (ih _ (by omega) rest).mp isRest
    refine ⟨by rw [List.length_cons, length], ?_, ?_⟩
    · exact List.forall_mem_cons.mpr ⟨entryGood, restGood⟩
    · rw [entryBytes, restBytes, List.flatMap_cons]
  rintro ⟨length, allGood, allBytes⟩
  cases values with
  | nil => cases length
  | cons entry rest =>
  obtain ⟨entryBytes, restBytes⟩ :=
    List.append_inj allBytes (by rw [width', codec.length])
  obtain ⟨entryGood, restGood⟩ := List.forall_mem_cons.mp allGood
  refine ⟨entry, (codec.accepts _ _ width').mpr ⟨entryGood, entryBytes⟩, rest, ?_, rfl⟩
  exact (ih _ (by omega) rest).mpr ⟨Nat.succ.inj length, restGood, restBytes⟩

end EntryCodec

end Support
