import Mathlib.Tactic

/-!
# Big-endian fields in byte strings

Fixed-width unsigned integers in network byte order, and the slices of a byte string they are
read from. `getBe` and `putBe` are inverse on strings of the field's width.
-/
namespace Support
open List

/-- The `width` low-order base-256 digits of `n`, most significant first. -/
def putBe : (width : Nat) → Nat → List UInt8
  | 0, _ => []
  | width + 1, n => putBe width (n / 256) ++ [UInt8.ofNat n]

/-- The number whose base-256 digits are the given bytes, most significant first. -/
def getBe (bytes : List UInt8) : Nat :=
  bytes.foldl (fun total byte => total * 256 + byte.toNat) 0

@[simp] theorem putBe_length (width n : Nat) : (putBe width n).length = width := by
  induction width generalizing n with
  | zero => rfl
  | succ width ih => simp [putBe, ih]

theorem getBe_concat (bytes : List UInt8) (byte : UInt8) :
    getBe (bytes ++ [byte]) = getBe bytes * 256 + byte.toNat := by
  simp [getBe]

theorem getBe_putBe (width n : Nat) : getBe (putBe width n) = n % 256 ^ width := by
  induction width generalizing n with
  | zero => simp [putBe, getBe, Nat.mod_one]
  | succ width ih =>
    have split : n % 256 ^ (width + 1) = n % 256 + 256 * (n / 256 % 256 ^ width) := by
      rw [Nat.pow_succ', Nat.mod_mul]
    rw [putBe, getBe_concat, ih, UInt8.toNat_ofNat', split]
    omega

theorem getBe_lt (bytes : List UInt8) : getBe bytes < 256 ^ bytes.length := by
  induction bytes using reverseRecOn with
  | nil => simp [getBe]
  | append_singleton bytes byte ih =>
    have digit : byte.toNat < 256 := UInt8.toNat_lt byte
    rw [getBe_concat, length_append, length_singleton, Nat.pow_succ]
    omega

theorem putBe_getBe (bytes : List UInt8) : putBe bytes.length (getBe bytes) = bytes := by
  induction bytes using reverseRecOn with
  | nil => rfl
  | append_singleton bytes byte ih =>
  have digit : byte.toNat < 256 := UInt8.toNat_lt byte
  rw [length_append, length_singleton, putBe, getBe_concat]
  have high : (getBe bytes * 256 + byte.toNat) / 256 = getBe bytes := by omega
  have low : UInt8.ofNat (getBe bytes * 256 + byte.toNat) = byte := by
    apply UInt8.toNat_inj.mp
    rw [UInt8.toNat_ofNat']
    omega
  rw [high, low, ih]

/-! ### Slices -/

/-- The bytes from `start` up to, not including, `stop`. -/
def slice (bytes : List UInt8) (start stop : Nat) : List UInt8 :=
  (bytes.drop start).take (stop - start)

/-- The byte at an index; every caller has checked the length first. -/
def byteAt (bytes : List UInt8) (index : Nat) : UInt8 := bytes.getD index 0

theorem slice_length (bytes : List UInt8) (start stop : Nat) (bound : stop ≤ bytes.length) :
    (slice bytes start stop).length = stop - start := by
  simp only [slice, length_take, length_drop]
  omega

theorem slice_append_slice (bytes : List UInt8) (start middle stop : Nat)
    (first : start ≤ middle) (second : middle ≤ stop) :
    slice bytes start middle ++ slice bytes middle stop = slice bytes start stop := by
  have split : stop - start = (middle - start) + (stop - middle) := by omega
  simp only [slice]
  rw [split, take_add, drop_drop]
  congr 3
  omega

variable {bytes : List UInt8}

theorem slice_single {index : Nat} (bound : index < bytes.length) :
    slice bytes index (index + 1) = [byteAt bytes index] := by
  have one : index + 1 - index = 1 := by omega
  simp only [slice, byteAt, one]
  rw [drop_eq_getElem_cons bound, take_succ_cons, take_zero,
    getD_eq_getElem?_getD, getElem?_eq_getElem bound, Option.getD_some]

theorem slice_full (bytes : List UInt8) : slice bytes 0 bytes.length = bytes := by
  simp [slice]

variable {start : Nat} {stop : Nat}

/-- A slice is a concatenation exactly if its two parts are the pieces. -/
theorem slice_eq_append_iff {first second : List UInt8} (middle : Nat)
    (before : start ≤ middle) (after : middle ≤ stop) (bound : stop ≤ bytes.length)
    (width : second.length = stop - middle) : slice bytes start stop = first ++ second ↔
      slice bytes start middle = first ∧ slice bytes middle stop = second := by
  rw [← slice_append_slice bytes start middle stop before after]
  constructor
  · intro same
    exact append_inj' same (by rw [slice_length _ _ _ bound, width])
  · rintro ⟨rfl, rfl⟩
    rfl

theorem slice_eq_singleton_iff {byte : UInt8}
    (one : stop = start + 1) (bound : start < bytes.length) :
    slice bytes start stop = [byte] ↔ byteAt bytes start = byte := by
  rw [one, slice_single bound, singleton_inj]

/-- The given fields stand one behind the other from `start` on. -/
def FieldsAt (bytes : List UInt8) : Nat → List (List UInt8) → Prop
  | _, [] => True
  | start, field :: rest =>
    slice bytes start (start + field.length) = field ∧ FieldsAt bytes (start + field.length) rest

/-- A slice is a record exactly if each field of the record is read at its own place. -/
theorem slice_eq_flatten_iff {fields : List (List UInt8)}
    (width : stop = start + fields.flatten.length) (bound : stop ≤ bytes.length) :
    slice bytes start stop = fields.flatten ↔ FieldsAt bytes start fields := by
  induction fields generalizing start with
  | nil =>
    rw [width]
    simp [slice, FieldsAt]
  | cons field rest ih =>
    rw [flatten_cons, length_append] at width
    rw [flatten_cons, slice_eq_append_iff (start + field.length) (by omega) (by omega) bound
      (by omega), ih (by omega), FieldsAt]

/-! ### Fields of the widths in use -/

def putU16 (value : UInt16) : List UInt8 := putBe 2 value.toNat
def putU32 (value : UInt32) : List UInt8 := putBe 4 value.toNat
def putU64 (value : UInt64) : List UInt8 := putBe 8 value.toNat

def getU16 (bytes : List UInt8) : UInt16 := UInt16.ofNat (getBe bytes)
def getU32 (bytes : List UInt8) : UInt32 := UInt32.ofNat (getBe bytes)
def getU64 (bytes : List UInt8) : UInt64 := UInt64.ofNat (getBe bytes)

@[simp] theorem putU16_length (value : UInt16) : (putU16 value).length = 2 := putBe_length _ _
@[simp] theorem putU32_length (value : UInt32) : (putU32 value).length = 4 := putBe_length _ _
@[simp] theorem putU64_length (value : UInt64) : (putU64 value).length = 8 := putBe_length _ _

theorem eq_putBe_iff {width : Nat} (length : bytes.length = width) {bits : BitVec (8 * width)} :
    bytes = putBe width bits.toNat ↔ BitVec.ofNat (8 * width) (getBe bytes) = bits := by
  have power : 256 ^ width = 2 ^ (8 * width) := by rw [Nat.pow_mul]
  constructor
  · rintro rfl
    apply BitVec.eq_of_toNat_eq
    rw [BitVec.toNat_ofNat, getBe_putBe, power, Nat.mod_mod, Nat.mod_eq_of_lt bits.isLt]
  · rintro rfl
    have small := getBe_lt bytes
    rw [length, power] at small
    rw [BitVec.toNat_ofNat, Nat.mod_eq_of_lt small, ← length, putBe_getBe]

theorem eq_putU16_iff (width : bytes.length = 2) {value : UInt16} :
    bytes = putU16 value ↔ getU16 bytes = value := by
  rw [← UInt16.toBitVec_inj]
  exact eq_putBe_iff width

theorem eq_putU32_iff (width : bytes.length = 4) {value : UInt32} :
    bytes = putU32 value ↔ getU32 bytes = value := by
  rw [← UInt32.toBitVec_inj]
  exact eq_putBe_iff width

theorem eq_putU64_iff (width : bytes.length = 8) {value : UInt64} :
    bytes = putU64 value ↔ getU64 bytes = value := by
  rw [← UInt64.toBitVec_inj]
  exact eq_putBe_iff width

theorem slice_eq_putU16_iff {value : UInt16}
    (width : stop = start + 2) (bound : stop ≤ bytes.length) :
    slice bytes start stop = putU16 value ↔ getU16 (slice bytes start stop) = value :=
  eq_putU16_iff (by rw [slice_length _ _ _ bound]; omega)

theorem slice_eq_putU32_iff {value : UInt32}
    (width : stop = start + 4) (bound : stop ≤ bytes.length) :
    slice bytes start stop = putU32 value ↔ getU32 (slice bytes start stop) = value :=
  eq_putU32_iff (by rw [slice_length _ _ _ bound]; omega)

theorem slice_eq_putU64_iff {value : UInt64}
    (width : stop = start + 8) (bound : stop ≤ bytes.length) :
    slice bytes start stop = putU64 value ↔ getU64 (slice bytes start stop) = value :=
  eq_putU64_iff (by rw [slice_length _ _ _ bound]; omega)

end Support
