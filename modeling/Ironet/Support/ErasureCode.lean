import Mathlib.Data.List.Sigma
import Mathlib.Tactic

/-!
# Systematic erasure codecs

The interface of a third-party systematic erasure codec over byte symbols and the behaviour its
documentation promises. A codec is a parameter of the developments that use it: what holds for
every codec is proved without hypotheses, and the promises are named where they are needed.
-/
namespace Support
open List

abbrev Symbol := List UInt8

/-- A codec for `data` original and `recovery` redundant symbols of `size` bytes each. Received
symbols come with their index. -/
structure ErasureCodec where
  /-- The constructors of the encoder and of the decoder accept the geometry. -/
  supports : (data recovery size : Nat) → Bool
  encode : (data recovery size : Nat) → List Symbol → Except String (List Symbol)
  decode : (data recovery size : Nat) → (originals recoveries : List (Nat × Symbol)) →
    Except String (List (Nat × Symbol))

namespace ErasureCodec

/-- The geometries every codec in use accepts: small counts, even symbols. -/
def Ordinary (data recovery size : Nat) : Prop :=
  1 ≤ data ∧ data ≤ 256 ∧ 1 ≤ recovery ∧ recovery ≤ 256 ∧ 0 < size ∧ size % 2 = 0

/-- What the codec promises about the shape of its results. -/
structure WellFormed (codec : ErasureCodec) : Prop where
  supports : ∀ data recovery size, Ordinary data recovery size →
    codec.supports data recovery size = true
  restored : ∀ data recovery size originals recoveries result,
    codec.decode data recovery size originals recoveries = .ok result →
      ∀ entry ∈ result, entry.1 < data ∧ entry.2.length = size

/-- The received symbols are symbols of the codeword, each index at most once. -/
def Received (symbols : List Symbol) (received : List (Nat × Symbol)) : Prop :=
  (received.map Prod.fst).Nodup ∧ ∀ entry ∈ received, symbols[entry.1]? = some entry.2

/-- The original symbols that were not received, in index order. -/
def missing (symbols : List Symbol) (received : List (Nat × Symbol)) : List (Nat × Symbol) :=
  (symbols.zipIdx.filter fun entry => entry.2 ∉ received.map Prod.fst).map fun entry =>
    (entry.2, entry.1)

/-- Maximum distance separable with `recovery` redundant symbols: any `data` distinct symbols of a
codeword restore all originals, and the encoder produces the promised number of symbols. -/
structure Mds (codec : ErasureCodec) (recovery : Nat) : Prop extends WellFormed codec where
  encodes : ∀ data size (symbols : List Symbol), Ordinary data recovery size →
    symbols.length = data → (∀ symbol ∈ symbols, symbol.length = size) →
    ∃ redundant, codec.encode data recovery size symbols = .ok redundant ∧
      redundant.length = recovery ∧ ∀ symbol ∈ redundant, symbol.length = size
  restores : ∀ data size (symbols redundant : List Symbol) originals recoveries,
    Ordinary data recovery size → symbols.length = data →
    (∀ symbol ∈ symbols, symbol.length = size) →
    codec.encode data recovery size symbols = .ok redundant →
    Received symbols originals → Received redundant recoveries →
    data ≤ originals.length + recoveries.length →
    codec.decode data recovery size originals recoveries = .ok (missing symbols originals)

/-! ### The received part of a codeword -/

section Received

variable {symbols : List Symbol} {received : List (Nat × Symbol)}

theorem received_perm (valid : Received symbols received) :
    ((symbols.zipIdx.filter fun entry => entry.2 ∈ received.map Prod.fst).map fun entry =>
      (entry.2, entry.1)).Perm received := by
  have nodup :
      ((symbols.zipIdx.filter fun entry => entry.2 ∈ received.map Prod.fst).map fun entry =>
      (entry.2, entry.1)).Nodup := by
    have indices : symbols.zipIdx.Nodup := (nodup_zipIdx_map_snd symbols).of_map
    exact (indices.filter _).map Prod.swap_injective
  refine (perm_ext_iff_of_nodup nodup valid.1.of_map).mpr ?_
  rintro ⟨index, symbol⟩
  simp only [mem_map, mem_filter, decide_eq_true_eq]
  constructor
  · rintro ⟨⟨kept, place⟩, ⟨member, ⟨other, otherSymbol⟩, found, rfl⟩, same⟩
    cases same
    have atIndex := mem_zipIdx_iff_getElem?.mp member
    rw [valid.2 _ found] at atIndex
    cases atIndex
    exact found
  · intro found
    have member : (symbol, index) ∈ symbols.zipIdx :=
      mem_zipIdx_iff_getElem?.mpr (valid.2 _ found)
    exact ⟨(symbol, index), ⟨member, (index, symbol), found, rfl⟩, rfl⟩

theorem symbols_perm (valid : Received symbols received) :
    symbols.Perm (received.map Prod.snd ++ (missing symbols received).map Prod.snd) := by
  have split := filter_append_perm (fun entry : Symbol × Nat =>
    decide (entry.2 ∈ received.map Prod.fst)) symbols.zipIdx
  have values := split.map Prod.fst
  rw [map_append, zipIdx_map_fst] at values
  have front := (received_perm valid).map Prod.snd
  rw [map_map] at front
  have back : (missing symbols received).map Prod.snd = (symbols.zipIdx.filter fun entry =>
      !decide (entry.2 ∈ received.map Prod.fst)).map Prod.fst := by
    simp only [missing, map_map, decide_not]
    rfl
  rw [back]
  exact values.symm.trans (front.append_right _)

theorem missing_indices (symbols : List Symbol) (received : List (Nat × Symbol)) :
    (missing symbols received).map Prod.fst =
      (range symbols.length).filter fun index => index ∉ received.map Prod.fst := by
  have indices : symbols.zipIdx.map Prod.snd = range symbols.length := by
    rw [zipIdx_map_snd, range_eq_range']
  rw [← indices, filter_map]
  simp only [missing, map_map]
  rfl

theorem missing_length (valid : Received symbols received) :
    (missing symbols received).length + received.length = symbols.length := by
  have total := (symbols_perm valid).length_eq
  simp only [length_append, length_map] at total
  omega

end Received

/-! ### Single parity

The exclusive-or of all symbols is the simplest such code, with one redundant symbol. -/

def xorBytes (bytes : List UInt8) : UInt8 := bytes.foldr (· ^^^ ·) 0

/-- The bytewise exclusive-or of the symbols. -/
def xorSymbols (size : Nat) (symbols : List Symbol) : Symbol :=
  (range size).map fun position => xorBytes (symbols.map fun symbol => symbol.getD position 0)

def xorCodec : ErasureCodec where
  supports _ _ _ := true
  encode _ recovery size symbols :=
    if recovery = 1 then .ok [xorSymbols size symbols] else .error "one recovery symbol only"
  decode data recovery size originals recoveries :=
    match (range data).filter fun index => index ∉ originals.map Prod.fst with
    | [] => .ok []
    | [index] =>
      match recoveries with
      | [(_, parity)] =>
        if recovery = 1 then
          .ok [(index, xorSymbols size (parity :: originals.map Prod.snd))]
        else .error "one recovery symbol only"
      | _ => .error "not enough symbols"
    | _ => .error "not enough symbols"

theorem xorBytes_perm {left right : List UInt8} (permuted : left.Perm right) :
    xorBytes left = xorBytes right := by
  refine permuted.foldr_eq' ?_ 0
  intro first _ second _ rest
  rw [← UInt8.xor_assoc, ← UInt8.xor_assoc, UInt8.xor_comm first second]

theorem xorBytes_append (left right : List UInt8) :
    xorBytes (left ++ right) = xorBytes left ^^^ xorBytes right := by
  induction left with
  | nil => simp [xorBytes]
  | cons byte rest ih =>
    simp only [xorBytes, cons_append, foldr_cons] at ih ⊢
    rw [ih, UInt8.xor_assoc]

theorem xorSymbols_length (size : Nat) (symbols : List Symbol) :
    (xorSymbols size symbols).length = size := by
  simp [xorSymbols]

/-- Adding the parity of the codeword to the received symbols leaves the one that is missing. -/
theorem xorSymbols_restore {size : Nat} {symbols received : List Symbol} {lost : Symbol}
    (width : lost.length = size) (split : symbols.Perm (received ++ [lost])) :
    xorSymbols size (xorSymbols size symbols :: received) = lost := by
  refine ext_getElem ?_ ?_
  · rw [xorSymbols_length, width]
  intro position inside bound
  have small : position < size := width ▸ bound
  have whole : xorBytes (symbols.map fun symbol => symbol.getD position 0) =
      xorBytes (received.map fun symbol => symbol.getD position 0) ^^^ lost[position] := by
    rw [xorBytes_perm (split.map _), map_append, xorBytes_append]
    simp [xorBytes, bound]
  have head : (xorSymbols size symbols).getD position 0 =
      xorBytes (symbols.map fun symbol => symbol.getD position 0) := by
    simp [xorSymbols, small]
  have fold : xorBytes ((xorSymbols size symbols :: received).map fun symbol =>
      symbol.getD position 0) = xorBytes (symbols.map fun symbol => symbol.getD position 0) ^^^
        xorBytes (received.map fun symbol => symbol.getD position 0) := by
    rw [map_cons, head]
    rfl
  have entry : (xorSymbols size (xorSymbols size symbols :: received))[position] =
      xorBytes ((xorSymbols size symbols :: received).map fun symbol =>
        symbol.getD position 0) := by
    simp [xorSymbols]
  rw [entry, fold, whole, UInt8.xor_comm, ← UInt8.xor_assoc, UInt8.xor_self, UInt8.zero_xor]

theorem xorCodec_wellFormed : xorCodec.WellFormed where
  supports _ _ _ _ := rfl
  restored data recovery size originals recoveries result decoded := by
    simp only [xorCodec] at decoded
    split at decoded
    · cases decoded
      simp
    · rename_i index lost
      have inside : index < data := by
        have member : index ∈ (range data).filter fun index =>
            index ∉ originals.map Prod.fst := lost ▸ mem_singleton_self index
        simpa using (mem_filter.mp member).1
      split at decoded
      · split at decoded
        · cases decoded
          simp [inside, xorSymbols_length]
        · cases decoded
      · cases decoded
    · cases decoded

theorem xorCodec_mds : xorCodec.Mds 1 where
  toWellFormed := xorCodec_wellFormed
  encodes data size symbols _ _ _ :=
    ⟨[xorSymbols size symbols], rfl, rfl, by simp [xorSymbols_length]⟩
  restores data size symbols redundant originals recoveries ordinary count widths encoded held
      redundantHeld enough := by
    obtain rfl : [xorSymbols size symbols] = redundant := Except.ok.inj encoded
    have indices := missing_indices symbols originals
    have total := missing_length held
    rw [count] at indices
    cases lost : missing symbols originals with
    | nil =>
      rw [lost, map_nil] at indices
      simp only [xorCodec, ← indices]
    | cons entry others =>
    -- only one symbol can be missing, and then the parity must be there
    have few : recoveries.length ≤ 1 := by
      have distinct := redundantHeld.1
      have bound : ∀ index ∈ recoveries.map Prod.fst, index ∈ [0] := by
        intro index member
        obtain ⟨received, among, rfl⟩ := mem_map.mp member
        have here := redundantHeld.2 received among
        have inside := (List.getElem?_eq_some_iff.mp here).1
        simpa using inside
      have small := (subperm_of_subset distinct bound).length_le
      simpa using small
    rw [lost, length_cons] at total
    have single : others = [] := eq_nil_of_length_eq_zero (by omega)
    subst single
    obtain ⟨index, symbol⟩ := entry
    obtain ⟨parity, isParity⟩ : ∃ received, recoveries = [received] :=
      length_eq_one_iff.mp (by rw [length_nil] at total; omega)
    subst isParity
    have parityIs : parity.2 = xorSymbols size symbols := by
      have here := redundantHeld.2 parity mem_cons_self
      obtain ⟨inside, same⟩ := List.getElem?_eq_some_iff.mp here
      simpa [inside] using same.symm
    have split := symbols_perm held
    rw [lost, map_cons, map_nil] at split
    have width : symbol.length = size :=
      widths symbol (split.mem_iff.mpr (mem_append_right _ mem_cons_self))
    rw [lost, map_cons, map_nil] at indices
    simp only [xorCodec, ← indices, if_true, parityIs]
    rw [xorSymbols_restore width split]

end ErasureCodec
end Support
