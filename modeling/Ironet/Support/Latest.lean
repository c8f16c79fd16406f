import Ironet.Support.HashMap

/-!
# The latest item of every key

Items carry a key and a rank. A map that holds for every key the item of the highest rank is kept up
by storing an item that outranks the one held and by ignoring every other. What it holds then
depends on the set of items alone, not on their order or on repetitions.
-/
namespace Support
open List

variable {ι K : Type} [DecidableEq K]

/-- No two items share key and rank. -/
def Ranked (key : ι → K) (rank : ι → Nat) (items : List ι) : Prop :=
  ∀ item ∈ items, ∀ other ∈ items, key item = key other → rank item = rank other → item = other

/-- The map holds exactly the items that no item of their key outranks. -/
def Latest (key : ι → K) (rank : ι → Nat) (items : List ι) (m : HashMap K ι) : Prop :=
  ∀ k item, m.lookup k = some item ↔
    item ∈ items ∧ key item = k ∧ ∀ other ∈ items, key other = k → rank other ≤ rank item

namespace Latest

variable {key : ι → K} {rank : ι → Nat} {items others : List ι} {m n : HashMap K ι} {item held : ι}

theorem nil : Latest key rank [] (∅ : HashMap K ι) := by
  intro k item
  simp

omit [DecidableEq K] in
/-- Among the items of a key there is one that none outranks. -/
theorem exists_highest (key : ι → K) (rank : ι → Nat) (member : item ∈ items) :
    ∃ highest ∈ items, key highest = key item ∧
    ∀ other ∈ items, key other = key item → rank other ≤ rank highest := by
  classical
  have nonempty : items.filter (fun other => key other = key item) ≠ [] :=
    ne_nil_of_mem (mem_filter.mpr ⟨member, by simp⟩)
  cases found : argmax rank (items.filter fun other => key other = key item) with
  | none => exact absurd (argmax_eq_none.mp found) nonempty
  | some highest =>
    have inItems := argmax_mem found
    simp only [mem_filter, decide_eq_true_eq] at inItems
    refine ⟨highest, inItems.1, inItems.2, fun other inOthers same => ?_⟩
    exact le_of_mem_argmax (mem_filter.mpr ⟨inOthers, by simpa using same⟩) found

section
variable (latest : Latest key rank items m)
include latest

theorem store (outranks : ∀ held, m.lookup (key item) = some held → rank held < rank item) :
    Latest key rank (item :: items) (m.insert (key item) item) := by
  -- everything known of the key is below the new item
  have below : ∀ other ∈ items, key other = key item → rank other < rank item := by
    intro other member same
    obtain ⟨highest, inItems, isKey, above⟩ := exists_highest key rank member
    have held := (latest (key item) highest).mpr
      ⟨inItems, isKey.trans same, fun next inNext isNext =>
        above next inNext (isNext.trans same.symm)⟩
    exact lt_of_le_of_lt (above other member rfl) (outranks highest held)
  intro k found
  rw [HashMap.lookup_insert_eq_some, latest]
  simp only [mem_cons, forall_eq_or_imp]
  constructor
  · rintro (⟨rfl, rfl⟩ | ⟨different, member, rfl, above⟩)
    · exact ⟨.inl rfl, rfl, fun _ => le_rfl, fun other inItems same =>
        (below other inItems same).le⟩
    · exact ⟨.inr member, rfl, fun same => absurd same.symm different, above⟩
  rintro ⟨rfl | member, rfl, own, above⟩
  · exact .inl ⟨rfl, rfl⟩
  · by_cases same : key found = key item
    · exact absurd (own same.symm) (not_le.mpr (below found member same))
    · exact .inr ⟨same, member, rfl, above⟩

theorem skip (found : m.lookup (key item) = some held) (outranked : rank item ≤ rank held)
    (ranked : Ranked key rank (item :: items)) : Latest key rank (item :: items) m := by
  obtain ⟨inItems, isKey, above⟩ := (latest (key item) held).mp found
  intro k other
  rw [latest]
  simp only [mem_cons, forall_eq_or_imp]
  constructor
  · rintro ⟨member, rfl, highest⟩
    refine ⟨.inr member, rfl, fun same => ?_, highest⟩
    exact outranked.trans (highest held inItems (isKey.trans same))
  rintro ⟨rfl | member, rfl, -, highest⟩
  · -- the item is the one held
    have same : held = other := ranked held (mem_cons_of_mem _ inItems) other
      mem_cons_self isKey (le_antisymm (highest held inItems isKey) outranked)
    subst same
    exact ⟨inItems, rfl, above⟩
  · exact ⟨member, rfl, highest⟩

theorem congr (same : ∀ item, item ∈ items ↔ item ∈ others) : Latest key rank others m := by
  intro k item
  simp only [latest k item, same]

end

theorem lookup_eq (first : Latest key rank items m) (second : Latest key rank items n) (k : K) :
    m.lookup k = n.lookup k := by
  refine Option.ext fun item => ?_
  rw [first k item, second k item]

theorem size_le (latest : Latest key rank items m) : m.size ≤ (items.map key).dedup.length := by
  have keys : m.keys ⊆ (items.map key).dedup := by
    intro k member
    obtain ⟨item, found⟩ := (HashMap.mem_iff_lookup k m).mp member
    obtain ⟨inItems, rfl, -⟩ := (latest k item).mp found
    exact mem_dedup.mpr (mem_map_of_mem inItems)
  have bound := (m.keys_nodup.subperm keys).length_le
  rwa [AList.keys, List.keys, List.length_map] at bound

end Latest
end Support
