import Mathlib.Tactic

/-!
# Cutting a list into chunks

Chunks of a fixed size with a shorter last one, as the slice iterators of the standard library cut
them.
-/
namespace Support
open List

variable {α : Type}

/-- At most `fuel` chunks from the front of the list. -/
def chunksFrom (size : Nat) : Nat → List α → List (List α)
  | 0, _ => []
  | _ + 1, [] => []
  | fuel + 1, item :: rest =>
    (item :: rest).take size :: chunksFrom size fuel ((item :: rest).drop size)

/-- All chunks of the list; there are no more of them than entries. -/
def chunks (size : Nat) (list : List α) : List (List α) := chunksFrom size list.length list

theorem chunksFrom_flatten (size fuel : Nat) (list : List α) (positive : 0 < size)
    (enough : list.length ≤ fuel) : (chunksFrom size fuel list).flatten = list := by
  induction fuel generalizing list with
  | zero =>
    obtain rfl := eq_nil_of_length_eq_zero (Nat.le_zero.mp enough)
    rfl
  | succ fuel ih =>
  cases list with
  | nil => rfl
  | cons item rest =>
    have shorter : ((item :: rest).drop size).length ≤ fuel := by
      rw [length_drop]
      omega
    rw [chunksFrom, flatten_cons, ih _ shorter, take_append_drop]

theorem chunks_flatten (size : Nat) (list : List α) (positive : 0 < size) :
    (chunks size list).flatten = list :=
  chunksFrom_flatten size list.length list positive (Nat.le_refl _)

theorem chunksFrom_mem (size fuel : Nat) (list chunk : List α) (positive : 0 < size)
    (member : chunk ∈ chunksFrom size fuel list) : chunk ≠ [] ∧ chunk.length ≤ size ∧
      ∃ start, ∀ index, index < chunk.length → chunk[index]? = list[start + index]? := by
  induction fuel generalizing list with
  | zero => simp [chunksFrom] at member
  | succ fuel ih =>
  cases list with
  | nil => simp [chunksFrom] at member
  | cons item rest =>
  rcases mem_cons.mp member with rfl | later
  · refine ⟨?_, length_take_le _ _, 0, ?_⟩
    · obtain ⟨size, rfl⟩ := Nat.exists_eq_succ_of_ne_zero (Nat.ne_of_gt positive)
      simp
    · intro index inside
      rw [length_take] at inside
      rw [Nat.zero_add, getElem?_take_of_lt (by omega)]
  · obtain ⟨nonempty, short, start, entries⟩ := ih _ later
    refine ⟨nonempty, short, size + start, fun index inside => ?_⟩
    rw [entries index inside, getElem?_drop, Nat.add_assoc]

theorem chunks_mem {size : Nat} {list chunk : List α} (positive : 0 < size)
    (member : chunk ∈ chunks size list) : chunk ≠ [] ∧ chunk.length ≤ size ∧
      ∃ start, ∀ index, index < chunk.length → chunk[index]? = list[start + index]? :=
  chunksFrom_mem size list.length list chunk positive member

theorem place_of_shared {parts : List (List α)} (distinct : parts.flatten.Nodup)
    {left right : Nat} {first second : List α} (isFirst : parts[left]? = some first)
    (isSecond : parts[right]? = some second) {item : α} (inFirst : item ∈ first)
    (inSecond : item ∈ second) : left = right := by
  have apart := (nodup_flatten.mp distinct).2
  obtain ⟨leftBound, rfl⟩ := List.getElem?_eq_some_iff.mp isFirst
  obtain ⟨rightBound, rfl⟩ := List.getElem?_eq_some_iff.mp isSecond
  rcases Nat.lt_trichotomy left right with less | same | more
  · have disjoint := pairwise_iff_getElem.mp apart left right leftBound rightBound less
    exact absurd inSecond (disjoint inFirst)
  · exact same
  · have disjoint := pairwise_iff_getElem.mp apart right left rightBound leftBound more
    exact absurd inFirst (disjoint inSecond)

end Support
