import Mathlib.Data.List.TakeWhile
import Ironet.Support.BigEndian

/-!
# Tilings of an interval

Pieces of a sequence that follow each other without gap or overlap, and what remains of them when
only some have arrived. Received pieces are a sublist of the tiling, so they are sorted and
disjoint, and they add up to the whole exactly when none is missing.
-/
namespace Support
open List

variable {α : Type} {start stop : α → Nat}

/-- The pieces cover `[first, last)` one after the other, and none is empty. -/
def Tiles (start stop : α → Nat) : Nat → Nat → List α → Prop
  | first, last, [] => first = last
  | first, last, piece :: rest =>
    start piece = first ∧ first < stop piece ∧ Tiles start stop (stop piece) last rest

namespace Tiles

variable {last : Nat} {pieces : List α} {first : Nat}

theorem le (tiles : Tiles start stop first last pieces) : first ≤ last := by
  induction pieces generalizing first with
  | nil => exact Nat.le_of_eq tiles
  | cons piece rest ih =>
    obtain ⟨-, nonempty, tail⟩ := tiles
    exact (Nat.le_of_lt nonempty).trans (ih tail)

theorem append_iff {front back : List α} : Tiles start stop first last (front ++ back) ↔
      ∃ middle, Tiles start stop first middle front ∧ Tiles start stop middle last back := by
  induction front generalizing first with
  | nil => simp [Tiles]
  | cons piece rest ih =>
    simp only [cons_append, Tiles, ih, and_assoc, exists_and_left]

section
variable (tiles : Tiles start stop first last pieces)
include tiles

theorem bounds {piece : α} (member : piece ∈ pieces) :
    first ≤ start piece ∧ start piece < stop piece ∧ stop piece ≤ last := by
  obtain ⟨front, back, rfl⟩ := append_of_mem member
  obtain ⟨middle, left, same, nonempty, right⟩ := append_iff.mp tiles
  exact ⟨same ▸ left.le, same ▸ nonempty, right.le⟩

theorem pairwise : pieces.Pairwise fun earlier later => stop earlier ≤ start later := by
  induction pieces generalizing first with
  | nil => exact .nil
  | cons piece rest ih =>
    obtain ⟨-, -, tail⟩ := tiles
    exact .cons (fun later member => (tail.bounds member).1) (ih tail)

theorem starts_nodup : (pieces.map start).Nodup := by
  rw [Nodup, pairwise_map]
  refine (List.Pairwise.and_mem.mp tiles.pairwise).imp ?_
  rintro earlier later ⟨member, -, ordered⟩ same
  have nonempty := (tiles.bounds member).2.1
  omega

theorem nodup : pieces.Nodup := tiles.starts_nodup.of_map

theorem start_inj {left right : α} (leftMember : left ∈ pieces) (rightMember : right ∈ pieces)
    (same : start left = start right) : left = right :=
  inj_on_of_nodup_map tiles.starts_nodup leftMember rightMember same

end

theorem eq_nil (tiles : Tiles start stop first first pieces) : pieces = [] := by
  cases pieces with
  | nil => rfl
  | cons piece rest =>
    obtain ⟨-, nonempty, tail⟩ := tiles
    have reach := tail.le
    omega

theorem eq_singleton
    (tiles : Tiles start stop first last pieces) {piece : α} (member : piece ∈ pieces)
    (begins : start piece = first) (ends : stop piece = last) : pieces = [piece] := by
  obtain ⟨front, back, rfl⟩ := append_of_mem member
  obtain ⟨middle, left, same, -, right⟩ := append_iff.mp tiles
  rw [← same, begins] at left
  rw [ends] at right
  rw [left.eq_nil, right.eq_nil, nil_append]

/-! ### Received pieces -/

section Received

variable (kept : α → Bool)

theorem sum_filter_le (tiles : Tiles start stop first last pieces) :
    ((pieces.filter kept).map fun piece => stop piece - start piece).sum ≤ last - first := by
  induction pieces generalizing first with
  | nil => exact Nat.zero_le _
  | cons piece rest ih =>
  obtain ⟨same, nonempty, tail⟩ := tiles
  have rest := ih tail
  have reach := tail.le
  rw [filter_cons]
  split
  · simp only [map_cons, sum_cons]
    omega
  · omega

theorem sum_filter_eq_iff (tiles : Tiles start stop first last pieces) :
    ((pieces.filter kept).map fun piece => stop piece - start piece).sum = last - first ↔
      ∀ piece ∈ pieces, kept piece = true := by
  induction pieces generalizing first with
  | nil =>
    have whole : first = last := tiles
    simp [whole]
  | cons piece rest ih =>
  obtain ⟨same, nonempty, tail⟩ := tiles
  have most : ((rest.filter kept).map fun piece => stop piece - start piece).sum ≤
      last - stop piece := tail.sum_filter_le kept
  have reach := tail.le
  rw [forall_mem_cons, filter_cons, ← ih tail]
  split
  · rename_i held
    simp only [map_cons, sum_cons, held, true_and]
    omega
  · rename_i lost
    simp only [lost, Bool.false_eq_true, false_and, iff_false]
    omega

/-- In the sorted list of received pieces, those before a missing piece are the ones that start
before it. -/
theorem takeWhile_filter {front back : List α} {piece : α}
    (tiles : Tiles start stop first last (front ++ piece :: back)) :
    (front.filter kept ++ back.filter kept).takeWhile (fun other => start other < start piece) =
        front.filter kept ∧
      (front.filter kept ++ back.filter kept).dropWhile (fun other => start other < start piece) =
        back.filter kept := by
  obtain ⟨middle, left, same, nonempty, right⟩ := append_iff.mp tiles
  have before : ∀ other ∈ front.filter kept, decide (start other < start piece) = true := by
    intro other member
    have range := left.bounds (mem_filter.mp member).1
    exact decide_eq_true (by omega)
  have behind : ∀ other ∈ back.filter kept, ¬ decide (start other < start piece) = true := by
    intro other member
    have range := right.bounds (mem_filter.mp member).1
    simp only [decide_eq_true_eq]
    omega
  rw [takeWhile_append_of_pos before, dropWhile_append_of_pos before,
    takeWhile_eq_nil_iff.mpr fun _ => behind _ (get_mem _ _),
    dropWhile_eq_self_iff.mpr fun _ => behind _ (getElem_mem _), append_nil]
  exact ⟨rfl, rfl⟩

end Received

theorem flatMap_slice (tiles : Tiles start stop first last pieces) (bytes : List UInt8) :
    (pieces.flatMap fun piece => slice bytes (start piece) (stop piece)) =
      slice bytes first last := by
  induction pieces generalizing first with
  | nil =>
    have whole : first = last := tiles
    simp [slice, whole]
  | cons piece rest ih =>
    obtain ⟨same, nonempty, tail⟩ := tiles
    rw [flatMap_cons, ih tail, same,
      slice_append_slice bytes first (stop piece) last (Nat.le_of_lt nonempty) tail.le]

end Tiles
end Support
