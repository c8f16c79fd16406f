import Mathlib.Data.List.DropRight

/-!
# Sliding maximum

A queue that keeps the maximum of the last `span` time units: items leave at the front when they are
too old, and at the back when a newer item is at least as large.
-/
namespace Support
open List

variable {α : Type*}

theorem dropWhile_eq_filter {p : α → Bool} {items : List α}
    (down : items.Pairwise fun left right => p right = true → p left = true) :
    items.dropWhile p = items.filter fun item => !p item := by
  induction items with
  | nil => rfl
  | cons item rest ih =>
    obtain ⟨first, others⟩ := pairwise_cons.mp down
    cases holds : p item with
    | true => simp [holds, ih others]
    | false =>
      -- nothing behind the first item that stays is dropped
      have kept : rest.filter (fun item => !p item) = rest :=
        filter_eq_self.mpr (by grind)
      simp [holds, kept]

theorem rdropWhile_eq_filter {p : α → Bool} {items : List α}
    (up : items.Pairwise fun left right => p left = true → p right = true) :
    items.rdropWhile p = items.filter fun item => !p item := by
  rw [rdropWhile, dropWhile_eq_filter (pairwise_reverse.mpr up), filter_reverse, reverse_reverse]

section
variable (time rate : α → Nat) (span : Nat)

def tooOld (now : Nat) (item : α) : Bool := decide (span < now - time item)

/-- What the queue keeps of the items seen: they are in the order of their times, each larger than
the next, and an item that is not kept is too old or has a newer one that is as large. -/
structure SlidingMaximum (seen kept : List α) (now : Nat) : Prop where
  ordered : kept.Pairwise fun left right => time left ≤ time right
  decreasing : kept.Pairwise fun left right => rate right < rate left
  real : ∀ item ∈ kept, item ∈ seen
  dominated : ∀ item ∈ seen, tooOld time span now item = true ∨
    ∃ other ∈ kept, time item ≤ time other ∧ rate item ≤ rate other

variable {time rate span} {seen kept : List α} {now later : Nat}

section
variable (queue : SlidingMaximum time rate span seen kept now)
include queue

theorem SlidingMaximum.current : kept.dropWhile (tooOld time span later) =
      kept.filter fun item => !tooOld time span later item := by
  apply dropWhile_eq_filter
  refine queue.ordered.imp fun earlier old => ?_
  simp only [tooOld, decide_eq_true_eq] at old ⊢
  omega

theorem SlidingMaximum.push
    (passes : now ≤ later) (item : α) (last : ∀ other ∈ seen, time other ≤ time item) :
    SlidingMaximum time rate span (seen ++ [item])
      ((kept.dropWhile (tooOld time span later)).rdropWhile
        (fun other => decide (rate other ≤ rate item)) ++ [item]) later := by
  have falls := queue.decreasing.filter fun other => !tooOld time span later other
  rw [queue.current, rdropWhile_eq_filter (falls.imp (by grind)), filter_filter]
  constructor
  · simp only [pairwise_append, pairwise_singleton, mem_singleton, true_and]
    exact ⟨queue.ordered.filter _, by grind [queue.real]⟩
  · simp only [pairwise_append, pairwise_singleton, mem_singleton, true_and]
    exact ⟨queue.decreasing.filter _, by grind⟩
  · grind [queue.real]
  -- what leaves at the back is dominated by the new item
  intro other member
  rcases mem_append.mp member with earlier | isNew
  · rcases queue.dominated other earlier with old | ⟨kept, isKept, newer, larger⟩
    · grind [tooOld]
    · by_cases small : rate kept ≤ rate item <;> grind [tooOld]
  · grind

/-- The first item that is not too old is the maximum of what was seen. -/
theorem SlidingMaximum.front (passes : now ≤ later) :
    ((kept.dropWhile (tooOld time span later)).head?.map rate).getD 0 =
      ((seen.filter fun item => !tooOld time span later item).map rate).foldr max 0 := by
  have bound : ∀ (rates : List Nat) (top : Nat),
      rates.foldr max 0 ≤ top ↔ ∀ x ∈ rates, x ≤ top := by
    intro rates top
    induction rates with
    | nil => simp
    | cons first rest ih => rw [foldr_cons, Nat.max_le, ih, forall_mem_cons]
  have falls := queue.decreasing.filter fun other => !tooOld time span later other
  rw [queue.current]
  refine eq_of_forall_ge_iff fun top => ?_
  rw [bound]
  have stays := @mem_filter _ (fun item => !tooOld time span later item) kept
  cases shape : kept.filter fun item => !tooOld time span later item with
  | nil =>
    have none : ∀ item ∈ seen, tooOld time span later item = true := by
      intro item member
      grind [queue.dominated item member, tooOld]
    grind
  | cons first rest =>
    rw [shape] at falls stays
    obtain ⟨isKept, fresh⟩ := stays.mp mem_cons_self
    simp only [head?_cons, Option.map_some, Option.getD_some, forall_mem_map]
    refine ⟨fun below item member => ?_,
      fun all => all first (mem_filter.mpr ⟨queue.real first isKept, fresh⟩)⟩
    obtain ⟨member, itemFresh⟩ := mem_filter.mp member
    rcases queue.dominated item member with old | ⟨other, otherKept, newer, larger⟩
    · grind [tooOld]
    · have listed := (@stays other).mpr ⟨otherKept, by grind [tooOld]⟩
      have top := (pairwise_cons.mp falls).1
      grind

end

end

end Support
