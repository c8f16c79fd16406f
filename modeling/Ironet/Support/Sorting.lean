import Mathlib.Tactic

/-!
# Sorting by a key

A stable sort by a key, and the neighbours of a list. Sorting forgets the order of the input exactly
as far as the key tells the elements apart.
-/
namespace Support
open List

variable {α κ : Type} [LinearOrder κ]

def sortByKey (key : α → κ) (xs : List α) : List α := xs.insertionSort fun a b => key a ≤ key b

section
variable {key : α → κ} {xs ys : List α}

theorem sortByKey_perm (key : α → κ) (xs : List α) : (sortByKey key xs).Perm xs :=
  perm_insertionSort _ xs

@[simp] theorem mem_sortByKey {x : α} : x ∈ sortByKey key xs ↔ x ∈ xs :=
  (sortByKey_perm key xs).mem_iff

@[simp] theorem length_sortByKey : (sortByKey key xs).length = xs.length :=
  (sortByKey_perm key xs).length_eq

theorem sortByKey_sorted (key : α → κ) (xs : List α) :
    (sortByKey key xs).Pairwise fun a b => key a ≤ key b := by
  exact pairwise_insertionSort _ xs

theorem sortByKey_of_sorted (sorted : xs.Pairwise fun a b => key a ≤ key b) :
    sortByKey key xs = xs :=
  sorted.insertionSort_eq

theorem sortByKey_eq_self_iff : sortByKey key xs = xs ↔ xs.Pairwise fun a b => key a ≤ key b := by
  constructor
  · intro same
    rw [← same]
    exact sortByKey_sorted key xs
  · exact sortByKey_of_sorted

/-- Where the key tells the elements apart, the sorted list depends on the elements only. -/
theorem sortByKey_congr (same : xs.Perm ys)
    (apart : ∀ a ∈ xs, ∀ b ∈ xs, key a = key b → a = b) : sortByKey key xs = sortByKey key ys := by
  have perm : (sortByKey key xs).Perm (sortByKey key ys) :=
    (sortByKey_perm key xs).trans (same.trans (sortByKey_perm key ys).symm)
  refine List.Perm.eq_of_pairwise ?_ (sortByKey_sorted key xs) (sortByKey_sorted key ys) perm
  intro a b inXs inYs below above
  refine apart a (mem_sortByKey.mp inXs) b ?_ (le_antisymm below above)
  exact same.mem_iff.mpr (mem_sortByKey.mp inYs)

end

/-! ### Neighbours -/

/-- The neighbours of a list, in order. -/
def windows (xs : List α) : List (α × α) := xs.zip xs.tail

@[simp] theorem windows_nil : windows ([] : List α) = [] := rfl
@[simp] theorem windows_singleton (a : α) : windows [a] = [] := rfl
@[simp] theorem windows_cons_cons (a b : α) (xs : List α) :
    windows (a :: b :: xs) = (a, b) :: windows (b :: xs) := rfl

theorem forall_windows_iff {r : α → α → Prop} {xs : List α} :
    (∀ pair ∈ windows xs, r pair.1 pair.2) ↔ xs.IsChain r := by
  induction xs with
  | nil => simp
  | cons a xs ih =>
    cases xs with
    | nil => simp
    | cons b xs => simp only [windows_cons_cons, forall_mem_cons, ih, isChain_cons_cons]

theorem nodup_of_sorted {key : α → κ} {xs : List α} (sorted : xs.Pairwise fun a b => key a ≤ key b)
    (apart : ∀ a ∈ xs, ∀ b ∈ xs, key a = key b → a = b) (different : xs.IsChain (· ≠ ·)) :
    xs.Nodup := by
  have strict : xs.IsChain fun a b => key a < key b := by
    have steps : xs.IsChain fun a b => key a ≤ key b := sorted.isChain
    rw [← forall_windows_iff] at steps different ⊢
    intro pair near
    refine lt_of_le_of_ne (steps pair near) fun same => different pair near ?_
    have members := of_mem_zip (a := pair.1) (b := pair.2) near
    exact apart _ members.1 _ (mem_of_mem_tail members.2) same
  have pairwise : xs.Pairwise fun a b => key a < key b := isChain_iff_pairwise.mp strict
  exact pairwise.imp fun below same => absurd (congrArg key same) below.ne

/-! ### Insertion at the first match -/

/-- `position` and `insert`: where the elements that match `p` are those behind the new one, and
whatever stands behind a match is a match, the order is kept. -/
theorem pairwise_insertIdx_findIdx {r : α → α → Prop} {p : α → Bool} {x : α} {xs : List α}
    (sorted : xs.Pairwise r) (upward : ∀ a ∈ xs, ∀ b ∈ xs, r a b → p a → p b)
    (behind : ∀ a ∈ xs, p a → r x a) (before : ∀ a ∈ xs, p a = false → r a x) :
    (xs.insertIdx (xs.findIdx p) x).Pairwise r := by
  induction xs with
  | nil => simp
  | cons a xs ih =>
  have ⟨first, rest⟩ := pairwise_cons.mp sorted
  simp only [forall_mem_cons] at upward behind before
  cases match' : p a with
  | true =>
    -- the new element becomes the front, and everything behind `a` matches as well
    simp only [findIdx_cons, match', cond_true, insertIdx_zero, pairwise_cons,
      forall_mem_cons]
    exact ⟨⟨behind.1 match', fun b member =>
      behind.2 b member (upward.1.2 b member (first b member) match')⟩, first, rest⟩
  | false =>
  simp only [findIdx_cons, match', cond_false, insertIdx_succ_cons,
    pairwise_cons]
  refine ⟨fun b member => ?_, ih rest (fun b inside => (upward.2 b inside).2) behind.2 before.2⟩
  rcases eq_or_mem_of_mem_insertIdx member with rfl | old
  · exact before.1 match'
  · exact first b old

end Support
