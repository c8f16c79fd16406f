import Mathlib.Tactic

/-!
# Parent tables

A search enters nodes one after the other and notes for each node the one it was reached from. If
every parent was entered before its child, walking back from an entered node ends at the root, and
the nodes on the way are distinct.
-/
namespace Support
open List

variable {α : Type}

/-- The nodes of the list, latest first, were each entered after their parent. -/
def Entered (previous : α → Option α) (root : α) : List α → Prop
  | [] => True
  | node :: older =>
    node ∉ older ∧ (node = root ∨ ∃ parent ∈ older, previous node = some parent) ∧
      Entered previous root older

/-- A way from the root to a node over entered nodes. -/
structure IsWay (previous : α → Option α) (root node : α) (visited way : List α) : Prop where
  nodup : way.Nodup
  entered : ∀ step ∈ way, step ∈ visited
  first : way.head? = some root
  last : way.getLast? = some node
  linked : way.IsChain fun parent child => previous child = some parent

variable {previous : α → Option α} {root : α} {visited : List α}

theorem Entered.congr {previous' : α → Option α} (entered : Entered previous root visited)
    (same : ∀ node ∈ visited, previous' node = previous node) : Entered previous' root visited := by
  induction visited with
  | nil => trivial
  | cons node older ih =>
    obtain ⟨fresh, reached, rest⟩ := entered
    rw [forall_mem_cons] at same
    exact ⟨fresh, same.1 ▸ reached, ih rest same.2⟩

theorem IsWay.extend {node parent : α} {way : List α}
    (isWay : IsWay previous root parent visited way)
    (fresh : node ∉ visited) (reached : previous node = some parent) :
    IsWay previous root node (node :: visited) (way ++ [node]) where
  nodup := by
    refine isWay.nodup.append (nodup_singleton _) ?_
    rw [disjoint_singleton]
    exact fun member => fresh (isWay.entered _ member)
  entered step member := by
    rcases mem_append.mp member with old | new
    · exact mem_cons_of_mem _ (isWay.entered _ old)
    · rw [mem_singleton.mp new]
      exact mem_cons_self
  first := by rw [head?_append, isWay.first, Option.some_or]
  last := by simp
  linked := by
    refine isChain_append.mpr ⟨isWay.linked, isChain_singleton _, ?_⟩
    intro before isLast after isFirst
    rw [isWay.last] at isLast
    obtain rfl := Option.some.inj isLast
    obtain rfl := Option.some.inj isFirst
    exact reached

theorem exists_next_of_isChain {r : α → α → Prop} {xs : List α} (linked : xs.IsChain r) {x : α}
    (member : x ∈ xs) (notLast : xs.getLast? ≠ some x) : ∃ y ∈ xs, r x y := by
  obtain ⟨front, back, rfl⟩ := append_of_mem member
  cases back with
  | nil => simp at notLast
  | cons next rest =>
    exact ⟨next, by simp, (isChain_cons_cons.mp (isChain_append.mp linked).2.1).1⟩

/-! ### The walk -/

variable [DecidableEq α]

/-- Walk from a node to the root along the table; the result starts at the root. -/
def walkBack (previous : α → Option α) (root : α) : Nat → α → List α → Option (List α)
  | 0, current, path => if current = root then some (current :: path) else none
  | fuel + 1, current, path =>
    if current = root then some (current :: path)
    else (previous current).bind fun parent => walkBack previous root fuel parent (current :: path)

theorem walkBack_root (previous : α → Option α) (root : α) (fuel : Nat) (path : List α) :
    walkBack previous root fuel root path = some (root :: path) := by
  cases fuel <;> simp [walkBack]

theorem walkBack_of_entered (entered : Entered previous root visited) {node : α}
    (member : node ∈ visited) {fuel : Nat} (enough : visited.length ≤ fuel) (path : List α) :
    ∃ way, walkBack previous root fuel node path = some (way ++ path) ∧
      IsWay previous root node visited way := by
  induction visited generalizing fuel node path with
  | nil => cases member
  | cons newest older ih =>
  obtain ⟨fresh, reached, rest⟩ := entered
  rcases mem_cons.mp member with rfl | earlier
  · by_cases isRoot : node = root
    · subst isRoot
      exact ⟨[node], walkBack_root _ _ _ _, by constructor <;> simp⟩
    -- the parent was entered before, so the rest of the walk stays among the older nodes
    obtain ⟨parent, known, from'⟩ := reached.resolve_left isRoot
    obtain ⟨fuel, rfl⟩ : ∃ less, fuel = less + 1 :=
      ⟨fuel - 1, by rw [length_cons] at enough; omega⟩
    obtain ⟨way, walked, isWay⟩ := ih rest known (Nat.le_of_succ_le_succ enough) (node :: path)
    refine ⟨way ++ [node], ?_, isWay.extend fresh from'⟩
    rw [walkBack, if_neg isRoot, from', Option.bind_some, walked, append_assoc, singleton_append]
  · obtain ⟨way, walked, isWay⟩ := ih rest earlier (Nat.le_of_succ_le enough) path
    exact ⟨way, walked, { isWay with
      entered := fun step onWay => mem_cons_of_mem _ (isWay.entered step onWay) }⟩

end Support
