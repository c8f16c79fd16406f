import Mathlib.Tactic

/-!
# Picking entries of a list by index
-/
namespace Support
open List

variable {α : Type}

/-- The entries at the given places, in the order of the places. -/
def pick (list : List α) (places : List Nat) : List α := places.filterMap fun place => list[place]?

@[simp] theorem pick_nil (list : List α) : pick list [] = [] := rfl

theorem pick_append (list : List α) (front back : List Nat) :
    pick list (front ++ back) = pick list front ++ pick list back :=
  filterMap_append

variable {list : List α}

theorem pick_singleton {place : Nat} {item : α} (found : list[place]? = some item) :
    pick list [place] = [item] := by
  simp [pick, found]

theorem pick_range (list : List α) : pick list (range list.length) = list := by
  induction list using reverseRecOn with
  | nil => rfl
  | append_singleton front last ih =>
  have inside : (range front.length).filterMap (fun place => (front ++ [last])[place]?) =
      pick front (range front.length) := by
    refine filterMap_congr fun place member => ?_
    rw [getElem?_append_left (mem_range.mp member)]
  rw [length_append, length_singleton, range_succ, pick_append]
  simp only [pick] at ih inside ⊢
  rw [inside, ih]
  simp

theorem pick_perm (list : List α) {left right : List Nat} (permuted : left.Perm right) :
    (pick list left).Perm (pick list right) :=
  permuted.filterMap _

variable {places : List Nat}

theorem pick_all (all : places.Perm (range list.length)) : (pick list places).Perm list := by
  have permuted := pick_perm list all
  rwa [pick_range] at permuted

/-- Distinct places inside a list are all places as soon as there are enough of them. -/
theorem perm_range_of_length {count : Nat} (nodup : places.Nodup)
    (inside : ∀ place ∈ places, place < count) (enough : count ≤ places.length) :
    places.Perm (range count) := by
  have below : places ⊆ range count := fun place member =>
    mem_range.mpr (inside place member)
  have fewer := subperm_of_subset nodup below
  exact fewer.perm_of_length_le (by simpa using enough)

theorem nodup_snoc {place : Nat} (nodup : places.Nodup)
    (new : place ∉ places) : (places ++ [place]).Nodup := by
  rw [← concat_eq_append]
  exact nodup.concat new

theorem inside_snoc {place count : Nat}
    (inside : ∀ place ∈ places, place < count) (bound : place < count) :
    ∀ other ∈ places ++ [place], other < count :=
  forall_mem_append.mpr ⟨inside, forall_mem_singleton.mpr bound⟩

theorem sum_pick_le (f : α → Nat) (nodup : places.Nodup)
    (inside : ∀ place ∈ places, place < list.length) :
    ((pick list places).map f).sum ≤ (list.map f).sum := by
  have below : places ⊆ range list.length := fun place member =>
    mem_range.mpr (inside place member)
  obtain ⟨sorted, permuted, sub⟩ := subperm_of_subset nodup below
  have whole : (pick list sorted).Sublist list := by
    have picked := sub.filterMap fun place => list[place]?
    rwa [← pick, ← pick, pick_range] at picked
  have same := ((pick_perm list permuted).map f).sum_eq
  rw [← same]
  exact (whole.map f).sum_le_sum fun _ _ => Nat.zero_le _

theorem sum_elim_pick (f : α → Nat) (list : List α) (places : List Nat) :
    (places.map fun place => (list[place]?).elim 0 f).sum = ((pick list places).map f).sum := by
  induction places with
  | nil => rfl
  | cons place rest ih =>
  rw [map_cons, sum_cons, ih, ← singleton_append, pick_append, map_append, sum_append]
  refine congrArg (· + _) ?_
  cases found : list[place]? with
  | none => simp [pick, found]
  | some item => simp [pick_singleton found]

/-- A search over entries that agree finds what any of them has. -/
theorem findSome_of_agree {β : Type} {f : α → Option β} {value : β}
    (agree : ∀ entry ∈ list, ∀ other, f entry = some other → other = value)
    (found : ∃ entry ∈ list, f entry = some value) : list.findSome? f = some value := by
  cases result : list.findSome? f with
  | none =>
    obtain ⟨entry, member, isValue⟩ := found
    rw [findSome?_eq_none_iff.mp result entry member] at isValue
    cases isValue
  | some other =>
    obtain ⟨entry, member, isOther⟩ := exists_of_findSome?_eq_some result
    rw [agree entry member other isOther]

/-! ### Every position of a list -/

theorem forall_split_concat {xs : List α} {last : α} {p : List α → α → Prop} :
    (∀ front x back, xs ++ [last] = front ++ x :: back → p front x) ↔
      (∀ front x back, xs = front ++ x :: back → p front x) ∧ p xs last := by
  constructor
  · intro every
    refine ⟨fun front x back split => ?_, every xs last [] rfl⟩
    exact every front x (back ++ [last]) (by simp [split])
  rintro ⟨old, new⟩ front x back split
  rcases eq_nil_or_concat back with rfl | ⟨rest, final, rfl⟩
  · obtain ⟨rfl, same⟩ := append_inj' split rfl
    obtain rfl := singleton_inj.mp same
    exact new
  · rw [concat_eq_append, ← cons_append, ← append_assoc] at split
    exact old front x rest (append_inj' split rfl).1

end Support
