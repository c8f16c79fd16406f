import Mathlib.Tactic

/-!
# Checked computations

A checked function is a sequence of guards and effectful steps in `Except String`. The lemmas
below take a successful run apart step by step, so that no later proof unfolds a `do` block by
hand.
-/
namespace Support

/-! ### Machine integers -/

def u64Max : Nat := 18446744073709551615

/-- `u64::saturating_add` -/
def saturatingAdd (left right : Nat) : Nat := min (left + right) u64Max

/-! ### Guards over lists

A quantifier over the members of a list is decided by walking the list. Without the priority, an
element type with finitely many values, such as a machine word, would be searched as a whole.
-/

instance (priority := 2000) decidableForallMember {α : Type} (p : α → Prop) [DecidablePred p]
    (xs : List α) : Decidable (∀ x, x ∈ xs → p x) :=
  List.decidableBAll p xs

instance (priority := 2000) decidableExistsMember {α : Type} (p : α → Prop) [DecidablePred p]
    (xs : List α) : Decidable (∃ x, x ∈ xs ∧ p x) :=
  List.decidableBEx p xs

/-- A guard: continue when the condition holds, fail with the message otherwise. -/
def ensure (condition : Prop) [Decidable condition] (message : String) : Except String Unit :=
  if condition then .ok () else .error message

variable {α β ε : Type} (condition : Prop)

@[simp] theorem ensure_eq_ok [Decidable condition] (message : String) (u : Unit) :
    ensure condition message = .ok u ↔ condition := by
  unfold ensure
  split <;> simp_all

theorem ensure_of [Decidable condition] (message : String) (holds : condition) :
    ensure condition message = .ok () := by
  simp [ensure, holds]

/-- A successful sequence is a successful first step followed by a successful rest. -/
theorem bind_eq_ok (step : Except ε α) (rest : α → Except ε β) (result : β) :
    (step >>= rest) = .ok result ↔ ∃ value, step = .ok value ∧ rest value = .ok result := by
  cases step with
  | error e => simp [bind, Except.bind]
  | ok value => simp [bind, Except.bind]

theorem exists_unit (p : Unit → Prop) : (∃ u, p u) ↔ p () :=
  ⟨fun ⟨_, holds⟩ => holds, fun holds => ⟨(), holds⟩⟩

/-- The rules that take a successful `do` block apart, as one set. -/
theorem do_eq_ok : (∀ {ε α β : Type} (step : Except ε α) (rest : α → Except ε β) (result : β),
      (step >>= rest) = .ok result ↔ ∃ value, step = .ok value ∧ rest value = .ok result) ∧
    (∀ p : Unit → Prop, (∃ u, p u) ↔ p ()) ∧
    (∀ (condition : Prop) [Decidable condition] (message : String) (u : Unit),
      ensure condition message = .ok u ↔ condition) ∧
    ∀ {ε α : Type} (a b : α), ((.ok a : Except ε α) = .ok b) = (a = b) :=
  ⟨bind_eq_ok, exists_unit, ensure_eq_ok, Except.ok.injEq⟩

theorem ok_pair_inj {first first' : α} {second second' : β}
    (same : (.ok (first, second) : Except ε (α × β)) = .ok (first', second')) :
    first = first' ∧ second = second' :=
  Prod.mk.inj (Except.ok.inj same)

@[simp] theorem ok_bind (value : α) (rest : α → Except ε β) :
    ((Except.ok value : Except ε α) >>= rest) = rest value := rfl

@[simp] theorem error_bind (e : ε) (rest : α → Except ε β) :
    ((Except.error e : Except ε α) >>= rest) = .error e := rfl

@[simp] theorem pure_eq_ok (value result : α) :
    (pure value : Except ε α) = .ok result ↔ value = result := by
  simp [pure, Except.pure]

theorem forM_eq_ok_iff {check : α → Except ε PUnit} {xs : List α} :
    xs.forM check = .ok () ↔ ∀ x ∈ xs, check x = .ok () := by
  induction xs with
  | nil => simp [pure, Except.pure]
  | cons x xs ih =>
    change (check x >>= fun _ => xs.forM check) = .ok () ↔ _
    rw [bind_eq_ok, List.forall_mem_cons, ← ih]
    exact ⟨fun ⟨_, first, rest⟩ => ⟨first, rest⟩, fun ⟨first, rest⟩ => ⟨(), first, rest⟩⟩

theorem toOption_congr {left right : Except ε α}
    (same : ∀ value, left = .ok value ↔ right = .ok value) : left.toOption = right.toOption := by
  cases left with
  | ok value => rw [(same value).mp rfl]
  | error e =>
    cases right with
    | ok value => exact absurd ((same value).mpr rfl) (by simp)
    | error e' => rfl

/-! ### Evaluated computations

The result type of a computation need not have decidable equality, but whether it returned, and
what it failed with, can still be evaluated.
-/

theorem eq_ok_getD {result : Except ε α} (fallback : α) (returns : result.toOption.isSome) :
    result = .ok (result.toOption.getD fallback) := by
  cases result with
  | error e => cases returns
  | ok value => rfl

/-- What a computation failed with. -/
def failure : Except ε α → Option ε
  | .error e => some e
  | .ok _ => none

theorem eq_error_of_failure {result : Except ε α} {e : ε} (failed : failure result = some e) :
    result = .error e := by
  cases result with
  | error found => rw [Option.some.inj failed]
  | ok value => cases failed

/-! ### Panics and total correctness

A function that may panic returns `Except Panic`; the value it returns carries the source's own
`Result`, if any. `Returns` states that it does not panic and what holds of its value. A loop that
needs an invariant to end is run for a bounded number of turns, and `diverges` says that they did
not suffice.
-/

inductive Panic where
  | subtractWithOverflow
  | sliceIndexOutOfRange
  | missingEntry
  | diverges
  deriving DecidableEq, Repr

/-- `a - b` on an unsigned machine integer. -/
def subtract (a b : Nat) : Except Panic Nat :=
  if b ≤ a then .ok (a - b) else .error .subtractWithOverflow

/-- A subtraction that only one branch of the source performs. -/
def subtractIf (condition : Prop) [Decidable condition] (a b : Nat) : Except Panic Nat :=
  if condition then subtract a b else .ok a

/-- The computation returns, with a value that satisfies the postcondition. -/
def Returns (computation : Except ε α) (post : α → Prop) : Prop :=
  ∃ value, computation = .ok value ∧ post value

variable {post : α → Prop}

theorem Returns.ok {value : α} (holds : post value) : Returns (.ok value : Except ε α) post :=
  ⟨value, rfl, holds⟩

variable {computation : Except ε α}

theorem Returns.imp {weak strong : α → Prop}
    (returned : Returns computation strong) (implies : ∀ value, strong value → weak value) :
    Returns computation weak := by
  obtain ⟨value, run, holds⟩ := returned
  exact ⟨value, run, implies value holds⟩

theorem Returns.of_eq {value : α} (returned : Returns computation post)
    (run : computation = .ok value) : post value := by
  obtain ⟨other, same, holds⟩ := returned
  obtain rfl := Except.ok.inj (run.symm.trans same)
  exact holds

theorem Returns.bind {step : Except ε α} {rest : α → Except ε β} {mid : α → Prop}
    {post : β → Prop} (first : Returns step mid)
    (second : ∀ value, mid value → Returns (rest value) post) : Returns (step >>= rest) post := by
  obtain ⟨value, run, holds⟩ := first
  subst run
  exact second value holds

/-- The computation returns with the postcondition, or fails in an allowed way. -/
def Yields (allowed : ε → Prop) (computation : Except ε α) (post : α → Prop) : Prop :=
  match computation with
  | .ok value => post value
  | .error e => allowed e

variable {allowed : ε → Prop}

theorem Yields.imp {weak strong : α → Prop}
    (yields : Yields allowed computation strong) (implies : ∀ value, strong value → weak value) :
    Yields allowed computation weak := by
  cases computation with
  | ok value => exact implies value yields
  | error e => exact yields

theorem Yields.bind {step : Except ε α} {rest : α → Except ε β} {mid : α → Prop}
    {post : β → Prop} (first : Yields allowed step mid)
    (second : ∀ value, mid value → Yields allowed (rest value) post) :
    Yields allowed (step >>= rest) post := by
  cases step with
  | ok value => exact second value first
  | error e => exact first

theorem Yields.map {f : α → β} {post : β → Prop}
    (yields : Yields allowed computation fun value => post (f value)) :
    Yields allowed (computation.map f) post := by
  cases computation with
  | ok value => exact yields
  | error e => exact yields

theorem Returns.yields (returned : Returns computation post) : Yields allowed computation post := by
  obtain ⟨value, run, holds⟩ := returned
  rw [run]
  exact holds

theorem Yields.returns (yields : Yields (fun _ => False) computation post) :
    Returns computation post := by
  cases computation with
  | ok value => exact .ok yields
  | error e => exact yields.elim

theorem subtract_eq_ok {a b difference : Nat} :
    subtract a b = .ok difference ↔ b ≤ a ∧ a - b = difference := by
  unfold subtract
  split <;> simp_all

theorem returns_subtract {a b : Nat} (enough : b ≤ a) : Returns (subtract a b) (· = a - b) :=
  ⟨a - b, by simp [subtract, enough], rfl⟩

theorem returns_subtractIf [Decidable condition] {a b : Nat} (enough : condition → b ≤ a) :
    Returns (subtractIf condition a b) (· = if condition then a - b else a) := by
  unfold subtractIf
  split
  · rename_i holds
    exact returns_subtract (enough holds)
  · exact .ok rfl

end Support
