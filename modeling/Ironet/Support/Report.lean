import Mathlib.Control.Monad.Writer
import Mathlib.Tactic

/-!
# Computations that report

A pass that corrects a value and writes down what it corrected. Two judgements carry the reasoning:
`Yields`, for what the value satisfies, and `Silent`, for passes that leave the value as it is and
report nothing.
-/
namespace Support

/-- A computation that may append entries to a report. -/
abbrev Reporting (ε α : Type) := Writer (List ε) α

namespace Reporting

variable {ε α β : Type}

def push (entry : ε) : Reporting ε Unit := tell [entry]

def pushIf (condition : Prop) [Decidable condition] (entry : ε) : Reporting ε Unit :=
  if condition then push entry else pure ()

/-- The result satisfies the condition. -/
def Yields (computation : Reporting ε α) (condition : α → Prop) : Prop :=
  condition computation.run.1

/-- The computation returns this value and reports nothing. -/
def Silent (computation : Reporting ε α) (value : α) : Prop :=
  computation.run = (value, [])

variable {value : α} {test : Prop} {yes no : Reporting ε α}

namespace Yields

variable {condition : α → Prop}

theorem pure (holds : condition value) :
    Yields (Pure.pure value : Reporting ε α) condition := holds

variable {next : α → Reporting ε β}

theorem bind {first : Reporting ε α} {middle : α → Prop} {condition : β → Prop}
    (before : Yields first middle) (after : ∀ value, middle value → Yields (next value) condition) :
    Yields (first >>= next) condition :=
  after _ before

theorem skip {first : Reporting ε α} {condition : β → Prop}
    (after : ∀ value, Yields (next value) condition) : Yields (first >>= next) condition :=
  after _

theorem ite [Decidable test]
    (positive : test → Yields yes condition) (negative : ¬ test → Yields no condition) :
    Yields (if test then yes else no) condition := by
  split
  · exact positive ‹_›
  · exact negative ‹_›

/-- A value that is replaced, with a report, where a test says so. -/
theorem guard [Decidable test] {report : Reporting ε PUnit} {fallback : α}
    (corrected : test → condition fallback) (kept : ¬ test → condition value) :
    Yields (if test then report >>= fun _ => Pure.pure fallback else Pure.pure value) condition :=
  ite (fun bad => skip fun _ => pure (corrected bad)) fun fine => pure (kept fine)

variable {computation : Reporting ε α}

theorem and {other : α → Prop} (left : Yields computation condition)
    (right : Yields computation other) :
    Yields computation fun value => condition value ∧ other value :=
  ⟨left, right⟩

theorem mono {weaker : α → Prop} (holds : Yields computation condition)
    (implies : ∀ value, condition value → weaker value) :
    Yields computation weaker := implies _ holds

end Yields

namespace Silent

theorem pure : Silent (Pure.pure value : Reporting ε α) value := rfl

theorem bind {first : Reporting ε α} {next : α → Reporting ε β} {result : β}
    (before : Silent first value) (after : Silent (next value) result) :
    Silent (first >>= next) result := by
  change ((next first.run.1).run.1, first.run.2 ++ (next first.run.1).run.2) = _
  rw [before, after]
  rfl

theorem ite [Decidable test]
    (positive : test → Silent yes value) (negative : ¬ test → Silent no value) :
    Silent (if test then yes else no) value := by
  split
  · exact positive ‹_›
  · exact negative ‹_›

theorem guard [Decidable test] {report : Reporting ε PUnit} {fallback : α} (fine : ¬ test) :
    Silent (if test then report >>= fun _ => Pure.pure fallback else Pure.pure value) value :=
  ite (fun bad => absurd bad fine) fun _ => pure

theorem pushIf [Decidable test] {entry : ε} (fine : ¬ test) :
    Silent (Reporting.pushIf test entry) () := by
  rw [Reporting.pushIf, if_neg fine]
  exact pure

end Silent

/-- Something is reported. -/
def Speaks (computation : Reporting ε α) : Prop := computation.run.2 ≠ []

namespace Speaks

variable {before : Reporting ε α} {next : α → Reporting ε β}

theorem push (entry : ε) : Speaks (Reporting.push entry) := nofun

theorem first (speaks : Speaks before) : Speaks (before >>= next) :=
  List.append_ne_nil_of_left_ne_nil speaks _

theorem later (speaks : ∀ value, Speaks (next value)) : Speaks (before >>= next) :=
  List.append_ne_nil_of_right_ne_nil _ (speaks _)

end Speaks

end Reporting
end Support
