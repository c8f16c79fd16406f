import Mathlib.Data.List.Count

/-!
# Who is next in a ring

A ring is a list whose front is visited and goes to the back. Of two members, the one nearer the
front has the lead; a visit to one of them hands the lead to the other. Joining at the back and
removing others leave the lead alone, so visits to two members that stay alternate.
-/
namespace Support

variable {α : Type} [DecidableEq α] {a b x : α} {ring : List α}

/-- One if `a` comes before `b`, zero if `b` comes before `a`. -/
def lead (a b : α) (ring : List α) : Nat :=
  if (ring.find? fun member => member = a ∨ member = b) = some a then 1 else 0

theorem lead_le_one : lead a b ring ≤ 1 := by
  unfold lead
  split <;> omega

theorem find?_pair (member : b ∈ ring) (absent : a ∉ ring) :
    (ring.find? fun other => other = a ∨ other = b) = some b := by
  cases first : ring.find? fun other => other = a ∨ other = b with
  | none => simpa using List.find?_eq_none.mp first b member
  | some other =>
  have listed := List.mem_of_find?_eq_some first
  have isOne := List.find?_some first
  simp only [decide_eq_true_eq] at isOne
  rcases isOne with rfl | rfl
  · exact absurd listed absent
  · rfl

theorem lead_rotate (different : a ≠ b) (nodup : (x :: ring).Nodup) (memberA : a ∈ x :: ring)
    (memberB : b ∈ x :: ring) :
    [x].count a + lead a b (ring ++ [x]) = [x].count b + lead a b (x :: ring) := by
  have fresh := (List.nodup_cons.mp nodup).1
  unfold lead
  rw [List.find?_append, List.find?_cons]
  by_cases isA : x = a
  · -- `a` is visited and `b` has the lead afterwards
    subst isA
    have behind := (List.mem_cons.mp memberB).resolve_left (Ne.symm different)
    rw [find?_pair behind fresh]
    simp [different, Ne.symm different]
  by_cases isB : x = b
  · subst isB
    have behind := (List.mem_cons.mp memberA).resolve_left different
    have second := find?_pair behind fresh
    simp only [or_comm] at second
    rw [second]
    simp [Ne.symm different]
  · simp [isA, isB]

theorem lead_tail (memberA : a ∈ ring) (memberB : b ∈ ring) (nodup : (x :: ring).Nodup) :
    [x].count a = 0 ∧ [x].count b = 0 ∧ lead a b ring = lead a b (x :: ring) := by
  have fresh := (List.nodup_cons.mp nodup).1
  have notA : x ≠ a := fun same => fresh (same ▸ memberA)
  have notB : x ≠ b := fun same => fresh (same ▸ memberB)
  simp [lead, notA, notB]

theorem lead_filter (keep : α → Bool) (keepsA : keep a = true) (keepsB : keep b = true) :
    lead a b (ring.filter keep) = lead a b ring := by
  have same : (fun member => decide (keep member = true ∧ (member = a ∨ member = b))) =
      fun member => decide (member = a ∨ member = b) := by
    funext member
    by_cases listed : member = a ∨ member = b
    · rcases listed with rfl | rfl
      · simp [keepsA]
      · simp [keepsB]
    · simp [listed]
  unfold lead
  rw [List.find?_filter]
  simp only [decide_eq_true_eq, same]

theorem lead_append (memberA : a ∈ ring) (added : List α) :
    lead a b (ring ++ added) = lead a b ring := by
  unfold lead
  rw [List.find?_append]
  cases first : ring.find? fun other => other = a ∨ other = b with
  | none => simpa using List.find?_eq_none.mp first a memberA
  | some other => rfl

end Support
