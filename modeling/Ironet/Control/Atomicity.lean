import Ironet.Control.Machine
import Ironet.Extensions.Isolation

/-!
# Atomicity of route mutations

Route mutations read the file, compute, write it, and may write the old copy back. They are atomic
as long as no two of them overlap and every reload request is answered; the order in which they took
effect is then a serial order that respects real time.
-/
namespace Ironet.Control
open Support Extensions Machine List Machine

variable {env : Environment} {operation : TaskId → Operation} {initial : ExtensionState}

/-- The task has read the file and may still write it. -/
def Busy : Phase → Prop
  | .loaded _ => True
  | .written _ _ => True
  | .announced _ _ => True
  | _ => False

def TookEffect : Phase → Prop
  | .accepted => True
  | .succeeded => True
  | _ => False

instance (phase : Phase) : Decidable (¬ Busy phase ∧ phase ≠ .accepted) :=
  match phase with
  | .idle => .isTrue ⟨id, nofun⟩
  | .loaded _ => .isFalse fun done => done.1 trivial
  | .written _ _ => .isFalse fun done => done.1 trivial
  | .announced _ _ => .isFalse fun done => done.1 trivial
  | .accepted => .isFalse fun done => done.2 rfl
  | .listed _ => .isTrue ⟨id, nofun⟩
  | .succeeded => .isTrue ⟨id, nofun⟩
  | .failed => .isTrue ⟨id, nofun⟩
  | .answered _ _ => .isTrue ⟨id, nofun⟩

/-- No task is in the middle of its operation. -/
def Finished (machine : Machine) : Prop :=
  ∀ task, ¬ Busy (machine.phase task) ∧ machine.phase task ≠ .accepted

def Succeeds (env : Environment) (operation : TaskId → Operation) (state : ExtensionState)
    (entry : TaskId × UnixTime) : Prop :=
  match operation entry.1 with
  | .mutation request => ∃ mutation, request.mutate env state entry.2 = .ok mutation
  | .expiry => (state.expire entry.2).isSome
  | .snapshot => False

def Replays (env : Environment) (operation : TaskId → Operation) :
    ExtensionState → List (TaskId × UnixTime) → Prop
  | _, [] => True
  | state, entry :: rest => Succeeds env operation state entry ∧
      Replays env operation (execute env operation state entry) rest

/-- The file is the result of exactly the operations that reported success, one after the other with
their own clock readings, in an order that respects real time. -/
def Linearizable (env : Environment) (operation : TaskId → Operation) (initial : ExtensionState)
    (machine : Machine) : Prop :=
  ∃ order : List (TaskId × UnixTime), order.Perm machine.order ∧
    (order.map Prod.fst).Nodup ∧
    (∀ task, task ∈ order.map Prod.fst ↔ machine.phase task = .succeeded) ∧
    Replays env operation initial order ∧ serial env operation initial order = machine.file ∧
    ∀ first second, [Mark.ended first, Mark.began second].Sublist machine.history →
      first ∈ order.map Prod.fst → second ∈ order.map Prod.fst →
      [first, second].Sublist (order.map Prod.fst)

/-- What a task in the middle of its operation knows about the file. -/
def Holds (env : Environment) (operation : TaskId → Operation) (initial : ExtensionState)
    (machine : Machine) (task : TaskId) : Phase → Prop
  | .loaded previous => previous = serial env operation initial machine.order ∧
      machine.file = serial env operation initial machine.order
  | .written previous now => previous = serial env operation initial machine.order ∧
      machine.file = execute env operation previous (task, now) ∧
      Succeeds env operation previous (task, now)
  | .announced previous now => previous = serial env operation initial machine.order ∧
      machine.file = execute env operation previous (task, now) ∧
      Succeeds env operation previous (task, now)
  | _ => True

/-- The invariant of exclusive runs. -/
structure Serial (env : Environment) (operation : TaskId → Operation) (initial : ExtensionState)
    (machine : Machine) : Prop where
  quiet : (∀ task, ¬ Busy (machine.phase task)) →
    machine.file = serial env operation initial machine.order
  alone : ∀ task other, Busy (machine.phase task) → Busy (machine.phase other) → task = other
  holds : ∀ task, Holds env operation initial machine task (machine.phase task)
  effects : ∀ task, task ∈ machine.order.map Prod.fst ↔ TookEffect (machine.phase task)
  distinct : (machine.order.map Prod.fst).Nodup
  replays : Replays env operation initial machine.order
  -- an operation that ended took effect or never will, and one that began is no longer idle
  ended : ∀ task, Mark.ended task ∈ machine.history →
    machine.phase task = .succeeded ∨ machine.phase task = .failed
  realTime : ∀ first second, [Mark.ended first, Mark.began second].Sublist machine.history →
    first ∈ machine.order.map Prod.fst → second ∈ machine.order.map Prod.fst →
    [first, second].Sublist (machine.order.map Prod.fst)

/-- A task reads the file only while no other may write it, and every reload request is answered. -/
def Exclusive (machine : Machine) (entry : TaskId × Action) : Prop :=
  (entry.2 = .load → ∀ other, ¬ Busy (machine.phase other)) ∧ entry.2 ≠ .answer .dropped

def ExclusiveRun (env : Environment) (operation : TaskId → Operation) :
    Machine → Trace → Prop
  | _, [] => True
  | machine, entry :: rest => Exclusive machine entry ∧
      ExclusiveRun env operation ((machine.step env operation entry.1 entry.2).getD machine) rest

theorem serial_append (order : List (TaskId × UnixTime)) (entry : TaskId × UnixTime) :
    serial env operation initial (order ++ [entry]) =
      execute env operation (serial env operation initial order) entry := by
  simp [serial]

variable {state : ExtensionState}

theorem replays_append {order : List (TaskId × UnixTime)}
    {entry : TaskId × UnixTime} (replays : Replays env operation state order)
    (succeeds : Succeeds env operation (serial env operation state order) entry) :
    Replays env operation state (order ++ [entry]) := by
  induction order generalizing state with
  | nil => exact ⟨succeeds, trivial⟩
  | cons head rest ih => exact ⟨replays.1, ih replays.2 succeeds⟩

variable {machine : Machine}

theorem Serial.linearizable (holds : Serial env operation initial machine)
    (finished : Finished machine) : Linearizable env operation initial machine := by
  refine ⟨machine.order, .rfl, holds.distinct, ?_, holds.replays,
    (holds.quiet fun task => (finished task).1).symm, holds.realTime⟩
  intro task
  rw [holds.effects]
  constructor
  · intro effect
    cases phase : machine.phase task with
    | succeeded => rfl
    | accepted => exact ((finished task).2 phase).elim
    | idle | loaded | written | announced | listed | failed | answered =>
      rw [phase] at effect
      exact effect.elim
  · intro success
    rw [success]
    trivial

/-! ### Kinds of steps -/

theorem pair_sublist_snoc {α : Type} {first second last : α} {items : List α}
    (pair : [first, second].Sublist (items ++ [last])) :
    [first, second].Sublist items ∨ (second = last ∧ first ∈ items) := by
  rw [← reverse_sublist, reverse_append, reverse_singleton, singleton_append,
    sublist_cons_iff] at pair
  rcases pair with old | ⟨rest, split, inItems⟩
  · exact .inl (reverse_sublist.mp old)
  · obtain ⟨rfl, rfl⟩ := List.cons.inj split
    exact .inr ⟨rfl, by simpa using inItems⟩

namespace Serial

variable {machine : Machine} {task : TaskId}

theorem not_ended (holds : Serial env operation initial machine)
    (open' : machine.phase task ≠ .succeeded ∧ machine.phase task ≠ .failed) :
    Mark.ended task ∉ machine.history := fun marked =>
  (holds.ended task marked).elim open'.1 open'.2

theorem not_ended_of_busy (holds : Serial env operation initial machine)
    (busy : Busy (machine.phase task)) : Mark.ended task ∉ machine.history := by
  apply holds.not_ended
  constructor <;> intro phase <;> rw [phase] at busy <;> exact busy

theorem no_effect_of_busy (busy : Busy (machine.phase task)) :
    ¬ TookEffect (machine.phase task) := by
  cases phase : machine.phase task <;> rw [phase] at busy <;> first | exact busy.elim | exact id

variable {after : Machine} {phase : Phase}

theorem phases_eq (phases : after.phase = Function.update machine.phase task phase) :
    after.phase task = phase ∧ ∀ other, other ≠ task → after.phase other = machine.phase other := by
  refine ⟨by rw [phases, Function.update_self], fun other different => ?_⟩
  rw [phases, Function.update_of_ne different]

section
variable (holds : Serial env operation initial machine)
include holds

/-- What every other task knows stays as it is, if the file and the order do, or if no other task
is busy. -/
theorem others_hold {other : TaskId} (same : after.phase other = machine.phase other)
    (kept : (after.file = machine.file ∧ after.order = machine.order) ∨
      ¬ Busy (machine.phase other)) :
    Holds env operation initial after other (after.phase other) := by
  have knows := holds.holds other
  rw [same]
  rcases kept with ⟨file, order⟩ | idle
  · cases phase : machine.phase other <;> simp only [phase, Holds, file, order] at knows ⊢ <;>
      exact knows
  · cases phase : machine.phase other <;> rw [phase] at idle <;>
      first | exact (idle trivial).elim | trivial

theorem others_idle (busy : Busy (machine.phase task)) (other : TaskId) (different : other ≠ task) :
    ¬ Busy (machine.phase other) :=
  fun also => different (holds.alone other task also busy)

theorem moves (phases : after.phase = Function.update machine.phase task phase)
    (order : after.order = machine.order)
    (effect : TookEffect phase ↔ TookEffect (machine.phase task))
    (free : Busy phase ∨ after.file ≠ machine.file →
      ∀ other, other ≠ task → ¬ Busy (machine.phase other))
    (settled : Busy phase ∨ after.file = serial env operation initial machine.order ∨
      (after.file = machine.file ∧ ¬ Busy (machine.phase task)))
    (knows : Holds env operation initial after task phase)
    (history : (Mark.ended task ∉ machine.history ∧ (after.history = machine.history ∨
        (after.history = machine.history ++ [.began task] ∧ ¬ TookEffect phase))) ∨
      (after.history = machine.history ++ [.ended task] ∧
        (phase = .succeeded ∨ phase = .failed))) :
    Serial env operation initial after := by
  obtain ⟨own, other'⟩ := phases_eq phases
  constructor
  · intro quiet
    rw [order]
    rcases settled with busy | isSerial | ⟨file, idle⟩
    · exact (quiet task (own ▸ busy)).elim
    · exact isSerial
    · rw [file]
      refine holds.quiet fun other busy => ?_
      by_cases same : other = task
      · exact idle (same ▸ busy)
      · exact quiet other (other' other same ▸ busy)
  · intro first second firstBusy secondBusy
    by_cases isFirst : first = task <;> by_cases isSecond : second = task
    · rw [isFirst, isSecond]
    · rw [isFirst, own] at firstBusy
      rw [other' second isSecond] at secondBusy
      exact (free (.inl firstBusy) second isSecond secondBusy).elim
    · rw [isSecond, own] at secondBusy
      rw [other' first isFirst] at firstBusy
      exact (free (.inl secondBusy) first isFirst firstBusy).elim
    · rw [other' first isFirst] at firstBusy
      rw [other' second isSecond] at secondBusy
      exact holds.alone first second firstBusy secondBusy
  · intro other
    by_cases same : other = task
    · rw [same, own]
      exact knows
    · refine holds.others_hold (other' other same) ?_
      by_cases file : after.file = machine.file
      · exact .inl ⟨file, order⟩
      · exact .inr (free (.inr file) other same)
  · intro other
    rw [order]
    by_cases same : other = task
    · rw [same, own, effect]
      exact holds.effects task
    · rw [other' other same]
      exact holds.effects other
  · rw [order]
    exact holds.distinct
  · rw [order]
    exact holds.replays
  · intro other marked
    by_cases same : other = task
    · subst same
      rcases history with ⟨unmarked, kept | ⟨began, -⟩⟩ | ⟨-, done⟩
      · exact (unmarked (kept ▸ marked)).elim
      · exact (unmarked (by simpa [began] using marked)).elim
      · rwa [own]
    · rw [other' other same]
      apply holds.ended other
      rcases history with ⟨-, kept | ⟨began, -⟩⟩ | ⟨ended, -⟩
      · exact kept ▸ marked
      · simpa [began] using marked
      · simpa [ended, same] using marked
  · intro first second pair isFirst isSecond
    rw [order] at isFirst isSecond ⊢
    refine holds.realTime first second ?_ isFirst isSecond
    rcases history with ⟨-, kept | ⟨began, noEffect⟩⟩ | ⟨ended, -⟩
    · exact kept ▸ pair
    · rcases pair_sublist_snoc (began ▸ pair) with old | ⟨isBegan, -⟩
      · exact old
      -- the operation that begins has not taken effect
      · obtain rfl : second = task := by simpa using isBegan
        exact (noEffect (effect.mpr ((holds.effects second).mp isSecond))).elim
    · rcases pair_sublist_snoc (ended ▸ pair) with old | ⟨isEnded, -⟩
      · exact old
      · cases isEnded

theorem begins (idle : machine.phase task = .idle) (free : ∀ other, ¬ Busy (machine.phase other)) :
    Serial env operation initial
      ((machine.setPhase task (.loaded machine.file)).mark (.began task)) := by
  refine holds.moves rfl rfl ?_ (fun _ other _ => free other) (.inl trivial)
    ⟨holds.quiet free, holds.quiet free⟩ (.inl ⟨holds.not_ended ?_, .inr ⟨rfl, id⟩⟩)
  · rw [idle]
    exact Iff.rfl
  · simp [idle]

theorem goesOn (busy : Busy (machine.phase task)) (still : Busy phase)
    (phases : after.phase = Function.update machine.phase task phase)
    (order : after.order = machine.order) (history : after.history = machine.history)
    (knows : Holds env operation initial after task phase) :
    Serial env operation initial after := by
  have noEffect : ¬ TookEffect phase := by
    cases phase <;> first | exact id | exact still.elim
  exact holds.moves phases order (iff_of_false noEffect (no_effect_of_busy busy))
    (fun _ => holds.others_idle busy) (.inl still) knows
    (.inl ⟨holds.not_ended_of_busy busy, .inl history⟩)

theorem givesUp (busy : Busy (machine.phase task))
    (restored : state = serial env operation initial machine.order) :
    Serial env operation initial ({ machine with file := state }.fail task) :=
  holds.moves rfl rfl (iff_of_false id (no_effect_of_busy busy))
    (fun _ => holds.others_idle busy) (.inr (.inl restored)) trivial (.inr ⟨rfl, .inr rfl⟩)

theorem reports (effect : machine.phase task = .accepted) :
    Serial env operation initial (machine.succeed task) := by
  refine holds.moves (show _ = Function.update machine.phase task .succeeded from rfl) rfl ?_ ?_
    (.inr (.inr ⟨rfl, ?_⟩)) trivial (.inr ⟨rfl, .inl rfl⟩)
  · rw [effect]
    exact Iff.rfl
  · exact fun changed => (changed.elim id fun different => different rfl).elim
  · rw [effect]
    exact id

section
variable {now : UnixTime} (busy : Busy (machine.phase task))
  (made : state = execute env operation (serial env operation initial machine.order) (task, now))
  (succeeds : Succeeds env operation (serial env operation initial machine.order) (task, now))
include busy made succeeds

/-- A busy task takes effect: the file already is what its operation makes of the serial order. -/
theorem takesEffect : Serial env operation initial
    (({ machine with file := state }.effect task now).setPhase task .accepted) := by
  generalize isAfter :
    ({ machine with file := state }.effect task now).setPhase task .accepted = after
  have phases : after.phase = Function.update machine.phase task .accepted := isAfter ▸ rfl
  have isOrder : after.order = machine.order ++ [(task, now)] := isAfter ▸ rfl
  have isHistory : after.history = machine.history := isAfter ▸ rfl
  obtain ⟨own, other'⟩ := phases_eq phases
  have free : ∀ other, ¬ Busy (after.phase other) := by
    intro other otherBusy
    by_cases same : other = task
    · rw [same, own] at otherBusy
      exact otherBusy
    · rw [other' other same] at otherBusy
      exact same (holds.alone other task otherBusy busy)
  have tasks : after.order.map Prod.fst = machine.order.map Prod.fst ++ [task] := by
    rw [isOrder, map_append, map_singleton]
  have absent : task ∉ machine.order.map Prod.fst :=
    fun listed => no_effect_of_busy busy ((holds.effects task).mp listed)
  have unmarked := holds.not_ended_of_busy busy
  constructor
  · intro _
    rw [isOrder, serial_append, ← made, ← isAfter]
    rfl
  · intro first second firstBusy _
    exact (free first firstBusy).elim
  · intro other
    by_cases same : other = task
    · rw [same, own]
      trivial
    · exact holds.others_hold (other' other same) (.inr (holds.others_idle busy other same))
  · intro other
    rw [tasks, mem_append, mem_singleton]
    by_cases same : other = task
    · rw [same, own]
      exact iff_of_true (.inr rfl) trivial
    · rw [other' other same, ← holds.effects other]
      simp [same]
  · rw [tasks, nodup_append]
    refine ⟨holds.distinct, by simp, ?_⟩
    intro first isFirst second isSecond equal
    obtain rfl : second = task := by simpa using isSecond
    exact absent (equal ▸ isFirst)
  · rw [isOrder]
    exact replays_append holds.replays succeeds
  · intro other marked
    rw [isHistory] at marked
    have different : other ≠ task := by
      rintro rfl
      exact unmarked marked
    rw [other' other different]
    exact holds.ended other marked
  intro first second pair isFirst isSecond
  rw [isHistory] at pair
  rw [tasks] at isFirst isSecond ⊢
  have firstOld : first ∈ machine.order.map Prod.fst := by
    rcases mem_append.mp isFirst with old | new
    · exact old
    · obtain rfl : first = task := by simpa using new
      exact (unmarked (pair.subset mem_cons_self)).elim
  rcases mem_append.mp isSecond with old | new
  · exact (holds.realTime first second pair firstOld old).trans (sublist_append_left _ _)
  · obtain rfl : second = task := by simpa using new
    exact (singleton_sublist.mpr firstOld).append (.refl _)

theorem concludes : Serial env operation initial
    (({ machine with file := state }.effect task now).succeed task) := by
  have reported := (holds.takesEffect busy made succeeds).reports (setPhase_same _ _ _)
  simpa [succeed, setPhase] using reported

/-- A busy task takes effect and returns, with or without an event to publish. -/
theorem returned (result : RouteMutationResult) : Serial env operation initial
    (({ machine with file := state }.effect task now).returns task result) := by
  simp only [returns]
  split
  · exact holds.takesEffect busy made succeeds
  · exact holds.concludes busy made succeeds

end

theorem looks
    (before : ¬ Busy (machine.phase task) ∧ ¬ TookEffect (machine.phase task) ∧
      machine.phase task ≠ .failed)
    (after : ¬ Busy phase ∧ ¬ TookEffect phase) :
    Serial env operation initial (machine.setPhase task phase) := by
  obtain ⟨notBusy, notEffect, notFailed⟩ := before
  refine holds.moves rfl rfl (iff_of_false after.2 notEffect) ?_ (.inr (.inr ⟨rfl, notBusy⟩)) ?_
    (.inl ⟨holds.not_ended ⟨?_, notFailed⟩, .inl rfl⟩)
  · exact fun changed => (changed.elim after.1 fun different => different rfl).elim
  · cases phase <;> first | exact (after.1 trivial).elim | trivial
  · intro success
    rw [success] at notEffect
    exact notEffect trivial

theorem publishes : Serial env operation initial (machine.publish task) :=
  { holds with holds := fun _ => holds.others_hold rfl (.inl ⟨rfl, rfl⟩) }

end

end Serial

/-! ### Runs -/

variable {task : TaskId}

section
variable (holds : Serial env operation initial machine)
include holds

theorem loaded_base {previous : ExtensionState} (loaded : machine.phase task = .loaded previous) :
    Busy (machine.phase task) ∧ previous = serial env operation initial machine.order ∧
      machine.file = serial env operation initial machine.order := by
  have knows := holds.holds task
  rw [loaded] at knows ⊢
  exact ⟨trivial, knows⟩

/-- A mutation computes on what it read, which is what the serial order has. -/
theorem commitMutation_serial {request : Request} {previous : ExtensionState}
    (isMutation : operation task = .mutation request)
    (loaded : machine.phase task = .loaded previous) (now : UnixTime) (valid : Bool) :
    Serial env operation initial (machine.commitMutation env task request previous now valid) := by
  obtain ⟨busy, isBase, fileIsBase⟩ := loaded_base holds loaded
  have unchanged : Serial env operation initial (machine.fail task) :=
    holds.givesUp busy fileIsBase
  simp only [commitMutation]
  cases outcome : request.mutate env previous now with
  | error _ => exact unchanged
  | ok mutation =>
  have succeeds : Succeeds env operation previous (task, now) := by
    simp only [Succeeds, isMutation]
    exact ⟨mutation, outcome⟩
  have executes : execute env operation previous (task, now) = mutation.stored previous := by
    simp only [execute, isMutation, ExtensionState.step, outcome]
  cases valid with
  | false => exact unchanged
  | true =>
  cases persist : mutation.persist with
  | false =>
    -- nothing is written: the operation took effect without a change
    have made : machine.file = execute env operation
        (serial env operation initial machine.order) (task, now) := by
      rw [← isBase, executes, fileIsBase, ← isBase, Mutation.stored, persist]
      rfl
    simp only [persist, if_true, Bool.false_eq_true, if_false]
    exact holds.returned busy made (isBase ▸ succeeds) mutation.result
  | true =>
  have stored : mutation.stored previous = mutation.state := by
    rw [Mutation.stored, persist]
    rfl
  cases reload : mutation.reload with
  | false =>
    have made : mutation.state = execute env operation
        (serial env operation initial machine.order) (task, now) := by
      rw [← isBase, executes, stored]
    simp only [persist, reload, if_true, Bool.false_eq_true, if_false]
    exact holds.returned busy made (isBase ▸ succeeds) mutation.result
  | true =>
    simp only [persist, reload, if_true]
    refine holds.goesOn busy (show Busy (.written previous now) from trivial) rfl rfl rfl ?_
    exact ⟨isBase, by rw [executes, stored]; rfl, succeeds⟩

theorem commitExpiry_serial {previous : ExtensionState} (isExpiry : operation task = .expiry)
    (loaded : machine.phase task = .loaded previous) (now : UnixTime) :
    Serial env operation initial (machine.commitExpiry task previous now) := by
  obtain ⟨busy, isBase, fileIsBase⟩ := loaded_base holds loaded
  simp only [commitExpiry]
  cases outcome : previous.expire now with
  | none => exact holds.givesUp busy fileIsBase
  | some expired =>
  refine holds.goesOn busy (show Busy (.written previous now) from trivial) rfl rfl rfl ?_
  refine ⟨isBase, ?_, ?_⟩
  · simp only [execute, isExpiry, outcome, Option.elim_some]
    rfl
  · simp [Succeeds, isExpiry, outcome]

/-- Every step keeps the invariant, if it reads the file only while nobody may write it and is not
the end of an unanswered request. -/
theorem step_serial {after : Machine} {action : Action}
    (exclusive : Exclusive machine (task, action))
    (steps : machine.step env operation task action = some after) :
    Serial env operation initial after := by
  have knows := holds.holds task
  cases kind : operation task <;> cases phase : machine.phase task <;> cases action <;>
    simp only [step, kind, phase, Option.some.injEq, reduceCtorEq] at steps
  case mutation.written.answer request previous now answer =>
    have busy : Busy (machine.phase task) := by rw [phase]; trivial
    rw [phase] at knows
    obtain ⟨isBase, made, succeeds⟩ := knows
    cases answer with
    | accepted =>
      obtain rfl := Option.some.inj steps
      exact holds.takesEffect busy (isBase ▸ made) (isBase ▸ succeeds)
    | rejected =>
      obtain rfl := Option.some.inj steps
      exact holds.givesUp busy isBase
    | dropped => exact (exclusive.2 rfl).elim
  case expiry.announced.answer previous now answer =>
    have busy : Busy (machine.phase task) := by rw [phase]; trivial
    rw [phase] at knows
    obtain ⟨isBase, made, succeeds⟩ := knows
    cases answer with
    | accepted =>
      obtain rfl := Option.some.inj steps
      exact holds.concludes busy (isBase ▸ made) (isBase ▸ succeeds)
    | rejected =>
      obtain rfl := Option.some.inj steps
      exact holds.givesUp busy isBase
    | dropped => cases steps
  all_goals subst steps
  case mutation.idle.load | expiry.idle.load => exact holds.begins phase (exclusive.1 rfl)
  case mutation.loaded.commit request previous now valid =>
    exact commitMutation_serial holds kind phase now valid
  case mutation.accepted.publish request => exact holds.publishes.reports phase
  case expiry.loaded.commit previous now valid => exact commitExpiry_serial holds kind phase now
  case expiry.written.publish previous now =>
    have busy : Busy (machine.phase task) := by rw [phase]; trivial
    rw [phase] at knows
    obtain ⟨file, phases, order, history⟩ := publishAll_same task
      ((previous.expire now).elim 0 fun expired => expired.2.length) machine
    refine holds.goesOn busy (show Busy (.announced previous now) from trivial) ?_ order history ?_
    · simp only [setPhase, phases]
    · simp only [Holds, setPhase_order, setPhase_file, order, file]
      exact knows
  case snapshot.idle.listRoutes | snapshot.listed.readCursor =>
    exact holds.looks (by simp [phase, Busy, TookEffect]) (by simp [Busy, TookEffect])

theorem run_serial {trace : Trace} (exclusive : ExclusiveRun env operation machine trace) :
    Serial env operation initial (machine.run env operation trace) := by
  induction trace generalizing machine with
  | nil => exact holds
  | cons entry rest ih =>
  obtain ⟨now, later⟩ := exclusive
  have next : Serial env operation initial
      ((machine.step env operation entry.1 entry.2).getD machine) := by
    cases steps : machine.step env operation entry.1 entry.2 with
    | none => exact holds
    | some after => exact step_serial holds now steps
  exact ih next later

end

theorem start_serial : Serial env operation initial { file := initial } where
  quiet _ := rfl
  alone _ _ busy := busy.elim
  holds _ := trivial
  effects task := iff_of_false (by simp) id
  distinct := nodup_nil
  replays := trivial
  ended task marked := by simp at marked
  realTime first second pair := by simp at pair

/-- Whatever the interleaving: if nobody reads the file while another task may still write it, and
every reload request is answered, the stored state is that of the successful operations, one after
the other in an order that respects real time. -/
theorem mutations_atomic (env : Environment) (operation : TaskId → Operation)
    (initial : ExtensionState) (trace : Trace)
    (exclusive : ExclusiveRun env operation { file := initial } trace)
    (finished : Finished (({ file := initial } : Machine).run env operation trace)) :
    Linearizable env operation initial (({ file := initial } : Machine).run env operation trace) :=
  (run_serial start_serial exclusive).linearizable finished

/-! ### Overlapping mutations -/

theorem run_untouched {trace : Trace} (untouched : task ∉ trace.map Prod.fst) :
    (machine.run env operation trace).phase task = machine.phase task := by
  induction trace generalizing machine with
  | nil => rfl
  | cons entry rest ih =>
  rw [map_cons, mem_cons, not_or] at untouched
  have next : ((machine.step env operation entry.1 entry.2).getD machine).phase task =
      machine.phase task := by
    cases steps : machine.step env operation entry.1 entry.2 with
    | none => rfl
    | some after => exact step_other steps untouched.1
  rw [← next]
  exact ih untouched.2

theorem finished_run {trace : Trace} (start : ∀ task, machine.phase task = .idle)
    (each : ∀ task ∈ trace.map Prod.fst,
      ¬ Busy ((machine.run env operation trace).phase task) ∧
        (machine.run env operation trace).phase task ≠ .accepted) :
    Finished (machine.run env operation trace) := by
  intro task
  by_cases occurs : task ∈ trace.map Prod.fst
  · exact each task occurs
  · rw [run_untouched occurs, start]
    exact ⟨id, Phase.noConfusion⟩

def twoExtensions : TaskId → Operation
  | 0 => .mutation (oneRoute "a" "x" 1 "k0")
  | 1 => .mutation (oneRoute "b" "y" 1 "k1")
  | _ => .expiry

/-- Both read the file before either writes it, and both reloads are accepted. -/
def lostUpdate : Trace :=
  [(0, .load), (1, .load), (0, .commit 0 true), (1, .commit 0 true), (0, .answer .accepted),
    (1, .answer .accepted), (0, .publish), (1, .publish)]

/-- One extension alone; the daemon drops the reply. -/
def droppedReply : Trace := [(0, .load), (0, .commit 0 true), (0, .answer .dropped)]

/-- One mutation from its first to its last step. -/
def undisturbed (task : TaskId) : Trace :=
  [(task, .load), (task, .commit 0 true), (task, .answer .accepted), (task, .publish)]

/-- The two mutations, one after the other. -/
def oneByOne : Trace := undisturbed 0 ++ undisturbed 1

theorem undisturbed_exclusive (free : ∀ other, ¬ Busy (machine.phase other))
    (task : TaskId) : ExclusiveRun env operation machine (undisturbed task) := by
  simpa [undisturbed, ExclusiveRun, Exclusive] using free

theorem exclusiveRun_append {first second : Trace} (now : ExclusiveRun env operation machine first)
    (later : ExclusiveRun env operation (machine.run env operation first) second) :
    ExclusiveRun env operation machine (first ++ second) := by
  induction first generalizing machine with
  | nil => exact later
  | cons entry rest ih => exact ⟨now.1, ih now.2 later⟩

/-- How a trace of the two extensions ends. -/
def outcome (trace : Trace) : Machine :=
  ({ file := .new } : Machine).run plainEnvironment twoExtensions trace

theorem lostUpdate_phases :
    (outcome lostUpdate).phase 0 = .succeeded ∧ (outcome lostUpdate).phase 1 = .succeeded :=
  ⟨rfl, rfl⟩

theorem lostUpdate_generation : (outcome lostUpdate).file.generation = 1 := by
  decide

/-- Two successful mutations count two generations, in whatever order. -/
theorem serial_generation : ∀ order ∈ [(0, 0), (1, 0)].permutations',
    (serial plainEnvironment twoExtensions .new order).generation = 2 := by
  decide

theorem droppedReply_order : (outcome droppedReply).order = [] := rfl

theorem droppedReply_generation : (outcome droppedReply).file.generation = 1 := by
  decide

/-- Two overlapping mutations both report success and one of them is lost; a mutation whose reply is
dropped reports an error and its route stays stored. -/
theorem overlapping_mutations_lose_one :
    (Finished (outcome lostUpdate) ∧ (outcome lostUpdate).phase 0 = .succeeded ∧
      (outcome lostUpdate).phase 1 = .succeeded ∧
      ¬ Linearizable plainEnvironment twoExtensions .new (outcome lostUpdate)) ∧
    Finished (outcome droppedReply) ∧ (outcome droppedReply).phase 0 = .failed ∧
      ¬ Linearizable plainEnvironment twoExtensions .new (outcome droppedReply) := by
  obtain ⟨first, second⟩ := lostUpdate_phases
  refine ⟨⟨?_, first, second, ?_⟩, ?_, rfl, ?_⟩
  · exact finished_run (fun _ => rfl) (by decide)
  · rintro ⟨order, perm, -, -, -, result, -⟩
    have two := serial_generation order (mem_permutations'.mpr perm)
    rw [result, lostUpdate_generation] at two
    cases two
  · exact finished_run (fun _ => rfl) (by decide)
  rintro ⟨order, perm, -, -, -, result, -⟩
  -- no operation succeeded, so the file would have to be the empty one
  rw [droppedReply_order, perm_nil] at perm
  subst perm
  have none := droppedReply_generation
  rw [← result] at none
  cases none

theorem oneByOne_generation : (outcome oneByOne).file.generation = 2 := by
  decide

/-- One after the other both mutations are kept. -/
theorem mutations_atomic_one_by_one : (outcome oneByOne).file.generation = 2 ∧
      Linearizable plainEnvironment twoExtensions .new (outcome oneByOne) := by
  refine ⟨oneByOne_generation, mutations_atomic _ _ _ _ ?_ ?_⟩
  · apply exclusiveRun_append
    · exact undisturbed_exclusive (fun _ => id) 0
    · have halfway : Finished (outcome (undisturbed 0)) :=
        finished_run (fun _ => rfl) (by decide)
      exact undisturbed_exclusive (fun other => (halfway other).1) 1
  · exact finished_run (fun _ => rfl) (by decide)

end Ironet.Control
