import Ironet.Extensions.State

/-!
# Control connections on one extension file

Model of the tasks that share the extension file and the event log: control connections that apply
or delete routes (`mutate_extension_routes` and its callers in `control.rs`), the branch of
`supervise` that expires leases, and `get_snapshot`. There is no lock, so a run is any interleaving
of their steps: reading the file, writing it, the answer to a reload request, publishing an event,
reading the routes and reading the cursor of the log.

Computing a mutation and validating the candidate read nothing that other tasks change, so they are
part of the step that writes. The event log is bounded in the source; what it drops, a client is
told, so the model keeps all of it.
-/
namespace Ironet.Control
open Support Extensions

abbrev TaskId := Nat

inductive Operation where
  | mutation (request : Request)
  | expiry
  | snapshot
  deriving DecidableEq, Repr

/-- How the daemon answers a reload request. -/
inductive Answer where
  | accepted
  | rejected
  | dropped
  deriving DecidableEq, Repr

inductive Phase where
  | idle
  /-- The file was read. -/
  | loaded (previous : ExtensionState)
  /-- The file was written and the answer is awaited. -/
  | written (previous : ExtensionState) (now : UnixTime)
  /-- Leases were expired and announced, and the data plane restarts. -/
  | announced (previous : ExtensionState) (now : UnixTime)
  /-- The mutation returned a result with changes; its event is still to be published. -/
  | accepted
  /-- A snapshot has its routes; the cursor is still to be read. -/
  | listed (routes : List DesiredRoute)
  | succeeded
  | failed
  | answered (routes : List DesiredRoute) (cursor : Nat)

inductive Action where
  | load
  /-- `valid`: the candidate passes validation. -/
  | commit (now : UnixTime) (valid : Bool)
  | answer (answer : Answer)
  | publish
  | listRoutes (now : UnixTime)
  | readCursor
  deriving DecidableEq, Repr

/-- Where an operation begins and where it reports. -/
inductive Mark where
  | began (task : TaskId)
  | ended (task : TaskId)
  deriving DecidableEq, Repr

/-- `log` has the cursor and the task of every event. The last two fields only record the run: the
operations that took effect with their clock readings, and where operations began and ended. -/
structure Machine where
  file : ExtensionState
  cursor : Nat := 0
  log : List (Nat × TaskId) := []
  phase : TaskId → Phase := fun _ => .idle
  order : List (TaskId × UnixTime) := []
  history : List Mark := []

namespace Machine

def setPhase (self : Machine) (task : TaskId) (phase : Phase) : Machine :=
  { self with phase := Function.update self.phase task phase }

section
variable (self : Machine) (task : TaskId) (phase : Phase)

@[simp] theorem setPhase_file : (self.setPhase task phase).file = self.file := rfl

@[simp] theorem setPhase_order : (self.setPhase task phase).order = self.order := rfl

@[simp] theorem setPhase_same :
    (self.setPhase task phase).phase task = phase := Function.update_self ..

end

variable {task other : TaskId}

theorem setPhase_other (self : Machine) (phase : Phase)
    (different : other ≠ task) : (self.setPhase task phase).phase other = self.phase other :=
  Function.update_of_ne different ..

variable (self : Machine)

/-- The operation took effect. -/
def effect (task : TaskId) (now : UnixTime) : Machine :=
  { self with order := self.order ++ [(task, now)] }

def mark (self : Machine) (mark : Mark) : Machine :=
  { self with history := self.history ++ [mark] }

def fail (task : TaskId) : Machine :=
  (self.setPhase task .failed).mark (.ended task)

def succeed (task : TaskId) : Machine :=
  (self.setPhase task .succeeded).mark (.ended task)

/-- `EventLog::publish` -/
def publish (task : TaskId) : Machine :=
  { self with cursor := self.cursor + 1, log := self.log ++ [(self.cursor + 1, task)] }

/-- `count` events of one task. -/
def publishAll (self : Machine) (task : TaskId) : Nat → Machine
  | 0 => self
  | count + 1 => (self.publish task).publishAll task count

theorem publishAll_same (task : TaskId) (count : Nat) (self : Machine) :
    (self.publishAll task count).file = self.file ∧
      (self.publishAll task count).phase = self.phase ∧
      (self.publishAll task count).order = self.order ∧
      (self.publishAll task count).history = self.history := by
  induction count generalizing self with
  | zero => exact ⟨rfl, rfl, rfl, rfl⟩
  | succ count ih => exact ih (self.publish task)

/-- The handler publishes what changed, also when the result comes from an earlier request. -/
def returns (task : TaskId) (result : RouteMutationResult) : Machine :=
  if result.dryRun = false ∧ 0 < result.changed then self.setPhase task .accepted
  else self.succeed task

/-- From the loaded state to the written file: `mutate_extension_routes`. -/
def commitMutation (env : Environment) (self : Machine) (task : TaskId) (request : Request)
    (previous : ExtensionState) (now : UnixTime) (valid : Bool) : Machine :=
  match request.mutate env previous now with
  | .error _ => self.fail task
  | .ok mutation =>
    if valid then
      if mutation.persist then
        let self := { self with file := mutation.state }
        if mutation.reload then self.setPhase task (.written previous now)
        else (self.effect task now).returns task mutation.result
      else (self.effect task now).returns task mutation.result
    else self.fail task

/-- From the loaded state to the written file: the expiry branch of `supervise`. -/
def commitExpiry (task : TaskId) (previous : ExtensionState) (now : UnixTime) : Machine :=
  match previous.expire now with
  | none => self.fail task
  | some (next, _) => { self with file := next }.setPhase task (.written previous now)

/-- One step of a task; `none` where the task is not ready for it. -/
def step (env : Environment) (operation : TaskId → Operation) (self : Machine)
    (task : TaskId) (action : Action) : Option Machine :=
  match operation task, self.phase task, action with
  | .mutation _, .idle, .load =>
    some ((self.setPhase task (.loaded self.file)).mark (.began task))
  | .expiry, .idle, .load => some ((self.setPhase task (.loaded self.file)).mark (.began task))
  | .mutation request, .loaded previous, .commit now valid =>
    some (self.commitMutation env task request previous now valid)
  | .expiry, .loaded previous, .commit now _ => some (self.commitExpiry task previous now)
  | .mutation _, .written _ now, .answer .accepted =>
    some ((self.effect task now).setPhase task .accepted)
  | .mutation _, .written previous _, .answer .rejected =>
    some ({ self with file := previous }.fail task)
  -- the error of a dropped reply, or of a stopped supervisor, leaves the function before the file
  -- is restored
  | .mutation _, .written _ _, .answer .dropped => some (self.fail task)
  | .mutation _, .accepted, .publish => some ((self.publish task).succeed task)
  | .expiry, .written previous now, .publish =>
    some ((self.publishAll task ((previous.expire now).elim 0 fun expired =>
      expired.2.length)).setPhase task (.announced previous now))
  | .expiry, .announced _ now, .answer .accepted =>
    some ((self.effect task now).succeed task)
  | .expiry, .announced previous _, .answer .rejected =>
    some ({ self with file := previous }.fail task)
  | .snapshot, .idle, .listRoutes now =>
    some (self.setPhase task (.listed (self.file.list now)))
  | .snapshot, .listed routes, .readCursor =>
    some (self.setPhase task (.answered routes self.cursor))
  | _, _, _ => none

variable {self : Machine}

theorem returns_other {result : RouteMutationResult}
    (different : other ≠ task) : (self.returns task result).phase other = self.phase other := by
  simp only [returns]
  split <;> simp only [succeed, mark, setPhase_other _ _ different]

variable {env : Environment} {previous : ExtensionState} {now : UnixTime}

theorem commitMutation_other {request : Request} {valid : Bool} (different : other ≠ task) :
    (self.commitMutation env task request previous now valid).phase other = self.phase other := by
  simp only [commitMutation]
  repeat' split
  all_goals simp only [fail, mark, effect, returns_other different, setPhase_other _ _ different]

theorem commitExpiry_other (different : other ≠ task) :
    (self.commitExpiry task previous now).phase other = self.phase other := by
  simp only [commitExpiry]
  split <;> simp only [fail, mark, setPhase_other _ _ different]

theorem step_other {operation : TaskId → Operation} {after : Machine} {action : Action}
    (steps : self.step env operation task action = some after) (different : other ≠ task) :
    after.phase other = self.phase other := by
  have published := publishAll_same task
  simp only [step] at steps
  split at steps <;> cases steps <;>
    simp only [fail, succeed, mark, effect, publish, setPhase_other _ _ different, published,
      commitMutation_other different, commitExpiry_other different]

abbrev Trace := List (TaskId × Action)

/-- The steps that a task is not ready for do not happen. -/
def run (env : Environment) (operation : TaskId → Operation) (self : Machine) (trace : Trace) :
    Machine :=
  trace.foldl (fun machine entry =>
    (machine.step env operation entry.1 entry.2).getD machine) self

/-- Every operation alone, with its own clock reading, as one step. -/
def execute (env : Environment) (operation : TaskId → Operation) (state : ExtensionState)
    (entry : TaskId × UnixTime) : ExtensionState :=
  match operation entry.1 with
  | .mutation request => state.step env (request, entry.2)
  | .expiry => (state.expire entry.2).elim state Prod.fst
  | .snapshot => state

def serial (env : Environment) (operation : TaskId → Operation) (state : ExtensionState)
    (order : List (TaskId × UnixTime)) : ExtensionState :=
  order.foldl (execute env operation) state

end Machine
end Ironet.Control
