import Ironet.Control.Atomicity

/-!
# Snapshots and the event stream

A client calls `get_snapshot`, applies the routes it gets, and then follows the events after the
cursor it got. The handler reads the routes first and the cursor second. The module says when every
change of the stored routes after the first of the two readings is announced by an event that the
client still gets.
-/
namespace Ironet.Control
open Support Extensions Machine Option List

variable {env : Environment} {operation : TaskId → Operation}

/-- The task has not written the file. -/
def Unwritten : Phase → Prop
  | .idle => True
  | .loaded _ => True
  | _ => False

/-- The task has an event to publish. -/
def Owes : Operation → Phase → Prop
  | .mutation _, .written _ _ => True
  | .mutation _, .accepted => True
  | .expiry, .written previous now => (previous.expire now).isSome
  | _, _ => False

/-- Every change of the stored routes in the trace is announced: its task publishes an event later,
with a cursor beyond the client's. -/
def Announced (env : Environment) (operation : TaskId → Operation) (cursor : Nat) :
    Machine → Trace → Prop
  | _, [] => True
  | machine, entry :: rest =>
    (((machine.step env operation entry.1 entry.2).getD machine).file.routes ≠
        machine.file.routes →
      ∃ event ∈ (machine.run env operation (entry :: rest)).log,
        event.2 = entry.1 ∧ machine.cursor < event.1 ∧ cursor < event.1) ∧
    Announced env operation cursor ((machine.step env operation entry.1 entry.2).getD machine) rest

instance decidableAnnounced (env : Environment) (operation : TaskId → Operation) (cursor : Nat) :
    (machine : Machine) → (trace : Trace) → Decidable (Announced env operation cursor machine trace)
  | _, [] => .isTrue trivial
  | machine, entry :: rest =>
    have := decidableAnnounced env operation cursor
      ((machine.step env operation entry.1 entry.2).getD machine) rest
    inferInstanceAs (Decidable (_ ∧ _))

/-- The client has the routes of the file as the snapshot read it, and hears of every change since
then. -/
def Complete (env : Environment) (operation : TaskId → Operation) (machine : Machine)
    (snapshot : TaskId) (now : UnixTime) (trace : Trace) : Prop :=
  ∀ routes cursor,
    (machine.run env operation ((snapshot, .listRoutes now) :: trace)).phase snapshot =
      .answered routes cursor →
    routes = machine.file.list now ∧
      Announced env operation cursor (machine.run env operation [(snapshot, .listRoutes now)]) trace

/-- What a step after the first reading has to respect. -/
structure Orderly (listing : Machine) (snapshot : TaskId) (machine : Machine)
    (entry : TaskId × Action) : Prop where
  /-- Every reload is accepted. -/
  accepted : ∀ answer, entry.2 = .answer answer → answer = .accepted
  /-- A mutation is computed from the routes that it replaces. -/
  current : ∀ now valid previous, entry.2 = .commit now valid →
    machine.phase entry.1 = .loaded previous → previous.routes = machine.file.routes
  /-- Between the two readings only those tasks publish that had written before the first. -/
  later : entry.2 = .publish → ∀ routes, machine.phase snapshot = .listed routes →
    ¬ Unwritten (listing.phase entry.1)

def OrderlyRun (env : Environment) (operation : TaskId → Operation) (listing : Machine)
    (snapshot : TaskId) : Machine → Trace → Prop
  | _, [] => True
  | machine, entry :: rest => Orderly listing snapshot machine entry ∧
      OrderlyRun env operation listing snapshot
        ((machine.step env operation entry.1 entry.2).getD machine) rest

/-! ### Steps -/

variable {now : UnixTime}

theorem expire_some {state : ExtensionState}
    {expired : ExtensionState × List DesiredRoute} (isExpired : state.expire now = some expired) :
    expired.2 ≠ [] := by
  simp only [ExtensionState.expire] at isExpired
  split at isExpired
  · cases isExpired
  · obtain rfl := some.inj isExpired
    assumption

section
variable (task : TaskId) (count : Nat) (machine : Machine)

theorem publishAll_log : machine.cursor ≤ (machine.publishAll task count).cursor ∧
      machine.log ⊆ (machine.publishAll task count).log := by
  induction count generalizing machine with
  | zero => exact ⟨le_rfl, List.Subset.refl _⟩
  | succ count ih =>
    obtain ⟨cursor, log⟩ := ih (machine.publish task)
    constructor
    · exact (Nat.le_succ _).trans cursor
    · exact List.Subset.trans (subset_append_left _ _) log

theorem publishAll_mem : (machine.cursor + 1, task) ∈ (machine.publishAll task (count + 1)).log :=
  (publishAll_log task count (machine.publish task)).2
    (mem_append_right _ mem_cons_self)

end

variable {machine : Machine} {previous : ExtensionState} {task : TaskId}

theorem commitMutation_log {request : Request} {valid : Bool} :
    (machine.commitMutation env task request previous now valid).cursor = machine.cursor ∧
      (machine.commitMutation env task request previous now valid).log = machine.log := by
  simp only [commitMutation, returns]
  repeat' split
  all_goals exact ⟨rfl, rfl⟩

theorem commitExpiry_log : (machine.commitExpiry task previous now).cursor = machine.cursor ∧
      (machine.commitExpiry task previous now).log = machine.log := by
  simp only [commitExpiry]
  split <;> exact ⟨rfl, rfl⟩

variable {after : Machine} {action : Action}

theorem step_log (steps : machine.step env operation task action = some after) :
    machine.cursor ≤ after.cursor ∧ machine.log ⊆ after.log := by
  simp only [step] at steps
  split at steps <;> cases steps
  case h_3 => rw [commitMutation_log.1, commitMutation_log.2]; exact ⟨le_rfl, List.Subset.refl _⟩
  case h_4 => rw [commitExpiry_log.1, commitExpiry_log.2]; exact ⟨le_rfl, List.Subset.refl _⟩
  case h_8 => exact ⟨Nat.le_succ _, subset_append_left _ _⟩
  case h_9 => exact publishAll_log _ _ _
  all_goals exact ⟨le_rfl, List.Subset.refl _⟩

theorem step_unwritten (steps : machine.step env operation task action = some after)
    (unwritten : Unwritten (after.phase task)) : Unwritten (machine.phase task) := by
  simp only [step] at steps
  split at steps <;> cases steps <;>
    simp_all [fail, succeed, mark, Unwritten]

/-- A task that owes an event keeps owing it until it publishes, unless its reload fails. -/
theorem step_owes (owes : Owes (operation task) (machine.phase task))
    (steps : machine.step env operation task action = some after)
    (accepted : ∀ answer, action = .answer answer → answer = .accepted) :
    (action ≠ .publish ∧ Owes (operation task) (after.phase task)) ∨
      (action = .publish ∧ ∃ event, (event, task) ∈ after.log ∧ machine.cursor < event) := by
  cases kind : operation task with
  | snapshot => rw [kind] at owes; exact owes.elim
  | mutation request =>
    cases phase : machine.phase task <;> rw [kind, phase] at owes <;>
      first | exact owes.elim | skip
    all_goals
      cases action <;> simp only [step, kind, phase, some.injEq, reduceCtorEq] at steps
    case written.answer answer =>
      obtain rfl := accepted answer rfl
      obtain rfl := some.inj steps
      left
      constructor
      · rintro ⟨⟩
      · rw [setPhase_same]
        trivial
    case accepted.publish =>
      subst steps
      right
      exact ⟨rfl, _, mem_append_right _ mem_cons_self, Nat.lt_succ_self _⟩
  | expiry =>
  cases phase : machine.phase task <;> rw [kind, phase] at owes <;>
    first | exact owes.elim | skip
  cases action <;> simp only [step, kind, phase, some.injEq, reduceCtorEq] at steps
  case publish previous now =>
    subst steps
    obtain ⟨expired, isExpired⟩ := isSome_iff_exists.mp owes
    have some : expired.2 ≠ [] := expire_some isExpired
    obtain ⟨count, counts⟩ := Nat.exists_eq_succ_of_ne_zero (mt eq_nil_of_length_eq_zero some)
    right
    refine ⟨rfl, machine.cursor + 1, ?_, Nat.lt_succ_self _⟩
    simp only [isExpired, elim_some, counts]
    exact publishAll_mem task count machine

/-- A mutation of the current routes leaves them as they are or waits for its reload. -/
theorem commitMutation_cases {request : Request} {valid : Bool}
    (same : previous.routes = machine.file.routes) :
    (machine.commitMutation env task request previous now valid).file.routes =
        machine.file.routes ∨
      (machine.commitMutation env task request previous now valid).phase task =
        .written previous now := by
  simp only [commitMutation]
  cases outcome : request.mutate env previous now with
  | error _ => exact .inl rfl
  | ok mutation =>
  cases valid with
  | false => exact .inl rfl
  | true =>
  cases persist : mutation.persist with
  | false =>
    simp only [persist, if_true, Bool.false_eq_true, if_false, returns]
    left
    split <;> rfl
  | true =>
  cases reload : mutation.reload with
  | false =>
    have stored := routes_of_no_reload outcome persist reload
    simp only [persist, reload, if_true, Bool.false_eq_true, if_false, returns]
    left
    split <;> exact stored.trans same
  | true =>
    right
    simp only [persist, reload, if_true]
    exact setPhase_same _ _ _

variable {snapshot : TaskId}

/-- What an ordinary step changes, its task will announce. -/
theorem step_changes {listing : Machine} (orderly : Orderly listing snapshot machine (task, action))
    (steps : machine.step env operation task action = some after)
    (changes : after.file.routes ≠ machine.file.routes) :
    Unwritten (machine.phase task) ∧ Owes (operation task) (after.phase task) := by
  cases kind : operation task <;> cases phase : machine.phase task <;> cases action <;>
    simp only [step, kind, phase, some.injEq, reduceCtorEq] at steps
  case mutation.written.answer answer | expiry.announced.answer answer =>
    obtain rfl := orderly.accepted answer rfl
    obtain rfl := some.inj steps
    exact (changes rfl).elim
  all_goals subst steps
  case mutation.loaded.commit request previous now valid =>
    have same := orderly.current now valid previous rfl phase
    refine ⟨trivial, ?_⟩
    have outcomes : _ ∨ (machine.commitMutation env task request previous now valid).phase task =
        .written previous now := commitMutation_cases same
    rcases outcomes with unchanged | written
    · exact (changes unchanged).elim
    · rw [written]
      trivial
  case expiry.written.publish previous now =>
    exact (changes (congrArg _ (publishAll_same task _ machine).1)).elim
  case expiry.loaded.commit previous now valid =>
    refine ⟨trivial, ?_⟩
    simp only [commitExpiry] at changes ⊢
    cases outcome : previous.expire now with
    | none =>
      rw [outcome] at changes
      exact (changes rfl).elim
    | some expired => simp [Owes, outcome]
  -- what is left does not touch the file
  all_goals exact (changes rfl).elim

variable {routes : List DesiredRoute}

theorem step_listed (listed : machine.phase snapshot = .listed routes)
    (steps : machine.step env operation snapshot action = some after) :
    after = machine.setPhase snapshot (.answered routes machine.cursor) := by
  cases kind : operation snapshot <;> cases action <;>
    simp only [step, kind, listed, some.injEq, reduceCtorEq] at steps
  exact steps.symm

variable {cursor : Nat}

theorem step_answered (answered : machine.phase snapshot = .answered routes cursor)
    (steps : machine.step env operation snapshot action = some after) : False := by
  cases kind : operation snapshot <;> cases action <;>
    simp only [step, kind, answered, reduceCtorEq] at steps

/-! ### Runs -/

theorem run_cons (machine : Machine) (entry : TaskId × Action) (rest : Trace) :
    machine.run env operation (entry :: rest) =
      ((machine.step env operation entry.1 entry.2).getD machine).run env operation rest := rfl

theorem run_log (machine : Machine) (trace : Trace) :
    machine.cursor ≤ (machine.run env operation trace).cursor ∧
      machine.log ⊆ (machine.run env operation trace).log := by
  induction trace generalizing machine with
  | nil => exact ⟨le_rfl, List.Subset.refl _⟩
  | cons entry rest ih =>
  rw [run_cons]
  cases steps : machine.step env operation entry.1 entry.2 with
  | none => exact ih machine
  | some after =>
    obtain ⟨cursor, log⟩ := step_log steps
    obtain ⟨laterCursor, laterLog⟩ := ih after
    exact ⟨cursor.trans laterCursor, List.Subset.trans log laterLog⟩

theorem run_answered (answered : machine.phase snapshot = .answered routes cursor) (trace : Trace) :
    (machine.run env operation trace).phase snapshot = .answered routes cursor := by
  induction trace generalizing machine with
  | nil => exact answered
  | cons entry rest ih =>
  rw [run_cons]
  cases steps : machine.step env operation entry.1 entry.2 with
  | none => exact ih answered
  | some after =>
  apply ih
  rw [getD_some]
  by_cases same : snapshot = entry.1
  · subst same
    exact (step_answered answered steps).elim
  · rw [step_other steps same, answered]

variable {answer : List DesiredRoute} {trace : Trace}

theorem answered_eq {last : Nat} (isAnswer : machine.phase snapshot = .answered routes cursor)
    (answered : (machine.run env operation trace).phase snapshot = .answered answer last) :
    answer = routes ∧ last = cursor := by
  rw [run_answered isAnswer] at answered
  obtain ⟨rfl, rfl⟩ := Phase.answered.inj answered
  exact ⟨rfl, rfl⟩

variable {listing : Machine} {snapshot task : TaskId}

theorem run_pays (owes : Owes (operation task) (machine.phase task))
    (orderly : OrderlyRun env operation listing snapshot machine trace)
    (finished : Finished (machine.run env operation trace)) :
    ∃ event, (event, task) ∈ (machine.run env operation trace).log ∧ machine.cursor < event := by
  induction trace generalizing machine with
  | nil =>
    obtain ⟨quiet, published⟩ := finished task
    change ¬ Busy (machine.phase task) at quiet
    change machine.phase task ≠ .accepted at published
    exfalso
    cases kind : operation task <;> cases phase : machine.phase task <;>
      simp_all [Owes, Busy]
  | cons entry rest ih =>
  obtain ⟨now, later⟩ := orderly
  rw [run_cons] at finished ⊢
  cases steps : machine.step env operation entry.1 entry.2 with
  | none =>
    rw [steps] at later finished
    exact ih owes later finished
  | some after =>
  rw [steps, getD_some] at later finished
  have grows := step_log steps
  have goesOn (still : Owes (operation task) (after.phase task)) :
      ∃ event, (event, task) ∈ (after.run env operation rest).log ∧ machine.cursor < event := by
    obtain ⟨event, published, beyond⟩ := ih still later finished
    exact ⟨event, published, grows.1.trans_lt beyond⟩
  by_cases same : task = entry.1
  · subst same
    rcases step_owes owes steps now.accepted with ⟨-, still⟩ | ⟨-, event, published, beyond⟩
    · exact goesOn still
    · exact ⟨event, (run_log after rest).2 published, beyond⟩
  · apply goesOn
    rwa [step_other steps same]

/-- A task that wrote between the two readings of the snapshot publishes after the second. -/
theorem run_pays_late (listed : machine.phase snapshot = .listed routes)
    (owes : Owes (operation task) (machine.phase task)) (fresh : Unwritten (listing.phase task))
    (orderly : OrderlyRun env operation listing snapshot machine trace)
    (finished : Finished (machine.run env operation trace))
    (answered : (machine.run env operation trace).phase snapshot = .answered answer cursor) :
    ∃ event, (event, task) ∈ (machine.run env operation trace).log ∧ machine.cursor < event ∧
      cursor < event := by
  induction trace generalizing machine with
  | nil =>
    rw [show (machine.run env operation []).phase snapshot = machine.phase snapshot from rfl,
      listed] at answered
    cases answered
  | cons entry rest ih =>
  obtain ⟨now, later⟩ := orderly
  rw [run_cons] at finished answered ⊢
  have different : task ≠ snapshot := by
    rintro rfl
    rw [listed] at owes
    cases kind : operation task <;> rw [kind] at owes <;> exact owes
  cases steps : machine.step env operation entry.1 entry.2 with
  | none =>
    rw [steps] at later finished answered
    exact ih listed owes later finished answered
  | some after =>
  rw [steps, getD_some] at later finished answered
  have grows := step_log steps
  by_cases reads : snapshot = entry.1
  · -- the cursor is read here: what is published from now on lies beyond it
    rw [← reads] at steps
    obtain rfl := step_listed listed steps
    obtain ⟨-, rfl⟩ := answered_eq (setPhase_same _ _ _) answered
    rw [← setPhase_other machine (.answered routes machine.cursor) different] at owes
    obtain ⟨event, published, beyond⟩ := run_pays owes later finished
    exact ⟨event, published, beyond, beyond⟩
  have stillListed : after.phase snapshot = .listed routes := by
    rw [step_other steps reads, listed]
  have stillOwes : Owes (operation task) (after.phase task) := by
    by_cases same : task = entry.1
    · subst same
      rcases step_owes owes steps now.accepted with ⟨-, still⟩ | ⟨publishes, -⟩
      · exact still
      · exact (now.later publishes routes listed fresh).elim
    · rwa [step_other steps same]
  obtain ⟨event, published, beyond, late⟩ :=
    ih stillListed stillOwes later finished answered
  exact ⟨event, published, grows.1.trans_lt beyond, late⟩

/-- The snapshot has its routes and has yet to read the cursor, or has read one that is not
ahead. -/
def Reading (machine : Machine) (snapshot : TaskId) (routes : List DesiredRoute) (cursor : Nat) :
    Prop :=
  machine.phase snapshot = .listed routes ∨
    (machine.phase snapshot = .answered routes cursor ∧ cursor ≤ machine.cursor)

theorem run_announced (reading : Reading machine snapshot routes cursor)
    (fresh : ∀ task, Unwritten (machine.phase task) → Unwritten (listing.phase task))
    (orderly : OrderlyRun env operation listing snapshot machine trace)
    (finished : Finished (machine.run env operation trace))
    (answered : (machine.run env operation trace).phase snapshot = .answered answer cursor) :
    answer = routes ∧ Announced env operation cursor machine trace := by
  induction trace generalizing machine with
  | nil =>
    rcases reading with listed | ⟨isAnswer, -⟩
    · rw [show (machine.run env operation []).phase snapshot = machine.phase snapshot from rfl,
        listed] at answered
      cases answered
    · exact ⟨(answered_eq isAnswer answered).1, trivial⟩
  | cons entry rest ih =>
  obtain ⟨now, later⟩ := orderly
  simp only [Announced, run_cons] at finished answered ⊢
  cases steps : machine.step env operation entry.1 entry.2 with
  | none =>
    rw [steps] at later finished answered
    obtain ⟨same, rest⟩ := ih reading fresh later finished answered
    exact ⟨same, fun changes => (changes rfl).elim, rest⟩
  | some after =>
  rw [steps, getD_some] at later finished answered
  have grows := step_log steps
  have stillFresh : ∀ task, Unwritten (after.phase task) → Unwritten (listing.phase task) := by
    intro task unwritten
    apply fresh
    by_cases same : task = entry.1
    · subst same
      exact step_unwritten steps unwritten
    · rwa [← step_other steps same]
  have stillReading : Reading after snapshot routes cursor := by
    by_cases reads : snapshot = entry.1
    · rw [← reads] at steps
      rcases reading with listed | ⟨isAnswer, -⟩
      · obtain rfl := step_listed listed steps
        obtain ⟨-, rfl⟩ := answered_eq (setPhase_same _ _ _) answered
        exact .inr ⟨setPhase_same _ _ _, le_rfl⟩
      · exact (step_answered isAnswer steps).elim
    · rw [Reading, step_other steps reads]
      exact reading.imp_right fun ⟨isAnswer, behind⟩ => ⟨isAnswer, behind.trans grows.1⟩
  obtain ⟨same, announced⟩ := ih stillReading stillFresh later finished answered
  refine ⟨same, fun changes => ?_, announced⟩
  obtain ⟨unwritten, owes⟩ := step_changes now steps changes
  rcases stillReading with listed | ⟨isAnswer, behind⟩
  · obtain ⟨event, published, beyond, late⟩ :=
      run_pays_late listed owes (fresh _ unwritten) later finished answered
    exact ⟨_, published, rfl, grows.1.trans_lt beyond, late⟩
  · obtain ⟨event, published, beyond⟩ := run_pays owes later finished
    exact ⟨_, published, rfl, grows.1.trans_lt beyond, behind.trans_lt beyond⟩

/-- Whatever has happened before the snapshot: if from its first reading on reloads are accepted,
mutations replace the routes that they were computed from, and no task that writes after the first
reading publishes before the second, then a client with the snapshot and the events after its cursor
hears of every change. -/
theorem snapshot_complete (env : Environment) (operation : TaskId → Operation) (machine : Machine)
    (snapshot : TaskId) (now : UnixTime) (trace : Trace)
    (isSnapshot : operation snapshot = .snapshot) (idle : machine.phase snapshot = .idle)
    (orderly : OrderlyRun env operation machine snapshot
      (machine.run env operation [(snapshot, .listRoutes now)]) trace)
    (finished : Finished (machine.run env operation ((snapshot, .listRoutes now) :: trace))) :
    Complete env operation machine snapshot now trace := by
  intro routes cursor answered
  have lists : machine.run env operation [(snapshot, .listRoutes now)] =
      machine.setPhase snapshot (.listed (machine.file.list now)) := by
    simp [run, step, isSnapshot, idle]
  refine run_announced (.inl ?_) ?_ orderly finished answered
  · rw [lists, setPhase_same]
  intro task unwritten
  by_cases same : task = snapshot
  · rw [same, idle]
    trivial
  · rwa [lists, setPhase_other _ _ same] at unwritten

/-! ### Silent changes -/

/-- Two extensions with a route each, one that repeats the first route, and a client. -/
def watched : TaskId → Operation
  | 0 => .mutation (oneRoute "a" "x" 1 "k0")
  | 1 => .mutation (oneRoute "b" "y" 1 "k1")
  | 2 => .mutation (oneRoute "a" "x" 1 "k2")
  | 3 => .snapshot
  | _ => .expiry

/-- Where the client's snapshot finds the daemon. -/
def found (past : Trace) : Machine :=
  ({ file := .new } : Machine).run plainEnvironment watched past

/-- The past of a snapshot, what comes after its first reading, and the cursor it returns. -/
structure Scene where
  past : Trace
  trace : Trace
  cursor : Nat

/-- A mutation runs from its first to its last step between the two readings. -/
def between : Scene := ⟨[], undisturbed 0 ++ [(3, .readCursor)], 1⟩

/-- A route is listed and its reload is rejected afterwards. -/
def undone : Scene :=
  ⟨[(0, .load), (0, .commit 0 true)], [(3, .readCursor), (0, .answer .rejected)], 0⟩

/-- The reply for a route that was written after the listing is dropped. -/
def unanswered : Scene :=
  ⟨[], [(3, .readCursor), (0, .load), (0, .commit 0 true), (0, .answer .dropped)], 0⟩

/-- A mutation without changes writes its old copy over a newer route. -/
def overwritten : Scene :=
  ⟨undisturbed 0 ++ [(2, .load)] ++ undisturbed 1, [(3, .readCursor), (2, .commit 0 true)], 2⟩

def scenes : List Scene := [between, undone, unanswered, overwritten]

theorem scenes_answered : ∀ scene ∈ scenes,
    ((found scene.past).run plainEnvironment watched
      ((3, .listRoutes 0) :: scene.trace)).phase 3 =
        .answered ((found scene.past).file.list 0) scene.cursor := by
  intro scene member
  fin_cases member <;> rfl

theorem scenes_unannounced : ∀ scene ∈ scenes,
    ¬ Announced plainEnvironment watched scene.cursor
      ((found scene.past).run plainEnvironment watched [(3, .listRoutes 0)]) scene.trace := by
  decide

theorem scenes_settled : ∀ scene ∈ scenes,
    ∀ task ∈ (scene.past ++ (3, .listRoutes 0) :: scene.trace).map Prod.fst,
      ¬ Busy ((found (scene.past ++ (3, .listRoutes 0) :: scene.trace)).phase task) ∧
        (found (scene.past ++ (3, .listRoutes 0) :: scene.trace)).phase task ≠ .accepted := by
  decide

theorem found_append (past trace : Trace) :
    found (past ++ trace) = (found past).run plainEnvironment watched trace :=
  foldl_append

/-- All tasks of a scene finish, and the client is never told of a change. -/
def Scene.Misses (scene : Scene) : Prop :=
  Finished ((found scene.past).run plainEnvironment watched ((3, .listRoutes 0) :: scene.trace)) ∧
    ¬ Complete plainEnvironment watched (found scene.past) 3 0 scene.trace

theorem scenes_miss : ∀ scene ∈ scenes, scene.Misses := by
  intro scene member
  constructor
  · rw [← found_append]
    exact finished_run (fun _ => rfl) (scenes_settled scene member)
  · intro complete
    exact scenes_unannounced scene member (complete _ _ (scenes_answered scene member)).2

/-- In each of these runs a change of the routes is missed. -/
theorem snapshot_misses_changes :
    between.Misses ∧ undone.Misses ∧ unanswered.Misses ∧ overwritten.Misses := by
  refine ⟨?_, ?_, ?_, ?_⟩
  all_goals
    apply scenes_miss
    simp [scenes]

/-- A mutation that overlaps with the snapshot and publishes after it. -/
def overlapping : Scene :=
  ⟨[(0, .load)], [(0, .commit 0 true), (3, .readCursor), (0, .answer .accepted), (0, .publish)], 0⟩

theorem overlapping_orderly : OrderlyRun plainEnvironment watched (found overlapping.past) 3
      ((found overlapping.past).run plainEnvironment watched [(3, .listRoutes 0)])
      overlapping.trace := by
  refine ⟨⟨nofun, ?_, nofun⟩, ⟨nofun, nofun, nofun⟩, ⟨?_, nofun, nofun⟩,
    ⟨nofun, nofun, ?_⟩, trivial⟩
  · intro now valid previous _ loaded
    obtain rfl := Phase.loaded.inj loaded
    rfl
  · rintro answer ⟨⟩
    rfl
  · intro _ routes listed
    cases listed

/-- The client gets no route and the cursor 0, and the event with the cursor 1 tells it. -/
theorem snapshot_complete_overlapping : ((found overlapping.past).run plainEnvironment watched
        ((3, .listRoutes 0) :: overlapping.trace)).log = [(1, 0)] ∧
      Complete plainEnvironment watched (found overlapping.past) 3 0 overlapping.trace := by
  refine ⟨rfl, snapshot_complete _ _ _ _ _ _ rfl rfl overlapping_orderly ?_⟩
  rw [← found_append]
  exact finished_run (fun _ => rfl) (by decide)

end Ironet.Control
