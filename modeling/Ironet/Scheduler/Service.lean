import Ironet.Scheduler.Model

/-!
# What calls do to the queues

The scheduler seen as five queues: control records, latency trains, the trains of every Bulk flow,
probes, and the count of evicted bytes. A pop takes one record or some Cells off the front of one
queue; an admission removes newest Bulk trains and then puts a train into its queue. Everything that
the rest of the development says about whole runs is derived from these effects.
-/
namespace Ironet.Scheduler
open Support Cell Train V2Scheduler TrainCursor Function List

def flowTrains (bulk : HashMap UInt64 BulkFlow) (flowId : UInt64) : List TrainCursor :=
  ((bulk.lookup flowId).map BulkFlow.trains).getD []

structure SchedulerQueues where
  control : List Bytes
  latency : List TrainCursor
  bulk : UInt64 → List TrainCursor
  probes : List Bytes
  evictedBytes : Nat

def V2Scheduler.queues (s : V2Scheduler) : SchedulerQueues where
  control := s.control
  latency := s.latency
  bulk := flowTrains s.bulk
  probes := s.probes
  evictedBytes := s.stats.bulkEvictedBytes

section
variable {bulk : HashMap UInt64 BulkFlow} {flowId : UInt64} {flow : BulkFlow}

theorem flowTrains_of_lookup (found : bulk.lookup flowId = some flow) :
    flowTrains bulk flowId = flow.trains := by
  simp [flowTrains, found]

theorem flowTrains_of_absent (absent : bulk.lookup flowId = none) :
    flowTrains bulk flowId = [] := by
  simp [flowTrains, absent]

variable (bulk : HashMap UInt64 BulkFlow) (flowId : UInt64)

theorem flowTrains_insert (flow : BulkFlow) : flowTrains (bulk.insert flowId flow) =
      update (flowTrains bulk) flowId flow.trains := by
  funext other
  by_cases same : other = flowId
  · subst same
    simp [flowTrains]
  · simp [flowTrains, AList.lookup_insert_ne same, update_of_ne same]

theorem flowTrains_erase : flowTrains (bulk.erase flowId) = update (flowTrains bulk) flowId [] := by
  funext other
  by_cases same : other = flowId
  · subst same
    simp [flowTrains]
  · simp [flowTrains, AList.lookup_erase_ne same, update_of_ne same]

theorem flowTrains_keep (deficit : Nat) (trains : List TrainCursor) :
    flowTrains (if trains = [] then bulk.erase flowId else bulk.insert flowId { deficit, trains }) =
      update (flowTrains bulk) flowId trains := by
  split
  · rename_i empty
    rw [flowTrains_erase, empty]
  · exact flowTrains_insert bulk flowId { deficit, trains }

end

/-! ### Cells taken off a train -/

/-- A cursor after it gave up some Cells. -/
def TrainCursor.advance (cursor : TrainCursor) (cells : List ScheduledCellV2) : TrainCursor :=
  { cursor with
    cells := cursor.cells.drop cells.length
    bytes := cellBytes (cursor.cells.drop cells.length)
    stats := none }

/-- A cursor without the Cells it gave up. -/
def TrainCursor.without (cursor : TrainCursor) (cells : List ScheduledCellV2) : TrainCursor :=
  { cursor with
    cells := cursor.cells.drop cells.length
    bytes := cellBytes (cursor.cells.drop cells.length) }

/-- The train at the front of a queue gives up a quantum, and leaves with its last Cell. -/
structure Serves (cursor : TrainCursor) (behind : List TrainCursor) (quantum : CellQuantum)
    (after : List TrainCursor) : Prop where
  taken : quantum.cells <+: cursor.cells
  nonempty : quantum.cells ≠ []
  trainId : quantum.trainId = cursor.trainId
  finished : quantum.trainFinished = (cursor.cells.drop quantum.cells.length).isEmpty
  stats : quantum.trainStats = cursor.stats
  after : after = if quantum.trainFinished then behind else cursor.advance quantum.cells :: behind

/-- What a pop takes and what it leaves. -/
inductive Pops (queues : SchedulerQueues) : Option ScheduledWork → SchedulerQueues → Prop where
  | idle : Pops queues none queues
  | control {bytes : Bytes} {rest : List Bytes} (front : queues.control = bytes :: rest) :
      Pops queues (some (.control bytes)) { queues with control := rest }
  | latency {cursor : TrainCursor} {behind after : List TrainCursor} {quantum : CellQuantum}
      (front : queues.latency = cursor :: behind) (serves : Serves cursor behind quantum after)
      (isLatency : quantum.class' = .latency) (flow : quantum.flowId = cursor.flowId) :
      Pops queues (some (.cells quantum)) { queues with latency := after }
  | bulk {cursor : TrainCursor} {behind after : List TrainCursor} {quantum : CellQuantum}
      (front : queues.bulk quantum.flowId = cursor :: behind)
      (serves : Serves cursor behind quantum after) (isBulk : quantum.class' = .bulk) :
      Pops queues (some (.cells quantum))
        { queues with bulk := Function.update queues.bulk quantum.flowId after }
  | probe {bytes : Bytes} {rest : List Bytes} (front : queues.probes = bytes :: rest) :
      Pops queues (some (.probe bytes)) { queues with probes := rest }

variable {after : SchedulerQueues}

theorem Pops.of_none {before : SchedulerQueues} (pops : Pops before none after) :
    after = before := by
  cases pops
  rfl

theorem notePreemption_queues (s : V2Scheduler) : s.notePreemption.queues = s.queues := by
  unfold notePreemption
  split <;> rfl

/-! ### Eviction -/

variable {s t : V2Scheduler} {flowId : UInt64}

/-- The newest trains of these flows are removed, one after the other. -/
inductive Evicts : SchedulerQueues → List UInt64 → SchedulerQueues → Prop where
  | done (queues : SchedulerQueues) : Evicts queues [] queues
  | evict {queues after : SchedulerQueues} {flowId : UInt64} {rest : List UInt64}
      {kept : List TrainCursor} {removed : TrainCursor}
      (last : queues.bulk flowId = kept ++ [removed])
      (onward : Evicts { queues with
        bulk := Function.update queues.bulk flowId kept
        evictedBytes := queues.evictedBytes + removed.bytes } rest after) :
      Evicts queues (flowId :: rest) after

theorem Evicts.trans {queues middle after : SchedulerQueues} {flows more : List UInt64}
    (first : Evicts queues flows middle) (second : Evicts middle more after) :
    Evicts queues (flows ++ more) after := by
  induction first with
  | done => exact second
  | evict last _ ih => exact .evict last (ih second)

theorem evictTrain_evicts {flow : BulkFlow} {removed : TrainCursor}
    (found : s.bulk.lookup flowId = some flow) (last : flow.trains.getLast? = some removed)
    (evicted : s.evictTrain flowId flow flow.trains.dropLast removed = .ok t) :
    Evicts s.queues [flowId] t.queues := by
  have split : s.queues.bulk flowId = flow.trains.dropLast ++ [removed] :=
    (flowTrains_of_lookup found).trans (dropLast_append_getLast? removed last).symm
  have onward := Evicts.done t.queues
  refine .evict split ?_
  simp only [evictTrain, bind_eq_ok] at evicted
  obtain ⟨bulkBytes, -, bulkTrains, -, evicted⟩ := evicted
  split at evicted
  · rename_i empty
    simp only [do_eq_ok] at evicted
    obtain ⟨bulkFlows, -, rfl⟩ := evicted
    rw [empty]
    simp only [queues, flowTrains_erase] at onward ⊢
    exact onward
  · obtain rfl := Except.ok.inj evicted
    simp only [queues, flowTrains_insert] at onward ⊢
    exact onward

/-- The flow and its newest train, where evicting that train leaves the reserve. -/
def V2Scheduler.evictable (s : V2Scheduler) (flowId : UInt64) :
    Option (UInt64 × BulkFlow × TrainCursor) := do
  let flow ← s.bulk.lookup flowId
  let newest ← flow.trains.getLast?
  if s.depth.bulkBytes - newest.bytes < s.limits.bulkReserveBytes then none
  else some (flowId, flow, newest)

theorem evictFrom_eq (s : V2Scheduler) (flowIds : List UInt64) :
    s.evictFrom flowIds = match flowIds.findSome? s.evictable with
      | none => .ok (false, s)
      | some (flowId, flow, newest) =>
        s.evictTrain flowId flow flow.trains.dropLast newest >>= fun t => .ok (true, t) := by
  induction flowIds with
  | nil => rfl
  | cons flowId rest ih =>
  rw [evictFrom, findSome?_cons, evictable]
  cases s.bulk.lookup flowId with
  | none => exact ih
  | some flow =>
  dsimp only [Option.bind_eq_bind, Option.bind_some]
  cases flow.trains.getLast? with
  | none => exact ih
  | some newest =>
  dsimp only [Option.bind_some]
  split
  · exact ih
  · rfl

theorem evictable_of {flowIds : List UInt64} {flow : BulkFlow} {newest : TrainCursor}
    (first : flowIds.findSome? s.evictable = some (flowId, flow, newest)) :
    s.bulk.lookup flowId = some flow ∧ flow.trains.getLast? = some newest := by
  obtain ⟨other, -, found⟩ := exists_of_findSome?_eq_some first
  simp only [evictable, Option.bind_eq_bind, Option.bind_eq_some_iff] at found
  grind

/-- What every eviction keeps, the loop keeps. -/
theorem evictUntilFits_induction (Holds : V2Scheduler → Prop) {bytes fuel : Nat} {fits : Bool}
    (step : ∀ {u v flowId flow removed}, Holds u → u.bulk.lookup flowId = some flow →
      flow.trains.getLast? = some removed →
      u.evictTrain flowId flow flow.trains.dropLast removed = .ok v → Holds v)
    (start : Holds s) (ran : evictUntilFits bytes fuel s = .ok (fits, t)) : Holds t := by
  induction fuel generalizing s with
  | zero =>
    obtain ⟨rfl, rfl⟩ := ok_pair_inj ran
    exact start
  | succ fuel ih =>
  unfold evictUntilFits evictBulkElastic at ran
  split at ran
  · rw [evictFrom_eq] at ran
    cases first : s.activeBulk.reverse.findSome? s.evictable with
    | none =>
      rw [first] at ran
      obtain ⟨rfl, rfl⟩ := ok_pair_inj ran
      exact start
    | some entry =>
      simp only [first, bind_assoc, bind_eq_ok, ok_bind] at ran
      obtain ⟨u, evicted, ran⟩ := ran
      obtain ⟨found, last⟩ := evictable_of first
      exact ih (step start found last evicted) ran
  · obtain ⟨rfl, rfl⟩ := ok_pair_inj ran
    exact start

theorem evictUntilFits_evicts {bytes fuel : Nat} {fits : Bool}
    (ran : evictUntilFits bytes fuel s = .ok (fits, t)) :
    ∃ flows, Evicts s.queues flows t.queues := by
  refine evictUntilFits_induction (fun u => ∃ flows, Evicts s.queues flows u.queues) ?_
    ⟨[], .done _⟩ ran
  rintro u v flowId flow removed ⟨flows, evicts⟩ found last evicted
  exact ⟨_, evicts.trans (evictTrain_evicts found last evicted)⟩

/-! ### Admission -/

/-- The train as it is queued: a latency train has a deadline. -/
def TrainCursor.admitted (cursor : TrainCursor) : TrainCursor :=
  match cursor.class' with
  | .latency =>
    { cursor with
      deadline := some (cursor.deadline.getD (cursor.enqueued + defaultLatencyDeadline)) }
  | .bulk => cursor

inductive Admits (queues : SchedulerQueues) (cursor : TrainCursor) : SchedulerQueues → Prop where
  | latency (isLatency : cursor.class' = .latency) :
      Admits queues cursor
        { queues with latency := insertLatency cursor (cursor.deadline.getD 0) queues.latency }
  | bulk (isBulk : cursor.class' = .bulk) :
      Admits queues cursor { queues with
        bulk := Function.update queues.bulk cursor.flowId
          (queues.bulk cursor.flowId ++ [cursor]) }

theorem enqueueBytes_queues (s : V2Scheduler) (bytes : Bytes) (queue : TrafficQueue) :
    (s.enqueueBytes bytes queue).2.queues =
      if (s.enqueueBytes bytes queue).1 then
        match queue with
        | .control => { s.queues with control := s.control ++ [bytes] }
        | .probe => { s.queues with probes := s.probes ++ [bytes] }
      else s.queues := by
  unfold enqueueBytes
  split
  · rfl
  cases queue with
  | control =>
    dsimp only
    split <;> rfl
  | probe =>
    dsimp only
    split <;> rfl

end Ironet.Scheduler
