import Ironet.Scheduler.Service

/-!
# Scheduler accounting

The depth counters of the scheduler are maintained incrementally. This module shows that they
always equal the contents of the queues, that no subtraction on them can underflow and that the
byte budgets hold, for every sequence of calls.

The invariant is split along the queues. The Bulk part speaks about a flow table, a ring and three
counters, and is preserved by three edits of one flow: adding it, replacing it and removing it.
-/
namespace Ironet.Scheduler
open Support Cell Train HashMap TrainCursor V2Scheduler List

/-- Remaining Cell bytes of a queue of trains. -/
def trainBytes (trains : List TrainCursor) : Nat :=
  (trains.map fun train => cellBytes train.cells).sum

/-- A queued cursor still has a Cell, and its byte counter is exact. -/
structure TrainCursor.Accounted (cursor : TrainCursor) : Prop where
  bytes : cursor.bytes = cellBytes cursor.cells
  nonempty : cursor.cells ≠ []

structure LatencyAccounted (latency : List TrainCursor) (bytes trains : Nat) : Prop where
  bytes : bytes = trainBytes latency
  trains : trains = latency.length
  cursors : ∀ cursor ∈ latency, cursor.Accounted

/-- A listed flow has a train, every train of it is accounted for and its deficit is capped. -/
structure BulkFlow.Accounted (cap : Nat) (flow : BulkFlow) : Prop where
  nonempty : flow.trains ≠ []
  cursors : ∀ cursor ∈ flow.trains, cursor.Accounted
  deficit : flow.deficit ≤ cap

structure BulkAccounted (cap : Nat) (bulk : HashMap UInt64 BulkFlow) (ring : List UInt64)
    (bytes trains flows : Nat) : Prop where
  bytes : bytes = bulk.weight fun flow => trainBytes flow.trains
  trains : trains = bulk.weight fun flow => flow.trains.length
  flows : flows = bulk.size
  ring : HashMap.Lists ring bulk
  accounted : ∀ flowId flow, bulk.lookup flowId = some flow → flow.Accounted cap

/-- The accounting invariant of the scheduler. -/
structure Accounting (s : V2Scheduler) : Prop where
  controlBytes : s.depth.controlBytes = (s.control.map length).sum
  probeBytes : s.depth.probeBytes = (s.probes.map length).sum
  latency : LatencyAccounted s.latency s.depth.latencyBytes s.depth.latencyTrains
  bulk : BulkAccounted (2 * s.limits.maximumQuantumBytes) s.bulk s.activeBulk s.depth.bulkBytes
    s.depth.bulkTrains s.depth.bulkFlows
  controlLimit : s.depth.controlBytes ≤ s.limits.controlBytes
  probeLimit : s.depth.probeBytes ≤ s.limits.probeBytes
  latencyLimit : s.depth.latencyBytes ≤ s.limits.latencyBytes
  bulkLimit : s.depth.bulkBytes ≤ s.limits.bulkBytes
  applicationLimit : s.depth.latencyBytes + s.depth.bulkBytes ≤ s.limits.applicationBytes

/-! ### Sums -/

@[simp] theorem cellBytes_nil : cellBytes [] = 0 := rfl

@[simp] theorem cellBytes_cons (cell : ScheduledCellV2) (cells : List ScheduledCellV2) :
    cellBytes (cell :: cells) = cell.len + cellBytes cells := by
  simp [cellBytes]

@[simp] theorem cellBytes_append (front back : List ScheduledCellV2) :
    cellBytes (front ++ back) = cellBytes front + cellBytes back := by
  simp [cellBytes]

@[simp] theorem trainBytes_nil : trainBytes [] = 0 := rfl

@[simp] theorem trainBytes_cons (train : TrainCursor) (trains : List TrainCursor) :
    trainBytes (train :: trains) = cellBytes train.cells + trainBytes trains := by
  simp [trainBytes]

@[simp] theorem trainBytes_append (front back : List TrainCursor) :
    trainBytes (front ++ back) = trainBytes front + trainBytes back := by
  simp [trainBytes]

theorem trainBytes_perm {left right : List TrainCursor} (permuted : left.Perm right) :
    trainBytes left = trainBytes right :=
  (permuted.map _).sum_eq

/-! ### Edits of one Bulk flow -/

section BulkEdits

variable {cap bytes trains flows : Nat} {bulk : HashMap UInt64 BulkFlow} {ring : List UInt64}
  {flowId : UInt64} {flow : BulkFlow}

section
variable (accounted : BulkAccounted cap bulk ring bytes trains flows)
include accounted

/-- A flow's trains are part of the totals, so taking them off cannot underflow. -/
theorem BulkAccounted.holds (found : bulk.lookup flowId = some flow) :
    trainBytes flow.trains ≤ bytes ∧ flow.trains.length ≤ trains ∧ 1 ≤ flows := by
  have bytesSplit := weight_of_lookup (fun flow => trainBytes flow.trains) found
  have trainsSplit := weight_of_lookup (fun flow => flow.trains.length) found
  have flowsSplit := size_of_lookup found
  have := accounted.bytes
  have := accounted.trains
  have := accounted.flows
  omega

theorem BulkAccounted.add (absent : bulk.lookup flowId = none) (valid : flow.Accounted cap) :
    BulkAccounted cap (bulk.insert flowId flow) (ring ++ [flowId])
      (bytes + trainBytes flow.trains) (trains + flow.trains.length) (flows + 1) where
  bytes := by rw [weight_insert_of_absent _ _ absent, accounted.bytes, Nat.add_comm]
  trains := by rw [weight_insert_of_absent _ _ absent, accounted.trains, Nat.add_comm]
  flows := by rw [size_insert_of_absent _ absent, accounted.flows]
  ring := accounted.ring.insert_fresh absent flow
  accounted := by
    intro key value found
    rcases lookup_insert_eq_some.mp found with ⟨rfl, rfl⟩ | ⟨_, old⟩
    · exact valid
    · exact accounted.accounted key value old

variable {newRing : List UInt64}

theorem BulkAccounted.replace {newFlow : BulkFlow} (found : bulk.lookup flowId = some flow)
    (valid : newFlow.Accounted cap) (rotated : newRing.Perm ring) :
    BulkAccounted cap (bulk.insert flowId newFlow) newRing
      (bytes - trainBytes flow.trains + trainBytes newFlow.trains)
      (trains - flow.trains.length + newFlow.trains.length) flows where
  bytes := by
    have split := weight_of_lookup (fun flow => trainBytes flow.trains) found
    rw [weight_insert, accounted.bytes, split]
    omega
  trains := by
    have split := weight_of_lookup (fun flow => flow.trains.length) found
    rw [weight_insert, accounted.trains, split]
    omega
  flows := by rw [size_insert_of_lookup _ found, accounted.flows]
  ring := accounted.ring.insert_held found newFlow rotated
  accounted := by
    intro key value lookedUp
    rcases lookup_insert_eq_some.mp lookedUp with ⟨rfl, rfl⟩ | ⟨_, old⟩
    · exact valid
    · exact accounted.accounted key value old

theorem BulkAccounted.remove (found : bulk.lookup flowId = some flow)
    (removed : (flowId :: newRing).Perm ring) :
    BulkAccounted cap (bulk.erase flowId) newRing (bytes - trainBytes flow.trains)
      (trains - flow.trains.length) (flows - 1) where
  bytes := by
    have split := weight_of_lookup (fun flow => trainBytes flow.trains) found
    rw [accounted.bytes, split]
    omega
  trains := by
    have split := weight_of_lookup (fun flow => flow.trains.length) found
    rw [accounted.trains, split]
    omega
  flows := by
    rw [accounted.flows, size_of_lookup found]
    omega
  ring := accounted.ring.erase removed
  accounted := by
    intro key value lookedUp
    exact accounted.accounted key value (lookup_erase_eq_some.mp lookedUp).2

end

end BulkEdits

/-! ### Taking Cells off a cursor -/

theorem popCellsLoop_spec (maximumCells maximumBytes : Nat) (left : List ScheduledCellV2)
    (cursorBytes : Nat) (output : List ScheduledCellV2) (bytes : Nat)
    (balanced : cursorBytes = cellBytes left) (counted : bytes = cellBytes output)
    (within : bytes ≤ maximumBytes) :
    Returns (popCellsLoop maximumCells maximumBytes left cursorBytes output bytes)
      fun (taken, rest, restBytes) => output ++ left = taken ++ rest ∧
        restBytes = cellBytes rest ∧ cellBytes taken ≤ maximumBytes := by
  induction left generalizing cursorBytes output bytes with
  | nil => exact .ok ⟨rfl, balanced, counted ▸ within⟩
  | cons next left ih =>
  have stop : Returns (.ok (output, next :: left, cursorBytes) : Except Panic _)
      fun (taken, rest, restBytes) => output ++ next :: left = taken ++ rest ∧
        restBytes = cellBytes rest ∧ cellBytes taken ≤ maximumBytes :=
    .ok ⟨rfl, balanced, counted ▸ within⟩
  rw [cellBytes_cons] at balanced
  unfold popCellsLoop
  split
  · split
    · exact stop
    split
    · exact stop
    rename_i later first
    -- both guards together: the next Cell fits into the byte budget
    have fits : bytes + next.len ≤ maximumBytes := by
      by_cases empty : output = []
      · subst empty
        simp only [cellBytes_nil] at counted
        simp only [true_and] at first
        omega
      · simp only [ne_eq, empty, not_false_eq_true, true_and] at later
        omega
    refine (returns_subtract (by omega)).bind ?_
    rintro remaining rfl
    refine (ih _ (output ++ [next]) _ (by omega) ?_ fits).imp ?_
    · simp [counted]
    · rintro ⟨taken, rest, restBytes⟩ ⟨split, counts⟩
      exact ⟨by simpa using split, counts⟩
  · exact stop

variable {s : V2Scheduler} {flowId : UInt64}

section
variable {cursor : TrainCursor} {cells : List ScheduledCellV2}

theorem TrainCursor.popCells_spec (cursor : TrainCursor) (maximumCells maximumBytes : Nat)
    (balanced : cursor.bytes = cellBytes cursor.cells) :
    Returns (cursor.popCells maximumCells maximumBytes) fun (taken, rest) =>
      taken <+: cursor.cells ∧ rest = cursor.without taken ∧ cellBytes taken ≤ maximumBytes := by
  refine (popCellsLoop_spec maximumCells maximumBytes cursor.cells cursor.bytes [] 0 balanced rfl
    (Nat.zero_le _)).bind ?_
  rintro ⟨taken, rest, restBytes⟩ ⟨split, rfl, within⟩
  have isRest : cursor.cells.drop taken.length = rest := by
    rw [← nil_append cursor.cells, split, drop_left]
  exact .ok ⟨⟨rest, split.symm⟩, by rw [without, isRest], within⟩

theorem TrainCursor.without_nil (balanced : cursor.bytes = cellBytes cursor.cells) :
    cursor.without [] = cursor := by
  simp [without, ← balanced]

theorem cellBytes_without (taken : cells <+: cursor.cells) :
    cellBytes cursor.cells = cellBytes cells + cellBytes (cursor.without cells).cells := by
  conv_lhs => rw [prefix_append_drop taken, cellBytes_append]
  rfl

/-! ### What a served train leaves in its queue -/

/-- The train stays at the front until its last Cell is gone, without the statistics. -/
def TrainCursor.ahead (rest : TrainCursor) (behind : List TrainCursor) : List TrainCursor :=
  if rest.cells.isEmpty then behind else { rest with stats := none } :: behind

variable (now : Instant) {behind : List TrainCursor}

theorem trainBytes_ahead (rest : TrainCursor) (behind : List TrainCursor) :
    trainBytes (rest.ahead behind) = cellBytes rest.cells + trainBytes behind := by
  by_cases finished : rest.cells = [] <;> simp [ahead, finished]

theorem length_ahead (rest : TrainCursor) (behind : List TrainCursor) :
    (rest.ahead behind).length = if rest.cells.isEmpty then behind.length
      else behind.length + 1 := by
  unfold ahead
  split <;> rfl

theorem ahead_accounted (accounted : ∀ other ∈ behind, other.Accounted) :
    ∀ other ∈ (cursor.without cells).ahead behind, other.Accounted := by
  unfold ahead
  split
  · exact accounted
  · rename_i unfinished
    exact forall_mem_cons.mpr ⟨⟨rfl, by simpa using unfinished⟩, accounted⟩

/-! ### Latency service -/

/-- The counters are still exact, and the queues gave up this work. -/
structure Works (s : V2Scheduler) (work : Option ScheduledWork) (t : V2Scheduler) : Prop where
  accounting : Accounting t
  pops : Pops s.queues work t.queues

theorem Works.then {t u : V2Scheduler} {work : Option ScheduledWork} (first : Works s none t)
    (second : Works t work u) : Works s work u :=
  ⟨second.accounting, first.pops.of_none ▸ second.pops⟩

theorem serveLatency_works (valid : Accounting s) (front : s.latency = cursor :: behind)
    (taken : cells <+: cursor.cells) (some : cells ≠ []) :
    Returns (s.serveLatency now cells (cursor.without cells) behind) fun (quantum, t) =>
      Works s (.some (.cells quantum)) t ∧ quantum.class' = .latency := by
  have total := valid.latency.bytes
  rw [front, trainBytes_cons, cellBytes_without taken] at total
  have count : s.depth.latencyTrains = behind.length + 1 := by
    rw [valid.latency.trains, front, length_cons]
  have latencyLimit := valid.latencyLimit
  have applicationLimit := valid.applicationLimit
  refine (returns_subtract (by omega)).bind ?_
  rintro latencyBytes rfl
  refine (returns_subtractIf _ (by intro _; omega)).bind ?_
  rintro latencyTrains rfl
  have kept : LatencyAccounted ((cursor.without cells).ahead behind)
      (s.depth.latencyBytes - cellBytes cells)
      (if (cursor.without cells).cells.isEmpty then s.depth.latencyTrains - 1
        else s.depth.latencyTrains) := by
    refine ⟨?_, ?_, ahead_accounted (forall_mem_cons.mp (front ▸ valid.latency.cursors)).2⟩
    · rw [trainBytes_ahead]
      omega
    · rw [length_ahead, count]
      rfl
  refine .ok ⟨⟨{ valid with latency := kept, latencyLimit := ?_, applicationLimit := ?_ },
    .latency front ⟨taken, some, rfl, rfl, rfl, rfl⟩ rfl rfl⟩, rfl⟩
  all_goals
    dsimp only [recordQuantum]
    omega

theorem popLatency_works (valid : Accounting s) : Returns (s.popLatency now) fun (served, t) =>
      Works s (served.map .cells) t ∧ ∀ quantum ∈ served, quantum.class' = .latency := by
  unfold popLatency
  split
  · exact .ok ⟨⟨valid, .idle⟩, by rintro _ ⟨⟩⟩
  rename_i cursor behind front
  have accounted := valid.latency.cursors cursor (front ▸ mem_cons_self)
  refine (cursor.popCells_spec 1 s.limits.maximumQuantumBytes accounted.bytes).bind ?_
  rintro ⟨cells, rest⟩ ⟨taken, rfl, -⟩
  dsimp only
  split
  · rename_i empty
    rw [empty, without_nil accounted.bytes, ← front]
    exact .ok ⟨⟨valid, .idle⟩, by rintro _ ⟨⟩⟩
  · rename_i some
    refine (serveLatency_works now valid front taken some).bind ?_
    rintro ⟨quantum, t⟩ ⟨works, isLatency⟩
    refine .ok ⟨works, ?_⟩
    rintro _ ⟨⟩
    exact isLatency

/-! ### Bulk service -/

variable {ring : List UInt64} {flow : BulkFlow} {deficit : Nat}

theorem serveBulk_works (valid : Accounting s) (front : s.activeBulk = flowId :: ring)
    (found : s.bulk.lookup flowId = some flow) (queued : flow.trains = cursor :: behind)
    (taken : cells <+: cursor.cells) (some : cells ≠ []) (affordable : cellBytes cells ≤ deficit)
    (capped : deficit ≤ 2 * s.limits.maximumQuantumBytes) :
    Returns ({ s with activeBulk := ring }.serveBulk now flowId deficit cells (cursor.without cells)
      behind) fun (quantum, t) => Works s (.some (.cells quantum)) t := by
  obtain ⟨bytesHeld, trainsHeld, flowsHeld⟩ := valid.bulk.holds found
  have keptBytes := trainBytes_ahead (cursor.without cells) behind
  have keptAccounted := @ahead_accounted cursor cells behind
    (forall_mem_cons.mp (queued ▸ (valid.bulk.accounted flowId flow found).cursors)).2
  have keptCount : (if (cursor.without cells).cells.isEmpty then s.depth.bulkTrains - 1
      else s.depth.bulkTrains) = s.depth.bulkTrains - flow.trains.length +
        ((cursor.without cells).ahead behind).length := by
    rw [queued, length_cons] at trainsHeld ⊢
    rw [length_ahead]
    split <;> omega
  have flowBytes : trainBytes flow.trains =
      cellBytes cells + trainBytes ((cursor.without cells).ahead behind) := by
    rw [queued, trainBytes_cons, cellBytes_without taken, keptBytes, Nat.add_assoc]
  have kept : BulkAccounted (2 * s.limits.maximumQuantumBytes)
      (if (cursor.without cells).ahead behind = [] then s.bulk.erase flowId else
        s.bulk.insert flowId ⟨deficit - cellBytes cells, (cursor.without cells).ahead behind⟩)
      (if (cursor.without cells).ahead behind = [] then ring else ring ++ [flowId])
      (s.depth.bulkBytes - cellBytes cells)
      (if (cursor.without cells).cells.isEmpty then s.depth.bulkTrains - 1 else s.depth.bulkTrains)
      (if (cursor.without cells).ahead behind = [] then s.depth.bulkFlows - 1
        else s.depth.bulkFlows) := by
    rw [keptCount]
    generalize (cursor.without cells).ahead behind = trains at *
    by_cases empty : trains = []
    · have removed : BulkAccounted _ _ ring _ _ _ := valid.bulk.remove found (by rw [front])
      simpa [empty, flowBytes] using removed
    have keeps : BulkFlow.Accounted (2 * s.limits.maximumQuantumBytes)
        ⟨deficit - cellBytes cells, trains⟩ := ⟨empty, keptAccounted, by dsimp only; omega⟩
    have replaced : BulkAccounted _ _ (ring ++ [flowId]) _ _ _ :=
      valid.bulk.replace found keeps (by rw [front]; exact perm_append_singleton flowId ring)
    have same : s.depth.bulkBytes - cellBytes cells =
        s.depth.bulkBytes - trainBytes flow.trains + trainBytes trains := by omega
    simpa [empty, same] using replaced
  have bulkLimit := valid.bulkLimit
  have applicationLimit := valid.applicationLimit
  refine (returns_subtract affordable).bind ?_
  rintro left rfl
  refine (returns_subtract (by dsimp only; omega)).bind ?_
  rintro bulkBytes rfl
  refine (returns_subtractIf _ (by
    intro _
    rw [queued, length_cons] at trainsHeld
    dsimp only
    omega)).bind ?_
  rintro bulkTrains rfl
  refine (returns_subtractIf _ (by intro _; exact flowsHeld)).bind ?_
  rintro bulkFlows rfl
  refine .ok ⟨?_, ?_⟩
  · refine { valid with bulk := kept, bulkLimit := ?_, applicationLimit := ?_ }
    all_goals
      dsimp only [recordQuantum]
      omega
  · simp only [queues, flowTrains_keep, recordQuantum]
    exact .bulk ((flowTrains_of_lookup found).trans queued) ⟨taken, some, rfl, rfl, rfl, rfl⟩ rfl

theorem visitBulk_works (s : V2Scheduler) (now : Instant) (valid : Accounting s) :
    Returns (s.visitBulk now) fun (served, t) => Works s (served.map .cells) t := by
  unfold visitBulk
  split
  · exact .ok ⟨valid, .idle⟩
  rename_i flowId ring front
  -- the ring lists exactly the flows of the table, so the lookup cannot miss
  obtain ⟨flow, found⟩ := valid.bulk.ring.lookup_isSome (front ▸ mem_cons_self)
  have accounted := valid.bulk.accounted flowId flow found
  simp only [found]
  cases queued : flow.trains with
  | nil => exact absurd queued accounted.nonempty
  | cons cursor behind =>
  have balanced := (accounted.cursors cursor (queued ▸ mem_cons_self)).bytes
  refine (cursor.popCells_spec _ _ balanced).bind ?_
  rintro ⟨cells, rest⟩ ⟨taken, rfl, within⟩
  dsimp only
  split
  · -- the deficit does not cover a Cell yet: the flow moves to the back of the ring
    rename_i empty
    rw [empty, without_nil balanced, ← queued]
    have keeps : BulkFlow.Accounted (2 * s.limits.maximumQuantumBytes)
        ⟨min (flow.deficit + s.limits.bulkDrrQuantumBytes) (s.limits.maximumQuantumBytes * 2),
          flow.trains⟩ := ⟨accounted.nonempty, accounted.cursors, by dsimp only; omega⟩
    have replaced : BulkAccounted _ _ (ring ++ [flowId]) _ _ _ := valid.bulk.replace found keeps
      (by rw [front]; exact perm_append_singleton flowId ring)
    obtain ⟨bytesHeld, trainsHeld, -⟩ := valid.bulk.holds found
    rw [Nat.sub_add_cancel bytesHeld, Nat.sub_add_cancel trainsHeld] at replaced
    refine .ok ⟨{ valid with bulk := replaced }, ?_⟩
    simp only [Option.map_none, queues, flowTrains_insert]
    rw [← flowTrains_of_lookup found, Function.update_eq_self]
    exact .idle
  · rename_i some
    refine (serveBulk_works now valid front found queued taken some (by omega) (by omega)).bind ?_
    rintro ⟨quantum, t⟩ works
    exact .ok works

theorem popBulkLoop_works (visits : Nat) (s : V2Scheduler) (valid : Accounting s) :
    Returns (popBulkLoop now visits s) fun (served, t) => Works s (served.map .cells) t := by
  induction visits generalizing s with
  | zero => exact .ok ⟨valid, .idle⟩
  | succ visits ih =>
  refine (visitBulk_works s now valid).bind ?_
  rintro ⟨served, t⟩ first
  cases served with
  | some quantum => exact .ok first
  | none => exact (ih t first.accounting).imp fun _ => first.then

/-! ### Service of all queues -/

theorem popProbe_works (valid : Accounting s) :
    Returns s.popProbe fun (work, t) => Works s work t := by
  unfold popProbe
  split
  · exact .ok ⟨valid, .idle⟩
  rename_i bytes rest front
  have total : s.depth.probeBytes = bytes.length + (rest.map length).sum := by
    rw [valid.probeBytes, front, map_cons, sum_cons]
  have probeLimit := valid.probeLimit
  refine (returns_subtract (by omega)).bind ?_
  rintro probeBytes rfl
  refine .ok ⟨{ valid with probeBytes := ?_, probeLimit := ?_ }, .probe front⟩
  all_goals
    dsimp only
    omega

theorem popRest_works (valid : Accounting s) :
    Returns (s.popRest now) fun (work, t) => Works s work t := by
  refine (popLatency_works now valid).bind ?_
  rintro ⟨served, t⟩ ⟨first, -⟩
  cases served with
  | some quantum => exact .ok first
  | none => exact (popProbe_works first.accounting).imp fun _ => first.then

theorem popBulkThenRest_works (forceBulk : Bool) (valid : Accounting s) :
    Returns (s.popBulkThenRest now forceBulk) fun (work, t) => Works s work t := by
  refine (popBulkLoop_works now s.activeBulk.length s valid).bind ?_
  rintro ⟨served, t⟩ first
  cases served with
  | some quantum => exact .ok ⟨{ first.accounting with }, first.pops⟩
  | none => exact (popRest_works now first.accounting).imp fun _ => first.then

theorem notePreemption_accounting (valid : Accounting s) : Accounting s.notePreemption := by
  unfold notePreemption
  split
  · exact { valid with }
  · exact valid

theorem pop_works (valid : Accounting s) : Returns (s.pop now) fun (work, t) => Works s work t := by
  unfold pop
  split
  · rename_i bytes rest front
    have total : s.depth.controlBytes = bytes.length + (rest.map length).sum := by
      rw [valid.controlBytes, front, map_cons, sum_cons]
    have controlLimit := valid.controlLimit
    refine (returns_subtract (by omega)).bind ?_
    rintro controlBytes rfl
    refine .ok ⟨{ valid with controlBytes := ?_, controlLimit := ?_ }, .control front⟩
    all_goals
      dsimp only
      omega
  split
  · exact popBulkThenRest_works now true valid
  refine (popLatency_works now valid).bind ?_
  rintro ⟨served, t⟩ ⟨first, -⟩
  cases served with
  | some quantum =>
    exact .ok ⟨notePreemption_accounting first.accounting, notePreemption_queues t ▸ first.pops⟩
  | none => exact (popBulkThenRest_works now false first.accounting).imp fun _ => first.then

end

/-! ### Eviction -/

theorem evictTrain_accounting {flow : BulkFlow}
    {removed : TrainCursor} (valid : Accounting s) (found : s.bulk.lookup flowId = some flow)
    (last : flow.trains.getLast? = some removed) :
    Returns (s.evictTrain flowId flow flow.trains.dropLast removed) fun t =>
      Accounting t ∧ t.depth.bulkTrains + 1 = s.depth.bulkTrains := by
  have accounted := valid.bulk.accounted flowId flow found
  obtain ⟨bytesHeld, trainsHeld, flowsHeld⟩ := valid.bulk.holds found
  have split : flow.trains = flow.trains.dropLast ++ [removed] :=
    (dropLast_append_getLast? removed last).symm
  have removedAccounted : removed.Accounted :=
    accounted.cursors removed (mem_of_getLast? last)
  have flowBytes : trainBytes flow.trains =
      trainBytes flow.trains.dropLast + removed.bytes := by
    conv_lhs => rw [split]
    simp [removedAccounted.bytes]
  have flowTrains : flow.trains.length = flow.trains.dropLast.length + 1 := by
    conv_lhs => rw [split]
    simp
  have bulkLimit := valid.bulkLimit
  have applicationLimit := valid.applicationLimit
  refine (returns_subtract (by omega)).bind ?_
  rintro bulkBytes rfl
  refine (returns_subtract (by omega)).bind ?_
  rintro bulkTrains rfl
  split
  · -- the flow's only train: the flow leaves the table and the ring
    rename_i empty
    rw [empty, trainBytes_nil] at flowBytes
    rw [empty, length_nil] at flowTrains
    refine (returns_subtract flowsHeld).bind ?_
    rintro bulkFlows rfl
    have listed : flowId ∈ s.activeBulk :=
      (valid.bulk.ring.keys flowId).mpr (mem_of_lookup found)
    have ringSplit : (flowId :: s.activeBulk.filter (· != flowId)).Perm s.activeBulk := by
      rw [← valid.bulk.ring.nodup.erase_eq_filter]
      exact (perm_cons_erase listed).symm
    have without := valid.bulk.remove found ringSplit
    refine .ok ⟨{ valid with bulk := ?_, bulkLimit := ?_, applicationLimit := ?_ }, ?_⟩
    · rwa [show trainBytes flow.trains = removed.bytes by omega,
        show flow.trains.length = 1 by omega] at without
    all_goals dsimp only; omega
  rename_i kept
  have keeps : BulkFlow.Accounted (2 * s.limits.maximumQuantumBytes)
      { flow with trains := flow.trains.dropLast } :=
    ⟨kept, fun other member => accounted.cursors other (mem_of_mem_dropLast member),
      accounted.deficit⟩
  have replaced := valid.bulk.replace found keeps (List.Perm.refl _)
  refine .ok ⟨{ valid with bulk := ?_, bulkLimit := ?_, applicationLimit := ?_ }, ?_⟩
  · rwa [show s.depth.bulkBytes - trainBytes flow.trains + trainBytes flow.trains.dropLast =
        s.depth.bulkBytes - removed.bytes by omega,
      show s.depth.bulkTrains - flow.trains.length + flow.trains.dropLast.length =
        s.depth.bulkTrains - 1 by omega] at replaced
  all_goals dsimp only; omega

theorem evictFrom_accounting (s : V2Scheduler) (flowIds : List UInt64) (valid : Accounting s) :
    Returns (s.evictFrom flowIds) fun (evicted, t) => Accounting t ∧
      if evicted then t.depth.bulkTrains + 1 = s.depth.bulkTrains else t = s := by
  rw [evictFrom_eq]
  cases first : flowIds.findSome? s.evictable with
  | none => exact .ok ⟨valid, rfl⟩
  | some entry =>
    obtain ⟨found, last⟩ := evictable_of first
    refine (evictTrain_accounting valid found last).bind ?_
    rintro t ⟨after, fewer⟩
    exact .ok ⟨after, fewer⟩

/-- The eviction loop, run with more turns than there are Bulk trains, ends with room for the
bytes or in a state in which nothing can be evicted. -/
theorem evictUntilFits_accounting (bytes fuel : Nat) (s : V2Scheduler) (valid : Accounting s)
    (enough : s.bulkTrainCount < fuel) :
    Returns (evictUntilFits bytes fuel s) fun (fits, t) => Accounting t ∧
      if fits then t.depth.latencyBytes + bytes ≤ t.limits.applicationBytes - t.depth.bulkBytes
      else t.limits.applicationBytes - t.depth.bulkBytes < t.depth.latencyBytes + bytes ∧
        t.evictBulkElastic = .ok (false, t) := by
  induction fuel generalizing s with
  | zero => exact absurd enough (Nat.not_lt_zero _)
  | succ fuel ih =>
  unfold evictUntilFits
  split
  · rename_i tight
    obtain ⟨⟨evicted, t⟩, run, after, effect⟩ := evictFrom_accounting s s.activeBulk.reverse valid
    change s.evictBulkElastic = .ok (evicted, t) at run
    rw [run, ok_bind]
    cases evicted with
    | true =>
      have fewer : t.bulkTrainCount + 1 = s.bulkTrainCount := by
        unfold bulkTrainCount
        rw [← after.bulk.trains, ← valid.bulk.trains]
        exact effect
      exact ih t after (by omega)
    | false =>
      obtain rfl : t = s := effect
      exact .ok ⟨after, tight, run⟩
  · rename_i roomy
    exact .ok ⟨valid, Nat.le_of_not_lt roomy⟩

/-! ### Admission -/

theorem reject_accounting (bytes : Nat) (valid : Accounting s) : Accounting (s.reject bytes) :=
  { valid with }

theorem enqueueBytes_accounting (bytes : Bytes) (queue : TrafficQueue)
    (valid : Accounting s) : Accounting (s.enqueueBytes bytes queue).2 := by
  have controlBytes := valid.controlBytes
  have probeBytes := valid.probeBytes
  unfold enqueueBytes
  split
  · exact valid
  cases queue with
  | control =>
    dsimp only
    split
    · exact reject_accounting _ valid
    · refine { valid with controlBytes := ?_, controlLimit := ?_ }
      · simp [controlBytes]
      · dsimp only
        omega
  | probe =>
  dsimp only
  split
  · exact reject_accounting _ valid
  · refine { valid with probeBytes := ?_, probeLimit := ?_ }
    · simp [probeBytes]
    · dsimp only
      omega

theorem insertLatency_perm (cursor : TrainCursor) (deadline : Instant)
    (latency : List TrainCursor) :
    (insertLatency cursor deadline latency).Perm (cursor :: latency) :=
  perm_insertIdx cursor latency findIdx_le_length

theorem TrainCursor.Accounted.admitted {cursor : TrainCursor} (accounted : cursor.Accounted) :
    cursor.admitted.Accounted := by
  unfold TrainCursor.admitted
  split
  · exact ⟨accounted.bytes, accounted.nonempty⟩
  · exact accounted

theorem enqueueBulk_admits {cursor : TrainCursor} (isBulk : cursor.class' = .bulk) :
    if (s.enqueueBulk cursor).1 then Admits s.queues cursor.admitted (s.enqueueBulk cursor).2.queues
    else (s.enqueueBulk cursor).2.queues = s.queues := by
  unfold enqueueBulk
  dsimp only
  split
  · simp [reject, queues]
  have isAdmitted : cursor.admitted = cursor := by simp only [admitted, isBulk]
  have trains : ((s.bulk.lookup cursor.flowId).getD {}).trains =
      s.queues.bulk cursor.flowId := by
    cases found : s.bulk.lookup cursor.flowId with
    | none => simp [queues, flowTrains_of_absent found]
    | some flow => simp [queues, flowTrains_of_lookup found]
  rw [if_pos rfl, isAdmitted]
  simp only [queues, flowTrains_insert]
  rw [trains]
  exact .bulk isBulk

section
variable (cursor : TrainCursor) (valid : Accounting s) (accounted : cursor.Accounted)
include valid accounted

theorem enqueueLatency_enters (isLatency : cursor.class' = .latency) :
    Returns (s.enqueueLatency cursor) fun (accepted, t) => Accounting t ∧
      ∃ flows mid, Evicts s.queues flows mid ∧
        if accepted then Admits mid cursor.admitted t.queues else t.queues = mid := by
  unfold enqueueLatency
  dsimp only
  split
  · exact .ok ⟨reject_accounting _ valid, [], _, .done _, rfl⟩
  obtain ⟨⟨fits, t⟩, evicted, after, room⟩ :=
    evictUntilFits_accounting cursor.bytes _ s valid (Nat.lt_succ_self _)
  obtain ⟨flows, evicts⟩ := evictUntilFits_evicts evicted
  rw [evicted, ok_bind]
  cases fits with
  | false => exact .ok ⟨reject_accounting _ after, flows, _, evicts, rfl⟩
  | true =>
  simp only [if_true] at room
  simp only [Bool.not_true, Bool.false_eq_true, if_false]
  split
  · exact .ok ⟨reject_accounting _ after, flows, _, evicts, rfl⟩
  have inserted := insertLatency_perm
    { cursor with deadline := some (cursor.deadline.getD
      (cursor.enqueued + defaultLatencyDeadline)) }
    (cursor.deadline.getD (cursor.enqueued + defaultLatencyDeadline)) t.latency
  have applicationLimit := after.applicationLimit
  refine .ok ⟨?_, flows, _, evicts, ?_⟩
  · refine { after with latency := ⟨?_, ?_, ?_⟩, latencyLimit := ?_, applicationLimit := ?_ }
    · rw [trainBytes_perm inserted, trainBytes_cons]
      simp only [after.latency.bytes, accounted.bytes, Nat.add_comm]
    · rw [inserted.length_eq, length_cons]
      simp only [after.latency.trains]
    · intro other member
      rcases mem_cons.mp (inserted.mem_iff.mp member) with rfl | old
      · exact ⟨accounted.bytes, accounted.nonempty⟩
      · exact after.latency.cursors other old
    all_goals
      dsimp only
      omega
  · have isAdmitted : cursor.admitted = { cursor with
        deadline := some (cursor.deadline.getD (cursor.enqueued + defaultLatencyDeadline)) } := by
      simp only [admitted, isLatency]
    rw [if_pos rfl, isAdmitted]
    exact .latency isLatency

theorem enqueueBulk_accounting : Accounting (s.enqueueBulk cursor).2 := by
  unfold enqueueBulk
  dsimp only
  split
  · exact reject_accounting _ valid
  rename_i under
  cases found : s.bulk.lookup cursor.flowId with
  | none =>
    -- a fresh flow joins the ring
    have fresh : BulkFlow.Accounted (2 * s.limits.maximumQuantumBytes)
        { deficit := 0, trains := [cursor] } :=
      ⟨cons_ne_nil _ _, by simpa using accounted, Nat.zero_le _⟩
    have added := valid.bulk.add found fresh
    refine { valid with bulk := ?_, bulkLimit := ?_, applicationLimit := ?_ }
    · simpa [accounted.bytes] using added
    all_goals
      dsimp only
      omega
  | some flow =>
  have flowAccounted := valid.bulk.accounted cursor.flowId flow found
  have extended : BulkFlow.Accounted (2 * s.limits.maximumQuantumBytes)
      { flow with trains := flow.trains ++ [cursor] } := by
    refine ⟨by simp, ?_, flowAccounted.deficit⟩
    exact forall_mem_append.mpr ⟨flowAccounted.cursors, by simpa using accounted⟩
  have replaced := valid.bulk.replace found extended (List.Perm.refl _)
  obtain ⟨bytesHeld, trainsHeld, _⟩ := valid.bulk.holds found
  have wasListed : flow.trains.isEmpty = false := by simpa using flowAccounted.nonempty
  refine { valid with bulk := ?_, bulkLimit := ?_, applicationLimit := ?_ }
  · simp only [trainBytes_append, trainBytes_cons, trainBytes_nil, Nat.add_zero,
      length_append, length_singleton, ← Nat.add_assoc,
      Nat.sub_add_cancel bytesHeld, Nat.sub_add_cancel trainsHeld] at replaced
    simpa [wasListed, accounted.bytes] using replaced
  all_goals
    dsimp only
    omega

theorem enqueueCursor_enters : Returns (s.enqueueCursor cursor) fun (result, t) => Accounting t ∧
      ∃ flows mid, Evicts s.queues flows mid ∧
        if result = .ok true then Admits mid cursor.admitted t.queues else t.queues = mid := by
  unfold enqueueCursor
  split
  · split
    · rename_i isLatency
      obtain ⟨⟨accepted, t⟩, run, entered⟩ :=
        enqueueLatency_enters cursor valid accounted isLatency
      rw [run]
      exact .ok (by simpa using entered)
    · rename_i isBulk
      have kept := enqueueBulk_accounting cursor valid accounted
      have admits := @enqueueBulk_admits s cursor isBulk
      generalize s.enqueueBulk cursor = outcome at kept admits
      exact .ok ⟨kept, [], _, .done _, by simpa using admits⟩
  · exact .ok ⟨valid, [], _, .done _, by simp⟩

end

theorem enqueueBuilt_accounting (flowId : UInt64)
    {built : Except String TrainCursor} (valid : Accounting s)
    (accounted : ∀ cursor, built = .ok cursor → cursor.Accounted) :
    Returns (s.enqueueBuilt flowId built) fun (_, t) => Accounting t := by
  unfold enqueueBuilt
  split
  · exact .ok valid
  · rename_i cursor run
    obtain ⟨_, _, made⟩ := (bind_eq_ok _ _ _).mp run
    exact (enqueueCursor_enters cursor valid (accounted cursor made)).imp fun _ => And.left

/-! ### The three ways to build a cursor -/

theorem addTrainBytes_eq_ok (bytes len total : Nat) (message : String) :
    addTrainBytes bytes len message = .ok total ↔ bytes + len < 2 ^ 64 ∧ bytes + len = total := by
  simp only [addTrainBytes, do_eq_ok]

/-- What a scheduling loop returns: its byte total is exact and it kept every Cell. -/
def Scheduled (cells : Nat) (scheduled : List ScheduledCellV2)
    (result : List ScheduledCellV2 × Nat) : Prop :=
  result.2 = cellBytes result.1 ∧ result.1.length = scheduled.length + cells

/-- A loop that schedules one Cell for each entry and adds up their bytes. -/
theorem Scheduled.of_loop {β : Type}
    {loop : List β → List ScheduledCellV2 → Nat → Except String (List ScheduledCellV2 × Nat)}
    (stops : ∀ scheduled bytes, loop [] scheduled bytes = .ok (scheduled, bytes))
    (continues : ∀ {entry rest scheduled bytes result},
      loop (entry :: rest) scheduled bytes = .ok result →
        ∃ cell, loop rest (scheduled ++ [cell]) (bytes + cell.len) = .ok result)
    {entries : List β} {scheduled : List ScheduledCellV2} {bytes : Nat}
    {result : List ScheduledCellV2 × Nat} (balanced : bytes = cellBytes scheduled)
    (run : loop entries scheduled bytes = .ok result) :
    Scheduled entries.length scheduled result := by
  induction entries generalizing scheduled bytes with
  | nil =>
    obtain rfl := Except.ok.inj ((stops _ _).symm.trans run)
    exact ⟨balanced, rfl⟩
  | cons entry rest ih =>
    obtain ⟨cell, run⟩ := continues run
    obtain ⟨sum, count⟩ := ih (by simp [balanced]) run
    simp only [length_append, length_cons, length_nil] at count ⊢
    exact ⟨sum, by omega⟩

variable {class' : TrafficClass} {trainId : UInt64} {result : List ScheduledCellV2 × Nat}

theorem scheduleCells_spec {maximum : Nat} {cells : List CellV2}
    (run : scheduleCells class' trainId maximum cells [] 0 = .ok result) :
    Scheduled cells.length [] result := by
  refine .of_loop (fun _ _ => rfl) (fun run => ?_) rfl run
  simp only [scheduleCells, do_eq_ok, addTrainBytes_eq_ok] at run
  obtain ⟨-, -, ⟨head, tail, header⟩, -, total, ⟨-, rfl⟩, run⟩ := run
  exact ⟨_, run⟩

variable {cells : List Bytes}

theorem contiguous_len (encoded : Bytes) (header : CellRouteHeaderV2) :
    ScheduledCellV2.len { payload := .contiguous encoded, header } = encoded.length := by
  simp [ScheduledCellV2.len, DatagramPayload.len, DatagramPayload.contiguous]

theorem scheduleEncoded_spec (run : scheduleEncoded class' trainId cells [] 0 = .ok result) :
    Scheduled cells.length [] result := by
  refine .of_loop (fun _ _ => rfl) (fun run => ?_) rfl run
  simp only [scheduleEncoded, do_eq_ok, addTrainBytes_eq_ok] at run
  obtain ⟨cell, -, -, -, total, ⟨-, rfl⟩, header, -, run⟩ := run
  exact ⟨_, by rwa [contiguous_len]⟩

theorem scheduleForwarded_spec {first : CellRouteHeaderV2}
    (run : scheduleForwarded first cells [] 0 = .ok result) : Scheduled cells.length [] result := by
  refine .of_loop (fun _ _ => rfl) (fun run => ?_) rfl run
  simp only [scheduleForwarded, do_eq_ok, addTrainBytes_eq_ok] at run
  obtain ⟨header, -, -, total, ⟨-, rfl⟩, run⟩ := run
  exact ⟨_, by rwa [contiguous_len]⟩

/-- A non-empty batch schedules to a cursor that is accounted for. -/
theorem Scheduled.accounted {cells : Nat} {cursor : TrainCursor} (nonempty : 0 < cells)
    (scheduled : Scheduled cells [] (cursor.cells, cursor.bytes)) : cursor.Accounted := by
  obtain ⟨sum, count⟩ := scheduled
  refine ⟨sum, ?_⟩
  intro empty
  simp only [empty, length_nil] at count
  omega

theorem TrainCursor.new_accounted {now : Instant} {train : PacketTrain}
    {maximum : Nat} {deadline : Option Instant} (cursor : TrainCursor)
    (run : new now flowId train maximum deadline = .ok cursor) : cursor.Accounted := by
  unfold new at run
  split at run
  · cases run
  rename_i first rest cells
  simp only [do_eq_ok] at run
  obtain ⟨result, scheduled, rfl⟩ := run
  exact Scheduled.accounted (by simp [cells]) (scheduleCells_spec scheduled)

theorem TrainCursor.fromEncoded_accounted {now : Instant}
    {class' : TrafficClass} {trainId : UInt64} {cells : List Bytes}
    {stats : Option TrainBuildStats} (cursor : TrainCursor)
    (run : fromEncoded now flowId class' trainId cells stats = .ok cursor) : cursor.Accounted := by
  simp only [fromEncoded, do_eq_ok] at run
  obtain ⟨nonempty, result, scheduled, rfl⟩ := run
  exact Scheduled.accounted (length_pos_iff.mpr nonempty) (scheduleEncoded_spec scheduled)

theorem TrainCursor.fromForwarded_accounted {now : Instant}
    {cells : List Bytes} (cursor : TrainCursor)
    (run : fromForwarded now flowId cells = .ok cursor) : cursor.Accounted := by
  unfold fromForwarded at run
  split at run
  · cases run
  · simp only [do_eq_ok] at run
    obtain ⟨first, -, result, scheduled, rfl⟩ := run
    exact Scheduled.accounted (by simp) (scheduleForwarded_spec scheduled)

/-- The cursor that a call builds, if it enqueues a train. -/
def SchedulerCall.cursor (now : Instant) : SchedulerCall → Except String TrainCursor
  | .enqueueTrain flowId train maximum => do
    let cursor ← TrainCursor.new now flowId train maximum none
    .ok { cursor with priority := false }
  | .enqueueTrainWithDeadline flowId train maximum deadline => do
    let cursor ← TrainCursor.new now flowId train maximum deadline
    .ok { cursor with priority := false }
  | .enqueueTrainWithScheduling flowId train maximum deadline priority => do
    let cursor ← TrainCursor.new now flowId train maximum deadline
    .ok { cursor with priority }
  | .enqueueEncodedTrain flowId class' trainId cells trainStats => do
    let cursor ← TrainCursor.fromEncoded now flowId class' trainId cells trainStats
    .ok { cursor with deadline := none, priority := false }
  | .enqueueEncodedTrainWithDeadline flowId class' trainId cells trainStats deadline => do
    let cursor ← TrainCursor.fromEncoded now flowId class' trainId cells trainStats
    .ok { cursor with deadline, priority := false }
  | .enqueueEncodedTrainWithScheduling flowId class' trainId cells trainStats deadline
      priority => do
    let cursor ← TrainCursor.fromEncoded now flowId class' trainId cells trainStats
    .ok { cursor with deadline, priority }
  | .enqueueForwardedCells flowId cells => TrainCursor.fromForwarded now flowId cells
  | _ => .error ""

theorem SchedulerCall.cursor_accounted {now : Instant} {call : SchedulerCall} {cursor : TrainCursor}
    (built : call.cursor now = .ok cursor) : cursor.Accounted := by
  have kept : ∀ {base : TrainCursor} (deadline : Option Instant) (priority : Bool),
      base.Accounted → TrainCursor.Accounted { base with deadline, priority } :=
    fun _ _ accounted => ⟨accounted.bytes, accounted.nonempty⟩
  cases call with
  | enqueueControl | enqueueProbe | pop | setBulkQuantumCells => cases built
  | enqueueForwardedCells flowId cells =>
    exact fromForwarded_accounted cursor built
  | enqueueTrain | enqueueTrainWithDeadline | enqueueTrainWithScheduling =>
    simp only [SchedulerCall.cursor, do_eq_ok] at built
    obtain ⟨base, made, rfl⟩ := built
    exact kept base.deadline _ (new_accounted base made)
  | enqueueEncodedTrain | enqueueEncodedTrainWithDeadline | enqueueEncodedTrainWithScheduling =>
    simp only [SchedulerCall.cursor, do_eq_ok] at built
    obtain ⟨base, made, rfl⟩ := built
    exact kept _ _ (fromEncoded_accounted base made)

/-! ### Whole runs -/

theorem setBulkQuantumCells_accounting (cells : Nat) (valid : Accounting s) :
    Accounting (s.setBulkQuantumCells cells).2 := by
  unfold setBulkQuantumCells
  split
  · exact { valid with }
  · exact valid

theorem new_accounting {limits : SchedulerLimits} (made : new limits = .ok s) : Accounting s := by
  simp only [V2Scheduler.new, do_eq_ok] at made
  obtain ⟨-, rfl⟩ := made
  refine ⟨rfl, rfl, ⟨rfl, rfl, ?_⟩, ⟨rfl, rfl, rfl, .nil, ?_⟩, ?_, ?_, ?_, ?_, ?_⟩
  all_goals simp

theorem call_accounting (s : V2Scheduler) (now : Instant) (next : SchedulerCall)
    (valid : Accounting s) : Returns (s.call now next) Accounting := by
  have state : ∀ {α : Type} {outcome : Except Panic (α × V2Scheduler)},
      Returns outcome (fun (_, t) => Accounting t) →
        Returns (outcome.map Prod.snd) Accounting := by
    rintro α outcome ⟨⟨value, t⟩, rfl, after⟩
    exact .ok after
  have accounted : ∀ cursor, next.cursor now = .ok cursor → cursor.Accounted :=
    fun _ => SchedulerCall.cursor_accounted
  cases next with
  | enqueueControl bytes => exact .ok (enqueueBytes_accounting bytes .control valid)
  | enqueueProbe bytes => exact .ok (enqueueBytes_accounting bytes .probe valid)
  | enqueueTrain flowId | enqueueTrainWithDeadline flowId | enqueueTrainWithScheduling flowId
  | enqueueEncodedTrain flowId | enqueueEncodedTrainWithDeadline flowId
  | enqueueEncodedTrainWithScheduling flowId | enqueueForwardedCells flowId =>
    exact state (enqueueBuilt_accounting flowId valid accounted)
  | pop => exact state ((pop_works now valid).imp fun _ => Works.accounting)
  | setBulkQuantumCells cells => exact .ok (setBulkQuantumCells_accounting cells valid)

theorem run_accounting (s : V2Scheduler) (calls : List (Instant × SchedulerCall))
    (valid : Accounting s) : Returns (s.run calls) Accounting := by
  induction calls generalizing s with
  | nil => exact .ok valid
  | cons next rest ih =>
    obtain ⟨now, call⟩ := next
    exact (call_accounting s now call valid).bind ih

/-- Every sequence of calls on a new scheduler runs without underflow and ends in a state whose
counters equal the queue contents, whose ring lists the flows and whose budgets hold. -/
theorem scheduler_accounting (limits : SchedulerLimits) (s : V2Scheduler)
    (made : new limits = .ok s) (calls : List (Instant × SchedulerCall)) :
    ∃ t, s.run calls = .ok t ∧ Accounting t :=
  run_accounting s calls (new_accounting made)

def transitCell (class' : TrafficClass) (trainId : UInt64) (payload : Nat) : Bytes :=
  encodeHeader 0 {
    kind := .fecParity
    class'
    sessionEpoch := 1
    routeLabel := 1
    trainId
    cellSequence := 0
    stripeId := 1
    segmentCount := 0
    payloadLen := UInt16.ofNat payload
    overlayHopLimit := 8
    overlayHops := 0 } ++ List.replicate payload 0

def tightLimits : SchedulerLimits where
  latencyBytes := 120
  bulkBytes := 120
  applicationBytes := 120
  bulkReserveBytes := 40

/-- Three flows with a Cell of 40 bytes each use the whole budget. -/
def fullOfBulk : List (Instant × SchedulerCall) :=
  [(0, .enqueueForwardedCells 1 [transitCell .bulk 1 4]),
    (0, .enqueueForwardedCells 2 [transitCell .bulk 2 4]),
    (0, .enqueueForwardedCells 3 [transitCell .bulk 3 4])]

/-- A latency train that evicts the newest of them, and a quantum of either class. -/
def evicting : List (Instant × SchedulerCall) :=
  fullOfBulk ++ [(1, .enqueueForwardedCells 9 [transitCell .latency 7 4]), (2, .pop), (3, .pop)]

theorem scheduler_accounting_evicting : new tightLimits = .ok { limits := tightLimits } ∧
    ∃ t, run { limits := tightLimits } evicting = .ok t ∧ Accounting t ∧
      t.stats.bulkEvictedBytes = 40 ∧ t.stats.latencyQuantumCount = 1 ∧ t.depth.bulkBytes = 40 := by
  have evaluated : (run { limits := tightLimits } evicting).toOption.map (fun t =>
      (t.stats.bulkEvictedBytes, t.stats.latencyQuantumCount, t.depth.bulkBytes)) =
        some (40, 1, 40) := by decide +kernel
  obtain ⟨t, ran, valid⟩ := scheduler_accounting tightLimits { limits := tightLimits } rfl evicting
  rw [ran] at evaluated
  exact ⟨rfl, t, ran, valid, by simpa [Except.toOption] using evaluated⟩

end Ironet.Scheduler
