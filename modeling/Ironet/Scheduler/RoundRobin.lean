import Ironet.Scheduler.Observe

/-!
# Visits of the round robin

The Bulk side of the scheduler is a ring of flows, a deficit and a queue of trains for each flow. A
visit takes the front of the ring, raises its deficit and either serves a quantum within the deficit
or moves the flow to the back. Everything about fairness, starvation and idle pops follows from what
one visit does to this view.
-/
namespace Ironet.Scheduler
open Support Cell Train Function V2Scheduler List TrainCursor

/-! ### Cells within a budget -/

variable {maximumCells maximumBytes : Nat}

theorem popCellsLoop_extends {left : List ScheduledCellV2} {cursorBytes bytes restBytes : Nat}
    {output taken rest : List ScheduledCellV2}
    (ran : popCellsLoop maximumCells maximumBytes left cursorBytes output bytes =
      .ok (taken, rest, restBytes)) :
    output <+: taken ∧ (output.length ≤ maximumCells → taken.length ≤ maximumCells) := by
  induction left generalizing cursorBytes output bytes with
  | nil =>
    obtain ⟨rfl, -⟩ := ok_pair_inj ran
    exact ⟨prefix_refl _, id⟩
  | cons next left ih =>
  unfold popCellsLoop at ran
  split_ifs at ran with more
  · obtain ⟨rfl, -⟩ := ok_pair_inj ran
    exact ⟨prefix_refl _, id⟩
  · obtain ⟨rfl, -⟩ := ok_pair_inj ran
    exact ⟨prefix_refl _, id⟩
  · simp only [bind_eq_ok] at ran
    obtain ⟨remaining, -, ran⟩ := ran
    obtain ⟨extends', bounded⟩ := ih ran
    refine ⟨(prefix_append output [next]).trans extends', fun _ => bounded ?_⟩
    rw [length_append, length_singleton]
    exact more
  · obtain ⟨rfl, -⟩ := ok_pair_inj ran
    exact ⟨prefix_refl _, id⟩

variable {cursor rest : TrainCursor}

/-- What is taken stays within the bounds, and nothing is taken exactly if the head is too long. -/
theorem TrainCursor.popCells_bounds {cells : List ScheduledCellV2}
    (balanced : cursor.bytes = cellBytes cursor.cells)
    (popped : cursor.popCells maximumCells maximumBytes = .ok (cells, rest)) :
    cellBytes cells ≤ maximumBytes ∧ cells.length ≤ maximumCells := by
  refine ⟨((cursor.popCells_spec _ _ balanced).of_eq popped).2.2, ?_⟩
  simp only [popCells, do_eq_ok, Prod.mk.injEq] at popped
  obtain ⟨⟨output, kept, bytes⟩, looped, rfl, -⟩ := popped
  exact (popCellsLoop_extends looped).2 (Nat.zero_le _)

theorem TrainCursor.popCells_nil {head : ScheduledCellV2} {tail : List ScheduledCellV2}
    (some : 0 < maximumCells) (isCells : cursor.cells = head :: tail)
    (popped : cursor.popCells maximumCells maximumBytes = .ok ([], rest)) :
    maximumBytes < head.len := by
  simp only [popCells, do_eq_ok, Prod.mk.injEq, isCells] at popped
  obtain ⟨⟨output, kept, bytes⟩, looped, rfl, -⟩ := popped
  unfold popCellsLoop at looped
  simp only [length_nil, some, if_true, ne_eq, not_true, false_and, if_false, true_and] at looped
  split at looped
  · assumption
  -- a Cell that was taken stays taken
  simp only [bind_eq_ok] at looped
  obtain ⟨remaining, -, looped⟩ := looped
  have extends' := (popCellsLoop_extends looped).1
  simp at extends'

/-! ### The view of Bulk service -/

def flowDeficit (bulk : HashMap UInt64 BulkFlow) (flowId : UInt64) : Nat :=
  ((bulk.lookup flowId).map BulkFlow.deficit).getD 0

structure BulkView where
  ring : List UInt64
  deficit : UInt64 → Nat
  trains : UInt64 → List TrainCursor

def V2Scheduler.bulkView (s : V2Scheduler) : BulkView where
  ring := s.activeBulk
  deficit := flowDeficit s.bulk
  trains := flowTrains s.bulk

/-- The ring lists the flows that have trains, and no other flow has a deficit. -/
structure BulkView.WellFormed (view : BulkView) : Prop where
  nodup : view.ring.Nodup
  listed : ∀ flowId, flowId ∈ view.ring ↔ view.trains flowId ≠ []
  idle : ∀ flowId, view.trains flowId = [] → view.deficit flowId = 0

variable (bulk : HashMap UInt64 BulkFlow) (flowId : UInt64)

theorem flowDeficit_insert (flow : BulkFlow) : flowDeficit (bulk.insert flowId flow) =
      Function.update (flowDeficit bulk) flowId flow.deficit := by
  funext other
  by_cases same : other = flowId
  · subst same
    simp [flowDeficit]
  · simp [flowDeficit, AList.lookup_insert_ne same, update_of_ne same]

theorem flowDeficit_erase :
    flowDeficit (bulk.erase flowId) = Function.update (flowDeficit bulk) flowId 0 := by
  funext other
  by_cases same : other = flowId
  · subst same
    simp [flowDeficit]
  · simp [flowDeficit, AList.lookup_erase_ne same, update_of_ne same]

theorem flowDeficit_keep (deficit : Nat) (trains : List TrainCursor) :
    flowDeficit (if trains = [] then bulk.erase flowId
      else bulk.insert flowId { deficit, trains }) =
      Function.update (flowDeficit bulk) flowId (if trains = [] then 0 else deficit) := by
  split
  · exact flowDeficit_erase bulk flowId
  · exact flowDeficit_insert bulk flowId { deficit, trains }

theorem Accounting.view {s : V2Scheduler} (valid : Accounting s) : s.bulkView.WellFormed where
  nodup := valid.bulk.ring.nodup
  listed := by
    intro flowId
    constructor
    · intro member empty
      obtain ⟨flow, found⟩ := valid.bulk.ring.lookup_isSome member
      have trains := (flowTrains_of_lookup found).symm.trans empty
      exact (valid.bulk.accounted flowId flow found).nonempty trains
    intro some
    refine (valid.bulk.ring.keys flowId).mpr ?_
    cases found : s.bulk.lookup flowId with
    | none => exact absurd (flowTrains_of_absent found) some
    | some flow => exact HashMap.mem_of_lookup found
  idle := by
    intro flowId empty
    cases found : s.bulk.lookup flowId with
    | none => simp [bulkView, flowDeficit, found]
    | some flow =>
      have trains := (flowTrains_of_lookup found).symm.trans empty
      exact absurd trains (valid.bulk.accounted flowId flow found).nonempty

/-! ### One visit -/

variable (limits : SchedulerLimits)

/-- The deficit of a flow when it is visited. -/
def SchedulerLimits.raised (deficit : Nat) : Nat :=
  min (deficit + limits.bulkDrrQuantumBytes) (limits.maximumQuantumBytes * 2)

/-- What a visited flow may send. -/
def SchedulerLimits.budget (deficit : Nat) : Nat :=
  min (limits.raised deficit) limits.maximumQuantumBytes

variable (view : BulkView)

/-- The first Cell of the flow is longer than what the next visit allows. -/
def BulkView.Short (flowId : UInt64) : Prop :=
  ∃ cursor behind head tail, view.trains flowId = cursor :: behind ∧ cursor.cells = head :: tail ∧
    limits.budget (view.deficit flowId) < head.len

def BulkView.miss (flowId : UInt64) (ring : List UInt64) : BulkView where
  ring := ring ++ [flowId]
  deficit := Function.update view.deficit flowId (limits.raised (view.deficit flowId))
  trains := view.trains

def BulkView.serve (quantum : CellQuantum)
    (ring : List UInt64) (after : List TrainCursor) : BulkView where
  ring := if after = [] then ring else ring ++ [quantum.flowId]
  deficit := Function.update view.deficit quantum.flowId
    (if after = [] then 0 else limits.raised (view.deficit quantum.flowId) - quantum.bytes)
  trains := Function.update view.trains quantum.flowId after

/-- A visit of the flow at the front of the ring. -/
inductive Turn (limits : SchedulerLimits) (view : BulkView) :
    UInt64 → Option CellQuantum → BulkView → Prop where
  | miss {flowId : UInt64} {ring : List UInt64} (front : view.ring = flowId :: ring)
      (short : view.Short limits flowId) :
        Turn limits view flowId none (view.miss limits flowId ring)
  | serve {quantum : CellQuantum} {ring : List UInt64} {cursor : TrainCursor}
      {behind after : List TrainCursor} (front : view.ring = quantum.flowId :: ring)
      (isBulk : quantum.class' = .bulk) (trains : view.trains quantum.flowId = cursor :: behind)
      (serves : Serves cursor behind quantum after)
      (bytes : quantum.bytes ≤ limits.budget (view.deficit quantum.flowId))
      (cells : quantum.cells.length ≤ limits.maximumQuantumCells) :
      Turn limits view quantum.flowId (some quantum) (view.serve limits quantum ring after)

/-- What Bulk service does not touch. -/
structure SchedulerFrame where
  limits : SchedulerLimits
  control : List Bytes
  latency : List TrainCursor
  probes : List Bytes
  latencyBytesSinceBulk : Nat

def V2Scheduler.frame (s : V2Scheduler) : SchedulerFrame where
  limits := s.limits
  control := s.control
  latency := s.latency
  probes := s.probes
  latencyBytesSinceBulk := s.latencyBytesSinceBulk

variable {s t : V2Scheduler} {served : Option CellQuantum}

theorem visitBulk_turn {now : Instant} {flowId : UInt64} {ring : List UInt64}
    (valid : Accounting s) (cellsAllowed : 0 < s.limits.maximumQuantumCells)
    (front : s.activeBulk = flowId :: ring) (visited : s.visitBulk now = .ok (served, t)) :
    Turn s.limits s.bulkView flowId served t.bulkView ∧ t.frame = s.frame := by
  obtain ⟨flow, found⟩ := valid.bulk.ring.lookup_isSome (front ▸ mem_cons_self)
  have accounted := valid.bulk.accounted flowId flow found
  have isFront : s.bulkView.ring = flowId :: ring := front
  have isDeficit : s.bulkView.deficit flowId = flow.deficit := by
    simp [bulkView, flowDeficit, found]
  unfold visitBulk at visited
  simp only [front, found] at visited
  cases queued : flow.trains with
  | nil => exact absurd queued accounted.nonempty
  | cons cursor behind =>
  have cursorAccounted := accounted.cursors cursor (queued ▸ mem_cons_self)
  have isTrains : s.bulkView.trains flowId = cursor :: behind :=
    (flowTrains_of_lookup found).trans queued
  simp only [queued, bind_eq_ok] at visited
  obtain ⟨⟨cells, rest⟩, took, visited⟩ := visited
  obtain ⟨taken, isRest, -⟩ := (cursor.popCells_spec _ _ cursorAccounted.bytes).of_eq took
  obtain ⟨bytes, count⟩ := popCells_bounds cursorAccounted.bytes took
  split at visited
  · rename_i empty
    obtain ⟨rfl, rfl⟩ := ok_pair_inj visited
    subst empty
    have same : rest = cursor := isRest.trans (without_nil cursorAccounted.bytes)
    refine ⟨?_, rfl⟩
    obtain ⟨head, tail, isCells⟩ := exists_cons_of_ne_nil cursorAccounted.nonempty
    have short : s.bulkView.Short s.limits flowId := by
      refine ⟨cursor, behind, head, tail, isTrains, isCells, ?_⟩
      rw [isDeficit]
      exact popCells_nil cellsAllowed isCells took
    have turn := Turn.miss isFront short
    simp only [BulkView.miss, isDeficit] at turn
    simp only [bulkView, flowDeficit_insert, flowTrains_insert, same, ← isTrains]
    rw [update_eq_self]
    exact turn
  rename_i some
  simp only [do_eq_ok, serveBulk, recordQuantum, subtract_eq_ok] at visited
  obtain ⟨⟨quantum, u⟩, ⟨left, ⟨-, rfl⟩, bulkBytes, -, bulkTrains, -, bulkFlows, -, made⟩,
    visited⟩ := visited
  obtain ⟨isQuantum, rfl⟩ := Prod.mk.inj made
  obtain ⟨rfl, rfl⟩ := Prod.mk.inj visited
  refine ⟨?_, rfl⟩
  have isFlow : quantum.flowId = flowId := by rw [← isQuantum]
  have isBytes : quantum.bytes = cellBytes cells := by rw [← isQuantum, CellQuantum.bytes]
  have serves : Serves cursor behind quantum (if rest.cells.isEmpty = true then behind else
      { rest with stats := none } :: behind) := by
    rw [← isQuantum, isRest]
    exact ⟨taken, some, rfl, rfl, rfl, rfl⟩
  have turn := Turn.serve (isFlow ▸ isFront) (by rw [← isQuantum]) (isFlow ▸ isTrains) serves
    (by rw [isBytes, isFlow, isDeficit]; exact bytes) (by rw [← isQuantum]; exact count)
  simp only [BulkView.serve, isFlow, isDeficit, isBytes] at turn
  simp only [bulkView, flowTrains_keep, flowDeficit_keep]
  exact turn

/-! ### The loop of visits -/

/-- The flows that the loop of `pop_bulk` visits. -/
def V2Scheduler.visitedBy (now : Instant) : Nat → V2Scheduler → List UInt64
  | 0, _ => []
  | visits + 1, s =>
    match s.activeBulk, s.visitBulk now with
    | flowId :: _, .ok (some _, _) => [flowId]
    | flowId :: _, .ok (none, t) => flowId :: visitedBy now visits t
    | _, _ => []

/-- Flows are visited until one is served. -/
inductive Turns (limits : SchedulerLimits) :
    BulkView → List UInt64 → Option CellQuantum → BulkView → Prop where
  | stop (view : BulkView) : Turns limits view [] none view
  | serve {view after : BulkView} {flowId : UInt64} {quantum : CellQuantum}
      (turn : Turn limits view flowId (some quantum) after) :
      Turns limits view [flowId] (some quantum) after
  | miss {view mid after : BulkView} {flowId : UInt64} {visited : List UInt64}
      {served : Option CellQuantum} (turn : Turn limits view flowId none mid)
      (onward : Turns limits mid visited served after) :
      Turns limits view (flowId :: visited) served after

theorem Turn.length_of_none {limits : SchedulerLimits} {view after : BulkView} {flowId : UInt64}
    (turn : Turn limits view flowId none after) : after.ring.length = view.ring.length := by
  cases turn with
  | miss front short => simp [BulkView.miss, front]

theorem popBulkLoop_turns {now : Instant} {visits : Nat} (valid : Accounting s)
    (cellsAllowed : 0 < s.limits.maximumQuantumCells) (enough : visits ≤ s.activeBulk.length)
    (popped : popBulkLoop now visits s = .ok (served, t)) :
    Turns s.limits s.bulkView (visitedBy now visits s) served t.bulkView ∧
      t.frame = s.frame ∧ (visitedBy now visits s).length ≤ visits ∧
      (served = none → (visitedBy now visits s).length = visits) := by
  induction visits generalizing s with
  | zero =>
    obtain ⟨rfl, rfl⟩ := ok_pair_inj popped
    exact ⟨.stop _, rfl, le_rfl, fun _ => rfl⟩
  | succ visits ih =>
  obtain ⟨⟨first, u⟩, visited, after, -⟩ := visitBulk_works s now valid
  rw [popBulkLoop, visited, ok_bind] at popped
  cases front : s.activeBulk with
  | nil => simp [front] at enough
  | cons flowId ring =>
  obtain ⟨turn, frame⟩ := visitBulk_turn valid cellsAllowed front visited
  have limits : u.limits = s.limits := congrArg SchedulerFrame.limits frame
  cases first with
  | some quantum =>
    obtain ⟨rfl, rfl⟩ := ok_pair_inj popped
    simp only [visitedBy, front, visited]
    exact ⟨.serve turn, frame, Nat.succ_pos _, fun wrong => by cases wrong⟩
  | none =>
  have length : u.activeBulk.length = s.activeBulk.length := turn.length_of_none
  obtain ⟨turns, onward, most, count⟩ := ih after (limits ▸ cellsAllowed)
    (length ▸ Nat.le_of_succ_le enough) popped
  simp only [visitedBy, front, visited]
  refine ⟨.miss turn (limits ▸ turns), onward.trans frame, Nat.succ_le_succ most, ?_⟩
  intro none
  rw [length_cons, count none]

/-! ### A round of visits -/

section
variable {limits : SchedulerLimits} {view mid after : BulkView} {flowId : UInt64}
  {visited : List UInt64} {served : Option CellQuantum}

theorem Turn.front (turn : Turn limits view flowId served after) :
    ∃ ring, view.ring = flowId :: ring ∧ (served = none → after.ring = ring ++ [flowId]) := by
  cases turn with
  | miss front short => exact ⟨_, front, fun _ => rfl⟩
  | serve front isBulk trains serves bytes cells => exact ⟨_, front, fun wrong => by cases wrong⟩

/-- Within one round every flow is visited once, in the order of the ring. -/
theorem Turns.visited_inOrder (turns : Turns limits view visited served after)
    (enough : visited.length ≤ view.ring.length) : visited <+: view.ring := by
  induction turns with
  | stop view => exact nil_prefix
  | serve turn =>
    obtain ⟨ring, front, -⟩ := turn.front
    rw [front]
    exact cons_prefix_cons.mpr ⟨rfl, nil_prefix⟩
  | miss turn onward ih =>
  obtain ⟨ring, front, behind⟩ := turn.front
  rw [front, length_cons, length_cons] at enough
  rw [behind rfl, length_append] at ih
  rw [front]
  refine cons_prefix_cons.mpr ⟨rfl, ?_⟩
  refine prefix_of_prefix_length_le (ih ?_) (prefix_append _ _) ?_
  · omega
  · omega

theorem Turn.short_iff (turn : Turn limits view flowId none mid) {other : UInt64}
    (different : other ≠ flowId) : mid.Short limits other ↔ view.Short limits other := by
  cases turn with
  | miss front short =>
    simp only [BulkView.Short, BulkView.miss, update_of_ne different]

theorem Turns.rest_fresh (nodup : view.ring.Nodup) (turn : Turn limits view flowId none mid)
    (onward : Turns limits mid visited served after)
    (enough : (flowId :: visited).length ≤ view.ring.length) : flowId ∉ visited := by
  have listed := (Turns.miss turn onward).visited_inOrder enough
  exact (nodup_cons.mp (listed.sublist.nodup nodup)).1

theorem Turn.nodup_of_none (turn : Turn limits view flowId none mid) (nodup : view.ring.Nodup) :
    mid.ring.Nodup := by
  obtain ⟨ring, front, behind⟩ := turn.front
  rw [behind rfl]
  exact (perm_append_singleton _ _).nodup_iff.mpr (front ▸ nodup)

/-- Nothing is served exactly if every flow is short; deficits grow and trains stay. -/
theorem Turns.missed (turns : Turns limits view visited served after) (isNone : served = none)
    (nodup : view.ring.Nodup) (enough : visited.length ≤ view.ring.length) :
    after.trains = view.trains ∧ ∀ flowId ∈ visited, view.Short limits flowId ∧
      after.deficit flowId = limits.raised (view.deficit flowId) := by
  -- besides, the deficits of flows that were not visited stay
  suffices both : (after.trains = view.trains ∧ ∀ flowId ∈ visited, view.Short limits flowId ∧
      after.deficit flowId = limits.raised (view.deficit flowId)) ∧
      ∀ flowId ∉ visited, after.deficit flowId = view.deficit flowId from both.1
  induction turns with
  | stop view => exact ⟨⟨rfl, by simp⟩, fun _ _ => rfl⟩
  | serve turn => cases isNone
  | @miss view mid after flowId visited served turn onward ih =>
  have fresh := Turns.rest_fresh nodup turn onward enough
  have length := turn.length_of_none
  obtain ⟨⟨sameTrains, shorts⟩, sameDeficit⟩ := ih isNone (turn.nodup_of_none nodup)
    (by rw [length]; exact Nat.le_of_succ_le enough)
  cases turn with
  | @miss _ ring front short =>
  have other : ∀ id, id ≠ flowId →
      (view.miss limits flowId ring).deficit id = view.deficit id :=
    fun id different => update_of_ne different _ _
  refine ⟨⟨sameTrains, ?_⟩, ?_⟩
  · intro id member
    by_cases same : id = flowId
    · subst same
      refine ⟨short, ?_⟩
      rw [sameDeficit id fresh]
      exact update_self _ _ _
    · have behind := (mem_cons.mp member).resolve_left same
      obtain ⟨isShort, raised⟩ := shorts id behind
      refine ⟨((Turn.miss front short).short_iff same).mp isShort, ?_⟩
      rw [raised, other id same]
  · intro id absent
    rw [mem_cons, not_or] at absent
    rw [sameDeficit id absent.2, other id absent.1]

theorem Turns.served_not_short {quantum : CellQuantum}
    (turns : Turns limits view visited served after) (isServed : served = some quantum)
    (nodup : view.ring.Nodup) (enough : visited.length ≤ view.ring.length) :
    ∃ flowId ∈ visited, ¬view.Short limits flowId := by
  induction turns with
  | stop view => cases isServed
  | @serve view after flowId quantum turn =>
    refine ⟨flowId, mem_cons_self, ?_⟩
    cases turn with
    | serve front isBulk trains serves bytes cells =>
    rintro ⟨cursor, behind, head, tail, isTrains, isCells, long⟩
    obtain ⟨rfl, rfl⟩ := cons.inj (trains.symm.trans isTrains)
    -- the head of the train is the head of the quantum
    obtain ⟨first, others, isQuantum⟩ := exists_cons_of_ne_nil serves.nonempty
    have taken := serves.taken
    rw [isQuantum, isCells] at taken
    obtain ⟨rfl, -⟩ := cons_prefix_cons.mp taken
    rw [CellQuantum.bytes, isQuantum, cellBytes_cons] at bytes
    omega
  | @miss view mid after flowId visited served turn onward ih =>
  have fresh := Turns.rest_fresh nodup turn onward enough
  have length := turn.length_of_none
  obtain ⟨other, member, notShort⟩ := ih isServed (turn.nodup_of_none nodup)
    (by rw [length]; exact Nat.le_of_succ_le enough)
  have different : other ≠ flowId := fun same => fresh (same ▸ member)
  exact ⟨other, mem_cons_of_mem _ member, fun short =>
    notShort ((turn.short_iff different).mpr short)⟩

end

/-! ### Cells that fit a quantum -/

/-- Every queued Cell fits into a quantum. -/
structure SchedulerQueues.Fit (maximum : Nat) (queues : SchedulerQueues) : Prop where
  latency : ∀ cursor ∈ queues.latency, ∀ cell ∈ cursor.cells, cell.len ≤ maximum
  bulk : ∀ flowId, ∀ cursor ∈ queues.bulk flowId, ∀ cell ∈ cursor.cells, cell.len ≤ maximum

section
variable {maximum : Nat} {queues after : SchedulerQueues} {cursor : TrainCursor}

theorem Serves.fit {behind left : List TrainCursor} {quantum : CellQuantum}
    (serves : Serves cursor behind quantum left)
    (fit : ∀ queued ∈ cursor :: behind, ∀ cell ∈ queued.cells, cell.len ≤ maximum) :
    ∀ queued ∈ left, ∀ cell ∈ queued.cells, cell.len ≤ maximum := by
  intro queued member cell isCell
  rw [serves.after] at member
  split at member
  · exact fit queued (mem_cons_of_mem _ member) cell isCell
  · rcases mem_cons.mp member with rfl | later
    · exact fit cursor mem_cons_self cell (mem_of_mem_drop isCell)
    · exact fit queued (mem_cons_of_mem _ later) cell isCell

theorem Pops.fit {work : Option ScheduledWork} (pops : Pops queues work after)
    (fit : queues.Fit maximum) : after.Fit maximum := by
  cases pops with
  | idle => exact fit
  | control => exact ⟨fit.latency, fit.bulk⟩
  | probe => exact ⟨fit.latency, fit.bulk⟩
  | latency front serves => exact ⟨serves.fit (front ▸ fit.latency), fit.bulk⟩
  | @bulk cursor behind left quantum front serves =>
  refine ⟨fit.latency, fun flowId => ?_⟩
  dsimp only
  by_cases same : flowId = quantum.flowId
  · subst same
    rw [update_self]
    exact serves.fit (front ▸ fit.bulk quantum.flowId)
  · rw [update_of_ne same]
    exact fit.bulk flowId

theorem Evicts.fit {flows : List UInt64} (evicts : Evicts queues flows after)
    (fit : queues.Fit maximum) : after.Fit maximum := by
  induction evicts with
  | done => exact fit
  | @evict queues after flowId rest kept removed last onward ih =>
  refine ih ⟨fit.latency, fun other => ?_⟩
  dsimp only
  by_cases same : other = flowId
  · subst same
    rw [update_self]
    intro cursor member
    exact fit.bulk other cursor (last ▸ mem_append_left _ member)
  · rw [update_of_ne same]
    exact fit.bulk other

theorem Admits.fit (admits : Admits queues cursor after) (fit : queues.Fit maximum)
    (cells : ∀ cell ∈ cursor.cells, cell.len ≤ maximum) : after.Fit maximum := by
  cases admits with
  | latency =>
    refine ⟨fun queued member => ?_, fit.bulk⟩
    rcases mem_cons.mp ((insertLatency_perm _ _ _).mem_iff.mp member) with rfl | old
    · exact cells
    · exact fit.latency queued old
  | bulk =>
  refine ⟨fit.latency, fun flowId => ?_⟩
  dsimp only
  by_cases same : flowId = cursor.flowId
  · subst same
    rw [update_self]
    intro queued member
    rcases mem_append.mp member with old | new
    · exact fit.bulk _ queued old
    · obtain rfl := mem_singleton.mp new
      exact cells
  · rw [update_of_ne same]
    exact fit.bulk flowId

end

end Ironet.Scheduler
