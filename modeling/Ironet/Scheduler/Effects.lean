import Ironet.Scheduler.RoundRobin

/-!
# What pops and admissions do to Bulk service

In a state of a run every queued Cell fits into a quantum, so the latency queue never blocks. A pop
is then one of five things, told apart by the queues and by the burst counter; an admission removes
newest trains or adds one.
-/
namespace Ironet.Scheduler
open Support Cell Train Function V2Scheduler List

/-- What holds in every state of a run that started with these limits. -/
structure Sound (limits : SchedulerLimits) (s : V2Scheduler) : Prop where
  accounting : Accounting s
  cellsAllowed : 0 < s.limits.maximumQuantumCells
  tuned : s.limits = { limits with maximumQuantumCells := s.limits.maximumQuantumCells }
  fit : s.queues.Fit limits.maximumQuantumBytes

section
variable {limits : SchedulerLimits} {s t : V2Scheduler} {now : Instant}

theorem Sound.quantumBytes (sound : Sound limits s) :
    s.limits.maximumQuantumBytes = limits.maximumQuantumBytes := by
  rw [sound.tuned]

theorem Sound.drrQuantum (sound : Sound limits s) :
    s.limits.bulkDrrQuantumBytes = limits.bulkDrrQuantumBytes := by
  rw [sound.tuned]

theorem Sound.burst (sound : Sound limits s) :
    s.limits.latencyBurstBytes = limits.latencyBurstBytes := by
  rw [sound.tuned]

/-! ### Pops -/

/-- The flows that the `pop_bulk` of a pop visits. -/
def V2Scheduler.popVisits (s : V2Scheduler) (now : Instant) : List UInt64 :=
  match s.control with
  | _ :: _ => []
  | [] =>
    if s.forceBulk then visitedBy now s.activeBulk.length s
    else match s.popLatency now with
      | .ok (none, s) => visitedBy now s.activeBulk.length s
      | _ => []

/-- A latency quantum is one that fits, and it adds to the burst. -/
structure LatencyQuantum (s t : V2Scheduler) (quantum : CellQuantum) : Prop where
  isLatency : quantum.class' = .latency
  bytes : quantum.bytes ≤ s.limits.maximumQuantumBytes
  burst : t.latencyBytesSinceBulk = s.latencyBytesSinceBulk + quantum.bytes

inductive Popped (s t : V2Scheduler) : List UInt64 → Option ScheduledWork → Prop where
  | control {bytes : Bytes} {rest : List Bytes} (front : s.control = bytes :: rest)
      (view : t.bulkView = s.bulkView) (burst : t.latencyBytesSinceBulk = s.latencyBytesSinceBulk) :
      Popped s t [] (some (.control bytes))
  | latency {quantum : CellQuantum} (quiet : s.control = []) (waiting : s.latency ≠ [])
      (calm : s.forceBulk = false) (view : t.bulkView = s.bulkView)
      (served : LatencyQuantum s t quantum) : Popped s t [] (some (.cells quantum))
  | bulk {visited : List UInt64} {quantum : CellQuantum} (quiet : s.control = [])
      (turn : s.forceBulk = true ∨ s.latency = [])
      (turns : Turns s.limits s.bulkView visited (some quantum) t.bulkView)
      (most : visited.length ≤ s.bulkView.ring.length) :
      Popped s t visited (some (.cells quantum))
  | forced {visited : List UInt64} {quantum : CellQuantum} (quiet : s.control = [])
      (force : s.forceBulk = true) (turns : Turns s.limits s.bulkView visited none t.bulkView)
      (all : visited.length = s.bulkView.ring.length) (served : LatencyQuantum s t quantum) :
      Popped s t visited (some (.cells quantum))
  | rest {visited : List UInt64} {work : Option ScheduledWork} (quiet : s.control = [])
      (idle : s.latency = []) (turns : Turns s.limits s.bulkView visited none t.bulkView)
      (all : visited.length = s.bulkView.ring.length)
      (burst : t.latencyBytesSinceBulk = s.latencyBytesSinceBulk)
      (probe : work = s.probes.head?.map .probe) : Popped s t visited work

theorem popLatency_of_empty (idle : s.latency = []) : s.popLatency now = .ok (none, s) := by
  unfold popLatency
  rw [idle]

theorem popLatency_serves {served : Option CellQuantum} (valid : Accounting s)
    (fit : s.queues.Fit s.limits.maximumQuantumBytes) (waiting : s.latency ≠ [])
    (popped : s.popLatency now = .ok (served, t)) :
    ∃ quantum, served = some quantum ∧ LatencyQuantum s t quantum ∧ t.bulkView = s.bulkView ∧
      t.limits = s.limits := by
  obtain ⟨cursor, behind, front⟩ := exists_cons_of_ne_nil waiting
  have queued : cursor ∈ s.latency := front ▸ mem_cons_self
  have accounted := valid.latency.cursors cursor queued
  simp only [popLatency, front, bind_eq_ok] at popped
  obtain ⟨⟨cells, rest⟩, took, popped⟩ := popped
  have bounds := TrainCursor.popCells_bounds accounted.bytes took
  split at popped
  · rename_i empty
    subst empty
    obtain ⟨head, tail, isCells⟩ := exists_cons_of_ne_nil accounted.nonempty
    have long := TrainCursor.popCells_nil Nat.one_pos isCells took
    have short := fit.latency cursor queued head (isCells ▸ mem_cons_self)
    exact absurd short (not_le.mpr long)
  · simp only [do_eq_ok, serveLatency, recordQuantum] at popped
    obtain ⟨_, ⟨latencyBytes, -, latencyTrains, -, rfl⟩, popped⟩ := popped
    obtain ⟨rfl, rfl⟩ := Prod.mk.inj popped
    exact ⟨_, rfl, ⟨rfl, bounds.1, rfl⟩, rfl, rfl⟩

variable {work : Option ScheduledWork}

theorem popProbe_rest (popped : s.popProbe = .ok (work, t)) :
    work = s.probes.head?.map .probe ∧ t.bulkView = s.bulkView ∧
      t.latencyBytesSinceBulk = s.latencyBytesSinceBulk ∧ t.limits = s.limits := by
  unfold popProbe at popped
  split at popped
  · rename_i none
    obtain ⟨rfl, rfl⟩ := ok_pair_inj popped
    exact ⟨by rw [none]; rfl, rfl, rfl, rfl⟩
  rename_i bytes rest front
  simp only [do_eq_ok] at popped
  obtain ⟨probeBytes, -, popped⟩ := popped
  obtain ⟨rfl, rfl⟩ := Prod.mk.inj popped
  exact ⟨by rw [front]; rfl, rfl, rfl, rfl⟩

/-- Bulk service first, then what is left: called when Bulk is forced or no latency train waits. -/
theorem popBulkThenRest_popped (sound : Sound limits s)
    (quiet : s.control = []) (turn : s.forceBulk = true ∨ s.latency = [])
    (popped : s.popBulkThenRest now s.forceBulk = .ok (work, t)) :
    Popped s t (visitedBy now s.activeBulk.length s) work ∧ t.limits = s.limits := by
  obtain ⟨⟨served, u⟩, first, after, pops⟩ :=
    popBulkLoop_works now s.activeBulk.length s sound.accounting
  obtain ⟨turns, frame, most, all⟩ :=
    popBulkLoop_turns sound.accounting sound.cellsAllowed le_rfl first
  have limits' : u.limits = s.limits := congrArg SchedulerFrame.limits frame
  have burst : u.latencyBytesSinceBulk = s.latencyBytesSinceBulk :=
    congrArg SchedulerFrame.latencyBytesSinceBulk frame
  have latency : u.latency = s.latency := congrArg SchedulerFrame.latency frame
  have probes : u.probes = s.probes := congrArg SchedulerFrame.probes frame
  rw [popBulkThenRest, popBulk, first, ok_bind] at popped
  cases served with
  | some quantum =>
    obtain ⟨rfl, rfl⟩ := ok_pair_inj popped
    exact ⟨.bulk quiet turn turns most, limits'⟩
  | none =>
  have same := pops.of_none
  obtain ⟨⟨served, v⟩, second, -⟩ := popLatency_works now after
  dsimp only at popped
  by_cases idle : s.latency = []
  · rw [popRest, popLatency_of_empty (latency.trans idle), ok_bind] at popped
    obtain ⟨probe, view, burst', limits''⟩ := popProbe_rest popped
    refine ⟨.rest quiet idle (view ▸ turns) (all rfl) (burst'.trans burst) (probes ▸ probe), ?_⟩
    exact limits''.trans limits'
  have fit : u.queues.Fit u.limits.maximumQuantumBytes := by
    rw [same, limits', sound.quantumBytes]
    exact sound.fit
  obtain ⟨quantum, rfl, isQuantum, view, limits''⟩ :=
    popLatency_serves after fit (latency ▸ idle) second
  rw [popRest, second, ok_bind] at popped
  obtain ⟨rfl, rfl⟩ := ok_pair_inj popped
  refine ⟨.forced quiet (turn.resolve_right idle) (view ▸ turns) (all rfl) ?_,
    limits''.trans limits'⟩
  exact ⟨isQuantum.isLatency, limits' ▸ isQuantum.bytes, burst ▸ isQuantum.burst⟩

theorem notePreemption_view (s : V2Scheduler) : s.notePreemption.bulkView = s.bulkView ∧
    s.notePreemption.latencyBytesSinceBulk = s.latencyBytesSinceBulk ∧
      s.notePreemption.limits = s.limits := by
  unfold notePreemption
  split <;> exact ⟨rfl, rfl, rfl⟩

theorem pop_popped (sound : Sound limits s) (popped : s.pop now = .ok (work, t)) :
    Popped s t (s.popVisits now) work ∧ t.limits = s.limits := by
  unfold pop at popped
  unfold popVisits
  cases control : s.control with
  | cons bytes rest =>
    rw [control] at popped
    simp only [do_eq_ok] at popped
    obtain ⟨controlBytes, -, popped⟩ := popped
    obtain ⟨rfl, rfl⟩ := Prod.mk.inj popped
    exact ⟨.control control rfl rfl, rfl⟩
  | nil =>
  rw [control] at popped
  cases force : s.forceBulk with
  | true =>
    rw [if_pos force] at popped
    exact popBulkThenRest_popped sound control (.inl force) (force ▸ popped)
  | false =>
  rw [if_neg (by simp [force])] at popped
  by_cases idle : s.latency = []
  · rw [popLatency_of_empty idle, ok_bind] at popped
    rw [popLatency_of_empty idle]
    exact popBulkThenRest_popped sound control (.inr idle) (force ▸ popped)
  obtain ⟨⟨served, u⟩, first, -⟩ := popLatency_works now sound.accounting
  have fit : s.queues.Fit s.limits.maximumQuantumBytes := sound.quantumBytes ▸ sound.fit
  obtain ⟨quantum, rfl, isQuantum, view, limits'⟩ :=
    popLatency_serves sound.accounting fit idle first
  rw [first, ok_bind] at popped
  obtain ⟨rfl, rfl⟩ := ok_pair_inj popped
  obtain ⟨sameView, sameBurst, sameLimits⟩ := notePreemption_view u
  rw [first]
  refine ⟨.latency control idle force (sameView.trans view) ?_, sameLimits.trans limits'⟩
  exact ⟨isQuantum.isLatency, isQuantum.bytes, sameBurst.trans isQuantum.burst⟩

end

/-! ### Idle pops -/

/-- The first Cell of the flow is longer than what its next visit allows. -/
def V2Scheduler.isShort (s : V2Scheduler) (flowId : UInt64) : Bool :=
  match flowTrains s.bulk flowId with
  | [] => false
  | cursor :: _ =>
    match cursor.cells with
    | [] => false
    | head :: _ => s.limits.budget (flowDeficit s.bulk flowId) < head.len

/-- Only Bulk is queued, and no flow can send. -/
def V2Scheduler.stalled (s : V2Scheduler) : Bool :=
  s.control.isEmpty && s.latency.isEmpty && s.probes.isEmpty && !s.activeBulk.isEmpty &&
    s.activeBulk.all s.isShort

section
variable {limits : SchedulerLimits} {s t : V2Scheduler} {now : Instant}

theorem short_iff (s : V2Scheduler) (flowId : UInt64) :
    s.bulkView.Short s.limits flowId ↔ s.isShort flowId = true := by
  unfold isShort
  constructor
  · rintro ⟨cursor, behind, head, tail, isTrains, isCells, long⟩
    rw [show flowTrains s.bulk flowId = cursor :: behind from isTrains]
    dsimp only
    rw [isCells]
    exact decide_eq_true long
  intro isShort
  split at isShort
  · cases isShort
  rename_i cursor behind isTrains
  split at isShort
  · cases isShort
  · rename_i head tail isCells
    exact ⟨cursor, behind, head, tail, isTrains, isCells, of_decide_eq_true isShort⟩

/-- A pop returns nothing exactly if nothing but short flows is queued. -/
theorem pop_none_iff {work : Option ScheduledWork} (sound : Sound limits s)
    (ran : s.pop now = .ok (work, t)) :
    work = none ↔ s.control = [] ∧ s.latency = [] ∧ s.probes = [] ∧
      ∀ flowId ∈ s.activeBulk, s.isShort flowId = true := by
  obtain ⟨effect, -⟩ := pop_popped sound ran
  have nodup : s.bulkView.ring.Nodup := sound.accounting.view.nodup
  generalize s.popVisits now = visited at effect
  cases effect with
  | control front view burst => simp [front]
  | latency quiet waits notForced view served => simp [waits]
  | bulk quiet turn turns most =>
    -- a flow that was served is not short
    obtain ⟨flowId, member, notShort⟩ := turns.served_not_short rfl nodup most
    have listed : flowId ∈ s.activeBulk := (turns.visited_inOrder most).mem member
    refine iff_of_false (by simp) fun ⟨_, _, _, shorts⟩ => notShort ?_
    exact (short_iff s flowId).mpr (shorts flowId listed)
  | forced quiet force turns all served =>
    have waits : s.latency ≠ [] := by
      rintro idle
      simp [forceBulk, idle] at force
    simp [waits]
  | rest quiet idle turns all burst probe =>
  have whole : visited = s.activeBulk := (turns.visited_inOrder all.le).eq_of_length all
  have shorts : ∀ flowId ∈ s.activeBulk, s.isShort flowId = true := fun flowId member =>
    (short_iff s flowId).mp ((turns.missed rfl nodup all.le).2 flowId (whole ▸ member)).1
  rw [probe, Option.map_eq_none_iff, head?_eq_none_iff]
  exact ⟨fun none => ⟨quiet, idle, none, shorts⟩, fun all => all.2.2.1⟩

end

/-! ### Admissions -/

/-- Newest trains were removed; flows without trains left the ring. -/
structure Shrinks (before after : BulkView) : Prop where
  ring : after.ring = before.ring.filter fun flowId => after.trains flowId ≠ []
  trains : ∀ flowId, after.trains flowId <+: before.trains flowId
  deficit : ∀ flowId, after.deficit flowId =
    if after.trains flowId = [] then 0 else before.deficit flowId

/-- What an admission does to Bulk service. -/
inductive Rearranges (before : BulkView) : BulkView → Prop where
  | shrink {after : BulkView} (shrinks : Shrinks before after) : Rearranges before after
  | join (flowId : UInt64) (cursor : TrainCursor) : Rearranges before {
      ring := if before.trains flowId = [] then before.ring ++ [flowId] else before.ring
      deficit := before.deficit
      trains := Function.update before.trains flowId (before.trains flowId ++ [cursor]) }

section
variable {before mid after : BulkView}

theorem Shrinks.refl (wellFormed : before.WellFormed) : Shrinks before before where
  ring := by
    refine (filter_eq_self.mpr fun flowId member => ?_).symm
    exact decide_eq_true ((wellFormed.listed flowId).mp member)
  trains _ := prefix_refl _
  deficit flowId := by
    split
    · exact wellFormed.idle flowId ‹_›
    · rfl

theorem Shrinks.trans (first : Shrinks before mid) (second : Shrinks mid after) :
    Shrinks before after where
  ring := by
    rw [second.ring, first.ring, filter_filter]
    refine filter_congr fun flowId _ => ?_
    -- a flow that still has trains had trains in between
    by_cases empty : after.trains flowId = []
    · simp [empty]
    · have still : mid.trains flowId ≠ [] := fun gone =>
        empty (prefix_nil.mp (gone ▸ second.trains flowId))
      simp [empty, still]
  trains flowId := (second.trains flowId).trans (first.trains flowId)
  deficit flowId := by
    rw [second.deficit, first.deficit]
    by_cases empty : after.trains flowId = []
    · simp [empty]
    · have still : mid.trains flowId ≠ [] := fun gone =>
        empty (prefix_nil.mp (gone ▸ second.trains flowId))
      simp [empty, still]

variable {s : V2Scheduler} {t : V2Scheduler}

theorem evictTrain_shrinks {flowId : UInt64} {flow : BulkFlow}
    {removed : TrainCursor} (valid : Accounting s) (found : s.bulk.lookup flowId = some flow)
    (evicted : s.evictTrain flowId flow flow.trains.dropLast removed = .ok t) :
    Shrinks s.bulkView t.bulkView ∧ t.frame = s.frame := by
  have isTrains : flowTrains s.bulk flowId = flow.trains := flowTrains_of_lookup found
  have isDeficit : flowDeficit s.bulk flowId = flow.deficit := by simp [flowDeficit, found]
  have wellFormed := valid.view
  have listed : ∀ other ∈ s.activeBulk, flowTrains s.bulk other ≠ [] :=
    fun other member => (wellFormed.listed other).mp member
  have idle : ∀ other, flowTrains s.bulk other = [] → flowDeficit s.bulk other = 0 :=
    wellFormed.idle
  simp only [evictTrain, bind_eq_ok] at evicted
  obtain ⟨bulkBytes, -, bulkTrains, -, evicted⟩ := evicted
  split at evicted
  · rename_i empty
    simp only [do_eq_ok] at evicted
    obtain ⟨bulkFlows, -, rfl⟩ := evicted
    refine ⟨?_, rfl⟩
    simp only [bulkView, flowTrains_erase, flowDeficit_erase]
    constructor
    · refine filter_congr fun other member => ?_
      by_cases same : other = flowId
      · subst same
        simp
      · simp [same, listed other member]
    · intro other
      by_cases same : other = flowId
      · subst same
        simp
      · simp [update_of_ne same]
    intro other
    by_cases same : other = flowId
    · subst same
      simp
    · simp only [update_of_ne same]
      split
      · exact idle other ‹_›
      · rfl
  rename_i some
  obtain rfl := Except.ok.inj evicted
  refine ⟨?_, rfl⟩
  simp only [bulkView, flowTrains_insert, flowDeficit_insert]
  constructor
  · refine (filter_eq_self.mpr fun other member => ?_).symm
    by_cases same : other = flowId
    · subst same
      simp [some]
    · simp [update_of_ne same, listed other member]
  · intro other
    dsimp only
    by_cases same : other = flowId
    · subst same
      rw [update_self, isTrains]
      exact dropLast_prefix _
    · rw [update_of_ne same]
  intro other
  by_cases same : other = flowId
  · subst same
    simp [some, isDeficit]
  · simp only [update_of_ne same]
    split
    · exact idle other ‹_›
    · rfl

theorem evictUntilFits_shrinks {bytes fuel : Nat} {fits : Bool}
    (valid : Accounting s) (ran : evictUntilFits bytes fuel s = .ok (fits, t)) :
    Shrinks s.bulkView t.bulkView ∧ t.frame = s.frame := by
  refine (evictUntilFits_induction
    (fun u => Accounting u ∧ Shrinks s.bulkView u.bulkView ∧ u.frame = s.frame) ?_
    ⟨valid, .refl valid.view, rfl⟩ ran).2
  rintro u v flowId flow removed ⟨valid, shrinks, frame⟩ found last evicted
  obtain ⟨later, sameFrame⟩ := evictTrain_shrinks valid found evicted
  exact ⟨((evictTrain_accounting valid found last).of_eq evicted).1, shrinks.trans later,
    sameFrame.trans frame⟩

variable {cursor : TrainCursor}

theorem enqueueLatency_shrinks {accepted : Bool} (valid : Accounting s)
    (ran : s.enqueueLatency cursor = .ok (accepted, t)) :
    Shrinks s.bulkView t.bulkView ∧ t.limits = s.limits ∧
      t.latencyBytesSinceBulk = s.latencyBytesSinceBulk := by
  unfold enqueueLatency at ran
  dsimp only at ran
  split at ran
  · obtain ⟨rfl, rfl⟩ := ok_pair_inj ran
    exact ⟨.refl valid.view, rfl, rfl⟩
  simp only [bind_eq_ok] at ran
  obtain ⟨⟨fits, u⟩, evicted, ran⟩ := ran
  obtain ⟨shrinks, frame⟩ := evictUntilFits_shrinks valid evicted
  have limits : u.limits = s.limits := congrArg SchedulerFrame.limits frame
  have burst : u.latencyBytesSinceBulk = s.latencyBytesSinceBulk :=
    congrArg SchedulerFrame.latencyBytesSinceBulk frame
  split_ifs at ran
  all_goals
    obtain ⟨rfl, rfl⟩ := ok_pair_inj ran
    exact ⟨shrinks, limits, burst⟩

theorem enqueueBulk_rearranges (cursor : TrainCursor) (valid : Accounting s) :
    Rearranges s.bulkView (s.enqueueBulk cursor).2.bulkView ∧
      (s.enqueueBulk cursor).2.limits = s.limits ∧
      (s.enqueueBulk cursor).2.latencyBytesSinceBulk = s.latencyBytesSinceBulk := by
  unfold enqueueBulk
  dsimp only
  split
  · exact ⟨.shrink (.refl valid.view), rfl, rfl⟩
  refine ⟨?_, rfl, rfl⟩
  have isTrains : ((s.bulk.lookup cursor.flowId).getD {}).trains =
      flowTrains s.bulk cursor.flowId := by
    cases found : s.bulk.lookup cursor.flowId with
    | none => simp [flowTrains_of_absent found]
    | some flow => simp [flowTrains_of_lookup found]
  have isDeficit : ((s.bulk.lookup cursor.flowId).getD {}).deficit =
      flowDeficit s.bulk cursor.flowId := by
    cases found : s.bulk.lookup cursor.flowId with
    | none => simp [flowDeficit, found]
    | some flow => simp [flowDeficit, found]
  have joined : Rearranges s.bulkView _ := .join cursor.flowId cursor
  simp only [bulkView, flowTrains_insert, flowDeficit_insert, isTrains, isDeficit,
    List.isEmpty_iff, update_eq_self] at joined ⊢
  exact joined

variable {result : Except String Bool}

theorem enqueueCursor_rearranges (valid : Accounting s)
    (ran : s.enqueueCursor cursor = .ok (result, t)) :
    Rearranges s.bulkView t.bulkView ∧ t.limits = s.limits ∧
      t.latencyBytesSinceBulk = s.latencyBytesSinceBulk := by
  unfold enqueueCursor at ran
  split at ran
  · split at ran
    · cases enqueued : s.enqueueLatency cursor with
      | error panic =>
        rw [enqueued] at ran
        cases ran
      | ok outcome =>
        rw [enqueued] at ran
        obtain ⟨rfl, rfl⟩ := ok_pair_inj ran
        obtain ⟨shrinks, rest⟩ := enqueueLatency_shrinks valid enqueued
        exact ⟨.shrink shrinks, rest⟩
    · obtain ⟨rfl, rfl⟩ := ok_pair_inj ran
      exact enqueueBulk_rearranges cursor valid
  · obtain ⟨rfl, rfl⟩ := ok_pair_inj ran
    exact ⟨.shrink (.refl valid.view), rfl, rfl⟩

/-- A Cell that is longer than a quantum is never accepted. -/
theorem enqueueCursor_fit (valid : Accounting s) (accounted : cursor.Accounted)
    (fit : s.queues.Fit s.limits.maximumQuantumBytes)
    (ran : s.enqueueCursor cursor = .ok (result, t)) :
    t.queues.Fit s.limits.maximumQuantumBytes := by
  obtain ⟨-, flows, mid, evicts, admits⟩ :=
    (enqueueCursor_enters cursor valid accounted).of_eq ran
  have kept := evicts.fit fit
  split at admits
  · rename_i accepted
    subst accepted
    have cells : ∀ cell ∈ cursor.cells, cell.len ≤ s.limits.maximumQuantumBytes := by
      unfold enqueueCursor at ran
      split at ran
      · rename_i checked
        simpa using checked
      · cases (ok_pair_inj ran).1
    have same : cursor.admitted.cells = cursor.cells := by
      unfold TrainCursor.admitted
      split <;> rfl
    exact admits.fit kept (same ▸ cells)
  · exact admits ▸ kept

end

/-! ### Calls -/

/-- A call is a pop, or one that leaves the burst counter alone and shows no quantum. -/
inductive Effect (s t : V2Scheduler) : List UInt64 → List SchedulerEvent → Prop where
  | pop {visited : List UInt64} {work : Option ScheduledWork} (popped : Popped s t visited work) :
      Effect s t visited (work.toList.map .work)
  | other {seen : List SchedulerEvent} (rearranges : Rearranges s.bulkView t.bulkView)
      (burst : t.latencyBytesSinceBulk = s.latencyBytesSinceBulk)
      (silent : seen.filterMap SchedulerEvent.quantum? = []) : Effect s t [] seen

def V2Scheduler.callVisits (s : V2Scheduler) (now : Instant) (call : SchedulerCall) : List UInt64 :=
  if call.isPop then s.popVisits now else []

/-- The flows that a run visits. -/
def V2Scheduler.visits (s : V2Scheduler) : List (Instant × SchedulerCall) → List UInt64
  | [] => []
  | (now, call) :: rest =>
    match s.call now call with
    | .ok t => s.callVisits now call ++ t.visits rest
    | .error _ => []

section
variable {limits : SchedulerLimits} {s t : V2Scheduler}

theorem new_sound (made : new limits = .ok s) : Sound limits s := by
  have accounting := new_accounting made
  simp only [new, SchedulerLimits.validate, do_eq_ok] at made
  obtain ⟨checked, rfl⟩ := made
  refine ⟨accounting, ?_, rfl, ?_⟩
  · dsimp only
    omega
  · constructor <;> simp [queues, flowTrains]

theorem enqueueBytes_frame (limits : SchedulerLimits) (s : V2Scheduler) (bytes : Bytes)
    (queue : TrafficQueue) :
    (s.enqueueBytes bytes queue).2.bulkView = s.bulkView ∧
      (s.enqueueBytes bytes queue).2.limits = s.limits ∧
      (s.enqueueBytes bytes queue).2.latencyBytesSinceBulk = s.latencyBytesSinceBulk ∧
      (s.queues.Fit limits.maximumQuantumBytes →
        (s.enqueueBytes bytes queue).2.queues.Fit limits.maximumQuantumBytes) := by
  unfold enqueueBytes
  cases queue <;> dsimp only <;> split_ifs <;>
    exact ⟨rfl, rfl, rfl, fun fit => ⟨fit.latency, fit.bulk⟩⟩

theorem Performs.sound {now : Instant} {isPop : Bool} {seen : List SchedulerEvent}
    (performs : Performs s now isPop seen t) (sound : Sound limits s) (accounting : Accounting t) :
    Sound limits t ∧ Effect s t (if isPop then s.popVisits now else []) seen := by
  have still : Rearranges s.bulkView s.bulkView := .shrink (.refl sound.accounting.view)
  have unchanged : t.limits = s.limits → t.queues.Fit limits.maximumQuantumBytes →
      Sound limits t := by
    intro same fit
    refine ⟨accounting, same ▸ sound.cellsAllowed, ?_, fit⟩
    rw [same]
    exact sound.tuned
  cases performs with
  | control bytes =>
    obtain ⟨view, same, burst, fit⟩ := enqueueBytes_frame limits s bytes .control
    refine ⟨unchanged same (fit sound.fit), .other (view ▸ still) burst ?_⟩
    split <;> rfl
  | probe bytes =>
    obtain ⟨view, same, burst, fit⟩ := enqueueBytes_frame limits s bytes .probe
    refine ⟨unchanged same (fit sound.fit), .other (view ▸ still) burst ?_⟩
    split <;> rfl
  | refused => exact ⟨sound, .other still rfl rfl⟩
  | train accounted ran =>
    obtain ⟨rearranges, same, burst⟩ := enqueueCursor_rearranges sound.accounting ran
    have fit := enqueueCursor_fit sound.accounting accounted (sound.quantumBytes ▸ sound.fit) ran
    refine ⟨unchanged same (sound.quantumBytes ▸ fit), .other rearranges burst ?_⟩
    split <;> rfl
  | pop ran =>
    obtain ⟨popped, same⟩ := pop_popped sound ran
    have pops := ((pop_works now sound.accounting).of_eq ran).pops
    exact ⟨unchanged same (pops.fit sound.fit), .pop popped⟩
  | tune cells =>
  have tuned : (s.setBulkQuantumCells cells).2.bulkView = s.bulkView ∧
      (s.setBulkQuantumCells cells).2.latencyBytesSinceBulk = s.latencyBytesSinceBulk := by
    unfold setBulkQuantumCells
    split <;> exact ⟨rfl, rfl⟩
  refine ⟨⟨accounting, ?_, ?_, ?_⟩, .other (tuned.1 ▸ still) tuned.2 rfl⟩
  · unfold setBulkQuantumCells
    split
    · dsimp only
      omega
    · exact sound.cellsAllowed
  · have isTuned := sound.tuned
    unfold setBulkQuantumCells
    split
    · dsimp only
      rw [isTuned]
    · exact isTuned
  · rw [setBulkQuantumCells_queues]
    exact sound.fit

/-- Every call on a sound state returns, leaves a sound state and has an effect. -/
theorem call_effect (sound : Sound limits s) (now : Instant) (call : SchedulerCall) :
    ∃ seen t, s.perform now call = .ok (seen, t) ∧ s.call now call = .ok t ∧ Sound limits t ∧
      Effect s t (s.callVisits now call) seen := by
  obtain ⟨seen, t, performed, called, performs, accounting⟩ :=
    perform_returns now call sound.accounting
  obtain ⟨kept, effect⟩ := performs.sound sound accounting
  exact ⟨seen, t, performed, called, kept, effect⟩

theorem run_sound (sound : Sound limits s) (calls : List (Instant × SchedulerCall))
    (ran : s.run calls = .ok t) : Sound limits t := by
  induction calls generalizing s with
  | nil =>
    obtain rfl := Except.ok.inj ran
    exact sound
  | cons next rest ih =>
    obtain ⟨now, call⟩ := next
    obtain ⟨seen, u, -, called, kept, -⟩ := call_effect sound now call
    rw [run, called, ok_bind] at ran
    exact ih kept ran

end

end Ironet.Scheduler
