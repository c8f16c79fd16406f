import Ironet.Dataplane.Transmit

/-!
# Order of Bulk quanta and idle sends

An interrupted Bulk quantum waits in its slot while urgent work is sent. The scheduler however
forces Bulk service after a burst of latency bytes, whether or not a quantum waits, and then a later
quantum of the same flow overtakes. Without such a forced pop the order of every flow is kept.

The second part says when a send finds nothing although work is queued.
-/
namespace Ironet.Dataplane
open Support Cell Train Scheduler List V2Tx

/-! ### Order within a flow -/

variable (flowId : UInt64)

def flowQuanta (works : List ScheduledWork) : List CellQuantum :=
  works.filterMap fun work =>
    match work with
    | .cells quantum =>
      if quantum.class' = .bulk ∧ quantum.flowId = flowId then some quantum else none
    | _ => none

def isBulk : ScheduledWork → Bool
  | .cells quantum => quantum.class' = .bulk
  | _ => false

/-- The next send pops with an interrupted quantum beside it, and the scheduler forces Bulk. -/
def V2Tx.forcesBesideInterrupted (tx : V2Tx) : Bool :=
  tx.preempt.pending.isNone && tx.preempt.preemptedBulk.isSome &&
    tx.scheduler.hasStrictUrgent && tx.scheduler.control.isEmpty && tx.scheduler.forceBulk

def TxEvent.isSend : TxEvent → Bool
  | .send _ _ => true
  | .schedule _ _ _ => false

/-- No send of the run is forced beside an interrupted quantum. -/
def V2Tx.neverForced (tx : V2Tx) : List TxEvent → Bool
  | [] => true
  | event :: rest =>
    !(event.isSend && tx.forcesBesideInterrupted) &&
      match tx.step event with
      | .ok (_, ty) => ty.neverForced rest
      | .error _ => true

@[simp] theorem flowQuanta_append (front back : List ScheduledWork) :
    flowQuanta flowId (front ++ back) = flowQuanta flowId front ++ flowQuanta flowId back := by
  simp [flowQuanta]

theorem flowQuanta_of_not_bulk {works : List ScheduledWork}
    (none : ∀ work ∈ works, isBulk work = false) : flowQuanta flowId works = [] := by
  refine filterMap_eq_nil_iff.mpr fun work member => ?_
  have notBulk := none work member
  cases work with
  | control bytes => rfl
  | probe bytes => rfl
  | cells quantum =>
    simp only [isBulk, decide_eq_false_iff_not] at notBulk
    simp [notBulk]

section
variable {limits : SchedulerLimits} {tx ty : V2Tx} {now : Scheduler.Instant}
  {popped : Option ScheduledWork}
  {s t : V2Scheduler}

theorem urgent_pop (sound : Sound limits s) (urgent : s.hasStrictUrgent = true)
    (calm : s.control = [] → s.forceBulk = false) {work : Option ScheduledWork}
    (ran : s.pop now = .ok (work, t)) :
    ∃ selected, work = some selected ∧ isBulk selected = false := by
  obtain ⟨effect, -⟩ := pop_popped sound ran
  have waiting : s.control = [] → s.latency ≠ [] := by
    intro quiet idle
    simp [V2Scheduler.hasStrictUrgent, quiet, idle] at urgent
  generalize s.popVisits now = visited at effect
  cases effect with
  | control front view burst => exact ⟨_, rfl, rfl⟩
  | latency quiet waits notForced view served =>
    refine ⟨_, rfl, ?_⟩
    simp [isBulk, served.isLatency]
  | bulk quiet turn turns most =>
    rcases turn with force | idle
    · rw [calm quiet] at force
      cases force
    · exact absurd idle (waiting quiet)
  | forced quiet force turns all served =>
    rw [calm quiet] at force
    cases force
  | rest quiet idle turns all burst probe => exact absurd idle (waiting quiet)

/-- An interrupted quantum waits only beside other work, and it is Bulk. -/
structure Ordered (tx : V2Tx) : Prop where
  beside : tx.preemptedBulk ≠ none → ∀ pending ∈ tx.pending, isBulk pending.work = false

theorem preempt_ordered (ordered : Ordered tx) : Ordered tx.preempt := by
  unfold preempt
  split
  · exact ⟨fun _ pending member => by cases member⟩
  · exact ordered

/-- With an interrupted quantum in its slot a fill selects no Bulk quantum under urgency, and what
it selects otherwise comes in order. -/
theorem Fills.ordered (fills : Fills tx ty now popped) (sound : Sound limits tx.scheduler)
    (ordered : Ordered tx)
    (calm : tx.pending = none → tx.preemptedBulk ≠ none → tx.scheduler.hasStrictUrgent = true →
      tx.scheduler.control = [] → tx.scheduler.forceBulk = false) :
    Ordered ty ∧ ty.held = tx.held ++ popped.toList := by
  cases fills with
  | kept occupied same =>
    rw [same]
    exact ⟨ordered, by simp⟩
  | resumed empty notUrgent isHeld isResumed =>
    refine ⟨⟨fun wrong => ?_⟩, ?_⟩
    · rw [isResumed] at wrong
      exact absurd rfl wrong
    · simp [isResumed, V2Tx.held, empty, isHeld]
  | popped empty turn ran same isPending held =>
  refine ⟨⟨fun interrupted pending member => ?_⟩, held⟩
  rw [same] at interrupted
  have urgent := turn.resolve_right interrupted
  obtain ⟨selected, rfl, notBulk⟩ := urgent_pop sound urgent (calm empty interrupted urgent) ran
  rw [isPending] at member
  obtain rfl := Option.some.inj member
  exact notBulk

theorem select_ordered (sound : Sound limits tx.scheduler) (ordered : Ordered tx)
    (calm : tx.forcesBesideInterrupted = false) (fills : Fills tx.preempt ty now popped) :
    Ordered ty ∧ ty.held = tx.held ++ popped.toList := by
  obtain ⟨held, same⟩ := preempt_held tx
  rw [← held]
  refine fills.ordered (same ▸ sound) (preempt_ordered ordered) ?_
  intro empty interrupted urgent quiet
  rw [same] at urgent quiet ⊢
  simp only [forcesBesideInterrupted, empty, Option.isNone_none, Bool.true_and, urgent, quiet,
    isEmpty_nil, Bool.and_true, Bool.and_eq_false_iff, Option.isSome_eq_false_iff,
    Option.isNone_iff_eq_none, interrupted, false_or] at calm
  exact calm

/-- Completion submits what stands last among the held Bulk quanta, so it has to stand first. -/
theorem complete_ordered (ordered : Ordered tx) (answers : Answers) (flowId : UInt64) :
    Ordered (tx.complete answers).2 ∧
      flowQuanta flowId tx.held = flowQuanta flowId (tx.complete answers).1.submitted ++
        flowQuanta flowId (tx.complete answers).2.held := by
  unfold complete
  split
  · exact ⟨ordered, rfl⟩
  rename_i pending isPending
  split
  · exact ⟨ordered, rfl⟩
  · exact ⟨ordered, rfl⟩
  refine ⟨⟨fun _ other member => by cases member⟩, ?_⟩
  simp only [held, isPending, Option.toList_some, Option.toList_none, append_nil,
    map_append, map_cons, map_nil, SendResult.submitted, flowQuanta_append]
  cases interrupted : tx.preemptedBulk with
  | none => simp [flowQuanta]
  | some held =>
  -- beside an interrupted quantum the pending work is not Bulk
  have notBulk := ordered.beside (by simp [interrupted]) pending isPending
  have nothing : flowQuanta flowId [pending.work] = [] :=
    flowQuanta_of_not_bulk flowId fun work member => by
      rw [mem_singleton.mp member]
      exact notBulk
  rw [nothing, append_nil, nil_append]

theorem step_ordered (sound : Sound limits tx.scheduler) (ordered : Ordered tx) {event : TxEvent}
    (calm : (event.isSend && tx.forcesBesideInterrupted) = false) :
    ∃ log ty, tx.step event = .ok (log, ty) ∧ Sound limits ty.scheduler ∧ Ordered ty ∧
      ∀ flowId, flowQuanta flowId tx.held ++ flowQuanta flowId log.popped =
        flowQuanta flowId log.submitted ++ flowQuanta flowId ty.held := by
  cases event with
  | schedule now call notPop =>
    obtain ⟨seen, scheduler, -, called, kept, -⟩ := call_effect sound now call
    refine ⟨{}, { tx with scheduler }, ?_, kept, ⟨ordered.beside⟩, fun flowId => ?_⟩
    · simp only [step, called, ok_bind]
    · simp [held, flowQuanta]
  | send now answers =>
  obtain ⟨popped, ty, selected, fills, kept⟩ := select_returns sound now
  obtain ⟨inOrder, held⟩ :=
    select_ordered sound ordered (by simpa [TxEvent.isSend] using calm) fills
  refine ⟨{ popped := popped.toList, submitted := (ty.complete answers).1.submitted },
    (ty.complete answers).2, ?_, (complete_held ty answers).2 ▸ kept,
    (complete_ordered inOrder answers 0).1, fun flowId => ?_⟩
  · simp only [step, selected, ok_bind]
  · rw [← (complete_ordered inOrder answers flowId).2, held, flowQuanta_append]

theorem run_ordered (sound : Sound limits tx.scheduler) (ordered : Ordered tx)
    {events : List TxEvent} (calm : tx.neverForced events = true) :
    ∃ log ty, tx.run events = .ok (log, ty) ∧ Sound limits ty.scheduler ∧ Ordered ty ∧
      ∀ flowId, flowQuanta flowId tx.held ++ flowQuanta flowId log.popped =
        flowQuanta flowId log.submitted ++ flowQuanta flowId ty.held := by
  induction events generalizing tx with
  | nil => exact ⟨{}, tx, rfl, sound, ordered, fun flowId => by simp [flowQuanta]⟩
  | cons event rest ih =>
  simp only [neverForced, Bool.and_eq_true, Bool.not_eq_true'] at calm
  obtain ⟨first, ty, stepped, kept, still, before⟩ := step_ordered sound ordered calm.1
  obtain ⟨later, tz, ran, final, stillThen, after⟩ := ih kept still
    (by simpa only [stepped] using calm.2)
  refine ⟨first.append later, tz, ?_, final, stillThen, fun flowId => ?_⟩
  · simp only [run, stepped, ok_bind, ran]
  · simp only [TxLog.append, flowQuanta_append]
    rw [← append_assoc, before, append_assoc, after, append_assoc]

theorem neverForced_append {front rest : List TxEvent} {log : TxLog}
    (calm : tx.neverForced (front ++ rest) = true) (ran : tx.run front = .ok (log, ty)) :
    tx.neverForced front = true ∧ ty.neverForced rest = true := by
  induction front generalizing tx log with
  | nil =>
    obtain ⟨-, rfl⟩ := ok_pair_inj ran
    exact ⟨rfl, calm⟩
  | cons first others ih =>
  simp only [run, do_eq_ok] at ran
  obtain ⟨⟨early, tz⟩, stepped, ⟨later, tw⟩, onward, ran⟩ := ran
  obtain ⟨-, rfl⟩ := Prod.mk.inj ran
  simp only [cons_append, neverForced, stepped, Bool.and_eq_true] at calm ⊢
  obtain ⟨calmOthers, calmRest⟩ := ih calm.2 onward
  exact ⟨⟨calm.1, calmOthers⟩, calmRest⟩

end

/-- The work that a send selects while urgent work waits beside an interrupted quantum is not
Bulk. -/
def V2Tx.UrgentFirst (tx : V2Tx) (now : Scheduler.Instant) : Prop :=
  ∃ popped ty, tx.select now = .ok (popped, ty) ∧
    (tx.preempt.preemptedBulk ≠ none → tx.scheduler.hasStrictUrgent = true →
      ∀ pending ∈ ty.pending, isBulk pending.work = false)

/-- In every run without a forced pop beside an interrupted quantum, the quanta of each Bulk flow
are submitted in the order in which they were popped, and no send selects a Bulk quantum while
urgent work waits beside an interrupted one. -/
theorem transmit_ordered (limits : SchedulerLimits) (tx : V2Tx)
    (made : new limits = .ok tx) (events : List TxEvent) (calm : tx.neverForced events = true) :
    (∃ log ty, tx.run events = .ok (log, ty) ∧
      ∀ flowId, flowQuanta flowId log.submitted <+: flowQuanta flowId log.popped) ∧
    ∀ front now answers rest, events = front ++ .send now answers :: rest →
      ∃ log ty, tx.run front = .ok (log, ty) ∧ ty.UrgentFirst now := by
  obtain ⟨sound, rfl⟩ := new_sound made
  have ordered : Ordered { scheduler := { limits } } := ⟨fun wrong => absurd rfl wrong⟩
  constructor
  · obtain ⟨log, ty, ran, -, -, inOrder⟩ := run_ordered sound ordered calm
    exact ⟨log, ty, ran, fun flowId => ⟨flowQuanta flowId ty.held, (inOrder flowId).symm⟩⟩
  rintro front now answers rest rfl
  obtain ⟨log, ty, ran, -, -⟩ := run_returns sound front
  obtain ⟨calmFront, calmRest⟩ := neverForced_append calm ran
  simp only [neverForced, TxEvent.isSend, Bool.true_and, Bool.and_eq_true,
    Bool.not_eq_true'] at calmRest
  obtain ⟨_, _, again, kept, still, -⟩ := run_ordered sound ordered calmFront
  obtain ⟨rfl, rfl⟩ := ok_pair_inj (ran.symm.trans again)
  obtain ⟨popped, tz, selected, fills, -⟩ := select_returns kept now
  refine ⟨log, ty, ran, popped, tz, selected, fun interrupted urgent => ?_⟩
  obtain ⟨inOrder, -⟩ := select_ordered kept still calmRest.1 fills
  refine inOrder.beside ?_
  -- under urgency the interrupted quantum stays where it is
  cases fills with
  | kept occupied same => rw [same]; exact interrupted
  | resumed empty notUrgent isHeld isResumed =>
    rw [(preempt_held ty).2, urgent] at notUrgent
    cases notUrgent
  | popped empty turn ran same isPending held => rw [same]; exact interrupted

/-! ### A forced quantum that overtakes -/

def accepted : Answers := { maximum := some 65535, stream := .written, datagram := .accepted }

/-- Two Bulk trains of one flow, the first interrupted by five urgent Cells of 16 KiB. -/
def overtaking : List TxEvent :=
  [.schedule 0 (.enqueueForwardedCells 1 [transitCell .bulk 1 4]) (by decide),
    .schedule 0 (.enqueueForwardedCells 1 [transitCell .bulk 2 4]) rfl,
    .send 1 { accepted with datagram := .cancelled },
    .schedule 2 (.enqueueEncodedTrainWithScheduling 2 .latency 9
      (List.replicate 5 (transitCell .latency 9 16348)) none none true) rfl,
    .send 3 accepted, .send 4 accepted, .send 5 accepted, .send 6 accepted,
    .send 7 accepted, .send 8 accepted, .send 9 accepted]

/-- After four urgent Cells the burst is used up. The send that follows selects the second quantum
while urgent work waits beside the first one, and submits it before the first. -/
theorem forced_quantum_overtakes :
    new {} = .ok { scheduler := { limits := {} } } ∧
    ((run { scheduler := { limits := {} } } overtaking).toOption.map fun (log, _) =>
      ((flowQuanta 1 log.popped).map CellQuantum.trainId,
        (flowQuanta 1 log.submitted).map CellQuantum.trainId)) = some ([1, 2], [2, 1]) ∧
    ((run { scheduler := { limits := {} } } (overtaking.take 8) >>= fun (_, tx) =>
      (tx.select 7).map fun (_, ty) =>
        (tx.scheduler.hasStrictUrgent, tx.preempt.preemptedBulk.isSome,
          ty.pending.map fun pending => isBulk pending.work)).toOption) =
      some (true, true, some true) :=
  ⟨rfl, by decide +kernel, by decide +kernel⟩

/-- Two Bulk trains of one flow; an urgent Cell overtakes the first quantum, whose send was
cancelled. -/
def resumed : List TxEvent :=
  overtaking.take 3 ++
    [.schedule 2 (.enqueueEncodedTrainWithScheduling 2 .latency 9 [transitCell .latency 9 4] none
        none true) rfl,
      .send 3 accepted, .send 4 accepted, .send 5 accepted]

theorem transmit_ordered_resumed :
    new {} = .ok { scheduler := { limits := {} } } ∧
    ((run { scheduler := { limits := {} } } (resumed.take 5)).toOption.map fun (log, tx) =>
      (log.submitted.map isBulk, tx.preemptedBulk.isSome)) = some ([false], true) ∧
    (∃ log ty, run { scheduler := { limits := {} } } resumed = .ok (log, ty) ∧
      ∀ flowId, flowQuanta flowId log.submitted <+: flowQuanta flowId log.popped) ∧
    ∀ front now answers rest, resumed = front ++ .send now answers :: rest →
      ∃ log ty, run { scheduler := { limits := {} } } front = .ok (log, ty) ∧
        ty.UrgentFirst now := by
  exact ⟨rfl, by decide +kernel, transmit_ordered {} _ rfl resumed (by decide +kernel)⟩

/-! ### Idle sends -/

section
variable {limits : SchedulerLimits} {tx ty : V2Tx} {now : Scheduler.Instant}
  {popped : Option ScheduledWork}
  {s t : V2Scheduler}

theorem depthIsEmpty_of_queues (valid : Accounting s) (control : s.control = [])
    (latency : s.latency = []) (probes : s.probes = []) (ring : s.activeBulk = []) :
    depthIsEmpty s.depth = true := by
  have absent : ∀ flowId, s.bulk.lookup flowId = none := by
    intro flowId
    rw [AList.lookup_eq_none, ← valid.bulk.ring.keys, ring]
    exact not_mem_nil
  have bulkBytes : s.depth.bulkBytes = 0 := by
    rw [valid.bulk.bytes]
    exact HashMap.weight_eq_zero_of_empty _ absent
  have controlBytes : s.depth.controlBytes = 0 := by rw [valid.controlBytes, control]; rfl
  have latencyBytes : s.depth.latencyBytes = 0 := by rw [valid.latency.bytes, latency]; rfl
  have probeBytes : s.depth.probeBytes = 0 := by rw [valid.probeBytes, probes]; rfl
  simp [depthIsEmpty, bulkBytes, controlBytes, latencyBytes, probeBytes]

theorem depth_of_short (valid : Accounting s) {flowId : UInt64} (member : flowId ∈ s.activeBulk)
    (isShort : s.isShort flowId = true) : depthIsEmpty s.depth = false := by
  obtain ⟨cursor, behind, head, tail, isTrains, isCells, long⟩ := (short_iff s flowId).mpr isShort
  obtain ⟨flow, found⟩ := valid.bulk.ring.lookup_isSome member
  have trains : flow.trains = cursor :: behind := (flowTrains_of_lookup found).symm.trans isTrains
  have counted := (valid.bulk.holds found).1
  rw [trains, trainBytes_cons, isCells, cellBytes_cons] at counted
  have some : s.depth.bulkBytes ≠ 0 := by omega
  simp [depthIsEmpty, some]

/-- A pop that returns nothing means that nothing is queued, exactly if the state is not stalled. -/
theorem pop_idle_iff {work : Option ScheduledWork} (sound : Sound limits s)
    (ran : s.pop now = .ok (work, t)) :
    (work = none → depthIsEmpty s.depth = true) ↔ s.stalled = false := by
  rw [pop_none_iff sound ran]
  constructor
  · intro empties
    rw [Bool.eq_false_iff]
    intro stalled
    simp only [V2Scheduler.stalled, Bool.and_eq_true, List.isEmpty_iff, Bool.not_eq_true',
      all_eq_true, ← Bool.not_eq_true] at stalled
    obtain ⟨⟨⟨⟨control, latency⟩, probes⟩, ring⟩, shorts⟩ := stalled
    obtain ⟨flowId, others, front⟩ := List.exists_cons_of_ne_nil ring
    have member : flowId ∈ s.activeBulk := front ▸ mem_cons_self
    have full := depth_of_short sound.accounting member (shorts flowId member)
    rw [empties ⟨control, latency, probes, shorts⟩] at full
    cases full
  rintro moving ⟨control, latency, probes, shorts⟩
  have ring : s.activeBulk = [] := by
    by_contra some
    have stalled : s.stalled = true := by
      simp only [V2Scheduler.stalled, control, latency, probes, isEmpty_nil, Bool.true_and,
        Bool.and_eq_true, Bool.not_eq_true', isEmpty_eq_false_iff, all_eq_true]
      exact ⟨some, shorts⟩
    rw [stalled] at moving
    cases moving
  exact depthIsEmpty_of_queues sound.accounting control latency probes ring

theorem urgent_pop_some (sound : Sound limits s) (urgent : s.hasStrictUrgent = true)
    {work : Option ScheduledWork} (ran : s.pop now = .ok (work, t)) : work ≠ none := by
  rw [Ne, pop_none_iff sound ran]
  rintro ⟨control, latency, -⟩
  simp [V2Scheduler.hasStrictUrgent, control, latency] at urgent

/-- A send that has something to send selects it, exactly if not both slots are empty and the
scheduler is stalled. -/
theorem select_idle_iff (sound : Sound limits tx.scheduler)
    (fills : Fills tx.preempt ty now popped) : (tx.hasPending = true → ty.pending.isSome = true) ↔
      ¬(tx.pending = none ∧ tx.preemptedBulk = none ∧ tx.scheduler.stalled = true) := by
  obtain ⟨-, same⟩ := preempt_held tx
  cases fills with
  | kept occupied isSame =>
    have selected : ty.pending.isSome = true := by
      rw [isSame]
      exact Option.isSome_iff_ne_none.mpr occupied
    refine iff_of_true (fun _ => selected) fun ⟨empty, _⟩ => occupied ?_
    simp [preempt, empty]
  | resumed empty notUrgent isHeld isResumed =>
    refine iff_of_true (fun _ => by rw [isResumed]; rfl) fun ⟨pending, preempted, _⟩ => ?_
    simp [preempt, pending, preempted] at isHeld
  | popped empty turn ran isSame isPending held =>
  rw [same] at ran turn
  rw [isPending, Option.isSome_map]
  by_cases slots : tx.pending = none ∧ tx.preemptedBulk = none
  · -- nothing is held, so it depends on the scheduler alone
    have idle := pop_idle_iff sound ran
    simp only [hasPending, slots.1, slots.2, Option.isSome_none, Bool.false_or, true_and,
      Bool.not_eq_true', Bool.not_eq_true]
    rw [← idle]
    cases popped <;> simp
  -- held work was preempted, or waits beside urgent work
  have urgent : tx.scheduler.hasStrictUrgent = true := by
    rcases turn with urgent | none
    · exact urgent
    unfold preempt at empty none
    split at empty
    · rename_i swaps
      simp only [Bool.and_eq_true] at swaps
      exact swaps.1.2
    · rename_i stays
      rw [if_neg stays] at none
      exact absurd ⟨empty, none⟩ slots
  have some := urgent_pop_some sound urgent ran
  refine iff_of_true (fun _ => Option.isSome_iff_ne_none.mpr some) ?_
  rintro ⟨pending, preempted, -⟩
  exact slots ⟨pending, preempted⟩

end

/-- The scheduler and the writer are work-conserving in a state of a run exactly if the state is not
stalled: control, latency and probes are empty, and the first Cell of every queued flow is longer
than its deficit, raised by one quantum and capped by the quantum limit. -/
theorem work_conserving_iff (limits : SchedulerLimits) (s : V2Scheduler)
    (made : V2Scheduler.new limits = .ok s) :
    (∀ calls, ∃ t, s.run calls = .ok t ∧ ∀ now, ∃ work u, t.pop now = .ok (work, u) ∧
      ((work = none → depthIsEmpty t.depth = true) ↔ t.stalled = false)) ∧
    ∀ events, ∃ log tx, run { scheduler := s } events = .ok (log, tx) ∧
      ∀ now, ∃ popped ty, tx.select now = .ok (popped, ty) ∧
        ((tx.hasPending = true → ty.pending.isSome = true) ↔
          ¬(tx.pending = none ∧ tx.preemptedBulk = none ∧ tx.scheduler.stalled = true)) := by
  have sound := Scheduler.new_sound made
  constructor
  · intro calls
    obtain ⟨t, ran, -⟩ := run_accounting s calls sound.accounting
    have reached := run_sound sound calls ran
    refine ⟨t, ran, fun now => ?_⟩
    obtain ⟨⟨work, u⟩, popped, -⟩ := pop_works now reached.accounting
    exact ⟨work, u, popped, pop_idle_iff reached popped⟩
  intro events
  obtain ⟨log, tx, ran, reached, -⟩ := @run_returns limits { scheduler := s } sound events
  refine ⟨log, tx, ran, fun now => ?_⟩
  obtain ⟨popped, ty, selected, fills, -⟩ := select_returns reached now
  exact ⟨popped, ty, selected, select_idle_iff reached fills⟩

/-- A Bulk Cell that is longer than the default quantum. -/
def longCell : List (Scheduler.Instant × SchedulerCall) :=
  [(0, .enqueueForwardedCells 1 [transitCell .bulk 1 11964])]

/-- The first pop returns nothing although 12000 bytes are queued, and a send finds nothing. -/
theorem long_cell_stalls : V2Scheduler.new {} = .ok { limits := {} } ∧
    ((V2Scheduler.run { limits := {} } longCell >>= fun s => (s.pop 1).map fun (work, _) =>
      (work, s.depth.bulkBytes, depthIsEmpty s.depth)).toOption) = some (none, 12000, false) ∧
    ((V2Scheduler.run { limits := {} } longCell >>= fun s =>
      (select { scheduler := s } 1).map fun (_, tx) =>
        (hasPending { scheduler := s }, tx.pending)).toOption) = some (true, none) :=
  ⟨rfl, by decide +kernel, by decide +kernel⟩

theorem work_conserving_iff_default : V2Scheduler.new {} = .ok { limits := {} } ∧
    ((∀ calls, ∃ t, V2Scheduler.run { limits := {} } calls = .ok t ∧
      ∀ now, ∃ work u, t.pop now = .ok (work, u) ∧
        ((work = none → depthIsEmpty t.depth = true) ↔ t.stalled = false)) ∧
    ∀ events, ∃ log tx, run { scheduler := { limits := {} } } events = .ok (log, tx) ∧
      ∀ now, ∃ popped ty, tx.select now = .ok (popped, ty) ∧
        ((tx.hasPending = true → ty.pending.isSome = true) ↔
          ¬(tx.pending = none ∧ tx.preemptedBulk = none ∧ tx.scheduler.stalled = true))) :=
  ⟨rfl, work_conserving_iff {} { limits := {} } rfl⟩

end Ironet.Dataplane
