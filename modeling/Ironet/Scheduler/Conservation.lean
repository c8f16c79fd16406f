import Ironet.Scheduler.Ledger

/-!
# No Cell is lost, doubled or out of order

What the callers of a run see, completed by the evictions that nobody sees, is the history of the
run. The history explains the queues: the ledger of the history balances after every run.
-/
namespace Ironet.Scheduler
open Support Cell Train Ledger SchedulerEvent V2Scheduler List

/-! ### What a history says -/

/-- A history explains the queues: control records and probes leave in the order they came, the
ledger has one ticket for every accepted train and one entry for every quantum, and it balances. -/
structure Conserved (history : List SchedulerEvent) (queues : SchedulerQueues) : Prop where
  control : history.filterMap controlIn? =
    history.filterMap controlOut? ++ queues.control
  probes : history.filterMap probeIn? =
    history.filterMap probeOut? ++ queues.probes
  admitted : (of history).admitted.map Ticket.train =
    history.filterMap train?
  emitted : (of history).emitted.map Prod.snd = history.filterMap quantum?
  ledger : (of history).Tracks queues

namespace Conserved

variable {history : List SchedulerEvent} {queues after : SchedulerQueues}

theorem of_concat (history : List SchedulerEvent) (event : SchedulerEvent) :
    of (history ++ [event]) = (of history).record event := by
  simp [of]

theorem acceptBytes (conserved : Conserved history queues) (queue : TrafficQueue) (bytes : Bytes) :
    Conserved (history ++ [match queue with | .control => .control bytes | .probe => .probe bytes])
      (match queue with
        | .control => { queues with control := queues.control ++ [bytes] }
        | .probe => { queues with probes := queues.probes ++ [bytes] }) := by
  cases queue
  all_goals
    constructor
    · simp [filterMap_cons, controlIn?, controlOut?, conserved.control]
    · simp [filterMap_cons, probeIn?, probeOut?, conserved.probes]
    · simp [of_concat, record, filterMap_cons, train?, conserved.admitted]
    · simp [of_concat, record, filterMap_cons, quantum?, conserved.emitted]
    · rw [of_concat]
      exact { conserved.ledger with }

theorem book_admitted (ledger : Ledger) (train : TrainCursor) :
    (ledger.book train).admitted = ledger.admitted ++ [⟨ledger.admitted.length, train⟩] ∧
      (ledger.book train).emitted = ledger.emitted := by
  unfold book
  split <;> exact ⟨rfl, rfl⟩

theorem acceptTrain (conserved : Conserved history queues) {train : TrainCursor}
    (accounted : train.Accounted) (admits : Admits queues train after) :
    Conserved (history ++ [.train train]) after where
  control := by
    cases admits <;>
      simp [filterMap_cons, controlIn?, controlOut?, conserved.control]
  probes := by
    cases admits <;> simp [filterMap_cons, probeIn?, probeOut?, conserved.probes]
  admitted := by
    rw [of_concat, record, (book_admitted _ _).1]
    simp [train?, conserved.admitted]
  emitted := by
    rw [of_concat, record, (book_admitted _ _).2]
    simp [filterMap_cons, quantum?, conserved.emitted]
  ledger := by
    rw [of_concat]
    exact conserved.ledger.book accounted admits

theorem evict_admitted (ledger : Ledger) (flowId : UInt64) :
    (ledger.evict flowId).admitted = ledger.admitted ∧
      (ledger.evict flowId).emitted = ledger.emitted := by
  unfold evict
  split <;> exact ⟨rfl, rfl⟩

theorem evictTrains (conserved : Conserved history queues) {flows : List UInt64}
    (evicts : Evicts queues flows after) : Conserved (history ++ flows.map .evicted) after := by
  induction evicts generalizing history with
  | done => simpa using conserved
  | @evict queues after flowId rest kept removed last onward ih =>
  rw [map_cons, ← singleton_append, ← append_assoc]
  refine ih ?_
  constructor
  · simpa [filterMap_cons, controlIn?, controlOut?] using conserved.control
  · simpa [filterMap_cons, probeIn?, probeOut?] using conserved.probes
  · rw [of_concat, record, (evict_admitted _ _).1]
    simpa [filterMap_cons, train?] using conserved.admitted
  · rw [of_concat, record, (evict_admitted _ _).2]
    simpa [filterMap_cons, quantum?] using conserved.emitted
  · rw [of_concat]
    exact conserved.ledger.evict last

variable {quantum : CellQuantum} {ticket : Ticket}

theorem serveCells_latency {ledger : Ledger} {behind : List Ticket}
    (isClass : quantum.class' = .latency) (front : ledger.latency = ticket :: behind) :
    (ledger.serveCells quantum).admitted = ledger.admitted ∧
      (ledger.serveCells quantum).emitted = ledger.emitted ++ [(ticket, quantum)] := by
  simp [serveCells, isClass, front, emit]

theorem serveCells_bulk {ledger : Ledger} {behind : List Ticket}
    (isClass : quantum.class' = .bulk) (front : ledger.bulk quantum.flowId = ticket :: behind) :
    (ledger.serveCells quantum).admitted = ledger.admitted ∧
      (ledger.serveCells quantum).emitted = ledger.emitted ++ [(ticket, quantum)] := by
  simp [serveCells, isClass, front, emit]

theorem serveCells (conserved : Conserved history queues)
    (isControl : after.control = queues.control) (isProbes : after.probes = queues.probes)
    (entered : ((of history).serveCells quantum).admitted = (of history).admitted ∧
      ((of history).serveCells quantum).emitted = (of history).emitted ++ [(ticket, quantum)])
    (tracks : ((of history).serveCells quantum).Tracks after) :
    Conserved (history ++ [.work (.cells quantum)]) after where
  control := by
    simp [filterMap_cons, controlIn?, controlOut?, conserved.control, isControl]
  probes := by
    simp [filterMap_cons, probeIn?, probeOut?, conserved.probes, isProbes]
  admitted := by
    rw [of_concat, record, entered.1]
    simp [filterMap_cons, train?, conserved.admitted]
  emitted := by
    rw [of_concat, record, entered.2]
    simp [quantum?, conserved.emitted]
  ledger := by
    rw [of_concat]
    exact tracks

theorem pop (conserved : Conserved history queues) {work : Option ScheduledWork}
    (pops : Pops queues work after) : Conserved (history ++ work.toList.map .work) after := by
  cases pops with
  | idle => simpa using conserved
  | control front =>
    constructor
    · simp [filterMap_cons, controlIn?, controlOut?, conserved.control, front]
    · simp [filterMap_cons, probeIn?, probeOut?, conserved.probes]
    · simp [of_concat, record, filterMap_cons, train?, conserved.admitted]
    · simp [of_concat, record, filterMap_cons, quantum?, conserved.emitted]
    · rw [Option.toList_some, map_singleton, of_concat]
      exact { conserved.ledger with }
  | probe front =>
    constructor
    · simp [filterMap_cons, controlIn?, controlOut?, conserved.control]
    · simp [filterMap_cons, probeIn?, probeOut?, conserved.probes, front]
    · simp [of_concat, record, filterMap_cons, train?, conserved.admitted]
    · simp [of_concat, record, filterMap_cons, quantum?, conserved.emitted]
    · rw [Option.toList_some, map_singleton, of_concat]
      exact { conserved.ledger with }
  | latency front serves isLatency isFlow =>
    obtain ⟨ticket, behind, isQueue, -, -⟩ :=
      map_eq_cons_iff.mp (conserved.ledger.latency ▸ front)
    exact conserved.serveCells rfl rfl (serveCells_latency isLatency isQueue)
      (conserved.ledger.serveLatency front serves isLatency isFlow)
  | bulk front serves isBulk =>
    obtain ⟨ticket, behind, isQueue, -, -⟩ :=
      map_eq_cons_iff.mp (conserved.ledger.bulk _ ▸ front)
    exact conserved.serveCells rfl rfl (serveCells_bulk isBulk isQueue)
      (conserved.ledger.serveBulk front serves isBulk)

end Conserved

/-! ### Calls and runs -/

/-- A call on an explained state leaves an explained state, with the events its caller sees and the
evictions besides. -/
theorem Performs.conserved {s t : V2Scheduler} {now : Instant} {isPop : Bool}
    {seen : List SchedulerEvent} (performs : Performs s now isPop seen t) (valid : Accounting s)
    {history : List SchedulerEvent}
    (conserved : Conserved history s.queues) : ∃ events, events.filter isVisible = seen ∧
      Conserved (history ++ events) t.queues := by
  cases performs with
  | control bytes =>
    refine ⟨if (s.enqueueControl bytes).1 then [.control bytes] else [], ?_, ?_⟩
    · split <;> rfl
    · rw [enqueueControl, enqueueBytes_queues]
      split
      · exact conserved.acceptBytes .control bytes
      · simpa using conserved
  | probe bytes =>
    refine ⟨if (s.enqueueProbe bytes).1 then [.probe bytes] else [], ?_, ?_⟩
    · split <;> rfl
    · rw [enqueueProbe, enqueueBytes_queues]
      split
      · exact conserved.acceptBytes .probe bytes
      · simpa using conserved
  | refused => exact ⟨[], rfl, by simpa using conserved⟩
  | @train cursor result _ accounted ran =>
    obtain ⟨-, flows, mid, evicts, admits⟩ :=
      (enqueueCursor_enters cursor valid accounted).of_eq ran
    have evicted := conserved.evictTrains evicts
    have hidden : (flows.map SchedulerEvent.evicted).filter SchedulerEvent.isVisible = [] := by
      simp [isVisible]
    by_cases accepted : result = .ok true
    · rw [if_pos accepted] at admits
      refine ⟨flows.map .evicted ++ [.train cursor.admitted], ?_, ?_⟩
      · simp [accepted, hidden, isVisible]
      · rw [← append_assoc]
        exact evicted.acceptTrain accounted.admitted admits
    · rw [if_neg accepted] at admits
      refine ⟨flows.map .evicted, ?_, ?_⟩
      · rw [hidden, if_neg accepted]
      · exact admits ▸ evicted
  | @pop work _ ran =>
    refine ⟨work.toList.map .work, ?_, conserved.pop ((pop_works now valid).of_eq ran).pops⟩
    cases work <;> rfl
  | tune cells =>
    refine ⟨[], rfl, ?_⟩
    rw [setBulkQuantumCells_queues]
    simpa using conserved

/-- The run lemma: every run goes through, and its history explains the queues it leaves. -/
theorem observe_conserved (s : V2Scheduler) (calls : List (Instant × SchedulerCall))
    (valid : Accounting s) (history : List SchedulerEvent)
    (conserved : Conserved history s.queues) :
    ∃ seen t events, s.observe calls = .ok (seen, t) ∧ s.run calls = .ok t ∧
      events.filter isVisible = seen ∧
      Conserved (history ++ events) t.queues := by
  induction calls generalizing s history with
  | nil => exact ⟨[], s, [], rfl, rfl, rfl, by simpa using conserved⟩
  | cons next rest ih =>
  obtain ⟨now, call⟩ := next
  obtain ⟨seen, mid, performed, called, performs, kept⟩ := perform_returns now call valid
  obtain ⟨first, isSeen, after⟩ := performs.conserved valid conserved
  obtain ⟨later, t, events, observed, ran, areSeen, final⟩ := ih mid kept _ after
  refine ⟨seen ++ later, t, first ++ events, ?_, ?_, ?_, ?_⟩
  · simp only [observe, performed, ok_bind, observed]
  · simp only [run, called, ok_bind, ran]
  · rw [filter_append, isSeen, areSeen]
  · rw [← append_assoc]
    exact final

theorem new_conserved {limits : SchedulerLimits} {s : V2Scheduler}
    (made : new limits = .ok s) : Conserved [] s.queues := by
  simp only [new, do_eq_ok] at made
  obtain ⟨-, rfl⟩ := made
  refine ⟨rfl, rfl, rfl, rfl, ?_⟩
  constructor <;> simp [of, queues, flowTrains]

/-- Every run of a new scheduler conserves its trains. What its callers see, with evictions put in
between, is a history that explains the queues: the quanta of every train are a prefix of its Cells,
its finishing mark and statistics are in place, the trains of a Bulk flow follow each other, and
what is neither sent nor queued was evicted and counted. -/
theorem scheduler_conserves (limits : SchedulerLimits) (s : V2Scheduler)
    (made : new limits = .ok s) (calls : List (Instant × SchedulerCall)) :
    ∃ seen t history, s.observe calls = .ok (seen, t) ∧ s.run calls = .ok t ∧
      history.filter isVisible = seen ∧ Conserved history t.queues := by
  exact observe_conserved s calls (new_accounting made) [] (new_conserved made)

/-- The four trains of that run are seen, and the two quanta. -/
theorem scheduler_conserves_evicting : new tightLimits = .ok { limits := tightLimits } ∧
    ∃ seen t history, observe { limits := tightLimits } evicting = .ok (seen, t) ∧
      run { limits := tightLimits } evicting = .ok t ∧ seen.length = 6 ∧
      history.filter isVisible = seen ∧ Conserved history t.queues := by
  have evaluated : (observe { limits := tightLimits } evicting).toOption.map
      (fun outcome => outcome.1.length) = some 6 := by decide +kernel
  obtain ⟨seen, t, history, observed, ran, visible, conserved⟩ :=
    scheduler_conserves tightLimits { limits := tightLimits } rfl evicting
  rw [observed] at evaluated
  exact ⟨rfl, seen, t, history, observed, ran, Option.some.inj evaluated, visible, conserved⟩

end Ironet.Scheduler
