import Ironet.Cell.RoundTrip
import Ironet.Scheduler.Conservation
import Ironet.Support.Sorting

/-!
# Earliest deadline first

The latency queue is kept in the order of service by one linear search per admission: priority
trains first, then by deadline, then by admission. The ledger tells equal trains apart by the number
of their admission, so the order is one on tickets. It holds in the ledger of every history, and a
run only adds that its latency trains have deadlines.
-/
namespace Ironet.Scheduler
open Support Ledger SchedulerEvent V2Scheduler List TrainCursor

/-- The order in which latency trains are served. -/
def Ticket.Before (first second : Ticket) : Prop :=
  (first.train.priority = true ∧ second.train.priority = false) ∨
    (first.train.priority = second.train.priority ∧
      ∃ earlier ∈ first.train.deadline, ∃ later ∈ second.train.deadline,
        earlier < later ∨ (earlier = later ∧ first.number < second.number))

theorem Ticket.Before.asymm {first second : Ticket} (before : first.Before second) :
    ¬ second.Before first := by
  rintro (⟨high, low⟩ | ⟨same, later', isLater', earlier', isEarlier', order'⟩)
  · rcases before with ⟨high', low'⟩ | ⟨same, -⟩ <;> simp_all
  rcases before with ⟨high', low'⟩ | ⟨-, earlier, isEarlier, later, isLater, order⟩
  · simp_all
  · obtain rfl := Option.mem_unique isEarlier isEarlier'
    obtain rfl := Option.mem_unique isLater isLater'
    grind

/-! ### The order in the ledger -/

/-- The order as the search sees it, for which a train without a deadline is due at once. -/
def Ticket.Queued (first second : Ticket) : Prop :=
  (first.train.priority = true ∧ second.train.priority = false) ∨
    (first.train.priority = second.train.priority ∧
      (first.train.deadline.getD 0 < second.train.deadline.getD 0 ∨
        (first.train.deadline.getD 0 = second.train.deadline.getD 0 ∧
          first.number < second.number)))

theorem TrainCursor.yieldsTo_iff (queued : TrainCursor) (priority : Bool) (deadline : Instant) :
    queued.yieldsTo priority deadline = true ↔
      (priority = true ∧ queued.priority = false) ∨
        (priority = queued.priority ∧ deadline < queued.deadline.getD 0) := by
  cases isDeadline : queued.deadline <;>
    simp [yieldsTo, isDeadline]

/-- The latency tickets stand in order, with the numbers of past admissions. -/
structure Ledger.Ordered (ledger : Ledger) : Prop where
  order : ledger.latency.Pairwise Ticket.Queued
  past : ∀ ticket ∈ ledger.latency, ticket.number < ledger.admitted.length

/-- A new ticket goes behind those it does not precede, also behind those of its own deadline. -/
theorem Ledger.Ordered.book {ledger : Ledger} (ordered : ledger.Ordered) (train : TrainCursor) :
    (ledger.book train).Ordered := by
  cases isClass : train.class' with
  | bulk =>
    simp only [Ledger.book, isClass]
    refine ⟨ordered.order, fun ticket member => ?_⟩
    simp only [length_append, length_singleton]
    exact Nat.lt_succ_of_lt (ordered.past ticket member)
  | latency =>
  simp only [Ledger.book, isClass]
  constructor
  · refine pairwise_insertIdx_findIdx ordered.order ?_ ?_ ?_
    · intro a _ b _ queued yields
      rw [yieldsTo_iff] at yields ⊢
      unfold Ticket.Queued at queued
      grind
    · intro a _ yields
      rw [yieldsTo_iff] at yields
      unfold Ticket.Queued
      grind
    -- what does not yield is at most as late, and it was admitted before
    intro a member stays
    have earlier := ordered.past a member
    rw [← Bool.not_eq_true, yieldsTo_iff] at stays
    simp only [not_or, not_and, Nat.not_lt] at stays
    rcases Bool.eq_false_or_eq_true a.train.priority with high | low
    · by_cases same : train.priority = true
      · exact .inr ⟨high.trans same.symm, (Nat.lt_or_eq_of_le
          (stays.2 (same.trans high.symm))).imp_right fun equal => ⟨equal, earlier⟩⟩
      · exact .inl ⟨high, Bool.not_eq_true _ ▸ same⟩
    · have same : train.priority = false := Bool.eq_false_iff.mpr fun high => stays.1 high low
      exact .inr ⟨low.trans same.symm, (Nat.lt_or_eq_of_le
        (stays.2 (same.trans low.symm))).imp_right fun equal => ⟨equal, earlier⟩⟩
  intro ticket member
  simp only [length_append, length_singleton]
  rcases eq_or_mem_of_mem_insertIdx member with rfl | old
  · exact Nat.lt_succ_self _
  · exact Nat.lt_succ_of_lt (ordered.past ticket old)

theorem Ledger.Ordered.record {ledger : Ledger} (ordered : ledger.Ordered)
    (event : SchedulerEvent) : (ledger.record event).Ordered := by
  cases event with
  | control | probe => exact ordered
  | train cursor => exact ordered.book cursor
  | evicted flowId =>
    simp only [Ledger.record, Ledger.evict]
    split
    · exact ordered
    · exact ⟨ordered.order, ordered.past⟩
  | work work =>
  cases work with
  | control | probe => exact ordered
  | cells quantum =>
  -- only the front can leave, and it changes nothing that the order reads
  simp only [Ledger.record, Ledger.serveCells]
  split
  · split
    · exact ordered
    next ticket behind isQueue =>
      have part : (keep quantum ticket behind).Sublist ledger.latency :=
        isQueue ▸ keep_sublist behind
      exact ⟨ordered.order.sublist part,
        fun other member => ordered.past other (part.subset member)⟩
  · split
    · exact ordered
    · exact ⟨ordered.order, ordered.past⟩

theorem Ledger.of_ordered (history : List SchedulerEvent) : (Ledger.of history).Ordered := by
  induction history using reverseRecOn with
  | nil => exact ⟨List.Pairwise.nil, by simp [Ledger.of]⟩
  | append_singleton history event ih =>
    rw [Conserved.of_concat]
    exact ih.record event

/-! ### Runs -/

theorem observe_deadlines {s t : V2Scheduler} {calls : List (Instant × SchedulerCall)}
    {seen : List SchedulerEvent} (valid : Accounting s) (observed : s.observe calls = .ok (seen, t))
    {train : TrainCursor} (member : .train train ∈ seen) (isLatency : train.class' = .latency) :
    train.deadline.isSome := by
  induction calls generalizing s seen with
  | nil =>
    simp only [observe, Except.ok.injEq, Prod.mk.injEq] at observed
    simp [← observed.1] at member
  | cons next rest ih =>
  obtain ⟨now, call⟩ := next
  obtain ⟨first, mid, performed, -, performs, kept⟩ := perform_returns now call valid
  simp only [observe, performed, ok_bind, do_eq_ok, Prod.mk.injEq] at observed
  obtain ⟨⟨later, last⟩, onward, rfl, rfl⟩ := observed
  rcases mem_append.mp member with now' | then'
  · generalize call.isPop = isPop at performs
    cases performs with
    | control | probe => split at now' <;> simp at now'
    | refused | tune => simp at now'
    | pop => simp at now'
    | @train cursor =>
    split at now'
    · -- `enqueue_cursor` assigned the deadline
      obtain rfl : train = cursor.admitted := by simpa using now'
      unfold TrainCursor.admitted at isLatency ⊢
      split at isLatency
      · rfl
      next isBulk => simp [isBulk] at isLatency
    · simp at now'
  · exact ih kept onward then'

/-- **Earliest deadline first.** After every run of a new scheduler the latency queue is in the
order of service, and a latency quantum comes from a train that no queued train precedes. -/
theorem latency_served_in_order (limits : SchedulerLimits) (s : V2Scheduler)
    (made : new limits = .ok s) (calls : List (Instant × SchedulerCall)) :
    ∃ seen t history, s.observe calls = .ok (seen, t) ∧ s.run calls = .ok t ∧
      history.filter isVisible = seen ∧ Conserved history t.queues ∧
      t.latency = (of history).latency.map (of history).cursor ∧
      (of history).latency.Pairwise Ticket.Before ∧
      ∀ now quantum after, t.popLatency now = .ok (some quantum, after) →
        ∃ ticket behind, (of history).latency = ticket :: behind ∧
          Serves ((of history).cursor ticket) (behind.map (of history).cursor) quantum
            after.latency ∧
          ∀ other ∈ (of history).latency, ¬ other.Before ticket := by
  have valid := new_accounting made
  obtain ⟨seen, t, history, observed, ran, areSeen, conserved⟩ :=
    observe_conserved s calls valid [] (new_conserved made)
  rw [nil_append] at conserved
  have dated : ∀ ticket ∈ (of history).latency, ticket.train.deadline.isSome := by
    intro ticket member
    obtain ⟨admitted, isLatency⟩ := conserved.ledger.inLatency ticket member
    have inHistory : ticket.train ∈ history.filterMap train? :=
      conserved.admitted ▸ mem_map_of_mem admitted
    obtain ⟨event, booked, isTrain⟩ := mem_filterMap.mp inHistory
    obtain rfl : event = .train ticket.train := by
      cases event <;> simp_all [train?]
    exact observe_deadlines valid observed (areSeen ▸ mem_filter.mpr ⟨booked, rfl⟩) isLatency
  have inOrder : (of history).latency.Pairwise Ticket.Before := by
    refine (of_ordered history).order.imp_of_mem ?_
    intro first second inFirst inSecond queued
    obtain ⟨earlier, isEarlier⟩ := Option.isSome_iff_exists.mp (dated first inFirst)
    obtain ⟨later, isLater⟩ := Option.isSome_iff_exists.mp (dated second inSecond)
    simpa [Ticket.Queued, Ticket.Before, isEarlier, isLater] using queued
  refine ⟨seen, t, history, observed, ran, areSeen, conserved, conserved.ledger.latency,
    inOrder, ?_⟩
  intro now quantum after popped
  obtain ⟨u, again, reached⟩ := run_accounting s calls valid
  obtain rfl := Except.ok.inj (ran.symm.trans again)
  obtain ⟨⟨-, pops⟩, isLatency⟩ := (popLatency_works now reached).of_eq popped
  generalize popsTo : after.queues = left at pops
  cases pops with
  | latency front serves =>
    obtain ⟨ticket, behind, isQueue, rfl, rfl⟩ :=
      map_eq_cons_iff.mp (conserved.ledger.latency ▸ front)
    have left : after.latency = _ := congrArg SchedulerQueues.latency popsTo
    refine ⟨ticket, behind, isQueue, left ▸ serves, fun other member ahead => ?_⟩
    rw [isQueue] at member inOrder
    rcases mem_cons.mp member with rfl | isBehind
    · exact ahead.asymm ahead
    · exact ((pairwise_cons.mp inOrder).1 other isBehind).asymm ahead
  | bulk front serves isBulk => simp [isLatency quantum rfl] at isBulk

/-- Two latency trains, the second with the earlier deadline. -/
def twoDeadlines : List (Instant × SchedulerCall) :=
  let cell := { Cell.sampleParity with class' := .latency }
  [(0, .enqueueEncodedTrainWithDeadline 1 .latency 13 [cell.wire] none (some 9)),
    (1, .enqueueEncodedTrainWithDeadline 2 .latency 13 [cell.wire] none (some 4))]

/-- The second train overtakes the first. -/
theorem latency_served_in_order_overtaken :
    ((run { limits := {} } twoDeadlines).toOption.map fun t => t.latency.map TrainCursor.flowId) =
      some [2, 1] ∧
    ∃ seen t history, observe { limits := {} } twoDeadlines = .ok (seen, t) ∧
      run { limits := {} } twoDeadlines = .ok t ∧ history.filter isVisible = seen ∧
      (of history).latency.Pairwise Ticket.Before := by
  refine ⟨by decide +kernel, ?_⟩
  obtain ⟨seen, t, history, observed, ran, areSeen, -, -, inOrder, -⟩ :=
    latency_served_in_order {} { limits := {} } rfl twoDeadlines
  exact ⟨seen, t, history, observed, ran, areSeen, inOrder⟩

end Ironet.Scheduler
