import Mathlib.Data.List.Infix
import Ironet.Scheduler.Effects
import Ironet.Support.Ring

/-!
# Fairness of the round robin and bounded starvation

Two flows that stay backlogged are visited in turn, and a flow never sends more than its visits paid
for. Latency traffic delays a backlogged flow only for the burst and for the rounds that its
deficit needs to reach the length of its first Cell.
-/
namespace Ironet.Scheduler
open Support Cell Train V2Scheduler List

def V2Scheduler.StaysBacklogged (s : V2Scheduler) (calls : List (Instant × SchedulerCall))
    (flowId : UInt64) : Prop :=
  ∀ front, front <+: calls → ∃ t, s.run front = .ok t ∧ flowTrains t.bulk flowId ≠ []

def flowBytes (flowId : UInt64) (quanta : List CellQuantum) : Nat :=
  ((quanta.filter fun quantum => quantum.class' = .bulk ∧ quantum.flowId = flowId).map
    CellQuantum.bytes).sum

def latencyBytes (quanta : List CellQuantum) : Nat :=
  ((quanta.filter fun quantum => quantum.class' = .latency).map CellQuantum.bytes).sum

/-- The quanta that a run returned. -/
def quantaOf (seen : List SchedulerEvent) : List CellQuantum :=
  seen.filterMap SchedulerEvent.quantum?

@[simp] theorem flowBytes_append (flowId : UInt64) (front back : List CellQuantum) :
    flowBytes flowId (front ++ back) = flowBytes flowId front + flowBytes flowId back := by
  simp [flowBytes]

@[simp] theorem latencyBytes_append (front back : List CellQuantum) :
    latencyBytes (front ++ back) = latencyBytes front + latencyBytes back := by
  simp [latencyBytes]

@[simp] theorem quantaOf_append (front back : List SchedulerEvent) :
    quantaOf (front ++ back) = quantaOf front ++ quantaOf back := by
  simp [quantaOf]

variable {seen : List SchedulerEvent} {quantum : CellQuantum}

variable {calls : List (Instant × SchedulerCall)}

section
variable {limits : SchedulerLimits} {view mid after : BulkView} {flowId a b : UInt64}
  {served : Option CellQuantum} {visited : List UInt64} {s t : V2Scheduler}

theorem StaysBacklogged.start
    (stays : s.StaysBacklogged calls flowId) : flowTrains s.bulk flowId ≠ [] := by
  obtain ⟨_, ran, some⟩ := stays [] nil_prefix
  obtain rfl := Except.ok.inj ran
  exact some

theorem StaysBacklogged.next {now : Instant} {call : SchedulerCall}
    {rest : List (Instant × SchedulerCall)} (called : s.call now call = .ok t)
    (stays : s.StaysBacklogged ((now, call) :: rest) flowId) : t.StaysBacklogged rest flowId := by
  intro front isFront
  obtain ⟨u, ran, some⟩ := stays ((now, call) :: front) (cons_prefix_cons.mpr ⟨rfl, isFront⟩)
  rw [run, called, ok_bind] at ran
  exact ⟨u, ran, some⟩

/-! ### Visits alternate -/

theorem Turn.lead (turn : Turn limits view flowId served after) (nodup : view.ring.Nodup)
    (different : a ≠ b) (memberA : a ∈ after.ring) (memberB : b ∈ after.ring) :
    [flowId].count a + lead a b after.ring =
      [flowId].count b + lead a b view.ring := by
  cases turn with
  | miss front short =>
    rw [front] at nodup ⊢
    refine lead_rotate different nodup ?_ ?_
    · exact (perm_append_singleton _ _).mem_iff.mp memberA
    · exact (perm_append_singleton _ _).mem_iff.mp memberB
  | serve front isBulk trains serves bytes cells =>
  rw [front] at nodup ⊢
  simp only [BulkView.serve] at memberA memberB ⊢
  split at memberA
  · rename_i empty
    rw [if_pos empty] at memberB ⊢
    obtain ⟨noA, noB, same⟩ := lead_tail memberA memberB nodup
    rw [noA, noB, same]
  rename_i some
  rw [if_neg some] at memberB ⊢
  refine lead_rotate different nodup ?_ ?_
  · exact (perm_append_singleton _ _).mem_iff.mp memberA
  · exact (perm_append_singleton _ _).mem_iff.mp memberB

theorem Turn.ring_subset (turn : Turn limits view flowId served after) :
    after.ring ⊆ view.ring ∧ (view.ring.Nodup → after.ring.Nodup) := by
  cases turn with
  | miss front short =>
    rw [front]
    have rotated := perm_append_singleton flowId
    exact ⟨fun member => (rotated _).mem_iff.mp, (rotated _).nodup_iff.mpr⟩
  | serve front isBulk trains serves bytes cells =>
  rw [front]
  simp only [BulkView.serve]
  split
  · exact ⟨subset_cons_self _ _, fun nodup => (nodup_cons.mp nodup).2⟩
  · exact ⟨fun member => (perm_append_singleton _ _).mem_iff.mp,
      (perm_append_singleton _ _).nodup_iff.mpr⟩

theorem Turns.ring_subset (turns : Turns limits view visited served after) :
    after.ring ⊆ view.ring := by
  induction turns with
  | stop view => exact List.Subset.refl _
  | serve turn => exact turn.ring_subset.1
  | miss turn onward ih => exact fun member isMember => turn.ring_subset.1 (ih isMember)

theorem Turns.lead (turns : Turns limits view visited served after) (nodup : view.ring.Nodup)
    (different : a ≠ b) (memberA : a ∈ after.ring) (memberB : b ∈ after.ring) :
    visited.count a + lead a b after.ring =
      visited.count b + lead a b view.ring := by
  induction turns with
  | stop view => simp
  | serve turn => exact turn.lead nodup different memberA memberB
  | miss turn onward ih =>
  have first := turn.lead nodup different (onward.ring_subset memberA)
    (onward.ring_subset memberB)
  have later := ih (turn.ring_subset.2 nodup) memberA memberB
  simp only [count_cons, count_nil] at first ⊢
  omega

theorem Rearranges.lead (rearranges : Rearranges view after) (memberA : a ∈ view.ring)
    (stillA : after.trains a ≠ []) (stillB : after.trains b ≠ []) :
    lead a b after.ring = lead a b view.ring := by
  cases rearranges with
  | shrink shrinks =>
    rw [shrinks.ring]
    exact lead_filter _ (decide_eq_true stillA) (decide_eq_true stillB)
  | join flowId cursor =>
    split
    · exact lead_append memberA _
    · rfl

theorem Effect.lead (effect : Effect s t visited seen)
    (before : s.bulkView.WellFormed) (behind : t.bulkView.WellFormed) (different : a ≠ b)
    (startA : flowTrains s.bulk a ≠ []) (stillA : flowTrains t.bulk a ≠ [])
    (stillB : flowTrains t.bulk b ≠ []) : visited.count a + lead a b t.bulkView.ring =
      visited.count b + lead a b s.bulkView.ring := by
  have memberA := (behind.listed a).mpr stillA
  have memberB := (behind.listed b).mpr stillB
  cases effect with
  | pop popped =>
    cases popped with
    | control front view burst => simp [view]
    | latency quiet waiting calm view served => simp [view]
    | bulk quiet turn turns most => exact turns.lead before.nodup different memberA memberB
    | forced quiet force turns all served => exact turns.lead before.nodup different memberA memberB
    | rest quiet idle turns all burst probe =>
      exact turns.lead before.nodup different memberA memberB
  | other rearranges burst silent =>
    rw [rearranges.lead ((before.listed a).mpr startA) stillA stillB]
    simp

/-- The lead at the end of a run tells which of two backlogged flows was visited once more. -/
theorem visits_lead (sound : Sound limits s)
    (different : a ≠ b) (staysA : s.StaysBacklogged calls a) (staysB : s.StaysBacklogged calls b) :
    ∃ t, s.run calls = .ok t ∧
      (s.visits calls).count a + lead a b t.bulkView.ring =
        (s.visits calls).count b + lead a b s.bulkView.ring := by
  induction calls generalizing s with
  | nil => exact ⟨s, rfl, rfl⟩
  | cons next rest ih =>
  obtain ⟨now, call⟩ := next
  obtain ⟨seen, t, -, called, kept, effect⟩ := call_effect sound now call
  have nextA := StaysBacklogged.next called staysA
  have nextB := StaysBacklogged.next called staysB
  obtain ⟨u, ran, later⟩ := ih kept nextA nextB
  have first := effect.lead sound.accounting.view kept.accounting.view different
    (StaysBacklogged.start staysA) (StaysBacklogged.start nextA) (StaysBacklogged.start nextB)
  refine ⟨u, by rw [run, called, ok_bind, ran], ?_⟩
  simp only [visits, called, count_append]
  omega

/-! ### Bytes are paid for by visits -/

theorem flowBytes_single (flowId : UInt64) (isBulk : quantum.class' = .bulk) :
    flowBytes flowId [quantum] = if quantum.flowId = flowId then quantum.bytes else 0 := by
  by_cases same : quantum.flowId = flowId <;> simp [flowBytes, isBulk, same]

theorem flowBytes_latency (flowId : UInt64)
    (isLatency : quantum.class' = .latency) : flowBytes flowId [quantum] = 0 := by
  simp [flowBytes, isLatency]

theorem Turn.paid (turn : Turn limits view flowId served after) (other : UInt64) :
    flowBytes other served.toList + after.deficit other ≤
      view.deficit other + limits.bulkDrrQuantumBytes * [flowId].count other := by
  cases turn with
  | miss front short =>
    by_cases same : other = flowId
    · subst same
      simp [BulkView.miss, SchedulerLimits.raised, flowBytes]
    · simp [BulkView.miss, Function.update_of_ne same, flowBytes]
  | @serve quantum ring cursor behind left front isBulk trains serves bytes cells =>
  rw [Option.toList_some, flowBytes_single other isBulk]
  simp only [BulkView.serve]
  by_cases same : other = quantum.flowId
  · subst same
    have raised : limits.raised (view.deficit quantum.flowId) ≤
        view.deficit quantum.flowId + limits.bulkDrrQuantumBytes := min_le_left _ _
    have within : quantum.bytes ≤ limits.raised (view.deficit quantum.flowId) :=
      bytes.trans (min_le_left _ _)
    simp only [if_true, Function.update_self, count_singleton_self, mul_one]
    split <;> omega
  · simp [Function.update_of_ne same, Ne.symm same]

theorem Turns.paid (turns : Turns limits view visited served after) (other : UInt64) :
    flowBytes other served.toList + after.deficit other ≤
      view.deficit other + limits.bulkDrrQuantumBytes * visited.count other := by
  induction turns with
  | stop view => simp [flowBytes]
  | serve turn => exact turn.paid other
  | @miss view mid after flowId visited served turn onward ih =>
  have first := turn.paid other
  have count : (flowId :: visited).count other = [flowId].count other + visited.count other := by
    rw [← singleton_append, count_append]
  have nothing : flowBytes other (none : Option CellQuantum).toList = 0 := rfl
  rw [count, Nat.mul_add]
  omega

theorem Rearranges.deficit_le (rearranges : Rearranges view after) (other : UInt64) :
    after.deficit other ≤ view.deficit other := by
  cases rearranges with
  | shrink shrinks =>
    rw [shrinks.deficit]
    split
    · exact Nat.zero_le _
    · exact le_rfl
  | join => exact le_rfl

theorem quantaOf_work (work : Option ScheduledWork) : quantaOf (work.toList.map .work) =
      match work with
      | some (.cells quantum) => [quantum]
      | _ => [] := by
  cases work with
  | none => rfl
  | some work => cases work <;> rfl

theorem Effect.paid (effect : Effect s t visited seen) (other : UInt64) :
    flowBytes other (quantaOf seen) + t.bulkView.deficit other ≤
      s.bulkView.deficit other + s.limits.bulkDrrQuantumBytes * visited.count other := by
  have nothing : flowBytes other [] = 0 := rfl
  cases effect with
  | pop popped =>
    rw [quantaOf_work]
    cases popped with
    | control front view burst => simp [view, nothing]
    | latency quiet waiting calm view served =>
      simp [view, flowBytes_latency other served.isLatency]
    | bulk quiet turn turns most => exact turns.paid other
    | forced quiet force turns all served =>
      have paid := turns.paid other
      simp only [Option.toList_none, nothing] at paid
      simpa [flowBytes_latency other served.isLatency] using paid
    | @rest _ work quiet idle turns all burst probe =>
      have paid := turns.paid other
      subst probe
      cases s.probes <;> simpa [nothing] using paid
  | other rearranges burst silent =>
    have shrunk := rearranges.deficit_le other
    change flowBytes other (seen.filterMap SchedulerEvent.quantum?) + _ ≤ _
    rw [silent, nothing]
    simpa using shrunk

theorem visits_paid (calls : List (Instant × SchedulerCall)) (sound : Sound limits s)
    (other : UInt64) : ∃ seen t, s.observe calls = .ok (seen, t) ∧
      flowBytes other (quantaOf seen) + t.bulkView.deficit other ≤
        s.bulkView.deficit other + limits.bulkDrrQuantumBytes * (s.visits calls).count other := by
  induction calls generalizing s with
  | nil => exact ⟨[], s, rfl, by simp [quantaOf, flowBytes]⟩
  | cons next rest ih =>
  obtain ⟨now, call⟩ := next
  obtain ⟨seen, t, performed, called, kept, effect⟩ := call_effect sound now call
  obtain ⟨later, u, observed, paid⟩ := ih kept
  have first := effect.paid other
  rw [sound.drrQuantum] at first
  refine ⟨seen ++ later, u, ?_, ?_⟩
  · simp only [observe, performed, ok_bind, observed]
  · simp only [visits, called, count_append, quantaOf_append, flowBytes_append, Nat.mul_add]
    omega

/-! ### The size of a quantum -/

theorem Turns.bounds (turns : Turns limits view visited served after)
    (isServed : served = some quantum) : quantum.class' = .bulk ∧
      quantum.bytes ≤ limits.maximumQuantumBytes ∧
      quantum.cells.length ≤ limits.maximumQuantumCells := by
  induction turns with
  | stop view => cases isServed
  | serve turn =>
    obtain rfl := Option.some.inj isServed
    cases turn with
    | serve front isBulk trains serves bytes cells =>
      exact ⟨isBulk, bytes.trans (min_le_right _ _), cells⟩
  | miss turn onward ih => exact ih isServed

theorem pop_bulk_bounds {now : Instant} (sound : Sound limits s)
    (popped : s.pop now = .ok (some (.cells quantum), t)) (isBulk : quantum.class' = .bulk) :
    quantum.bytes ≤ s.limits.maximumQuantumBytes ∧
      quantum.cells.length ≤ s.limits.maximumQuantumCells := by
  obtain ⟨effect, -⟩ := pop_popped sound popped
  generalize s.popVisits now = visited, isWork : some (ScheduledWork.cells quantum) = work at effect
  cases effect with
  | control front view burst => cases isWork
  | latency quiet waiting calm view served =>
    obtain ⟨rfl⟩ := isWork
    rw [served.isLatency] at isBulk
    cases isBulk
  | bulk quiet turn turns most =>
    obtain ⟨rfl⟩ := isWork
    exact (turns.bounds rfl).2
  | forced quiet force turns all served =>
    obtain ⟨rfl⟩ := isWork
    rw [served.isLatency] at isBulk
    cases isBulk
  | rest quiet idle turns all burst probe =>
    rw [← isWork] at probe
    cases probes : s.probes <;> simp [probes] at probe

end

/-- Fairness of a run of calls. Two flows that stay backlogged are visited equally often, up to one
visit. A flow that had no trains sends at most the quantum for each of its visits, and a Bulk
quantum is within the limits. -/
structure DrrFair (limits : SchedulerLimits) (s : V2Scheduler)
    (calls : List (Instant × SchedulerCall)) : Prop where
  visits : ∀ a b, s.StaysBacklogged calls a → s.StaysBacklogged calls b →
    (s.visits calls).count a ≤ (s.visits calls).count b + 1
  paid : ∃ seen t, s.observe calls = .ok (seen, t) ∧ ∀ flowId, flowTrains s.bulk flowId = [] →
    flowBytes flowId (quantaOf seen) ≤
      limits.bulkDrrQuantumBytes * (s.visits calls).count flowId
  bounded : ∀ now quantum t, s.pop now = .ok (some (.cells quantum), t) → quantum.class' = .bulk →
    quantum.bytes ≤ limits.maximumQuantumBytes ∧
      quantum.cells.length ≤ s.limits.maximumQuantumCells

/-- The round robin is fair from any state of any run. -/
theorem drr_fairness (limits : SchedulerLimits) (s t : V2Scheduler)
    (made : new limits = .ok s) (earlier later : List (Instant × SchedulerCall))
    (ran : s.run earlier = .ok t) : DrrFair limits t later := by
  have sound := run_sound (new_sound made) earlier ran
  refine ⟨?_, ?_, ?_⟩
  · intro a b staysA staysB
    by_cases same : a = b
    · subst same
      exact Nat.le_succ _
    · obtain ⟨u, -, balanced⟩ := visits_lead sound same staysA staysB
      have one : lead a b t.bulkView.ring ≤ 1 := lead_le_one
      omega
  · obtain ⟨seen, u, observed, -⟩ := visits_paid later sound 0
    refine ⟨seen, u, observed, fun flowId idle => ?_⟩
    obtain ⟨_, _, again, paid⟩ := visits_paid later sound flowId
    obtain ⟨rfl, rfl⟩ := ok_pair_inj (observed.symm.trans again)
    have start := sound.accounting.view.idle flowId idle
    omega
  · intro now quantum u popped isBulk
    have bounds := pop_bulk_bounds sound popped isBulk
    rw [sound.quantumBytes] at bounds
    exact bounds

def twoFlows : List (Instant × SchedulerCall) :=
  [(0, .enqueueForwardedCells 1 [transitCell .bulk 1 4]),
    (0, .enqueueForwardedCells 2 [transitCell .bulk 2 4]), (1, .pop), (2, .pop)]

theorem drr_fairness_two_flows : new {} = .ok { limits := {} } ∧
    DrrFair {} { limits := {} } twoFlows :=
  ⟨rfl, drr_fairness {} _ _ rfl [] twoFlows rfl⟩

/-! ### Bounded starvation -/

/-- How far latency traffic has gone while a flow waits: `emitted` latency bytes, `rounds` forced
rounds that did not serve the flow. -/
structure Waiting (limits : SchedulerLimits) (flowId : UInt64) (s : V2Scheduler)
    (emitted rounds : Nat) : Prop where
  burst : emitted ≤ s.latencyBytesSinceBulk
  emitted : emitted < limits.latencyBurstBytes + (rounds + 1) * limits.maximumQuantumBytes
  paid : rounds * limits.bulkDrrQuantumBytes ≤ s.bulkView.deficit flowId
  short : rounds = 0 ∨ s.bulkView.deficit flowId < limits.maximumQuantumBytes

section
variable {limits : SchedulerLimits} {flowId : UInt64} {visited : List UInt64} {s t : V2Scheduler}
  {emitted rounds : Nat}

theorem latencyBytes_single (isLatency : quantum.class' = .latency) :
    latencyBytes [quantum] = quantum.bytes := by
  simp [latencyBytes, isLatency]

/-- A flow that is short in a round collects the quantum of the round, and stays below a quantum. -/
theorem missed_round (sound : Sound limits s) (backlogged : flowTrains s.bulk flowId ≠ [])
    (turns : Turns s.limits s.bulkView visited none t.bulkView)
    (all : visited.length = s.bulkView.ring.length) :
    t.bulkView.deficit flowId = s.bulkView.deficit flowId + limits.bulkDrrQuantumBytes ∧
      t.bulkView.deficit flowId < limits.maximumQuantumBytes := by
  have wellFormed := sound.accounting.view
  have listed : flowId ∈ s.bulkView.ring := (wellFormed.listed flowId).mpr backlogged
  have whole : visited = s.bulkView.ring := (turns.visited_inOrder all.le).eq_of_length all
  obtain ⟨-, shorts⟩ := turns.missed rfl wellFormed.nodup all.le
  obtain ⟨⟨cursor, behind, head, tail, isTrains, isCells, long⟩, raised⟩ :=
    shorts flowId (whole ▸ listed)
  have queued : cursor ∈ s.queues.bulk flowId := by
    change cursor ∈ flowTrains s.bulk flowId
    rw [show flowTrains s.bulk flowId = cursor :: behind from isTrains]
    exact mem_cons_self
  have fits := sound.fit.bulk flowId cursor queued head (isCells ▸ mem_cons_self)
  simp only [SchedulerLimits.budget, SchedulerLimits.raised, sound.quantumBytes,
    sound.drrQuantum] at long raised
  omega

/-- One call keeps the account of a flow that waits. -/
theorem Effect.waiting (effect : Effect s t visited seen)
    (sound : Sound limits s) (before : flowTrains s.bulk flowId ≠ [])
    (after : flowTrains t.bulk flowId ≠ [])
    (noBulk : ∀ quantum ∈ quantaOf seen, quantum.class' = .latency)
    (waiting : Waiting limits flowId s emitted rounds) :
    ∃ rounds, Waiting limits flowId t (emitted + latencyBytes (quantaOf seen)) rounds := by
  obtain ⟨burst, most, paid, short⟩ := waiting
  have nothing : latencyBytes [] = 0 := rfl
  cases effect with
  | pop popped =>
    rw [quantaOf_work] at noBulk ⊢
    cases popped with
    | control front view isBurst =>
      exact ⟨rounds, by rw [isBurst]; exact burst, most, by rw [view]; exact paid,
        by rw [view]; exact short⟩
    | @latency quantum quiet waits calm view served =>
      -- without force the burst is not used up, and one quantum can exceed it
      have listed : s.activeBulk ≠ [] := ne_nil_of_mem
        ((sound.accounting.view.listed flowId).mpr before)
      have below : s.latencyBytesSinceBulk < limits.latencyBurstBytes := by
        simp only [forceBulk, Bool.and_eq_false_iff, Bool.not_eq_false',
          List.isEmpty_iff, listed, waits, false_or, decide_eq_false_iff_not, not_le] at calm
        rw [sound.burst] at calm
        exact calm
      have bytes := served.bytes
      rw [sound.quantumBytes] at bytes
      have isBurst := served.burst
      rw [latencyBytes_single served.isLatency]
      refine ⟨rounds, by omega, ?_, by rw [view]; exact paid, by rw [view]; exact short⟩
      rw [Nat.add_mul]
      omega
    | bulk quiet turn turns most =>
      have isLatency := noBulk _ mem_cons_self
      rw [(turns.bounds rfl).1] at isLatency
      cases isLatency
    | forced quiet force turns all served =>
      obtain ⟨deficit, below⟩ := missed_round sound before turns all
      have bytes := served.bytes
      rw [sound.quantumBytes] at bytes
      have isBurst := served.burst
      rw [latencyBytes_single served.isLatency]
      refine ⟨rounds + 1, by omega, ?_, ?_, .inr below⟩
      · rw [Nat.add_mul (rounds + 1)]
        omega
      · rw [Nat.add_mul, deficit]
        omega
    | rest quiet idle turns all isBurst probe =>
    obtain ⟨deficit, below⟩ := missed_round sound before turns all
    have silent : latencyBytes (match (s.probes.head?.map ScheduledWork.probe) with
        | some (.cells quantum) => [quantum]
        | _ => []) = 0 := by
      cases s.probes <;> rfl
    rw [probe, silent]
    exact ⟨rounds, by rw [isBurst]; exact burst, most, by omega, .inr below⟩
  | other rearranges isBurst silent =>
  have same : t.bulkView.deficit flowId = s.bulkView.deficit flowId := by
    generalize s.bulkView = view, isAfter : t.bulkView = behind at rearranges
    cases rearranges with
    | shrink shrinks =>
      rw [shrinks.deficit, if_neg]
      rw [← isAfter]
      exact after
    | join => rfl
  have noQuantum : latencyBytes (quantaOf seen) = 0 := by
    unfold quantaOf
    rw [silent, nothing]
  rw [noQuantum]
  exact ⟨rounds, by rw [isBurst]; exact burst, most, by rw [same]; exact paid,
    by rw [same]; exact short⟩

theorem observe_waiting (sound : Sound limits s) (stays : s.StaysBacklogged calls flowId)
    (observed : s.observe calls = .ok (seen, t))
    (noBulk : ∀ quantum ∈ quantaOf seen, quantum.class' = .latency)
    (waiting : Waiting limits flowId s emitted rounds) :
    ∃ rounds, Waiting limits flowId t (emitted + latencyBytes (quantaOf seen)) rounds := by
  induction calls generalizing s seen emitted rounds with
  | nil =>
    obtain ⟨rfl, rfl⟩ := ok_pair_inj observed
    exact ⟨rounds, waiting⟩
  | cons next rest ih =>
  obtain ⟨now, call⟩ := next
  obtain ⟨first, u, performed, called, kept, effect⟩ := call_effect sound now call
  simp only [observe, performed, ok_bind, do_eq_ok] at observed
  obtain ⟨⟨later, v⟩, onward, observed⟩ := observed
  obtain ⟨rfl, rfl⟩ := Prod.mk.inj observed
  have next := StaysBacklogged.next called stays
  rw [quantaOf_append] at noBulk ⊢
  obtain ⟨rounds, between⟩ := effect.waiting sound (StaysBacklogged.start stays)
    (StaysBacklogged.start next) (fun quantum member => noBulk quantum
      (mem_append_left _ member)) waiting
  obtain ⟨rounds, final⟩ := ih kept next onward (fun quantum member => noBulk quantum
    (mem_append_right _ member)) between
  refine ⟨rounds, ?_⟩
  rw [latencyBytes_append, ← Nat.add_assoc]
  exact final

end

/-- While a Bulk flow stays backlogged, the latency bytes before the next Bulk quantum are bounded,
from any state of any run and whatever arrives meanwhile. -/
theorem bulk_starvation_bounded (limits : SchedulerLimits) (s t u : V2Scheduler)
    (made : new limits = .ok s) (earlier later : List (Instant × SchedulerCall))
    (ran : s.run earlier = .ok t) (flowId : UInt64) (stays : t.StaysBacklogged later flowId)
    (seen : List SchedulerEvent) (observed : t.observe later = .ok (seen, u))
    (noBulk : ∀ quantum ∈ quantaOf seen, quantum.class' = .latency) :
    latencyBytes (quantaOf seen) < limits.latencyBurstBytes +
      ((limits.maximumQuantumBytes + limits.bulkDrrQuantumBytes - 1) / limits.bulkDrrQuantumBytes
        + 1) * limits.maximumQuantumBytes := by
  have sound := run_sound (new_sound made) earlier ran
  have positive : 0 < limits.bulkDrrQuantumBytes ∧ 0 < limits.maximumQuantumBytes := by
    simp only [new, SchedulerLimits.validate, do_eq_ok] at made
    omega
  have start : Waiting limits flowId t 0 0 :=
    ⟨Nat.zero_le _, by omega, by omega, .inl rfl⟩
  obtain ⟨rounds, bound, most, paid, short⟩ := observe_waiting sound stays observed noBulk start
  rw [Nat.zero_add] at most
  -- the deficit pays for the rounds, so there are at most `ceil(Q / q)` of them
  have few : rounds ≤
      (limits.maximumQuantumBytes + limits.bulkDrrQuantumBytes - 1) /
        limits.bulkDrrQuantumBytes := by
    rw [Nat.le_div_iff_mul_le positive.1]
    rcases short with rfl | below
    · omega
    · omega
  calc latencyBytes (quantaOf seen)
      < limits.latencyBurstBytes + (rounds + 1) * limits.maximumQuantumBytes := most
    _ ≤ _ := by gcongr

/-- A quantum of 40 bytes costs a Bulk flow two rounds. -/
def slowShare : SchedulerLimits where
  latencyBurstBytes := 80
  bulkDrrQuantumBytes := 20
  maximumQuantumBytes := 40

def latencyBesideBulk : List (Instant × SchedulerCall) :=
  [(0, .enqueueForwardedCells 1 [transitCell .bulk 1 4]),
    (0, .enqueueForwardedCells 2 (List.replicate 5 (transitCell .latency 2 4)))]

def besideBulk : V2Scheduler :=
  (run { limits := slowShare } latencyBesideBulk).toOption.getD { limits := slowShare }

def threePops : List (Instant × SchedulerCall) := [(1, .pop), (2, .pop), (3, .pop)]

def besideBulkPops : List SchedulerEvent × V2Scheduler :=
  (besideBulk.observe threePops).toOption.getD ([], besideBulk)

theorem besideBulk_reached : run { limits := slowShare } latencyBesideBulk = .ok besideBulk :=
  eq_ok_getD _ (by decide +kernel)

theorem besideBulkPops_observed : besideBulk.observe threePops = .ok besideBulkPops :=
  eq_ok_getD _ (by decide +kernel)

theorem threePops_backlogged : besideBulk.StaysBacklogged threePops 1 := by
  have each : ∀ front ∈ threePops.inits, (besideBulk.run front).toOption.any fun t =>
      flowTrains t.bulk 1 ≠ [] := by decide +kernel
  intro front isFront
  have found := each front ((mem_inits _ _).mpr isFront)
  cases ran : besideBulk.run front with
  | error panic => simp [ran, Except.toOption] at found
  | ok t => exact ⟨t, rfl, by simpa [ran, Except.toOption] using found⟩

/-- Two Cells of the burst and one for which the deficit was too short come before the Bulk
quantum. -/
theorem bulk_starvation_bounded_slow : latencyBytes (quantaOf besideBulkPops.1) = 120 ∧
    latencyBytes (quantaOf besideBulkPops.1) < 80 + ((40 + 20 - 1) / 20 + 1) * 40 :=
  ⟨by decide +kernel, bulk_starvation_bounded slowShare { limits := slowShare } besideBulk
    besideBulkPops.2 rfl latencyBesideBulk threePops besideBulk_reached 1 threePops_backlogged
    besideBulkPops.1 besideBulkPops_observed (by decide +kernel)⟩

end Ironet.Scheduler
