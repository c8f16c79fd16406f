import Ironet.Scheduler.Observe

/-!
# What a refused admission leaves behind

A refused train should leave the scheduler as it was, but for the count of rejected bytes. Latency
admission evicts Bulk trains before it knows whether the train will be accepted, and does not
put them back. This module says exactly when a refusal has that effect.
-/
namespace Ironet.Scheduler
open Support Cell Train V2Scheduler

/-- The three calls that offer a train. -/
inductive TrainOffer where
  | train (flowId : UInt64) (train : PacketTrain) (maximumDatagramSize : Nat)
      (deadline : Option Instant) (priority : Bool)
  | encoded (flowId : UInt64) (class' : TrafficClass) (trainId : UInt64) (cells : List Bytes)
      (stats : Option TrainBuildStats) (deadline : Option Instant) (priority : Bool)
  | forwarded (flowId : UInt64) (cells : List Bytes)
  deriving DecidableEq

variable (s : V2Scheduler) (now : Instant)

def V2Scheduler.enqueueOffer : TrainOffer → Outcome Bool
  | .train flowId train maximum deadline priority =>
    s.enqueueTrainWithScheduling now flowId train maximum deadline priority
  | .encoded flowId class' trainId cells stats deadline priority =>
    s.enqueueEncodedTrainWithScheduling now flowId class' trainId cells stats deadline priority
  | .forwarded flowId cells => s.enqueueForwardedCells now flowId cells

def TrainOffer.cursor (now : Instant) : TrainOffer → Except String TrainCursor
  | .train flowId packets maximum deadline priority => do
    ensure (flowId ≠ 0) "V2 flow ID zero is reserved"
    SchedulerCall.cursor now (.enqueueTrainWithScheduling flowId packets maximum deadline priority)
  | .encoded flowId class' trainId cells stats deadline priority => do
    ensure (flowId ≠ 0) "V2 flow ID zero is reserved"
    SchedulerCall.cursor now
      (.enqueueEncodedTrainWithScheduling flowId class' trainId cells stats deadline priority)
  | .forwarded flowId cells => do
    ensure (flowId ≠ 0) "V2 flow ID zero is reserved"
    SchedulerCall.cursor now (.enqueueForwardedCells flowId cells)

/-- Nothing but the count of rejected bytes differs. -/
def OnlyRejected (s t : V2Scheduler) : Prop :=
  ∃ rejectedBytes, t = { s with stats := { s.stats with rejectedBytes } }

/-- A flow whose newest train can be evicted without falling below the reserve. -/
def V2Scheduler.isElastic (flowId : UInt64) : Bool :=
  (flowTrains s.bulk flowId).getLast?.any fun newest =>
    s.limits.bulkReserveBytes ≤ s.depth.bulkBytes - newest.bytes

/-- A latency train within its class limit that finds the application budget used up and a Bulk
train to evict. -/
def V2Scheduler.displaces (cursor : TrainCursor) : Bool :=
  cursor.class' = .latency &&
  (cursor.cells.all fun cell => cell.len ≤ s.limits.maximumQuantumBytes) &&
  decide (cursor.bytes ≤ s.limits.latencyBytes) &&
  decide (s.limits.applicationBytes - s.depth.bulkBytes < s.depth.latencyBytes + cursor.bytes) &&
  s.activeBulk.any s.isElastic

def V2Scheduler.displacesOffer (offer : TrainOffer) : Bool :=
  (offer.cursor now).toOption.any s.displaces

variable (s : V2Scheduler)

theorem OnlyRejected.refl : OnlyRejected s s := ⟨s.stats.rejectedBytes, rfl⟩

theorem OnlyRejected.reject (bytes : Nat) : OnlyRejected s (s.reject bytes) :=
  ⟨s.stats.rejectedBytes + bytes, rfl⟩

/-! ### Eviction -/

variable {s t : V2Scheduler}

theorem evictTrain_fewer {flowId : UInt64} {flow : BulkFlow}
    {kept : List TrainCursor} {removed : TrainCursor}
    (evicted : s.evictTrain flowId flow kept removed = .ok t) :
    t.depth.bulkTrains < s.depth.bulkTrains := by
  simp only [evictTrain, bind_eq_ok, subtract_eq_ok] at evicted
  obtain ⟨bulkBytes, -, bulkTrains, ⟨atLeast, rfl⟩, evicted⟩ := evicted
  split at evicted
  · simp only [do_eq_ok] at evicted
    obtain ⟨bulkFlows, -, rfl⟩ := evicted
    dsimp only
    omega
  · obtain rfl := Except.ok.inj evicted
    dsimp only
    omega

theorem evictable_isSome (flowId : UInt64) : (s.evictable flowId).isSome = s.isElastic flowId := by
  unfold evictable isElastic flowTrains
  cases s.bulk.lookup flowId with
  | none => rfl
  | some flow =>
    simp only [Option.bind_eq_bind, Option.bind_some, Option.map_some, Option.getD_some]
    cases flow.trains.getLast? with
    | none => rfl
    | some newest =>
      simp only [Option.bind_some, Option.any_some]
      split <;> simp <;> omega

/-- Eviction succeeds exactly if some flow is elastic, and otherwise changes nothing. -/
theorem evictFrom_eq_ok {flowIds : List UInt64} {evicted : Bool}
    (ran : s.evictFrom flowIds = .ok (evicted, t)) :
    evicted = flowIds.any s.isElastic ∧ (evicted = false → t = s) ∧
      (evicted = true → t.depth.bulkTrains < s.depth.bulkTrains) := by
  have elastic : (flowIds.findSome? s.evictable).isSome = flowIds.any s.isElastic := by
    rw [List.isSome_findSome?]
    simp only [evictable_isSome]
  rw [evictFrom_eq] at ran
  cases first : flowIds.findSome? s.evictable with
  | none =>
    rw [first] at ran elastic
    obtain ⟨rfl, rfl⟩ := ok_pair_inj ran
    exact ⟨elastic, fun _ => rfl, fun wrong => by cases wrong⟩
  | some entry =>
    simp only [first, do_eq_ok] at ran
    rw [first] at elastic
    obtain ⟨u, removed, ran⟩ := ran
    obtain ⟨rfl, rfl⟩ := Prod.mk.inj ran
    exact ⟨elastic, (fun wrong => by cases wrong), fun _ => evictTrain_fewer removed⟩

variable {bytes fuel : Nat} {fits : Bool}

theorem evictUntilFits_fewer (ran : evictUntilFits bytes fuel s = .ok (fits, t)) :
    t.depth.bulkTrains ≤ s.depth.bulkTrains :=
  evictUntilFits_induction (fun u => u.depth.bulkTrains ≤ s.depth.bulkTrains)
    (fun fewer _ _ evicted => (evictTrain_fewer evicted).le.trans fewer) le_rfl ran

/-- Making room changes the state exactly if room is short and a flow is elastic. -/
theorem evictUntilFits_displaces (ran : evictUntilFits bytes (fuel + 1) s = .ok (fits, t)) :
    if s.limits.applicationBytes - s.depth.bulkBytes < s.depth.latencyBytes + bytes ∧
        s.activeBulk.any s.isElastic = true then
      t.depth.bulkTrains < s.depth.bulkTrains
    else t = s := by
  unfold evictUntilFits at ran
  split at ran
  · rename_i short
    simp only [bind_eq_ok] at ran
    obtain ⟨⟨evicted, u⟩, first, ran⟩ := ran
    obtain ⟨isElastic, kept, fewer⟩ := evictFrom_eq_ok first
    rw [List.any_reverse] at isElastic
    rw [← isElastic]
    cases evicted with
    | true =>
      rw [if_pos ⟨short, rfl⟩]
      exact (evictUntilFits_fewer ran).trans_lt (fewer rfl)
    | false =>
      obtain ⟨rfl, rfl⟩ := ok_pair_inj ran
      rw [if_neg (by simp)]
      exact kept rfl
  · rename_i room
    obtain ⟨rfl, rfl⟩ := ok_pair_inj ran
    rw [if_neg (by simp [room])]

/-! ### Refusals -/

variable {cursor : TrainCursor}

theorem enqueueLatency_refused (isLatency : cursor.class' = .latency)
    (fit : (cursor.cells.all fun cell => cell.len ≤ s.limits.maximumQuantumBytes) = true)
    (ran : s.enqueueLatency cursor = .ok (false, t)) :
    OnlyRejected s t ↔ s.displaces cursor = false := by
  unfold enqueueLatency at ran
  dsimp only at ran
  split at ran
  · rename_i large
    obtain ⟨-, rfl⟩ := ok_pair_inj ran
    simp [displaces, large, OnlyRejected.reject]
  rename_i small
  simp only [bind_eq_ok] at ran
  obtain ⟨⟨fits, u⟩, made, ran⟩ := ran
  have refused : t = u.reject cursor.bytes := by
    split_ifs at ran
    · exact (ok_pair_inj ran).2.symm
    · exact (ok_pair_inj ran).2.symm
    · cases (ok_pair_inj ran).1
  have room := evictUntilFits_displaces made
  have displaces : s.displaces cursor = decide
      (s.limits.applicationBytes - s.depth.bulkBytes < s.depth.latencyBytes + cursor.bytes ∧
        s.activeBulk.any s.isElastic = true) := by
    unfold displaces
    rw [fit, decide_eq_true (not_lt.mp small), Bool.decide_and, Bool.decide_eq_true]
    simp [isLatency]
  rw [displaces, decide_eq_false_iff_not, refused]
  split at room
  · rename_i evicting
    -- an evicted train is gone, whatever else happened
    refine iff_of_false ?_ (not_not.mpr evicting)
    rintro ⟨rejectedBytes, same⟩
    have trains := congrArg (fun state => state.depth.bulkTrains) same
    simp only [reject] at trains
    omega
  · rename_i quiet
    rw [room]
    exact iff_of_true (.reject s _) quiet

theorem enqueueCursor_refused {result : Except String Bool}
    (ran : s.enqueueCursor cursor = .ok (result, t)) (refused : result ≠ .ok true) :
    OnlyRejected s t ↔ s.displaces cursor = false := by
  unfold enqueueCursor at ran
  split at ran
  · rename_i fit
    split at ran
    · rename_i isLatency
      cases enqueued : s.enqueueLatency cursor with
      | error panic =>
        rw [enqueued] at ran
        cases ran
      | ok outcome =>
      rw [enqueued] at ran
      obtain ⟨accepted, u⟩ := outcome
      obtain ⟨rfl, rfl⟩ := ok_pair_inj ran
      cases accepted with
      | true => exact absurd rfl refused
      | false => exact enqueueLatency_refused isLatency fit enqueued
    rename_i isBulk
    have quiet : s.displaces cursor = false := by simp [displaces, isBulk]
    refine iff_of_true ?_ quiet
    unfold enqueueBulk at ran
    dsimp only at ran
    split at ran
    · obtain ⟨rfl, rfl⟩ := ok_pair_inj ran
      exact .reject s _
    · obtain ⟨rfl, rfl⟩ := ok_pair_inj ran
      exact absurd rfl refused
  rename_i large
  obtain ⟨rfl, rfl⟩ := ok_pair_inj ran
  refine iff_of_true (.refl s) ?_
  unfold displaces
  simp [large]

theorem enqueueOffer_eq (offer : TrainOffer) :
    s.enqueueOffer now offer = match offer.cursor now with
      | .error message => .ok (.error message, s)
      | .ok cursor => s.enqueueCursor cursor := by
  cases offer with
  | train => rfl
  | encoded => rfl
  | forwarded => rfl

/-- A refused train leaves everything but the count of rejected bytes as it was exactly if it is not
a latency train that makes eviction start: one whose Cells fit, that is within the latency limit,
for which the application budget has no room, with a Bulk train above the reserve. -/
theorem refused_offer_unchanged_iff (limits : SchedulerLimits) (s t : V2Scheduler)
    (made : new limits = .ok s) (calls : List (Instant × SchedulerCall))
    (ran : s.run calls = .ok t) (now : Instant) (offer : TrainOffer) :
    ∃ result u, t.enqueueOffer now offer = .ok (result, u) ∧
      (result ≠ .ok true → (OnlyRejected t u ↔ t.displacesOffer now offer = false)) := by
  obtain ⟨_, again, valid⟩ := scheduler_accounting limits s made calls
  obtain rfl := Except.ok.inj (ran.symm.trans again)
  rw [enqueueOffer_eq]
  unfold displacesOffer
  cases built : offer.cursor now with
  | error message => exact ⟨_, _, rfl, fun _ => iff_of_true (.refl t) rfl⟩
  | ok cursor =>
  have accounted : cursor.Accounted := by
    cases offer <;>
    · simp only [TrainOffer.cursor, do_eq_ok] at built
      exact SchedulerCall.cursor_accounted built.2
  obtain ⟨⟨result, u⟩, enqueued, -⟩ := enqueueCursor_enters cursor valid accounted
  exact ⟨result, u, enqueued, enqueueCursor_refused enqueued⟩

/-! ### A refusal that costs two Bulk trains -/

def latencyOffer : TrainOffer := .forwarded 9 (List.replicate 3 (transitCell .latency 7 4))

/-- Two trains are evicted for it, the third is kept by the reserve, and the train is refused. -/
theorem refused_latency_evicts : new tightLimits = .ok { limits := tightLimits } ∧
    ((run { limits := tightLimits } fullOfBulk).toOption.map fun s =>
      (s.activeBulk, s.depth.bulkTrains, s.depth.bulkBytes)) = some ([1, 2, 3], 3, 120) ∧
    ((run { limits := tightLimits } fullOfBulk >>= fun s =>
      s.enqueueOffer 0 latencyOffer).toOption.map fun (result, u) =>
      (result.toOption, u.activeBulk, u.depth.bulkTrains, u.stats.bulkEvictedBytes)) =
        some (some false, [1], 1, 80) :=
  ⟨rfl, by decide +kernel, by decide +kernel⟩

def largeOffer : TrainOffer := .forwarded 9 (List.replicate 4 (transitCell .latency 7 4))

def fullScheduler : V2Scheduler :=
  (run { limits := tightLimits } fullOfBulk).toOption.getD { limits := tightLimits }

/-- Beside these Bulk trains a latency train above the latency limit costs nothing, and the one
within it costs trains. -/
theorem refused_offer_unchanged_iff_full :
    run { limits := tightLimits } fullOfBulk = .ok fullScheduler ∧
      ∀ offer ∈ [largeOffer, latencyOffer], ∃ result u,
        fullScheduler.enqueueOffer 0 offer = .ok (result, u) ∧ result ≠ .ok true ∧
          (OnlyRejected fullScheduler u ↔ offer = largeOffer) := by
  have ran : run { limits := tightLimits } fullOfBulk = .ok fullScheduler :=
    eq_ok_getD _ (by decide +kernel)
  have refused : ∀ offer ∈ [largeOffer, latencyOffer],
      (fullScheduler.enqueueOffer 0 offer).toOption.map
        (fun answer => answer.1.toOption) = some (some false) ∧
      (fullScheduler.displacesOffer 0 offer = false ↔ offer = largeOffer) := by decide +kernel
  refine ⟨ran, fun offer isOffer => ?_⟩
  obtain ⟨result, u, offered, kept⟩ :=
    refused_offer_unchanged_iff tightLimits _ _ rfl fullOfBulk ran 0 offer
  obtain ⟨answer, displaces⟩ := refused offer isOffer
  rw [offered] at answer
  have failed : result ≠ .ok true := by
    rintro rfl
    simp [Except.toOption] at answer
  exact ⟨result, u, offered, failed, (kept failed).trans displaces⟩

end Ironet.Scheduler
