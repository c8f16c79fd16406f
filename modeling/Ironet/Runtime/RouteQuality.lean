import Ironet.Routing.Snapshot
import Ironet.Support.SlidingMaximum

/-!
# Measured route capacity

`RouteQualityTableV2` in `v2_runtime/route_selection.rs` keeps, for the epoch of the latest
feedback, a window of delivery rates for each route label. Times are nanoseconds. The window of one
label is a sliding maximum over 30 seconds while it holds at most 64 samples; feedback of another
epoch empties the table.
-/
namespace Ironet.Runtime
open Support Routing

def routeCapacityWindow : Nat := 30000000000
def maxRouteCapacitySamples : Nat := 64

structure RouteDeliveryFeedbackV2 where
  sequence : Nat
  routeEpoch : UInt32
  routeLabel : RouteLabelV2
  deliveredPayloadBytes : Nat
  intervalMicros : Nat

/-- A call of `observe_at`. -/
structure Observation extends RouteDeliveryFeedbackV2 where
  now : Nat

structure RouteCapacitySampleV2 where
  capacityBps : Nat
  observedAt : Nat

structure RouteCapacityWindowV2 where
  lastSequence : Nat := 0
  maxima : List RouteCapacitySampleV2 := []

structure RouteQualityTableV2 where
  activeEpoch : UInt32 := 0
  samples : HashMap RouteLabelV2 RouteCapacityWindowV2 := ∅

def RouteDeliveryFeedbackV2.deliveryRateBps (self : RouteDeliveryFeedbackV2) : Nat :=
  min (self.deliveredPayloadBytes * 8000000 / self.intervalMicros) (2 ^ 64 - 1)

def Observation.sample (self : Observation) : RouteCapacitySampleV2 :=
  ⟨self.deliveryRateBps, self.now⟩

def expired (now : Nat) (sample : RouteCapacitySampleV2) : Bool :=
  tooOld RouteCapacitySampleV2.observedAt routeCapacityWindow now sample

def pruneCapacitySamples (samples : List RouteCapacitySampleV2) (now : Nat) :
    List RouteCapacitySampleV2 :=
  samples.dropWhile (expired now)

namespace RouteCapacityWindowV2

variable (self : RouteCapacityWindowV2)

/-- The samples that are neither too old nor below the new one. -/
def undominated (feedback : Observation) : List RouteCapacitySampleV2 :=
  (pruneCapacitySamples self.maxima feedback.now).rdropWhile fun sample =>
    decide (sample.capacityBps ≤ feedback.deliveryRateBps)

def observe (feedback : Observation) : RouteCapacityWindowV2 :=
  if feedback.sequence ≤ self.lastSequence then self
  else
    let maxima := self.undominated feedback ++ [feedback.sample]
    ⟨feedback.sequence, maxima.drop (maxima.length - maxRouteCapacitySamples)⟩

def endToEndBps (now : Nat) : Nat :=
  ((pruneCapacitySamples self.maxima now).head?.map RouteCapacitySampleV2.capacityBps).getD 0

/-- No call of a run finds 64 samples that stay beside its own. -/
def roomy (self : RouteCapacityWindowV2) : List Observation → Bool
  | [] => true
  | feedback :: rest =>
    (decide (feedback.sequence ≤ self.lastSequence) ||
      decide ((self.undominated feedback).length < maxRouteCapacitySamples)) &&
    (self.observe feedback).roomy rest

end RouteCapacityWindowV2

def combine (firstHopBps endToEndBps : Nat) : Nat :=
  match firstHopBps, endToEndBps with
  | 0, endToEnd => endToEnd
  | firstHop, 0 => firstHop
  | firstHop, endToEnd => min firstHop endToEnd

namespace RouteQualityTableV2

def observeAt (self : RouteQualityTableV2) (feedback : Observation) : RouteQualityTableV2 :=
  let samples := if self.activeEpoch ≠ feedback.routeEpoch then ∅ else self.samples
  let samples := if maxRouteLabels ≤ samples.size ∧ samples.lookup feedback.routeLabel = none
    then ∅ else samples
  let window := (samples.lookup feedback.routeLabel).getD {}
  ⟨feedback.routeEpoch, samples.insert feedback.routeLabel (window.observe feedback)⟩

/-- The capacity and the table with the samples that were too old removed. -/
def effectiveCapacityBpsAt (self : RouteQualityTableV2) (route : ResolvedRouteV2)
    (firstHopBps now : Nat) : Nat × RouteQualityTableV2 :=
  if self.activeEpoch ≠ route.routeEpoch then (firstHopBps, self)
  else
    match self.samples.lookup route.routeLabel with
    | none => (combine firstHopBps 0, self)
    | some window =>
      (combine firstHopBps (window.endToEndBps now), { self with
        samples := self.samples.insert route.routeLabel
          { window with maxima := pruneCapacitySamples window.maxima now } })

/-- The table after these calls of `observe_at`. -/
def after (calls : List Observation) : RouteQualityTableV2 :=
  calls.foldl observeAt {}

/-- The capacity that is read after these calls. -/
def capacityAfter (calls : List Observation) (route : ResolvedRouteV2) (firstHopBps now : Nat) :
    Nat :=
  ((after calls).effectiveCapacityBpsAt route firstHopBps now).1

end RouteQualityTableV2

open RouteQualityTableV2

/-! ### One label -/

/-- The calls of a list whose sequence number is above all before it. -/
def accepted (last : Nat) : List Observation → List Observation
  | [] => []
  | feedback :: rest =>
    if feedback.sequence ≤ last then accepted last rest
    else feedback :: accepted feedback.sequence rest

/-- The largest delivery rate among the accepted calls that are at most 30 seconds old. -/
def largestRecent (calls : List Observation) (now : Nat) : Nat :=
  ((((accepted 0 calls).map Observation.sample).filter fun sample =>
    !expired now sample).map RouteCapacitySampleV2.capacityBps).foldr max 0

/-- The window keeps the sliding maximum of the samples seen. -/
def Keeps (seen : List RouteCapacitySampleV2) (window : RouteCapacityWindowV2) (now : Nat) : Prop :=
  SlidingMaximum RouteCapacitySampleV2.observedAt RouteCapacitySampleV2.capacityBps
    routeCapacityWindow seen window.maxima now

variable {seen : List RouteCapacitySampleV2} {window : RouteCapacityWindowV2} {now : Nat}

theorem observe_keeps {feedback : Observation} (keeps : Keeps seen window now)
    (passes : now ≤ feedback.now) (last : ∀ sample ∈ seen, sample.observedAt ≤ feedback.now)
    (fresh : ¬feedback.sequence ≤ window.lastSequence)
    (room : (window.undominated feedback).length < maxRouteCapacitySamples) :
    Keeps (seen ++ [feedback.sample]) (window.observe feedback) feedback.now := by
  have pushed := keeps.push passes feedback.sample last
  simp only [RouteCapacityWindowV2.observe, if_neg fresh, Keeps]
  rw [List.length_append, List.length_singleton, Nat.sub_eq_zero_of_le room, List.drop_zero]
  exact pushed

variable {calls : List Observation}

theorem run_keeps (keeps : Keeps seen window now)
    (past : ∀ sample ∈ seen, sample.observedAt ≤ now) (passes : ∀ call ∈ calls, now ≤ call.now)
    (ordered : calls.Pairwise fun left right => left.now ≤ right.now)
    (met : window.roomy calls = true) {later : Nat} (final : ∀ call ∈ calls, call.now ≤ later)
    (ends : now ≤ later) :
    Keeps (seen ++ (accepted window.lastSequence calls).map Observation.sample)
      (calls.foldl RouteCapacityWindowV2.observe window) later := by
  induction calls generalizing seen window now with
  | nil =>
    obtain ⟨sorted, decreasing, real, dominated⟩ := keeps
    simp only [accepted, List.map_nil, List.append_nil, List.foldl_nil]
    exact ⟨sorted, decreasing, real, by grind [tooOld]⟩
  | cons call rest ih =>
    obtain ⟨first, others⟩ := List.pairwise_cons.mp ordered
    simp only [List.forall_mem_cons] at passes final
    simp only [RouteCapacityWindowV2.roomy, Bool.and_eq_true, Bool.or_eq_true,
      decide_eq_true_eq] at met
    obtain ⟨room, met⟩ := met
    rw [accepted, List.foldl_cons]
    split_ifs with replayed
    · -- a replay leaves the window as it is
      rw [RouteCapacityWindowV2.observe, if_pos replayed] at met ⊢
      exact ih keeps past passes.2 others met final.2 ends
    · have step := observe_keeps keeps passes.1 (fun sample member => (past sample member).trans
        passes.1) replayed (room.resolve_left replayed)
      have number : (window.observe call).lastSequence = call.sequence := by
        simp [RouteCapacityWindowV2.observe, replayed]
      have result := ih step (by grind [Observation.sample]) first others met final.2
        final.1
      simpa [number] using result

variable {epoch : UInt32} {route : ResolvedRouteV2}

section
variable
  (one : ∀ call ∈ calls, call.routeEpoch = route.routeEpoch ∧ call.routeLabel = route.routeLabel)
include one

theorem after_lookup (some : calls ≠ []) : (after calls).activeEpoch = route.routeEpoch ∧
      (after calls).samples.lookup route.routeLabel =
        .some (calls.foldl RouteCapacityWindowV2.observe {}) := by
  induction calls using List.reverseRecOn with
  | nil => exact absurd rfl some
  | append_singleton calls call ih =>
    obtain ⟨epoch, label⟩ := one call (by simp)
    have split : after (calls ++ [call]) = (after calls).observeAt call := by simp [after]
    rw [split, List.foldl_append, List.foldl_cons, List.foldl_nil, observeAt, epoch, label]
    refine ⟨rfl, ?_⟩
    rw [AList.lookup_insert]
    by_cases empty : calls = []
    · subst empty
      by_cases zero : 0 = route.routeEpoch <;> simp [after, zero]
    · obtain ⟨active, held⟩ := ih (fun call member => one call (by simp [member])) empty
      simp [active, held]

theorem capacity_of_calls (firstHopBps now : Nat) : capacityAfter calls route firstHopBps now =
      combine firstHopBps ((calls.foldl RouteCapacityWindowV2.observe {}).endToEndBps now) := by
  by_cases empty : calls = []
  · subst empty
    have zero : combine firstHopBps 0 = firstHopBps := by cases firstHopBps <;> rfl
    simp only [capacityAfter, effectiveCapacityBpsAt, after, List.foldl_nil, AList.lookup_empty]
    split_ifs <;> simp [zero, RouteCapacityWindowV2.endToEndBps, pruneCapacitySamples]
  · obtain ⟨active, held⟩ := after_lookup one empty
    simp [capacityAfter, effectiveCapacityBpsAt, active, held]

end

theorem sequence_le_last (window : RouteCapacityWindowV2) (calls : List Observation) :
    window.lastSequence ≤ (calls.foldl RouteCapacityWindowV2.observe window).lastSequence ∧
      ∀ call ∈ calls,
        call.sequence ≤ (calls.foldl RouteCapacityWindowV2.observe window).lastSequence := by
  induction calls generalizing window with
  | nil => simp
  | cons call rest ih =>
    have step : window.lastSequence ≤ (window.observe call).lastSequence ∧
        call.sequence ≤ (window.observe call).lastSequence := by
      grind [RouteCapacityWindowV2.observe]
    obtain ⟨grows, others⟩ := ih (window.observe call)
    simp only [List.foldl_cons, List.forall_mem_cons]
    exact ⟨step.1.trans grows, step.2.trans grows, others⟩

theorem capacity_eq_largestRecent
    (one : ∀ call ∈ calls, call.routeEpoch = route.routeEpoch ∧ call.routeLabel = route.routeLabel)
    (ordered : calls.Pairwise fun left right => left.now ≤ right.now)
    (met : RouteCapacityWindowV2.roomy {} calls = true) {firstHopBps now : Nat}
    (past : ∀ call ∈ calls, call.now ≤ now) :
    capacityAfter calls route firstHopBps now = combine firstHopBps (largestRecent calls now) := by
  have start : Keeps [] {} 0 := ⟨.nil, .nil, by simp, by simp⟩
  have keeps := run_keeps start (by simp) (by simp) ordered met past (Nat.zero_le now)
  rw [capacity_of_calls one]
  exact congrArg _ (keeps.front le_rfl)

/-- While no sample is cut off, the capacity of a route is its first hop's combined with the largest
rate accepted in the last 30 seconds, and a replay does not change it. -/
theorem capacity_is_sliding_maximum (calls : List Observation) (route : ResolvedRouteV2)
    (one : ∀ call ∈ calls, call.routeEpoch = route.routeEpoch ∧ call.routeLabel = route.routeLabel)
    (ordered : calls.Pairwise fun left right => left.now ≤ right.now)
    (met : RouteCapacityWindowV2.roomy {} calls = true) (firstHopBps now : Nat)
    (past : ∀ call ∈ calls, call.now ≤ now) : capacityAfter calls route firstHopBps now =
        combine firstHopBps (largestRecent calls now) ∧
      ∀ replay : Observation, replay.routeEpoch = route.routeEpoch →
        replay.routeLabel = route.routeLabel →
        (∃ call ∈ calls, replay.sequence ≤ call.sequence) →
        capacityAfter (calls ++ [replay]) route firstHopBps now =
          capacityAfter calls route firstHopBps now := by
  refine ⟨capacity_eq_largestRecent one ordered met past, ?_⟩
  rintro replay epoch label ⟨call, member, low⟩
  have old := low.trans ((sequence_le_last {} calls).2 call member)
  rw [capacity_of_calls one, capacity_of_calls, List.foldl_append, List.foldl_cons,
    List.foldl_nil, RouteCapacityWindowV2.observe, if_pos old]
  grind

def measuredRoute : ResolvedRouteV2 := ⟨12, 2, 7, 1382⟩

/-- Feedback for the route in the given epoch. -/
def rateAt (sequence : Nat) (routeEpoch : UInt32) (bytes : Nat) (now : Nat) : Observation :=
  ⟨⟨sequence, routeEpoch, 2, bytes, 1000000⟩, now⟩

theorem capacity_is_sliding_maximum_replay :
    capacityAfter [rateAt 4 7 6250000 0, rateAt 3 7 9000000 1] measuredRoute 100000000 2 =
      50000000 :=
  ((capacity_is_sliding_maximum [rateAt 4 7 6250000 0, rateAt 3 7 9000000 1] measuredRoute
    (by decide) (by decide) (by decide +kernel) 100000000 2 (by decide)).1).trans
    (by decide +kernel)

/-- 65 calls within 65 nanoseconds, each with a lower rate than the one before. -/
def fallingRates : List Observation :=
  (List.range 65).map fun index => rateAt (index + 1) 7 (6500000 - 100000 * index) index

/-- Of 65 falling rates the first, which is the largest, is cut off. -/
theorem falling_rates_lose_maximum :
    capacityAfter fallingRates measuredRoute 100000000 65 = 51200000 ∧
      combine 100000000 (largestRecent fallingRates 65) = 52000000 := by
  decide +kernel

/-! ### Two epochs -/

theorem observeAt_switch {self : RouteQualityTableV2} {call : Observation}
    (other : self.activeEpoch ≠ call.routeEpoch) (nonzero : call.routeEpoch ≠ 0) :
    self.observeAt call = observeAt {} call := by
  simp only [observeAt, if_pos other, if_pos nonzero.symm]

/-- Where another epoch is active, what is in the table does not matter for calls of this one. -/
theorem capacity_after_switch {front : List Observation}
    (other : (after front).activeEpoch ≠ epoch) (nonzero : epoch ≠ 0)
    (one : ∀ call ∈ calls, call.routeEpoch = epoch) (current : route.routeEpoch = epoch)
    (firstHopBps now : Nat) : capacityAfter (front ++ calls) route firstHopBps now =
      capacityAfter calls route firstHopBps now := by
  subst current
  have split : after (front ++ calls) = calls.foldl observeAt (after front) := List.foldl_append
  rw [capacityAfter, capacityAfter, split]
  cases calls with
  | nil =>
    have unused : (after []).activeEpoch ≠ route.routeEpoch := nonzero.symm
    simp [effectiveCapacityBpsAt, other, unused]
  | cons call rest =>
    rw [List.foldl_cons, observeAt_switch (by grind) (by grind)]
    rfl

theorem after_activeEpoch_ne (nonzero : epoch ≠ 0)
    (last : ∀ call ∈ calls.getLast?, call.routeEpoch ≠ epoch) :
    (after calls).activeEpoch ≠ epoch := by
  induction calls using List.reverseRecOn with
  | nil => exact nonzero.symm
  | append_singleton calls call ih =>
    simp only [after, List.foldl_append, List.foldl_cons, List.foldl_nil]
    exact last call (by simp)

/-- Few calls never fill the window. -/
theorem roomy_of_length {window : RouteCapacityWindowV2}
    (few : window.maxima.length + calls.length ≤ maxRouteCapacitySamples) :
    window.roomy calls = true := by
  induction calls generalizing window with
  | nil => rfl
  | cons call rest ih =>
    have kept : (window.undominated call).length ≤ window.maxima.length :=
      (List.rdropWhile_prefix _ _).length_le.trans (List.dropWhile_suffix _).length_le
    rw [List.length_cons] at few
    have next : (window.observe call).maxima.length ≤ window.maxima.length + 1 := by
      unfold RouteCapacityWindowV2.observe
      split_ifs
      · exact Nat.le_succ _
      · simp only [List.length_drop, List.length_append, List.length_singleton]
        omega
    simp only [RouteCapacityWindowV2.roomy, Bool.and_eq_true, Bool.or_eq_true, decide_eq_true_eq]
    exact ⟨.inr (by omega), ih (by omega)⟩

theorem rtakeWhile_eq_filter {calls : List Observation}
    (ordered : calls.Pairwise fun left right => left.routeEpoch = epoch →
      right.routeEpoch = epoch) :
    calls.rtakeWhile (·.routeEpoch == epoch) = calls.filter (·.routeEpoch == epoch) := by
  induction calls using List.reverseRecOn with
  | nil => rfl
  | append_singleton calls call ih =>
    obtain ⟨others, -, last⟩ := List.pairwise_append.mp ordered
    rw [List.rtakeWhile_concat, List.filter_append, ← ih others]
    by_cases fresh : call.routeEpoch = epoch
    · simp [fresh]
    · have none : calls.filter (·.routeEpoch == epoch) = [] := by
        simpa using fun earlier member new =>
          fresh (last earlier member call (by simp) new)
      simp [ih others, none, fresh]

/-- What late calls do to a route of the new epoch: those since the last old one count alone. -/
theorem capacity_late {old new : UInt32} (older : old < new) {before late : List Observation}
    (started : ∀ call ∈ before, call.routeEpoch = old) (current : route.routeEpoch = new)
    (firstHopBps now : Nat) :
    capacityAfter (before ++ late) route firstHopBps now =
        capacityAfter (late.rtakeWhile (·.routeEpoch == new)) route firstHopBps now ∧
      capacityAfter (before ++ late.filter (·.routeEpoch == new)) route firstHopBps now =
        capacityAfter (late.filter (·.routeEpoch == new)) route firstHopBps now := by
  have nonzero : new ≠ 0 := by grind
  have whole : before ++ late = (before ++ late.rdropWhile (·.routeEpoch == new)) ++
      late.rtakeWhile (·.routeEpoch == new) := by
    rw [List.append_assoc, List.rdropWhile_append_rtakeWhile]
  have ended : (after (before ++ late.rdropWhile (·.routeEpoch == new))).activeEpoch ≠ new := by
    apply after_activeEpoch_ne nonzero
    have stops := List.rdropWhile_last_not (·.routeEpoch == new) late
    rcases List.eq_nil_or_concat (late.rdropWhile (·.routeEpoch == new)) with
      none | ⟨front, last, split⟩
    · grind
    · rw [split] at stops ⊢
      simpa using stops
  have switched : (after before).activeEpoch ≠ new := by
    apply after_activeEpoch_ne nonzero
    grind
  rw [whole]
  exact ⟨capacity_after_switch ended nonzero (by grind [List.mem_rtakeWhile_imp]) current ..,
    capacity_after_switch switched nonzero (by grind) current ..⟩

/-- Late feedback of the old epoch leaves the capacity of a new route as it is if none comes after
the first of the new epoch. For calls on one route, in the order of time and no more than a window
holds, it does so whatever the first hop is exactly if the calls since the last old one have the
same largest rate of the last 30 seconds as all of the new epoch. -/
theorem old_feedback_harmless_iff (old new : UInt32) (older : old < new)
    (before late : List Observation) (started : ∀ call ∈ before, call.routeEpoch = old)
    (route : ResolvedRouteV2) (current : route.routeEpoch = new) :
    (late.Pairwise (fun left right => left.routeEpoch = new → right.routeEpoch = new) →
      ∀ firstHopBps now, capacityAfter (before ++ late) route firstHopBps now =
        capacityAfter (before ++ late.filter (·.routeEpoch == new)) route firstHopBps now) ∧
    ∀ now, (∀ call ∈ late, call.routeLabel = route.routeLabel ∧ call.now ≤ now) →
      late.Pairwise (fun left right => left.now ≤ right.now) →
      late.length ≤ maxRouteCapacitySamples →
      ((∀ firstHopBps, capacityAfter (before ++ late) route firstHopBps now =
          capacityAfter (before ++ late.filter (·.routeEpoch == new)) route firstHopBps now) ↔
        largestRecent (late.rtakeWhile (·.routeEpoch == new)) now =
          largestRecent (late.filter (·.routeEpoch == new)) now) := by
  constructor
  · intro ordered firstHopBps now
    rw [(capacity_late older started current firstHopBps now).1,
      (capacity_late older started current firstHopBps now).2, rtakeWhile_eq_filter ordered]
  · intro now label ordered few
    have measured {calls : List Observation} (part : calls.Sublist late)
        (one : ∀ call ∈ calls, call.routeEpoch = new) (firstHopBps : Nat) :
        capacityAfter calls route firstHopBps now =
          combine firstHopBps (largestRecent calls now) := by
      apply capacity_eq_largestRecent
      · exact fun call member => ⟨(one call member).trans current.symm,
          (label call (part.subset member)).1⟩
      · exact ordered.sublist part
      · exact roomy_of_length (by simpa using part.length_le.trans few)
      · exact fun call member => (label call (part.subset member)).2
    have whole (firstHopBps : Nat) := (capacity_late older started current firstHopBps now).1.trans
      (measured (List.rtakeWhile_suffix (·.routeEpoch == new) late).sublist
        (by grind [List.mem_rtakeWhile_imp]) firstHopBps)
    have fresh (firstHopBps : Nat) := (capacity_late older started current firstHopBps now).2.trans
      (measured (List.filter_sublist (p := (·.routeEpoch == new))) (by grind) firstHopBps)
    simp only [whole, fresh]
    -- with no first hop the measured rate is the capacity
    exact ⟨fun same => same 0, fun same firstHopBps => by rw [same]⟩

theorem old_feedback_harmless_iff_repeated :
    capacityAfter [rateAt 1 7 1250000 0, rateAt 9 6 0 1, rateAt 2 7 1250000 2]
        measuredRoute 100000000 3 =
      capacityAfter [rateAt 1 7 1250000 0, rateAt 2 7 1250000 2] measuredRoute 100000000
        3 :=
  ((old_feedback_harmless_iff 6 7 (by decide) []
    [rateAt 1 7 1250000 0, rateAt 9 6 0 1, rateAt 2 7 1250000 2] (by decide)
    measuredRoute rfl).2 3 (by decide) (by decide) (by decide)).mpr (by decide +kernel) 100000000

/-- A snapshot of epoch 7 published after one of epoch 6, both with a route of label 2. -/
def twoEpochs : Except String DataplaneSnapshotStoreV2 := do
  let network := Mesh.IpNet.host (.v4 1)
  let old ← DataplaneSnapshotV2.compile 1 (.ofNat 1) [⟨network, ⟨12, 2, 6, 1382⟩, 0⟩] [] [] false
  let next ← DataplaneSnapshotV2.compile 2 (.ofNat 1) [⟨network, measuredRoute, 0⟩] [] [] false
  let (_, store) ← (DataplaneSnapshotStoreV2.new old).publish next
  .ok store

/-- Feedback for the old epoch, which still resolves, removes what was measured for the new one. -/
theorem late_feedback_clears : (twoEpochs.toOption.bind (·.sourceRoute 6 2)).isSome ∧
      (twoEpochs.toOption.bind (·.sourceRoute 7 2)) = some measuredRoute ∧
      capacityAfter [rateAt 1 7 1250000 0, rateAt 9 6 1250000 1] measuredRoute 100000000
        2 = 100000000 ∧
      capacityAfter [rateAt 1 7 1250000 0] measuredRoute 100000000 2 = 10000000 := by
  decide +kernel

end Ironet.Runtime
