import Ironet.Policy.Emergency
import Ironet.Policy.Transition

/-!
# Hysteresis

Runs of the transition controller, in which each call smooths against the action that the call
before it returned. New protection is enabled by the third proposal in a row and after a second of
rest; the three sizes approach what is proposed and arrive.
-/
namespace Ironet.Policy
open Support Reporting Ironet.Fec FecEffectiveV1

/-! ### One call -/

section
variable (self : TransitionControllerV1) (proposed previous : FecEffectiveV1) (now : Instant)
  (ctx : TransitionContextV1)

/-- What a call makes of the protection, and the controller after it. -/
inductive FecStep : FecEffectiveV1 → TransitionControllerV1 → Prop
  | agrees (same : proposed.toGeometry = previous.toGeometry) :
      FecStep proposed { self with candidateRepeats := 0 }
  | removes (off : proposed.toGeometry = none) :
      FecStep proposed { candidateFec := none, candidateRepeats := 0, lastChange := now }
  | holds (asks : proposed.enabled = true) :
      FecStep (fromGeometry previous.toGeometry) (self.confirm proposed.toGeometry)
  | changes (free : (self.confirm proposed.toGeometry).holds now ctx = false) :
      FecStep proposed
        { self.confirm proposed.toGeometry with candidateRepeats := 0, lastChange := now }

theorem smoothFec_steps : Yields (self.smoothFec proposed previous now ctx) fun out =>
      FecStep self proposed previous now ctx out.1 out.2 := by
  apply Yields.ite
  · intro _
    apply Yields.ite
    · exact fun off => .pure (.removes (Option.isNone_iff_eq_none.mp off))
    intro asks
    have enabled : proposed.enabled = true := by
      cases on : proposed.enabled with
      | true => rfl
      | false =>
        rw [toGeometry, on] at asks
        exact absurd rfl asks
    apply Yields.ite
    · exact fun _ => .skip fun _ => .pure (.holds enabled)
    · exact fun free => .pure (.changes (Bool.eq_false_iff.mpr free))
  · exact fun same => .pure (.agrees (not_not.mp same))
end

theorem toGeometry_fromGeometry (fec : FecEffectiveV1) :
    (fromGeometry fec.toGeometry).toGeometry = fec.toGeometry := by
  cases executed : fec.toGeometry with
  | none => rfl
  | some geometry => exact toGeometry_canonicalFec executed .unspecified

/-- The sizes that move one step a call. -/
inductive Stepped
  | trainTarget
  | sendBuffer
  | receiveBuffer

namespace Stepped

def of : Stepped → EffectiveActionV1 → Nat
  | trainTarget, action => action.scheduler.trainTargetBytes
  | sendBuffer, action => action.tx.sendBufferBytes
  | receiveBuffer, action => action.rx.receiveBufferBytes

def step : Stepped → TransitionContextV1 → Nat
  | trainTarget, _ => trainTargetStepBytes
  | sendBuffer, _ => sendBufferStepBytes
  | receiveBuffer, ctx =>
    if ctx.receivePressure then receivePressureStepBytes else receiveBufferStepBytes

theorem step_pos (field : Stepped) (ctx : TransitionContextV1) : 0 < field.step ctx := by
  cases field with
  | receiveBuffer => cases pressure : ctx.receivePressure <;> simp only [step, pressure] <;> decide
  | trainTarget => exact (by decide : 0 < trainTargetStepBytes)
  | sendBuffer => exact (by decide : 0 < sendBufferStepBytes)

end Stepped

theorem stepReported_yields (field : ClampFieldV1) (current target step : Nat) :
    Yields (stepReported field current target step) (· = stepTowards current target step) :=
  .skip fun _ => .pure rfl

theorem smooth_spec (self : TransitionControllerV1) (proposed previous : EffectiveActionV1)
    (now : Instant) (ctx : TransitionContextV1) : FecStep self proposed.fec previous.fec now ctx
        (self.smooth proposed previous now ctx).1.1.fec
        (self.smooth proposed previous now ctx).2 ∧
      ∀ field : Stepped, field.of (self.smooth proposed previous now ctx).1.1 =
        stepTowards (field.of previous) (field.of proposed) (field.step ctx) := by
  have yields : Yields (self.smoothed proposed previous now ctx) fun out =>
      FecStep self proposed.fec previous.fec now ctx out.1.fec out.2 ∧
        ∀ field : Stepped,
          field.of out.1 = stepTowards (field.of previous) (field.of proposed)
            (field.step ctx) := by
    refine .bind (smoothFec_steps self _ _ now ctx) fun _ fec => ?_
    refine .bind (stepReported_yields _ _ _ _) fun _ target => ?_
    refine .bind (stepReported_yields _ _ _ _) fun _ send => ?_
    refine .bind (stepReported_yields _ _ _ _) fun _ receive => ?_
    refine .pure ⟨fec, fun field => ?_⟩
    cases field with
    | trainTarget => exact target
    | sendBuffer => exact send
    | receiveBuffer => exact receive
  exact yields

/-! ### Sizes -/

section
variable {current target step : Nat}

/-- A size moves towards its target, at most one step and never past it. -/
def Approaches (current target step next : Nat) : Prop :=
  (current ≤ next ∧ next ≤ target ∨ target ≤ next ∧ next ≤ current) ∧
    next ≤ current + step ∧ current ≤ next + step

theorem stepTowards_approaches (typed : target ≤ u64Max) :
    Approaches current target step (stepTowards current target step) := by
  unfold Approaches stepTowards saturatingAdd
  split <;> omega

def gap (current target : Nat) : Nat := current - target + (target - current)

theorem gap_stepTowards (typed : target ≤ u64Max) :
    gap (stepTowards current target step) target = gap current target - step := by
  unfold gap stepTowards saturatingAdd
  split <;> omega

end

theorem rested_since {earlier last now cooldown : Nat} (positive : 0 < cooldown)
    (before : earlier ≤ last) (rested : cooldown ≤ now - last) : earlier + cooldown ≤ now := by
  omega

/-! ### Runs -/

structure SmoothCall where
  proposed : EffectiveActionV1
  now : Instant
  ctx : TransitionContextV1

/-- The calls after a controller is created or reset. Instants do not decrease, and the sizes are
the machine's integers. -/
structure SmoothRun where
  start : Instant
  initial : EffectiveActionV1
  calls : Nat → SmoothCall
  started : start ≤ (calls 0).now
  ordered : ∀ n, (calls n).now ≤ (calls (n + 1)).now
  typed : ∀ n (field : Stepped), field.of (calls n).proposed ≤ u64Max

namespace SmoothRun
variable (run : SmoothRun)

/-- The controller and the last returned action after this many calls. -/
def after : Nat → EffectiveActionV1 × TransitionControllerV1
  | 0 => (run.initial, .new run.start)
  | n + 1 =>
    let call := run.calls n
    let smoothed := (after n).2.smooth call.proposed (after n).1 call.now call.ctx
    (smoothed.1.1, smoothed.2)

variable (n : Nat)

/-- The protection in force after this many calls. -/
def geometry : Option FecGeometryV2 := (run.after n).1.fec.toGeometry

def proposal : Option FecGeometryV2 := (run.calls n).proposed.fec.toGeometry

/-- The controller after some calls: its last change is the latest one of the run, and what it
counts are the proposals just before. -/
structure Counted (n : Nat) : Prop where
  start : run.start ≤ (run.after n).2.lastChange
  latest : ∀ k, k < n → run.geometry (k + 1) ≠ run.geometry k →
    (run.calls k).now ≤ (run.after n).2.lastChange
  few : (run.after n).2.candidateRepeats ≤ n
  repeated : ∀ k, n - (run.after n).2.candidateRepeats ≤ k → k < n →
    run.proposal k = (run.after n).2.candidateFec

theorem now_le {k n : Nat} (before : k ≤ n) : (run.calls k).now ≤ (run.calls n).now :=
  monotone_nat_of_le_succ run.ordered before

theorem fecStep :
    FecStep (run.after n).2 (run.calls n).proposed.fec (run.after n).1.fec (run.calls n).now
      (run.calls n).ctx (run.after (n + 1)).1.fec (run.after (n + 1)).2 :=
  (smooth_spec _ _ _ _ _).1

/-- A call that does not note a change leaves the protection as it is, and one that does not count
the proposal starts over. -/
theorem after_succ : ((run.after (n + 1)).2.lastChange = (run.calls n).now ∨
      (run.after (n + 1)).2.lastChange = (run.after n).2.lastChange ∧
        run.geometry (n + 1) = run.geometry n) ∧
    ((run.after (n + 1)).2.candidateRepeats = 0 ∨
      (run.after (n + 1)).2 = (run.after n).2.confirm (run.proposal n)) := by
  have step := run.fecStep n
  unfold geometry proposal
  generalize (run.after (n + 1)).1.fec = fec, (run.after (n + 1)).2 = next at step ⊢
  cases step with
  | agrees same => exact ⟨.inr ⟨rfl, same⟩, .inl rfl⟩
  | removes off => exact ⟨.inl rfl, .inl rfl⟩
  | holds asks =>
    refine ⟨.inr ⟨?_, toGeometry_fromGeometry _⟩, .inr rfl⟩
    unfold TransitionControllerV1.confirm
    split <;> rfl
  | changes free => exact ⟨.inl rfl, .inl rfl⟩

theorem counted : run.Counted n := by
  induction n with
  | zero => exact ⟨le_rfl, by simp, le_rfl, by simp⟩
  | succ n ih =>
    obtain ⟨last, count⟩ := run.after_succ n
    have rested : run.start ≤ (run.after (n + 1)).2.lastChange ∧
        ∀ k, k < n + 1 → run.geometry (k + 1) ≠ run.geometry k →
          (run.calls k).now ≤ (run.after (n + 1)).2.lastChange := by
      rcases last with last | ⟨last, same⟩
      · rw [last]
        exact ⟨run.started.trans (run.now_le n.zero_le), fun k early _ => run.now_le (by omega)⟩
      · rw [last]
        refine ⟨ih.start, fun k early differs => ih.latest k ?_ differs⟩
        have other : k ≠ n := by
          rintro rfl
          exact differs same
        omega
    refine ⟨rested.1, rested.2, ?_, ?_⟩
    · have few := ih.few
      rcases count with zero | counts
      · omega
      · rw [counts, TransitionControllerV1.confirm]
        split <;> simp only <;> omega
    · intro k late early
      have repeated := ih.repeated k
      rcases count with zero | counts
      · omega
      · rw [counts, TransitionControllerV1.confirm] at late ⊢
        grind

/-! ### What every run does -/

/-- Protection that is enabled or changed without an emergency was proposed three times in a row,
and a cooldown after the last change. -/
theorem change_confirmed {n : Nat} {chosen : FecGeometryV2}
    (calm : (run.calls n).ctx.protectionEmergency = false)
    (now : run.geometry (n + 1) = some chosen) (new : run.geometry n ≠ some chosen) :
    (2 ≤ n ∧ ∀ k, n - 2 ≤ k → k ≤ n → run.proposal k = some chosen) ∧
      run.start + fecChangeCooldown ≤ (run.calls n).now ∧
      ∀ k, k < n → run.geometry (k + 1) ≠ run.geometry k →
        (run.calls k).now + fecChangeCooldown ≤ (run.calls n).now := by
  have step := run.fecStep n
  have counted := run.counted n
  have accepted : ((run.after n).2.confirm (run.proposal n)).holds (run.calls n).now
      (run.calls n).ctx = false ∧ run.proposal n = some chosen := by
    unfold geometry at now new
    generalize (run.after (n + 1)).1.fec = fec, (run.after (n + 1)).2 = next at step now
    cases step with
    | agrees same => exact absurd (same.symm.trans now) new
    | removes off => exact absurd (off.symm.trans now) (by simp)
    | holds asks => exact absurd ((toGeometry_fromGeometry _).symm.trans now) new
    | changes free => exact ⟨free, now⟩
  obtain ⟨free, asked⟩ := accepted
  have settled : run.proposal n = (run.after n).2.candidateFec ∧
      2 ≤ (run.after n).2.candidateRepeats ∧
      fecChangeCooldown ≤ (run.calls n).now - (run.after n).2.lastChange := by
    have three : fecConfirmationSamples = 3 := rfl
    simp only [TransitionControllerV1.holds, TransitionControllerV1.confirm, calm] at free
    grind
  obtain ⟨same, twice, rested⟩ := settled
  have cooldown : 0 < fecChangeCooldown := by decide
  have few := counted.few
  refine ⟨⟨by omega, fun k late early => ?_⟩, ?_, fun k early differs => ?_⟩
  · rcases Nat.eq_or_lt_of_le early with rfl | early
    · exact asked
    · rw [counted.repeated k (by omega) early, ← same, asked]
  · exact rested_since cooldown counted.start rested
  · exact rested_since cooldown (counted.latest k early differs) rested

theorem size_succ (field : Stepped) : field.of (run.after (n + 1)).1 =
      stepTowards (field.of (run.after n).1) (field.of (run.calls n).proposed)
        (field.step (run.calls n).ctx) :=
  (smooth_spec _ _ _ _ _).2 field

/-- The distance to a constant proposal shrinks with every call. -/
theorem gap_after {field : Stepped} {target n : Nat}
    (constant : ∀ k, n ≤ k → field.of (run.calls k).proposed = target) (more : Nat) :
    gap (field.of (run.after (n + more)).1) target ≤
      gap (field.of (run.after n).1) target - more := by
  induction more with
  | zero => exact le_rfl
  | succ more ih =>
    have proposed := constant (n + more) (by omega)
    have typed := run.typed (n + more) field
    have positive := field.step_pos (run.calls (n + more)).ctx
    rw [← Nat.add_assoc, size_succ, proposed, gap_stepTowards (proposed ▸ typed)]
    omega

/-- In every run: (a) protection that is enabled or changed without an emergency was proposed by
this call and the two before it, at least a cooldown after the start and after every change;
(b) a call that proposes no protection returns none; (c) the sizes approach what is proposed, at
most a step a call, and a constant proposal is reached and kept. -/
theorem transitions_smooth : (∀ n chosen, (run.calls n).ctx.protectionEmergency = false →
      run.geometry (n + 1) = some chosen → run.geometry n ≠ some chosen →
      (2 ≤ n ∧ ∀ k, n - 2 ≤ k → k ≤ n → run.proposal k = some chosen) ∧
        run.start + fecChangeCooldown ≤ (run.calls n).now ∧
        ∀ k, k < n → run.geometry (k + 1) ≠ run.geometry k →
          (run.calls k).now + fecChangeCooldown ≤ (run.calls n).now) ∧
    (∀ n, run.proposal n = none → run.geometry (n + 1) = none) ∧
    (∀ n (field : Stepped), Approaches (field.of (run.after n).1)
      (field.of (run.calls n).proposed) (field.step (run.calls n).ctx)
      (field.of (run.after (n + 1)).1)) ∧
    (∀ (field : Stepped) target n, (∀ k, n ≤ k → field.of (run.calls k).proposed = target) →
      ∃ m, n ≤ m ∧ ∀ k, m ≤ k → field.of (run.after k).1 = target) := by
  refine ⟨fun n chosen calm now new => run.change_confirmed calm now new, fun n off => ?_,
    fun n field => ?_, fun field target n constant => ?_⟩
  · have step := run.fecStep n
    unfold geometry
    unfold proposal at off
    generalize (run.after (n + 1)).1.fec = fec, (run.after (n + 1)).2 = next at step ⊢
    cases step with
    | holds asks =>
      rw [toGeometry, if_pos asks] at off
      cases off
    | _ => exact off
  · rw [size_succ]
    exact stepTowards_approaches (run.typed n field)
  · refine ⟨n + gap (field.of (run.after n).1) target, by omega, fun k late => ?_⟩
    have closed := run.gap_after constant (k - n)
    rw [Nat.add_sub_cancel' (by omega)] at closed
    unfold gap at closed late
    omega

/-- Every 500 ms the same protection and a train target of 64 KiB are proposed to a controller that
starts without any. -/
def constantProposal : SmoothRun where
  start := 0
  initial := {}
  calls n := {
    proposed := {
      fec := fromGeometry (some ⟨8, 2⟩)
      scheduler := { trainTargetBytes := 65536 } }
    now := (n + 1) * 500000000
    ctx := ⟨false, false⟩ }
  started := Nat.zero_le _
  ordered n := by
    change (n + 1) * 500000000 ≤ (n + 1 + 1) * 500000000
    omega
  typed _ field := by cases field <;> simp [Stepped.of, u64Max]

/-- The third proposal is taken, a second after the start, and the target is reached and kept. -/
theorem transitions_smooth_constant : constantProposal.geometry 2 = none ∧
    constantProposal.geometry 3 = some ⟨8, 2⟩ ∧
    (∀ k ≤ 2, constantProposal.proposal k = some ⟨8, 2⟩) ∧
    0 + fecChangeCooldown ≤ (constantProposal.calls 2).now ∧
    ∃ m, 0 ≤ m ∧
      ∀ k, m ≤ k → (constantProposal.after k).1.scheduler.trainTargetBytes = 65536 := by
  obtain ⟨enabled, -, -, reached⟩ := transitions_smooth constantProposal
  have before : constantProposal.geometry 2 = none := by decide
  have now : constantProposal.geometry 3 = some ⟨8, 2⟩ := by decide
  obtain ⟨⟨-, proposed⟩, rested, -⟩ := enabled 2 ⟨8, 2⟩ rfl now (by rw [before]; simp)
  exact ⟨before, now, fun k early => proposed k (by omega) early, rested,
    reached .trainTarget 65536 0 fun _ _ => rfl⟩

end SmoothRun
end Ironet.Policy
