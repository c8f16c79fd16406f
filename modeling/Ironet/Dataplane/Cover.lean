import Ironet.Dataplane.Receive

/-!
# The cover traffic shaper

`CoverShaperV2` of `v2_runtime/dataplane.rs` is a token bucket: every call first adds what the rate
gives for the time since the call before it. What the transmitter answers is an argument of the
call. Times are nanoseconds.
-/
namespace Ironet.Dataplane
open Finset

structure CoverShaperV2 where
  profile : CoverTrafficProfileV2
  bytesPerSecond : UInt64
  tokens : Nat
  updatedAt : Nat

namespace CoverShaperV2

variable (self : CoverShaperV2) (now : Nat)

def maximumTokens : Nat := max (self.bytesPerSecond.toNat / 10) 2048

def refill : CoverShaperV2 :=
  if self.bytesPerSecond = 0 then { self with updatedAt := now } else
  let added := min (self.bytesPerSecond.toNat * (now - self.updatedAt)) (2 ^ 128 - 1) / 1000000000
  { self with
    updatedAt := now
    tokens := min (min (self.tokens + min added (2 ^ 64 - 1)) (2 ^ 64 - 1)) self.maximumTokens }

/-- None of the saturations binds before the cap does. -/
theorem refill_eq (active : self.bytesPerSecond ≠ 0) : self.refill now = { self with
    updatedAt := now
    tokens := min (self.tokens + self.bytesPerSecond.toNat * (now - self.updatedAt) / 1000000000)
      self.maximumTokens } := by
  have small := self.bytesPerSecond.toNat_lt
  simp only [refill, if_neg active, maximumTokens, mk.injEq, true_and, and_true]
  omega

/-- `update`, at the two fields of the decision that it reads. -/
def update (profile : CoverTrafficProfileV2) (rate : UInt64) : CoverShaperV2 :=
  let next := { self.refill now with profile, bytesPerSecond := rate }
  { next with
    tokens := if rate = 0 ∨ profile = .idle then 0 else min next.tokens next.maximumTokens }

/-- `enqueue_after_real`, with the size that the transmitter asks for and whether it takes the
padding. -/
def enqueueAfterReal (target : Except String Nat) (taken : Except String Bool) :
    Except String Nat × CoverShaperV2 :=
  if self.bytesPerSecond = 0 ∨ self.profile = .idle then (.ok 0, self) else
  let next := self.refill now
  match target with
  | .error e => (.error e, next)
  | .ok target =>
    if next.tokens < target then (.ok 0, next) else
    match taken with
    | .error e => (.error e, next)
    | .ok false => (.ok 0, next)
    | .ok true => (.ok target, { next with tokens := next.tokens - target })

end CoverShaperV2

/-! ### Runs -/

inductive CoverCall where
  | update
  | enqueueAfterReal (target : Except String Nat) (taken : Except String Bool)

/-- The calls on a shaper under one decision; call `n` is made at `time (n + 1)`. -/
structure CoverRun where
  start : CoverShaperV2
  profile : CoverTrafficProfileV2
  rate : UInt64
  call : Nat → CoverCall
  time : Nat → Nat
  active : profile ≠ .idle
  positive : rate ≠ 0
  forward : Monotone time

namespace CoverRun
open CoverShaperV2

variable (run : CoverRun)

/-- What a call returns, and the shaper after it. -/
def perform (shaper : CoverShaperV2) (now : Nat) : CoverCall → Except String Nat × CoverShaperV2
  | .update => (.ok 0, shaper.update now run.profile run.rate)
  | .enqueueAfterReal target taken => shaper.enqueueAfterReal now target taken

/-- The shaper after the decision was first made known and `n` calls. -/
def after : Nat → CoverShaperV2
  | 0 => run.start.update (run.time 0) run.profile run.rate
  | n + 1 => (run.perform (after n) (run.time (n + 1)) (run.call n)).2

/-- The padding bytes of a call's result. -/
def paid : Except String Nat → Nat
  | .ok bytes => bytes
  | .error _ => 0

def padding (n : Nat) : Nat :=
  paid (run.perform (run.after n) (run.time (n + 1)) (run.call n)).1

def cap : Nat := max (run.rate.toNat / 10) 2048

/-- What the rate gives from call to call, a token being the nanoseconds of a second. -/
def earned (n : Nat) : Nat := run.rate.toNat * (run.time (n + 1) - run.time n)

/-- A shaper under the run's decision that was last called at `time`. -/
structure Ready (shaper : CoverShaperV2) (time : Nat) : Prop where
  profile : shaper.profile = run.profile
  rate : shaper.bytesPerSecond = run.rate
  time : shaper.updatedAt = time
  bounded : shaper.tokens ≤ run.cap

theorem update_ready (shaper : CoverShaperV2) (now : Nat) :
    run.Ready (shaper.update now run.profile run.rate) now where
  profile := rfl
  rate := rfl
  time := by
    unfold update refill
    grind
  bounded := by
    unfold update cap maximumTokens
    grind

/-- A call adds what was earned since the last one, whole tokens up to the cap, and pays from it. -/
theorem perform_ready {shaper : CoverShaperV2} {before : Nat} (ready : run.Ready shaper before)
    (now : Nat) (call : CoverCall) :
    run.Ready (run.perform shaper now call).2 now ∧
    (run.perform shaper now call).2.tokens + paid (run.perform shaper now call).1 =
      min (shaper.tokens + run.rate.toNat * (now - before) / 1000000000) run.cap := by
  obtain ⟨profile, rate, rfl, bounded⟩ := ready
  have filled := shaper.refill_eq now (rate ▸ run.positive)
  rw [maximumTokens, rate] at filled
  cases call with
  | update =>
    refine ⟨run.update_ready shaper now, ?_⟩
    simp only [perform, paid, update, filled, run.positive, run.active, or_self, if_false,
      maximumTokens, cap]
    omega
  | enqueueAfterReal target taken =>
    have active : ¬ (run.rate = 0 ∨ run.profile = .idle) := by simp [run.positive, run.active]
    have next : run.Ready (shaper.refill now) now := by
      rw [filled]
      exact ⟨profile, rfl, rfl, min_le_right ..⟩
    have tokens := congrArg CoverShaperV2.tokens filled
    simp only [perform, enqueueAfterReal, rate, profile, if_neg active]
    rcases target with e | size
    · exact ⟨next, tokens⟩
    by_cases poor : (shaper.refill now).tokens < size
    · simp only [if_pos poor]
      exact ⟨next, tokens⟩
    simp only [if_neg poor]
    rcases taken with e | _ | _
    · exact ⟨next, tokens⟩
    · exact ⟨next, tokens⟩
    · refine ⟨⟨next.profile, next.rate, next.time, (Nat.sub_le ..).trans next.bounded⟩, ?_⟩
      exact (Nat.sub_add_cancel (not_lt.mp poor)).trans tokens

theorem ready (n : Nat) : run.Ready (run.after n) (run.time n) := by
  induction n with
  | zero => exact run.update_ready ..
  | succ n ih => exact (run.perform_ready ih ..).1

theorem tokens_step (n : Nat) : (run.after (n + 1)).tokens + run.padding n =
    min ((run.after n).tokens + run.earned n / 1000000000) run.cap :=
  (run.perform_ready (run.ready n) ..).2

theorem due_succ {i j : Nat} (later : i ≤ j) : run.rate.toNat * (run.time (j + 1) - run.time i) =
    run.rate.toNat * (run.time j - run.time i) + run.earned j := by
  have before := run.forward later
  have step := run.forward (Nat.le_add_right j 1)
  rw [earned, ← Nat.mul_add]
  congr 1
  omega

/-- The bucket, filled to its cap by the first of the calls, pays for what it got since. -/
theorem padding_le {i j : Nat} (later : i < j) :
    ((run.after j).tokens + ∑ k ∈ Ico i j, run.padding k) * 1000000000 ≤
      run.rate.toNat * (run.time j - run.time (i + 1)) + run.cap * 1000000000 := by
  induction j, later using Nat.le_induction with
  | base =>
    have step := run.tokens_step i
    rw [Nat.succ_eq_add_one, Nat.Ico_succ_singleton, sum_singleton]
    omega
  | succ j later ih =>
    have step := run.tokens_step j
    rw [run.due_succ later, sum_Ico_succ_top (Nat.le_of_lt later)]
    grind

/-- The fractions of a token that the calls from `i` to `j` drop. -/
def dropped (i j : Nat) : Nat := ∑ k ∈ Ico i j, run.earned k % 1000000000

/-- No padding is paid between calls `i` and `j`, and the bucket stays below its cap. -/
def Quiet (i j : Nat) : Prop :=
  ∀ k ∈ Ico i j, run.padding k = 0 ∧ (run.after (k + 1)).tokens < run.cap

theorem Quiet.gains {i j : Nat} (quiet : run.Quiet i j) (later : i ≤ j) :
    (run.after i).tokens ≤ (run.after j).tokens ∧
    (run.after j).tokens * 1000000000 + run.dropped i j =
      (run.after i).tokens * 1000000000 + run.rate.toNat * (run.time j - run.time i) := by
  induction j, later using Nat.le_induction with
  | base => simp [dropped]
  | succ j later ih =>
    have before := ih fun k inside => quiet k (by grind)
    have step := run.tokens_step j
    obtain ⟨unpaid, below⟩ := quiet j (by grind)
    rw [dropped, sum_Ico_succ_top later, ← dropped, run.due_succ later]
    omega

/-- Over quiet intervals the tokens follow the rate up to `slack` tokens. -/
def Follows (slack : Nat) : Prop := ∀ i j, i ≤ j → run.Quiet i j →
  let gained := (run.after j).tokens - (run.after i).tokens
  let due := run.rate.toNat * (run.time j - run.time i)
  gained * 1000000000 ≤ due ∧ due < (gained + slack) * 1000000000

/-- The padding keeps to the budget, and the tokens follow the rate exactly as far as the calls drop
no more than the slack in fractions of a token. -/
theorem cover_follows_budget (run : CoverRun) :
    (∀ i j period, run.time j ≤ run.time (i + 1) + period →
      (∑ k ∈ Ico i j, run.padding k) * 1000000000 ≤
        run.rate.toNat * period + run.cap * 1000000000) ∧
    ∀ slack, run.Follows slack ↔
      ∀ i j, i ≤ j → run.Quiet i j → run.dropped i j < slack * 1000000000 := by
  refine ⟨fun i j period inside => ?_, fun slack => ?_⟩
  · rcases Nat.lt_or_ge i j with later | earlier
    · have spent := run.padding_le later
      have within : run.rate.toNat * (run.time j - run.time (i + 1)) ≤ run.rate.toNat * period :=
        Nat.mul_le_mul_left _ (by omega)
      linarith
    · simp [Ico_eq_empty_of_le earlier]
  · refine forall_congr' fun i => forall_congr' fun j => forall_congr' fun later =>
      forall_congr' fun quiet => ?_
    obtain ⟨grows, gains⟩ := quiet.gains run later
    dsimp only
    omega

/-- A shaper at 1000 bytes a second that is asked for 1500 bytes every second. -/
def steadyRun : CoverRun where
  start := ⟨.idle, 0, 0, 0⟩
  profile := .genericH3Bulk
  rate := 1000
  call _ := .enqueueAfterReal (.ok 1500) (.ok true)
  time n := 1000000000 * n
  active := by decide
  positive := by decide
  forward := fun _ _ later => Nat.mul_le_mul_left _ later

/-- It pays at two of the first four calls, and its tokens follow the rate. -/
theorem cover_follows_budget_steady : steadyRun.Follows 1 ∧
    ∑ k ∈ Ico 0 4, steadyRun.padding k = 3000 ∧
    (∑ k ∈ Ico 0 4, steadyRun.padding k) * 1000000000 ≤ 1000 * 3000000000 + 2048 * 1000000000 := by
  obtain ⟨bounded, follows⟩ := cover_follows_budget steadyRun
  refine ⟨(follows 1).mpr fun i j _ _ => ?_, by decide +kernel, bounded 0 4 3000000000 (by decide)⟩
  have whole : steadyRun.dropped i j = 0 := sum_eq_zero fun k _ => by
    simp only [earned, steadyRun, Nat.mul_add, Nat.add_sub_cancel_left]
    decide
  omega

/-- A shaper at 1000 bytes a second that is called twice in a millisecond. -/
def busyRun : CoverRun where
  start := ⟨.idle, 0, 0, 0⟩
  profile := .genericH3Bulk
  rate := 1000
  call _ := .update
  time n := 500000 * n
  active := by decide
  positive := by decide
  forward := fun _ _ later => Nat.mul_le_mul_left _ later

/-- The shaper never gains a token. -/
theorem busy_shaper_starves : ¬ ∃ slack, busyRun.Follows slack := by
  rintro ⟨slack, follows⟩
  have step (n : Nat) : (busyRun.after (n + 1)).tokens + busyRun.padding n =
      min ((busyRun.after n).tokens + 0) busyRun.cap := by
    have nothing : busyRun.earned n / 1000000000 = 0 := by
      simp only [earned, busyRun, Nat.mul_add, Nat.add_sub_cancel_left]
      decide
    rw [← nothing]
    exact busyRun.tokens_step n
  have none (n : Nat) : (busyRun.after n).tokens = 0 := by
    induction n with
    | zero => decide
    | succ n ih => grind
  have short := (follows 0 (2 * slack) (Nat.zero_le _) fun k _ => ?_).2
  · rw [none, none] at short
    simp only [busyRun] at short
    grind
  · have positive : 0 < busyRun.cap := by decide
    grind

end CoverRun
end Ironet.Dataplane
