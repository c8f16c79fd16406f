import Ironet.Cell.Wire

/-!
# The flow classifier

`protocol/v2/classifier.rs` promotes a flow to Bulk on sustained volume and takes it back on the
first interactive record or on idleness. Times are nanoseconds; the clock may go backwards, and the
classifier works with its running maximum.
-/
namespace Ironet.Classifier
open Ironet.Cell Finset

structure ClassifierConfig where
  promotionAge : Nat := 150000000
  promotionWindow : Nat := 250000000
  promotionBytes : Nat := 16 * 1024
  promotionRateBytesPerSecond : Nat := 128 * 1024
  promotionQueueBytes : Nat := 64 * 1024
  demotionIdle : Nat := 1000000000
  latencyHold : Nat := 500000000

/-- The arguments of a call of `observe`. -/
structure Contribution where
  now : Nat
  bytes : Nat
  queuedFlowBytes : Nat
  interactive : Bool

structure FlowClassifier where
  config : ClassifierConfig
  class' : TrafficClass
  started : Nat
  lastSeen : Nat
  windowStarted : Nat
  windowBytes : Nat
  windowRecords : Nat
  latencyHoldUntil : Nat

/-- `Duration::MAX`. -/
def durationMax : Nat := 2 ^ 64 * 1000000000 - 1

namespace FlowClassifier

def new (config : ClassifierConfig) (now : Nat) : FlowClassifier where
  config
  class' := .latency
  started := now
  lastSeen := now
  windowStarted := now
  windowBytes := 0
  windowRecords := 0
  latencyHoldUntil := now

variable (self : FlowClassifier) (call : Contribution)

def demotes : Bool :=
  call.interactive ||
    (self.class' = .bulk && max call.now self.lastSeen - self.lastSeen ≥ self.config.demotionIdle)

/-- The first part of `observe`: demotion and the window. -/
def note : FlowClassifier :=
  let now := max call.now self.lastSeen
  let demoted := if self.demotes call then
      { self with
        class' := .latency
        started := now
        windowStarted := now
        windowBytes := 0
        windowRecords := 0
        latencyHoldUntil := min (now + self.config.latencyHold) durationMax }
    else self
  let window := if now - demoted.windowStarted > self.config.promotionWindow then
      { demoted with windowStarted := now, windowBytes := 0, windowRecords := 0 }
    else demoted
  { window with
    lastSeen := now
    windowBytes := min (window.windowBytes + call.bytes) (2 ^ 64 - 1)
    windowRecords := min (window.windowRecords + 1) (2 ^ 32 - 1) }

/-- The flow, as `note` leaves it, is promoted. -/
def promotes (noted : FlowClassifier) : Bool :=
  noted.class' = .latency && noted.lastSeen ≥ noted.latencyHoldUntil &&
  (noted.lastSeen - noted.started ≥ noted.config.promotionAge || noted.windowRecords ≥ 2) &&
  noted.windowBytes ≥ noted.config.promotionBytes &&
  (min (noted.windowBytes * 1000000 / max ((noted.lastSeen - noted.windowStarted) / 1000) 1)
      (2 ^ 64 - 1) ≥ noted.config.promotionRateBytesPerSecond ||
    call.queuedFlowBytes ≥ noted.config.promotionQueueBytes)

def observe : FlowClassifier :=
  if promotes call (self.note call) then { self.note call with class' := .bulk } else self.note call

end FlowClassifier

/-! ### Runs -/

/-- The calls on one flow; adding the hold to a time never saturates. -/
structure ClassifierRun where
  config : ClassifierConfig
  created : Nat
  call : Nat → Contribution
  small : ∀ n, max (call n).now created + config.latencyHold ≤ durationMax

namespace ClassifierRun
open FlowClassifier

variable (run : ClassifierRun)

def after : Nat → FlowClassifier
  | 0 => .new run.config run.created
  | n + 1 => (after n).observe (run.call n)

variable (n : Nat)

/-- The time of call `n`: the running maximum of the clock. -/
def time : Nat := (run.after (n + 1)).lastSeen

/-- Call `n` turns the flow to Bulk. -/
def Promotes : Prop :=
  promotes (run.call n) ((run.after n).note (run.call n)) = true

/-- Call `n` takes the flow back. -/
def demoted : Bool := (run.after n).demotes (run.call n)

theorem after_small : (run.after n).config = run.config ∧
    (run.after n).lastSeen + run.config.latencyHold ≤ durationMax := by
  induction n with
  | zero =>
    have small := run.small 0
    change _ ∧ run.created + _ ≤ _
    exact ⟨rfl, by omega⟩
  | succ n ih =>
    have small := run.small n
    grind [after, observe, note]

/-- What call `n` does to the class and to the hold. -/
theorem step : run.time n = max (run.call n).now (run.after n).lastSeen ∧
    (run.after (n + 1)).latencyHoldUntil = (if run.demoted n then
      run.time n + run.config.latencyHold else (run.after n).latencyHoldUntil) ∧
    (run.Promotes n → (run.demoted n ∨ (run.after n).class' = .latency) ∧
      (run.after (n + 1)).latencyHoldUntil ≤ run.time n) ∧
    ((run.after (n + 1)).class' = .bulk ↔
      run.Promotes n ∨ (run.after n).class' = .bulk ∧ run.demoted n = false) := by
  have small := run.small n
  obtain ⟨same, bounded⟩ := run.after_small n
  unfold time Promotes demoted
  rw [after]
  unfold observe promotes note
  grind

theorem lastSeen_le : (run.after n).lastSeen ≤ run.time n := by
  rw [(run.step n).1]
  exact le_max_right ..

theorem time_mono : Monotone run.time := monotone_nat_of_le_succ fun n => run.lastSeen_le (n + 1)

/-- The age of the flow counts from its creation, and anew from every demotion. -/
theorem started_ge : run.created ≤ (run.after n).started ∧
    ∀ d < n, run.demoted d = true → run.time d ≤ (run.after n).started := by
  induction n with
  | zero => exact ⟨le_rfl, nofun⟩
  | succ n ih =>
    have begun : (run.after (n + 1)).started =
        if run.demoted n then run.time n else (run.after n).started := by
      unfold time demoted
      rw [after]
      unfold observe note
      grind
    have seen : run.created ≤ run.time n :=
      (run.lastSeen_le 0).trans (run.time_mono n.zero_le)
    rw [begun]
    split_ifs with back
    · exact ⟨seen, fun d before _ => run.time_mono (Nat.le_of_lt_succ before)⟩
    · refine ⟨ih.1, fun d before demoted => ih.2 d ?_ demoted⟩
      have other : d ≠ n := by
        rintro rfl
        exact back demoted
      omega

/-- What call `n` does to the window: it goes on, or begins with this record. -/
theorem window_step (n : Nat) : let next := run.after (n + 1)
    1 ≤ next.windowRecords ∧
    (next.windowBytes ≤ (run.call n).bytes ∧ next.windowRecords ≤ 1 ∧
        next.windowStarted = run.time n ∨
      next.windowBytes ≤ (run.after n).windowBytes + (run.call n).bytes ∧
        next.windowRecords ≤ (run.after n).windowRecords + 1 ∧
        next.windowStarted = (run.after n).windowStarted) ∧
    (run.Promotes n → run.time n - next.windowStarted ≤ run.config.promotionWindow ∧
      run.config.promotionBytes ≤ next.windowBytes ∧
      (2 ≤ next.windowRecords ∨ run.config.promotionAge ≤ run.time n - next.started)) := by
  obtain ⟨same, -⟩ := run.after_small n
  unfold time Promotes
  rw [after]
  unfold observe promotes note
  grind

/-- The window covers the records since some call, all of them in its time. -/
theorem window : ∃ first ≤ n, (run.after n).windowBytes ≤ ∑ k ∈ Ico first n, (run.call k).bytes ∧
    (run.after n).windowRecords ≤ n - first ∧
    ∀ k ≥ first, (run.after n).windowStarted ≤ run.time k := by
  induction n with
  | zero =>
    refine ⟨0, le_rfl, le_rfl, le_rfl, fun k _ => ?_⟩
    exact (run.lastSeen_le 0).trans (run.time_mono k.zero_le)
  | succ n ih =>
  obtain ⟨first, before, bytes, records, started⟩ := ih
  rcases (run.window_step n).2.1 with ⟨moreBytes, moreRecords, restarted⟩ |
    ⟨moreBytes, moreRecords, kept⟩
  · refine ⟨n, n.le_succ, by simpa using moreBytes, by omega, fun k later => ?_⟩
    rw [restarted]
    exact run.time_mono later
  · refine ⟨first, before.trans n.le_succ, ?_, by omega, by rwa [kept]⟩
    rw [sum_Ico_succ_top before]
    omega

/-- An interactive record holds the flow back, promotions are a hold apart, a promotion rests on the
volume of its window and on a second record or on the time since the flow was created and since it
was last taken back, and neither an interactive record nor idleness leaves a flow Bulk. -/
theorem hysteresis (run : ClassifierRun) : (∀ i n, i ≤ n → (run.call i).interactive = true →
      run.time n < run.time i + run.config.latencyHold → (run.after (n + 1)).class' ≠ .bulk) ∧
    (∀ p q, p < q → run.Promotes p → run.Promotes q →
      run.time p + run.config.latencyHold ≤ run.time q) ∧
    (∀ p, run.Promotes p → ∃ first ≤ p, run.time p - run.time first ≤ run.config.promotionWindow ∧
      run.config.promotionBytes ≤ ∑ k ∈ Ico first (p + 1), (run.call k).bytes ∧
      (first < p ∨ run.config.promotionAge ≤ run.time p - run.created ∧
        ∀ d ≤ p, run.demoted d = true → run.config.promotionAge ≤ run.time p - run.time d)) ∧
    ∀ n, (run.after (n + 1)).class' = .bulk → ∃ p ≤ n, run.Promotes p ∧
      ∀ k, p ≤ k → k < n → (run.call (k + 1)).interactive = false ∧
        run.time (k + 1) - run.time k < run.config.demotionIdle := by
  refine ⟨fun i n later interactive early => ?_, fun p q later promoted again => ?_,
    fun p promoted => ?_, fun n bulk => ?_⟩
  · have demoted : run.demoted i = true := by
      simp [demoted, demotes, interactive]
    have held : run.time i + run.config.latencyHold ≤ (run.after (n + 1)).latencyHoldUntil ∧
        ((run.after (n + 1)).class' = .bulk →
          run.time i + run.config.latencyHold ≤ run.time n) := by
      induction n, later using Nat.le_induction with
      | base => grind [run.step i]
      | succ n later ih =>
        have past := run.time_mono (later.trans n.le_succ)
        have now := run.time_mono n.le_succ
        grind [run.step (n + 1)]
    exact fun bulk => absurd (held.2 bulk) (not_le.mpr early)
  · -- after a promotion the flow stays Bulk or is held from its demotion on
    have held : (run.after q).class' = .bulk ∨
        run.time p + run.config.latencyHold ≤ (run.after q).latencyHoldUntil := by
      clear again
      induction q, later using Nat.le_induction with
      | base => exact .inl ((run.step p).2.2.2.mpr (.inl promoted))
      | succ q later ih =>
        have past := run.time_mono (Nat.le_of_lt later)
        grind [run.step q]
    have past := run.time_mono (Nat.le_of_lt later)
    grind [run.step q]
  · obtain ⟨first, before, bytes, records, started⟩ := run.window (p + 1)
    obtain ⟨some, -, promotion⟩ := run.window_step p
    obtain ⟨inTime, enough, proof⟩ := promotion promoted
    have begun := started first le_rfl
    obtain ⟨created, demoted⟩ := run.started_ge (p + 1)
    refine ⟨first, by omega, by omega, by omega, ?_⟩
    rcases proof with two | aged
    · exact .inl (by omega)
    · refine .inr ⟨by omega, fun d before back => ?_⟩
      have later := demoted d (Nat.lt_succ_of_le before) back
      omega
  · induction n with
    | zero => exact ⟨0, le_rfl, by grind [run.step 0, after, new], nofun⟩
    | succ n ih =>
    rcases (run.step (n + 1)).2.2.2.mp bulk with promoted | ⟨was, kept⟩
    · exact ⟨n + 1, le_rfl, promoted, fun k later inside => absurd inside (not_lt.mpr later)⟩
    obtain ⟨p, before, promoted, since⟩ := ih was
    refine ⟨p, before.trans n.le_succ, promoted, fun k later inside => ?_⟩
    rcases Nat.lt_succ_iff_lt_or_eq.mp inside with old | rfl
    · exact since k later old
    · simp only [demoted, demotes, was] at kept
      have past : run.time k = (run.after (k + 1)).lastSeen := rfl
      grind [run.after_small (k + 1), run.step (k + 1)]

/-- A large record every 100 ms, up to 900 ms, of which the fourth is interactive. -/
def sample : ClassifierRun where
  config := {}
  created := 0
  call n := ⟨min n 9 * 100000000, 65535, 0, n == 3⟩
  small n := by
    have late : max (min n 9 * 100000000) 0 + 500000000 ≤ 1400000000 := by omega
    exact late.trans (by decide)

/-- The second record promotes the flow. The interactive one takes it back for a hold, and only then
it is promoted again. -/
theorem hysteresis_sample : sample.Promotes 1 ∧ sample.Promotes 8 ∧
    sample.time 1 + sample.config.latencyHold ≤ sample.time 8 ∧
    (sample.after 8).class' ≠ .bulk ∧
    ∃ first ≤ 8, sample.time 8 - sample.time first ≤ sample.config.promotionWindow ∧
      sample.config.promotionBytes ≤ ∑ k ∈ Ico first 9, (sample.call k).bytes := by
  have first : sample.Promotes 1 := by unfold Promotes; decide
  have again : sample.Promotes 8 := by unfold Promotes; decide
  obtain ⟨held, apart, volume, -⟩ := hysteresis sample
  refine ⟨first, again, apart 1 8 (by decide) first again, held 3 7 (by decide) rfl (by decide), ?_⟩
  obtain ⟨begin, before, inTime, enough, -⟩ := volume 8 again
  exact ⟨begin, before, inTime, enough⟩

end ClassifierRun
end Ironet.Classifier
