import Ironet.Policy.Parity

/-!
# What the filter recognises

Runs of the telemetry filter over a stream of samples. An average is an integer that is rounded down
at every sample: it climbs towards a sample only while the distance is worth a whole unit, so that
the samples have to stay a little above a threshold for the average to reach it. A policer episode
is a latch: the second idle sample in a row ends it, and nothing of its loss outlives it.
-/
namespace Ironet.Policy
open Support
namespace TelemetryFilterV1

/-- A sample with the receive window in effect when it is taken. -/
abbrev Sampled := PathTelemetryV2 × Nat

/-- The filters that updates and resets lead to. -/
inductive Reached : TelemetryFilterV1 → Prop
  | new (bounds : AutoTuneBoundsV2) : Reached (new bounds)
  | update {self : TelemetryFilterV1} (reached : Reached self) (sample : Sampled) :
      Reached (self.update sample.1 sample.2).2
  | reset {self : TelemetryFilterV1} (reached : Reached self) : Reached self.reset

/-- The filter after the first samples of a stream. -/
def after (self : TelemetryFilterV1) (stream : Nat → Sampled) : Nat → TelemetryFilterV1
  | 0 => self
  | n + 1 => ((after self stream n).update (stream n).1 (stream n).2).2

/-- What the update with a sample of the stream returns. -/
def seen (self : TelemetryFilterV1) (stream : Nat → Sampled) (n : Nat) : FilteredTelemetryV1 :=
  ((self.after stream n).update (stream n).1 (stream n).2).1

/-- The filter of an update, before it looks at the policer. -/
def smoothed (self : TelemetryFilterV1) (sample : Sampled) : TelemetryFilterV1 :=
  let held := self.holdReceivePressure sample.1 sample.2
  let counted := { held with samples := u32Saturating (held.samples + 1) }
  (counted.smooth sample.1).trackCleanDelivery sample.1

/-- How one sample moves the filtered loss. -/
def foldLoss (loss : Nat) (sample : Sampled) : Nat :=
  if hasProtectionEvidence sample.1 then ewma loss sample.1.lossPpm 3 8 else loss

variable (self : TelemetryFilterV1) (sample : Sampled)

theorem smoothed_spec :
    (self.smoothed sample).cpuPerMille = ewma self.cpuPerMille sample.1.cpuUtilizationPerMille 1 4 ∧
      (self.smoothed sample).lossPpm = foldLoss self.lossPpm sample ∧
      (self.smoothed sample).protectionSamples =
        (if hasProtectionEvidence sample.1 then saturatingAdd self.protectionSamples 1
        else self.protectionSamples) ∧
      (self.smoothed sample).shortRttPolicerLimited = self.shortRttPolicerLimited ∧
      (self.smoothed sample).shortRttPolicerInactiveTicks = self.shortRttPolicerInactiveTicks ∧
      (self.smoothed sample).shortRttPolicerPacingCapBytesPerSecond =
        self.shortRttPolicerPacingCapBytesPerSecond := by
  unfold smoothed holdReceivePressure smooth smoothRepair smoothLoss smoothRates trackCleanDelivery
    recordShortRttPolicerCleanDelivery clearShortRttPolicerCleanDeliverySamples foldLoss
  grind

/-! ### Sustained pressure -/

theorem trackPolicer_cpuPerMille (raw : PathTelemetryV2) :
    (self.trackPolicer raw).cpuPerMille = self.cpuPerMille := by
  unfold trackPolicer holdPolicer enterPolicer
  grind

theorem trackPolicer_lossPpm {raw : PathTelemetryV2} (active : activeDirection raw = true) :
    (self.trackPolicer raw).lossPpm = self.lossPpm := by
  unfold trackPolicer holdPolicer enterPolicer
  grind

theorem active_of_evidence {raw : PathTelemetryV2} (evidence : hasProtectionEvidence raw = true) :
    activeDirection raw = true := by
  unfold hasProtectionEvidence at evidence
  unfold activeDirection
  have traffic : 0 < minimumProtectionTrafficBytesPerSecond := by decide
  have backlog : 0 < minimumBacklogProtectionBytes := by decide
  grind

variable (stream : Nat → Sampled)

theorem after_succ (n : Nat) : self.after stream (n + 1) =
      ((self.after stream n).smoothed (stream n)).trackPolicer (stream n).1 :=
  rfl

theorem after_cpuPerMille (n : Nat) : (self.after stream (n + 1)).cpuPerMille =
      ewma (self.after stream n).cpuPerMille (stream n).1.cpuUtilizationPerMille 1 4 := by
  rw [after_succ, trackPolicer_cpuPerMille, (smoothed_spec _ _).1]

/-- A sample with evidence is not idle: no episode ends at it. -/
theorem after_lossPpm {n : Nat} (evidence : hasProtectionEvidence (stream n).1 = true) :
    (self.after stream (n + 1)).lossPpm =
      ewma (self.after stream n).lossPpm (stream n).1.lossPpm 3 8 := by
  rw [after_succ, trackPolicer_lossPpm _ (active_of_evidence evidence), (smoothed_spec _ _).2.1,
    foldLoss, if_pos evidence]

/-- Below the threshold an average with these weights gains a unit, above it the average stays. -/
def Climbs (numerator denominator threshold floor : Nat) : Prop :=
  ∀ current sample, floor ≤ sample →
    (current < threshold → current < ewma current sample numerator denominator) ∧
    (threshold ≤ current → threshold ≤ ewma current sample numerator denominator)

theorem climbs_cpu : Climbs 1 4 900 903 := by
  intro current sample high
  unfold ewma saturatingAdd saturatingMul u64Max
  split_ifs <;> omega

theorem climbs_loss : Climbs 3 8 10000 10002 := by
  intro current sample high
  unfold ewma saturatingAdd saturatingMul u64Max
  split_ifs <;> omega

section
variable {numerator denominator : Nat} (average samples : Nat → Nat)
  (moves : ∀ n, average (n + 1) = ewma (average n) (samples n) numerator denominator)
include moves

/-- An average that climbs reaches the threshold after as many samples, and keeps it. -/
theorem reaches {threshold floor : Nat} (climbs : Climbs numerator denominator threshold floor)
    (high : ∀ n, floor ≤ samples n) (n : Nat) : min n threshold ≤ average n := by
  induction n with
  | zero => exact Nat.zero_le _
  | succ n ih =>
    obtain ⟨below, above⟩ := climbs (average n) (samples n) (high n)
    rw [moves]
    rcases Nat.lt_or_ge (average n) threshold with low | reached
    · omega
    · omega

/-- Rounding holds an average just below a steady sample. -/
theorem stuck (level next : Nat) (held : ewma level next numerator denominator = level)
    (start : average 0 = level) (steady : ∀ n, samples n = next) (n : Nat) : average n = level := by
  induction n with
  | zero => exact start
  | succ n ih => rw [moves, ih, steady, held]

end

/-- A path with this load and loss. -/
def loaded (cpu loss : Nat) : Sampled :=
  ({ lossySample 1 with cpuUtilizationPerMille := cpu, lossPpm := loss }, 0)

/-- The filter after a first sample. -/
def started (sample : Sampled) : TelemetryFilterV1 :=
  ((new {}).update sample.1 sample.2).2

variable {self sample} in
/-- A steady sample that moves neither average leaves them where they are for good. -/
theorem seen_stuck (evidence : hasProtectionEvidence sample.1 = true)
    (cpu : ewma self.cpuPerMille sample.1.cpuUtilizationPerMille 1 4 = self.cpuPerMille)
    (loss : ewma self.lossPpm sample.1.lossPpm 3 8 = self.lossPpm) (n : Nat) :
    (self.seen (fun _ => sample) n).cpuPerMille = self.cpuPerMille ∧
      (self.seen (fun _ => sample) n).lossPpm = self.lossPpm :=
  ⟨stuck (fun n => (self.after (fun _ => sample) n).cpuPerMille) _
    (self.after_cpuPerMille _) _ _ cpu
      rfl (fun _ => rfl) (n + 1),
    stuck (fun n => (self.after (fun _ => sample) n).lossPpm) _
      (fun _ => self.after_lossPpm _ evidence) _ _ loss rfl (fun _ => rfl) (n + 1)⟩

/-- Pressure whose samples stay at or above a floor is recognised from every filter, and for good,
exactly where the floor for the CPU is at least 903 and the floor for the loss at least 10002. -/
theorem pressure_recognised_iff (cpuFloor lossFloor : Nat) :
    (∀ self : TelemetryFilterV1, Reached self → ∀ stream : Nat → Sampled,
      ((∀ n, 900 ≤ (stream n).1.cpuUtilizationPerMille ∧
          cpuFloor ≤ (stream n).1.cpuUtilizationPerMille) →
        ∃ n, ∀ k, n ≤ k → (self.seen stream k).cpuLimited = true) ∧
      ((∀ n, hasProtectionEvidence (stream n).1 = true ∧ 10000 ≤ (stream n).1.lossPpm ∧
          lossFloor ≤ (stream n).1.lossPpm) →
        ∃ n, ∀ k, n ≤ k → 10000 ≤ (self.seen stream k).lossPpm)) ↔
      903 ≤ cpuFloor ∧ 10002 ≤ lossFloor := by
  constructor
  · intro recognised
    -- 899 is held by samples of 902, and 9999 by samples of 10001
    have held := recognised (started (loaded 899 9999)) (.update (.new {}) _)
      fun _ => loaded 902 10001
    have level := @seen_stuck (started (loaded 899 9999)) (loaded 902 10001)
      (by decide) (by decide +kernel) (by decide +kernel)
    constructor
    · by_contra low
      obtain ⟨n, limited⟩ := held.1 fun _ => ⟨by decide, (by omega : cpuFloor ≤ 902)⟩
      exact absurd (of_decide_eq_true (limited n le_rfl)) (by rw [(level n).1]; decide +kernel)
    · by_contra low
      obtain ⟨n, lossy⟩ := held.2 fun _ => ⟨by decide, by decide, (by omega : lossFloor ≤ 10001)⟩
      exact absurd (lossy n le_rfl) (by rw [(level n).2]; decide +kernel)
  · rintro ⟨cpu, loss⟩ self - stream
    refine ⟨fun high => ⟨900, fun k late => ?_⟩, fun high => ⟨10000, fun k late => ?_⟩⟩
    · have reached := reaches (fun n => (self.after stream n).cpuPerMille) _
        (self.after_cpuPerMille stream) climbs_cpu (fun n => cpu.trans (high n).2) (k + 1)
      exact decide_eq_true (le_trans (by omega) reached)
    · have reached := reaches (fun n => (self.after stream n).lossPpm) _
        (fun n => self.after_lossPpm stream (high n).1) climbs_loss
        (fun n => loss.trans (high n).2.2) (k + 1)
      exact le_trans (by omega) reached

/-- After a first sample just below both thresholds, samples at the thresholds are never
recognised. -/
theorem threshold_pressure_missed :
    ¬ ∃ n, ((started (loaded 897 9998)).seen (fun _ => loaded 900 10000) n).cpuLimited = true ∨
      10000 ≤ ((started (loaded 897 9998)).seen (fun _ => loaded 900 10000) n).lossPpm := by
  rintro ⟨n, recognised⟩
  obtain ⟨cpu, loss⟩ := @seen_stuck (started (loaded 897 9998)) (loaded 900 10000)
    (by decide) (by decide +kernel) (by decide +kernel) n
  rcases recognised with limited | lossy
  · exact absurd (of_decide_eq_true limited) (by rw [cpu]; decide +kernel)
  · exact absurd lossy (by rw [loss]; decide +kernel)

/-! ### Policer episodes -/

/-- A latched policer is kept, with its cap, or released by an idle sample after an idle one. -/
theorem trackPolicer_latched (latched : self.shortRttPolicerLimited = true)
    (raw : PathTelemetryV2) :
    if activeDirection raw = false ∧ 1 ≤ self.shortRttPolicerInactiveTicks then
      (self.trackPolicer raw).shortRttPolicerLimited = false ∧
        (self.trackPolicer raw).lossPpm = 0 ∧ (self.trackPolicer raw).protectionSamples = 0
    else
      (self.trackPolicer raw).shortRttPolicerLimited = true ∧
        (self.trackPolicer raw).shortRttPolicerPacingCapBytesPerSecond =
          self.shortRttPolicerPacingCapBytesPerSecond ∧
        (self.trackPolicer raw).shortRttPolicerInactiveTicks =
          if activeDirection raw = true then 0 else 1 := by
  unfold trackPolicer holdPolicer u8Max
  grind

theorem policerPacingCap_bounds {raw : PathTelemetryV2}
    (fast : minimumShortRttPolicerModelBytesPerSecond ≤ raw.controllerBwBytesPerSecond) :
    ∃ cap, self.policerPacingCap raw = some cap ∧ 0 < cap ∧
      cap * 100 ≤ raw.controllerBwBytesPerSecond * 95 := by
  have large : 8388608 ≤ raw.controllerBwBytesPerSecond := fast
  have modelled : 0 < saturatingMul raw.controllerBwBytesPerSecond 950 / 1000 ∧
      saturatingMul raw.controllerBwBytesPerSecond 950 / 1000 * 100 ≤
        raw.controllerBwBytesPerSecond * 95 := by
    unfold saturatingMul u64Max
    omega
  unfold policerPacingCap
  rw [if_pos (by omega)]
  refine ⟨_, rfl, ?_⟩
  generalize saturatingMul raw.controllerBwBytesPerSecond 950 / 1000 = modelCap at modelled ⊢
  cases clean : self.shortRttPolicerCleanDeliveryPeak.filter
      fun cleanCap => saturatingMul modelCap 95 / 100 ≤ cleanCap with
  | none => exact modelled
  | some peak =>
    -- a peak of zero is no peak
    have positive : peak ≠ 0 := by
      have found := (Option.filter_eq_some_iff.mp clean).1
      exact of_decide_eq_true (Option.filter_eq_some_iff.mp found).2
    exact ⟨by simp only [Option.elim]; omega, by simp only [Option.elim]; omega⟩

theorem trackPolicer_free (free : self.shortRttPolicerLimited = false) (raw : PathTelemetryV2) :
    (self.trackPolicer raw).shortRttPolicerInactiveTicks = 0 ∧
      (self.trackPolicer raw).lossPpm = self.lossPpm ∧
      (self.trackPolicer raw).protectionSamples = self.protectionSamples ∧
      ((self.trackPolicer raw).shortRttPolicerLimited = true →
        self.protectionSamples ≠ 0 ∧ activeDirection raw = true ∧
        ∃ cap, (self.trackPolicer raw).shortRttPolicerPacingCapBytesPerSecond = some cap ∧
          0 < cap ∧ cap * 100 ≤ raw.controllerBwBytesPerSecond * 95) := by
  rw [trackPolicer, if_neg (by simp [free])]
  refine ⟨rfl, rfl, rfl, fun limited => ?_⟩
  have fast : minimumShortRttPolicerModelBytesPerSecond ≤ raw.controllerBwBytesPerSecond := by
    simp only [enterPolicer, credibleShallowPolicer] at limited
    grind
  have captured := self.policerPacingCap_bounds fast
  simp only [enterPolicer] at limited ⊢
  grind

/-- The policer is latched after this many samples. -/
abbrev latched (n : Nat) : Prop := (self.after stream n).shortRttPolicerLimited = true

/-- The sample shows no real traffic, no ingress and no queued train. -/
abbrev idle (n : Nat) : Prop := activeDirection (stream n).1 = false

variable {self stream} {n : Nat}

theorem latched_ticks (now : latched self stream (n + 1)) :
    (self.after stream (n + 1)).shortRttPolicerInactiveTicks =
      if activeDirection (stream n).1 = true then 0 else 1 := by
  rw [latched, after_succ] at now
  rw [after_succ]
  cases before : ((self.after stream n).smoothed (stream n)).shortRttPolicerLimited with
  | true =>
    have kept := trackPolicer_latched _ before (stream n).1
    grind
  | false =>
    obtain ⟨zero, -, -, entered⟩ := trackPolicer_free _ before (stream n).1
    grind

theorem latched_succ (now : latched self stream n) :
    if idle stream n ∧ 1 ≤ (self.after stream n).shortRttPolicerInactiveTicks then
      ¬ latched self stream (n + 1) ∧ (self.after stream (n + 1)).lossPpm = 0 ∧
        (self.after stream (n + 1)).protectionSamples = 0
    else
      latched self stream (n + 1) ∧
        (self.after stream (n + 1)).shortRttPolicerPacingCapBytesPerSecond =
          (self.after stream n).shortRttPolicerPacingCapBytesPerSecond := by
  obtain ⟨-, -, -, same, ticks, cap⟩ := smoothed_spec (self.after stream n) (stream n)
  have step := trackPolicer_latched _ (same.trans now) (stream n).1
  rw [latched, after_succ]
  grind

theorem free_succ (free : ¬ latched self stream n) :
    (self.after stream (n + 1)).lossPpm = foldLoss (self.after stream n).lossPpm (stream n) ∧
      (hasProtectionEvidence (stream n).1 = false →
        (self.after stream (n + 1)).protectionSamples =
          (self.after stream n).protectionSamples) ∧
      (latched self stream (n + 1) →
        (self.after stream (n + 1)).protectionSamples ≠ 0 ∧
        ∃ cap, (self.after stream (n + 1)).shortRttPolicerPacingCapBytesPerSecond = some cap ∧
          0 < cap ∧ cap * 100 ≤ (stream n).1.controllerBwBytesPerSecond * 95) := by
  obtain ⟨-, loss, evidence, same, -, -⟩ := smoothed_spec (self.after stream n) (stream n)
  have before : (self.after stream n).shortRttPolicerLimited = false := by simpa using free
  have step := trackPolicer_free _ (same.trans before) (stream n).1
  rw [latched, after_succ]
  grind

/-- An episode lasts, with its cap, until the second of two idle samples in a row. -/
theorem latched_lasts (start : latched self stream (n + 1)) (more : Nat)
    (active : ∀ k, n ≤ k → k < n + more → ¬ (idle stream k ∧ idle stream (k + 1))) :
    latched self stream (n + more + 1) ∧
      (self.after stream (n + more + 1)).shortRttPolicerPacingCapBytesPerSecond =
        (self.after stream (n + 1)).shortRttPolicerPacingCapBytesPerSecond := by
  induction more with
  | zero => exact ⟨start, rfl⟩
  | succ more ih =>
    obtain ⟨still, cap⟩ := ih fun k late early => active k late (by omega)
    have step := latched_succ still
    have ticks := latched_ticks still
    grind

/-- After an episode, loss and evidence count from zero. -/
theorem released (ended : latched self stream n) (done : ¬ latched self stream (n + 1))
    (more : Nat) (free : ∀ k, k < more → ¬ latched self stream (n + 1 + k)) :
    (self.after stream (n + 1 + more)).lossPpm =
        ((List.range more).map fun k => stream (n + 1 + k)).foldl foldLoss 0 ∧
      ((∀ k, k < more → hasProtectionEvidence (stream (n + 1 + k)).1 = false) →
        (self.after stream (n + 1 + more)).protectionSamples = 0) := by
  induction more with
  | zero =>
    have step := latched_succ ended
    grind
  | succ more ih =>
    obtain ⟨loss, evidence⟩ := ih fun k early => free k (by omega)
    obtain ⟨folded, counted, -⟩ := free_succ (free more (by omega))
    rw [List.range_succ, List.map_append, List.foldl_append, ← loss]
    refine ⟨folded, fun none => ?_⟩
    rw [← Nat.add_assoc, counted (none more (by omega))]
    exact evidence fun k early => none k (by omega)

/-- In every run between resets: an episode keeps its latch and its cap until the second of two idle
samples in a row, which ends it; the cap captured at its entry is positive and at most 95% of the
controller's bandwidth; and the next episode needs new evidence, with a filtered loss that is
computed from the samples after the last one. -/
theorem policer_episodes_latch (bounds : AutoTuneBoundsV2) (stream : Nat → Sampled) :
    (∀ n more, latched (new bounds) stream (n + 1) →
      (∀ k, n ≤ k → k < n + more → ¬ (idle stream k ∧ idle stream (k + 1))) →
      latched (new bounds) stream (n + more + 1) ∧
        ((new bounds).after stream (n + more + 1)).shortRttPolicerPacingCapBytesPerSecond =
          ((new bounds).after stream (n + 1)).shortRttPolicerPacingCapBytesPerSecond) ∧
    (∀ n, latched (new bounds) stream (n + 1) → idle stream n → idle stream (n + 1) →
      ¬ latched (new bounds) stream (n + 2)) ∧
    (∀ n, ¬ latched (new bounds) stream n → latched (new bounds) stream (n + 1) →
      ∃ cap, ((new bounds).after stream (n + 1)).shortRttPolicerPacingCapBytesPerSecond = some cap ∧
        0 < cap ∧ cap * 100 ≤ (stream n).1.controllerBwBytesPerSecond * 95) ∧
    (∀ n more, latched (new bounds) stream n →
      (∀ k, k ≤ more → ¬ latched (new bounds) stream (n + 1 + k)) →
      latched (new bounds) stream (n + 1 + (more + 1)) →
      (∃ k, k ≤ more ∧ hasProtectionEvidence (stream (n + 1 + k)).1 = true) ∧
        ((new bounds).after stream (n + 1 + (more + 1))).lossPpm =
          ((List.range (more + 1)).map fun k => stream (n + 1 + k)).foldl foldLoss 0) := by
  refine ⟨fun n more => ?_, fun n now first second => ?_, fun n free entered => ?_,
    fun n more ended free entered => ?_⟩
  · exact fun start active => latched_lasts start more active
  · have step := latched_succ now
    have ticks := latched_ticks now
    grind
  · exact ((free_succ free).2.2 entered).2
  · obtain ⟨loss, evidence⟩ :=
      released ended (free 0 (by omega)) (more + 1) fun k early => free k (by omega)
    refine ⟨?_, loss⟩
    -- without evidence the counter would still be zero at the entry
    by_contra none
    push Not at none
    have zero := evidence fun k early => by simpa using none k (by omega)
    exact ((free_succ (free more le_rfl)).2.2 entered).1 zero

/-- A short path behind a shallow policer, idle for the second and the third sample. -/
def policedTwice (n : Nat) : Sampled :=
  let policed := { lossySample 1 with
    rtt := 5000000, minRtt := 5000000, controllerBwBytesPerSecond := 10000000 }
  (if n = 1 ∨ n = 2 then { policed with
    realTrafficBytesPerSecond := 0, tunIngressBytesPerSecond := 0, packetTrainQueueBytes := 0 }
  else policed, 0)

/-- Its first episode outlasts one idle sample and ends with the next; the second one starts from
the loss of the sample after that. -/
theorem policer_episodes_latch_twice : (latched (new {}) policedTwice 2 ∧
      ((new {}).after policedTwice 2).shortRttPolicerPacingCapBytesPerSecond = some 9500000) ∧
    ¬ latched (new {}) policedTwice 3 ∧ latched (new {}) policedTwice 4 ∧
      ((new {}).after policedTwice 4).lossPpm = foldLoss 0 (policedTwice 3) := by
  obtain ⟨lasts, ends, -, starts⟩ := policer_episodes_latch {} policedTwice
  have first : latched (new {}) policedTwice 1 := by decide +kernel
  obtain ⟨still, cap⟩ := lasts 0 1 first fun k _ early => by
    obtain rfl : k = 0 := by omega
    decide
  have ended := ends 1 still (by decide) (by decide)
  have again : latched (new {}) policedTwice 4 := by decide +kernel
  obtain ⟨-, loss⟩ := starts 2 0 still (fun k none => by rwa [Nat.le_zero.mp none]) again
  exact ⟨⟨still, cap.trans (by decide +kernel)⟩, ended, again, loss⟩

end TelemetryFilterV1
end Ironet.Policy
