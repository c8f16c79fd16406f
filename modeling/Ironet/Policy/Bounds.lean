import Ironet.Policy.Guardrails

/-!
# What the guardrails guarantee

Every domain of the effective action is within the limits of the host, and a second pass changes and
reports nothing. For each guard there are two lemmas: what it yields, and that it is silent where
there is nothing to correct. The settled actions are those on which all guards are silent.
-/
namespace Ironet.Policy
open Support Reporting Ironet.Fec

/-! ### Clamps -/

/-- Between a floor and a cap, where a cap of zero is none. -/
def Within (floor cap value : Nat) : Prop := floor ≤ value ∧ (cap = 0 ∨ value ≤ cap)

/-- The cap, if there is one, leaves room for the floor. -/
def Proper (floor cap : Nat) : Prop := cap = 0 ∨ floor ≤ cap

variable {field : ClampFieldV1} {limits : HostLimitsV1} {value floor cap : Nat}

theorem clampReported_within (proper : Proper floor cap) :
    Yields (clampReported field value floor cap) (Within floor cap) := by
  apply Yields.ite
  · intro _
    exact .skip fun _ => .pure ⟨le_rfl, proper⟩
  intro above
  apply Yields.ite
  · rintro ⟨capped, exceeds⟩
    unfold Proper at proper
    exact .skip fun _ => .pure ⟨by omega, .inr le_rfl⟩
  · intro under
    exact .pure ⟨by omega, by omega⟩

theorem clampReported_silent (within : Within floor cap value) :
    Silent (clampReported field value floor cap) value := by
  obtain ⟨above, under⟩ := within
  rw [clampReported, if_neg (by omega), if_neg (by omega)]
  exact .pure

/-! ### BBR -/

/-- Every knob is in the range of the controller, and the caps are usable. -/
structure BbrInRange (limits : HostLimitsV1) (bbr : BbrEffectiveV1) : Prop where
  probeBwUpPacingGain : Within 1050 1500 bbr.probeBwUpPacingGainMilli
  probeBwDownPacingGain : Within 700 950 bbr.probeBwDownPacingGainMilli
  cruisePacingGain : Within 950 1020 bbr.cruisePacingGainMilli
  defaultCwndGain : Within 1200 3000 bbr.defaultCwndGainMilli
  probeBwUpCwndGain : Within 1500 3500 bbr.probeBwUpCwndGainMilli
  headroom : Within 50 400 bbr.headroomMilli
  beta : Within 500 900 bbr.betaMilli
  lossThreshold : Within 5 100 bbr.lossThresholdMilli
  queueGuardInflation : Within 200 1500 bbr.queueGuardInflationMilli
  probeRttCwndGain : Within 100 3500 bbr.probeRttCwndGainMilli
  queueGuardSlack : Within 2000 50000 bbr.queueGuardSlackMicros
  probeRttInterval : Within 2000 30000 bbr.probeRttIntervalMillis
  probeRttDuration : Within 100 500 bbr.probeRttDurationMillis
  minProbeWait : Within 1000 10000 bbr.minProbeWaitMillis
  maxAddedProbeWait : Within 0 5000 bbr.maxAddedProbeWaitMillis
  pacingFloor : bbr.pacingCapBytesPerSecond = 0 ∨
    pacingCapFloorBytesPerSecond ≤ bbr.pacingCapBytesPerSecond
  nodeCap : limits.pacingCapBytesPerSecond = 0 ∨
    (bbr.pacingCapBytesPerSecond ≠ 0 ∧
      bbr.pacingCapBytesPerSecond ≤ limits.pacingCapBytesPerSecond)
  cwndCap : bbr.cwndCapBytes = 0 ∨ cwndCapFloorBytes ≤ bbr.cwndCapBytes
  cwndFloor : bbr.cwndCapBytes = 0 ∨ bbr.cwndFloorBytes ≤ bbr.cwndCapBytes

theorem guardPacingFloor_yields (requested : Nat) :
    Yields (guardPacingFloor requested) fun cap => cap = 0 ∨ pacingCapFloorBytesPerSecond ≤ cap :=
  .guard (fun _ => .inr le_rfl) fun fine => by omega

variable {requested : Nat}

theorem guardNodeCap_yields {nodeCap : Nat}
    (usable : nodeCap = 0 ∨ pacingCapFloorBytesPerSecond ≤ nodeCap)
    (floored : requested = 0 ∨ pacingCapFloorBytesPerSecond ≤ requested) :
    Yields (guardNodeCap nodeCap requested) fun cap =>
      (cap = 0 ∨ pacingCapFloorBytesPerSecond ≤ cap) ∧ (nodeCap = 0 ∨ (cap ≠ 0 ∧ cap ≤ nodeCap)) :=
  .guard (fun bad => ⟨usable, .inr ⟨bad.1, le_rfl⟩⟩) fun fine => ⟨floored, by omega⟩

theorem guardCwndCap_yields (requested : Nat) :
    Yields (guardCwndCap requested) fun cap => cap = 0 ∨ cwndCapFloorBytes ≤ cap :=
  .guard (fun _ => .inr le_rfl) fun fine => by omega

theorem guardCwndFloor_yields (cap requested : Nat) :
    Yields (guardCwndFloor cap requested) fun floor => cap = 0 ∨ floor ≤ cap :=
  .guard (fun _ => .inr le_rfl) fun fine => by omega

theorem guardBbr_inRange (usable : limits.pacingCapBytesPerSecond = 0 ∨
      pacingCapFloorBytesPerSecond ≤ limits.pacingCapBytesPerSecond) (bbr : BbrEffectiveV1) :
    Yields (guardBbr limits bbr) (BbrInRange limits) := by
  have range : ∀ {field : ClampFieldV1} {value floor cap : Nat}, floor ≤ cap →
      Yields (clampReported field value floor cap) (Within floor cap) :=
    fun fits => clampReported_within (.inr fits)
  refine .bind (range (by decide)) fun _ upGain => ?_
  refine .bind (range (by decide)) fun _ downGain => ?_
  refine .bind (range (by decide)) fun _ cruise => ?_
  refine .bind (range (by decide)) fun _ cwndGain => ?_
  refine .bind (range (by decide)) fun _ upCwndGain => ?_
  refine .bind (range (by decide)) fun _ headroom => ?_
  refine .bind (range (by decide)) fun _ beta => ?_
  refine .bind (range (by decide)) fun _ loss => ?_
  refine .bind (range (by decide)) fun _ inflation => ?_
  refine .bind (range (by decide)) fun _ rttCwndGain => ?_
  refine .bind (range (by decide)) fun _ slack => ?_
  refine .bind (range (by decide)) fun _ interval => ?_
  refine .bind (range (by decide)) fun _ duration => ?_
  refine .bind (range (by decide)) fun _ minWait => ?_
  refine .bind (range (by decide)) fun _ addedWait => ?_
  refine .bind (guardPacingFloor_yields _) fun _ floored => ?_
  refine .bind (guardNodeCap_yields usable floored) fun _ pacing => ?_
  refine .bind (guardCwndCap_yields _) fun _ cwndCap => ?_
  refine .bind (guardCwndFloor_yields _ _) fun _ cwndFloor => ?_
  exact .pure ⟨upGain, downGain, cruise, cwndGain, upCwndGain, headroom, beta, loss, inflation,
    rttCwndGain, slack, interval, duration, minWait, addedWait, pacing.1, pacing.2, cwndCap,
    cwndFloor⟩

theorem guardBbr_silent {bbr : BbrEffectiveV1}
    (range : BbrInRange limits bbr) : Silent (guardBbr limits bbr) bbr := by
  have pacingFloor : Silent (guardPacingFloor bbr.pacingCapBytesPerSecond)
      bbr.pacingCapBytesPerSecond :=
    .guard (by have := range.pacingFloor; omega)
  have nodeCap : Silent (guardNodeCap limits.pacingCapBytesPerSecond bbr.pacingCapBytesPerSecond)
      bbr.pacingCapBytesPerSecond :=
    .guard (by have := range.nodeCap; omega)
  have cwndCap : Silent (guardCwndCap bbr.cwndCapBytes) bbr.cwndCapBytes :=
    .guard (by have := range.cwndCap; omega)
  have cwndFloor : Silent (guardCwndFloor bbr.cwndCapBytes bbr.cwndFloorBytes)
      bbr.cwndFloorBytes :=
    .guard (by have := range.cwndFloor; omega)
  refine .bind (clampReported_silent range.probeBwUpPacingGain) ?_
  refine .bind (clampReported_silent range.probeBwDownPacingGain) ?_
  refine .bind (clampReported_silent range.cruisePacingGain) ?_
  refine .bind (clampReported_silent range.defaultCwndGain) ?_
  refine .bind (clampReported_silent range.probeBwUpCwndGain) ?_
  refine .bind (clampReported_silent range.headroom) ?_
  refine .bind (clampReported_silent range.beta) ?_
  refine .bind (clampReported_silent range.lossThreshold) ?_
  refine .bind (clampReported_silent range.queueGuardInflation) ?_
  refine .bind (clampReported_silent range.probeRttCwndGain) ?_
  refine .bind (clampReported_silent range.queueGuardSlack) ?_
  refine .bind (clampReported_silent range.probeRttInterval) ?_
  refine .bind (clampReported_silent range.probeRttDuration) ?_
  refine .bind (clampReported_silent range.minProbeWait) ?_
  refine .bind (clampReported_silent range.maxAddedProbeWait) ?_
  refine .bind pacingFloor (.bind nodeCap ?_)
  exact .bind cwndCap (.bind cwndFloor .pure)

/-! ### Scheduler -/

/-- One Cell while latency traffic is queued, and within the limits otherwise. -/
def QuantumSettled (limits : HostLimitsV1) (ctx : GuardrailContextV1) (quantum : Nat) : Prop :=
  if ctx.latencyQueueActive then quantum = 1
  else Within (max limits.bulkQuantumFloorCells 1) limits.bulkQuantumCapCells quantum

structure SchedulerSettled (limits : HostLimitsV1) (ctx : GuardrailContextV1)
    (scheduler : SchedulerEffectiveV1) : Prop where
  trainTarget : Within limits.trainTargetFloorBytes limits.trainTargetCapBytes
    scheduler.trainTargetBytes
  quantum : QuantumSettled limits ctx scheduler.bulkQuantumCells
  admissionWindow : scheduler.bulkAdmissionWindowBytes = 0
  presetHint : scheduler.presetHint = .hostDefault

theorem guardQuantum_yields
    (proper : Proper limits.bulkQuantumFloorCells limits.bulkQuantumCapCells)
    (ctx : GuardrailContextV1) (requested : Nat) :
    Yields (guardQuantum limits ctx requested) (QuantumSettled limits ctx) := by
  unfold guardQuantum QuantumSettled
  cases ctx.latencyQueueActive with
  | true =>
    exact .guard (fun _ => rfl) fun one => not_not.mp one
  | false =>
  apply clampReported_within
  rcases proper with none | fits
  · exact .inl none
  · -- a cap that is set is at least one
    unfold Proper
    omega

variable {ctx : GuardrailContextV1}

theorem guardQuantum_silent {quantum : Nat} (settled : QuantumSettled limits ctx quantum) :
    Silent (guardQuantum limits ctx quantum) quantum := by
  unfold guardQuantum QuantumSettled at *
  cases latency : ctx.latencyQueueActive with
  | true =>
    simp only [latency, if_true] at settled ⊢
    rw [if_neg (not_not.mpr settled)]
    exact .pure
  | false =>
    simp only [latency, Bool.false_eq_true, if_false] at settled ⊢
    exact clampReported_silent settled

theorem guardBatching_yields (field : ClampFieldV1) (ctx : GuardrailContextV1)
    (base requested : Nat) : Yields (guardBatching field ctx base requested) fun value =>
      (value = requested ∨ (value = base ∧ base < requested ∧ ctx.cpuEmergency = true)) ∧
        (ctx.cpuEmergency = true → value ≤ base) :=
  .guard (fun ⟨emergency, less⟩ => ⟨.inr ⟨rfl, less, emergency⟩, fun _ => le_rfl⟩) fun fine =>
    ⟨.inl rfl, fun emergency => not_lt.mp fun less => fine ⟨emergency, less⟩⟩

theorem guardBatching_silent (field : ClampFieldV1) (ctx : GuardrailContextV1) (value : Nat) :
    Silent (guardBatching field ctx value value) value :=
  .guard fun less => absurd less.2 (lt_irrefl _)

variable {α : Type}

theorem guardUnsupported_yields [DecidableEq α] (field : ClampFieldV1) (hostDefault : α)
    (asked : Option Int) (requested : α) :
    Yields (guardUnsupported field hostDefault asked requested) (· = hostDefault) :=
  .guard (fun _ => rfl) fun same => not_not.mp same

variable {hostDefault : α} {asked : Option Int}

theorem guardUnsupported_silent [DecidableEq α] {requested : α} (same : requested = hostDefault) :
    Silent (guardUnsupported field hostDefault asked requested) requested :=
  .guard (not_not.mpr same)

/-- The base as the scheduler guard needs it. -/
structure SchedulerInside (limits : HostLimitsV1) (base : SchedulerEffectiveV1) : Prop where
  trainTarget : Within limits.trainTargetFloorBytes limits.trainTargetCapBytes
    base.trainTargetBytes
  quantum : Within limits.bulkQuantumFloorCells limits.bulkQuantumCapCells base.bulkQuantumCells

/-- Nothing is batched more than on the base. -/
def NotAbove (ctx : GuardrailContextV1) (base scheduler : SchedulerEffectiveV1) : Prop :=
  ctx.cpuEmergency = true → scheduler.trainTargetBytes ≤ base.trainTargetBytes ∧
    scheduler.bulkQuantumCells ≤ base.bulkQuantumCells

theorem guardScheduler_notAbove (limits : HostLimitsV1) (candidate : CandidateActionV1)
    (base : SchedulerEffectiveV1) (ctx : GuardrailContextV1) (scheduler : SchedulerEffectiveV1) :
    Yields (guardScheduler limits candidate base ctx scheduler) (NotAbove ctx base) := by
  refine .skip fun _ => .skip fun _ => ?_
  refine .bind (guardBatching_yields _ ctx _ _) fun train trainBelow => ?_
  refine .bind (guardBatching_yields _ ctx _ _) fun quantum quantumBelow => ?_
  refine .skip fun _ => .skip fun _ => .pure fun emergency => ?_
  exact ⟨trainBelow.2 emergency, quantumBelow.2 emergency⟩

/-- A quantum that is taken from the base is still settled, unless the base has none. -/
theorem quantumSettled_of_base
    {base : Nat} (inside : Within limits.bulkQuantumFloorCells limits.bulkQuantumCapCells base)
    (nonzero : base ≠ 0) (settled : QuantumSettled limits ctx requested) (less : base < requested) :
    QuantumSettled limits ctx base := by
  unfold QuantumSettled Within at *
  cases latency : ctx.latencyQueueActive with
  | true =>
    simp only [latency, if_true] at settled
    omega
  | false =>
    simp only [latency, Bool.false_eq_true, if_false] at settled ⊢
    omega

variable {base : SchedulerEffectiveV1}

theorem guardScheduler_settled
    (trainProper : Proper limits.trainTargetFloorBytes limits.trainTargetCapBytes)
    (quantumProper : Proper limits.bulkQuantumFloorCells limits.bulkQuantumCapCells)
    (inside : SchedulerInside limits base)
    (nonzero : ctx.cpuEmergency = true → base.bulkQuantumCells ≠ 0)
    (candidate : CandidateActionV1) (scheduler : SchedulerEffectiveV1) :
    Yields (guardScheduler limits candidate base ctx scheduler) (SchedulerSettled limits ctx) := by
  refine .bind (clampReported_within trainProper) fun _ trainWithin => ?_
  refine .bind (guardQuantum_yields quantumProper ctx _) fun _ quantumSettled => ?_
  refine .bind (guardBatching_yields _ ctx _ _) fun _ trainChoice => ?_
  refine .bind (guardBatching_yields _ ctx _ _) fun _ quantumChoice => ?_
  refine .bind (guardUnsupported_yields _ _ _ _) fun _ window => ?_
  refine .bind (guardUnsupported_yields _ _ _ _) fun _ hint => ?_
  refine .pure ⟨?_, ?_, window, hint⟩
  · rcases trainChoice.1 with rfl | ⟨rfl, -, -⟩
    · exact trainWithin
    · exact inside.trainTarget
  · rcases quantumChoice.1 with rfl | ⟨rfl, less, emergency⟩
    · exact quantumSettled
    · exact quantumSettled_of_base inside.quantum (nonzero emergency) quantumSettled less

variable {scheduler : SchedulerEffectiveV1}

theorem guardScheduler_silent (settled : SchedulerSettled limits ctx scheduler)
    (candidate : CandidateActionV1) :
    Silent (guardScheduler limits candidate scheduler ctx scheduler) scheduler := by
  refine .bind (clampReported_silent settled.trainTarget) ?_
  refine .bind (guardQuantum_silent settled.quantum) ?_
  refine .bind (guardBatching_silent _ ctx _) (.bind (guardBatching_silent _ ctx _) ?_)
  refine .bind (guardUnsupported_silent settled.admissionWindow) ?_
  exact .bind (guardUnsupported_silent settled.presetHint) .pure

/-! ### FEC -/

/-- A geometry within the caps and the parity ratio. -/
structure GeometryValid (limits : HostLimitsV1) (geometry : FecGeometryV2) : Prop where
  enoughData : 2 ≤ geometry.dataCells
  dataCap : geometry.dataCells ≤ limits.fecDataCellsCap.toNat
  parityCap : geometry.parityCells ≤ limits.fecParityCellsCap.toNat
  ratio : geometry.parityCells * 1000 ≤ geometry.dataCells * limits.fecParityPerMilleCap

variable {geometry : FecGeometryV2}

theorem fecViolation_eq_none :
    fecViolation limits geometry = none ↔ GeometryValid limits geometry := by
  unfold fecViolation
  constructor
  · intro none
    split_ifs at none with first second third
    exact ⟨by omega, by omega, by omega, by omega⟩
  · rintro ⟨enough, cap, parity, ratio⟩
    rw [if_neg (by omega), if_neg (by omega), if_neg (by omega)]

def FecInside (limits : HostLimitsV1) (fec : FecEffectiveV1) : Prop :=
  ∀ geometry, fec.toGeometry = some geometry → GeometryValid limits geometry

/-- Off in its canonical form, or on with a valid geometry where protection is allowed. -/
structure FecSettled (limits : HostLimitsV1) (ctx : GuardrailContextV1) (fec : FecEffectiveV1) :
    Prop where
  canonical : fec.enabled = false → fec = {}
  inside : FecInside limits fec
  suppressed : ctx.reliable = true ∨ ctx.cpuLimited = true → fec.enabled = false

theorem ofNat_min_toNat (cells : UInt8) : UInt8.ofNat (min cells.toNat u8Max) = cells := by
  have small := cells.toNat_lt
  rw [min_eq_left (by unfold u8Max; omega), UInt8.ofNat_toNat]

variable {fec : FecEffectiveV1}

/-- Turning protection into a geometry and back loses only the family. -/
theorem canonicalFec_toGeometry (is : fec.toGeometry = some geometry) (family : FecPresetFamilyV1) :
    canonicalFec (some geometry) family = { fec with presetFamily := family } := by
  obtain ⟨enabled, dataCells, parityCells, presetFamily⟩ := fec
  cases enabled with
  | false => cases is
  | true =>
    obtain rfl := Option.some.inj is
    simp [canonicalFec, FecEffectiveV1.fromGeometry, ofNat_min_toNat]

/-- The geometry that `guardGeometry` decides for, without its report. -/
def executedGeometry (limits : HostLimitsV1) (candidate : CandidateActionV1)
    (base : FecEffectiveV1) (ctx : GuardrailContextV1) (fec : FecEffectiveV1) :
    Option FecGeometryV2 × FecPresetFamilyV1 :=
  if ctx.reliable || ctx.cpuLimited then (none, fec.presetFamily)
  else if ctx.protectionEmergency && requestedOff candidate && base.enabled then
    (base.toGeometry, base.presetFamily)
  else
    ((resolveFamily candidate fec).toGeometry.filter fun geometry =>
      (fecViolation limits geometry).isNone, fec.presetFamily)

theorem guardGeometry_yields (limits : HostLimitsV1) (candidate : CandidateActionV1)
    (base : FecEffectiveV1) (ctx : GuardrailContextV1) (fec : FecEffectiveV1) :
    Yields (guardGeometry limits candidate base ctx fec)
      (· = executedGeometry limits candidate base ctx fec) := by
  unfold guardGeometry executedGeometry
  cases suppressed : ctx.reliable || ctx.cpuLimited with
  | true =>
    simp only [if_true]
    exact .guard (fun _ => rfl) fun off => by rw [Option.not_isSome_iff_eq_none.mp off]
  | false =>
  cases emergency : ctx.protectionEmergency && requestedOff candidate && base.enabled with
  | true => exact .skip fun _ => .pure rfl
  | false =>
  cases (resolveFamily candidate fec).toGeometry with
  | none => exact .pure rfl
  | some geometry =>
  cases violation : fecViolation limits geometry with
  | none =>
    simp only [violation]
    exact .pure (by simp [Option.filter, violation])
  | some broken =>
    simp only [violation]
    exact .skip fun _ => .pure (by simp [Option.filter, violation])

theorem guardFec_yields (limits : HostLimitsV1) (candidate : CandidateActionV1)
    (base : FecEffectiveV1) (ctx : GuardrailContextV1) (fec : FecEffectiveV1) :
    Yields (guardFec limits candidate base ctx fec) fun result =>
      result = canonicalFec (executedGeometry limits candidate base ctx fec).1
        (executedGeometry limits candidate base ctx fec).2 :=
  .bind (guardGeometry_yields limits candidate base ctx fec) fun _ same => .pure (by rw [← same])

variable {candidate : CandidateActionV1}

theorem executedGeometry_valid {base : FecEffectiveV1} (inside : FecInside limits base)
    (executed : (executedGeometry limits candidate base ctx fec).1 = some geometry) :
    (ctx.reliable || ctx.cpuLimited) = false ∧ GeometryValid limits geometry ∧
      ∃ source : FecEffectiveV1, source.toGeometry = some geometry := by
  unfold executedGeometry at executed
  split_ifs at executed with suppressed emergency
  · exact ⟨Bool.not_eq_true _ ▸ suppressed, inside geometry executed, base, executed⟩
  · obtain ⟨source, valid⟩ := Option.filter_eq_some_iff.mp executed
    refine ⟨Bool.not_eq_true _ ▸ suppressed, ?_, _, source⟩
    exact fecViolation_eq_none.mp (Option.isNone_iff_eq_none.mp valid)

theorem guardFec_settled {base : FecEffectiveV1}
    (inside : FecInside limits base) (candidate : CandidateActionV1) (ctx : GuardrailContextV1)
    (fec : FecEffectiveV1) :
    Yields (guardFec limits candidate base ctx fec) (FecSettled limits ctx) := by
  refine (guardFec_yields limits candidate base ctx fec).mono ?_
  rintro _ rfl
  cases executed : (executedGeometry limits candidate base ctx fec).1 with
  | none => exact ⟨fun _ => rfl, nofun, fun _ => rfl⟩
  | some geometry =>
  obtain ⟨allowed, valid, source, isSource⟩ := executedGeometry_valid inside executed
  rw [canonicalFec_toGeometry isSource]
  have enabled : source.enabled = true := by
    cases on : source.enabled with
    | true => rfl
    | false => simp [FecEffectiveV1.toGeometry, on] at isSource
  constructor
  · intro off
    exact absurd (enabled.symm.trans off) (by decide)
  · intro other isOther
    obtain rfl := Option.some.inj (isSource.symm.trans isOther)
    exact valid
  · rintro (reliable | limited)
    · simp [reliable] at allowed
    · simp [limited] at allowed

theorem guardFec_silent (settled : FecSettled limits ctx fec) (base : FecEffectiveV1) :
    Silent (guardFec limits {} base ctx fec) fec := by
  have off : requestedOff {} = false := rfl
  have unresolved : resolveFamily {} fec = fec := rfl
  have geometry : Silent (guardGeometry limits {} base ctx fec)
      (fec.toGeometry, fec.presetFamily) := by
    unfold guardGeometry
    simp only [off, unresolved, Bool.and_false, Bool.false_and, Bool.false_eq_true, if_false]
    cases enabled : fec.enabled with
    | false =>
      have none : fec.toGeometry = none := by simp [FecEffectiveV1.toGeometry, enabled]
      simp only [none, Option.isSome_none, Bool.false_eq_true, if_false, ite_self]
      exact .pure
    | true =>
    have allowed : (ctx.reliable || ctx.cpuLimited) = false := by
      by_contra suppressed
      have forbidden := settled.suppressed
        (Bool.or_eq_true_iff.mp (Bool.of_not_eq_false suppressed))
      rw [enabled] at forbidden
      cases forbidden
    simp only [allowed, Bool.false_eq_true, if_false]
    cases is : fec.toGeometry with
    | none => exact .pure
    | some geometry =>
      simp only [fecViolation_eq_none.mpr (settled.inside geometry is)]
      exact .pure
  refine .bind geometry ?_
  have same : canonicalFec fec.toGeometry fec.presetFamily = fec := by
    cases is : fec.toGeometry with
    | some geometry => exact canonicalFec_toGeometry is _
    | none =>
    have disabled : fec.enabled = false := by
      cases enabled : fec.enabled with
      | false => rfl
      | true => simp [FecEffectiveV1.toGeometry, enabled] at is
    exact (settled.canonical disabled).symm
  change Silent (pure (canonicalFec fec.toGeometry fec.presetFamily)) fec
  rw [same]
  exact .pure

/-! ### Repair -/

structure RepairSettled (ctx : GuardrailContextV1) (fec : FecEffectiveV1)
    (repair : RepairEffectiveV1) : Prop where
  cache : repair.cacheBytes = repairCache ctx fec
  retention : repair.retentionTargetMillis ≤ repairRetentionCapMillis
  responsibility : repair.responsibility = .hostDefault

theorem guardRetention_yields (requested : Nat) :
    Yields (guardRetention requested) (· ≤ repairRetentionCapMillis) :=
  .guard (fun _ => le_rfl) fun fine => by omega

theorem guardRepair_settled (candidate : CandidateActionV1) (ctx : GuardrailContextV1)
    (fec : FecEffectiveV1) (repair : RepairEffectiveV1) :
    Yields (guardRepair candidate ctx fec repair) (RepairSettled ctx fec) := by
  refine .skip fun _ => .bind (guardRetention_yields _) fun _ retention => ?_
  refine .bind (guardUnsupported_yields _ _ _ _) fun _ responsibility => ?_
  exact .pure ⟨rfl, retention, responsibility⟩

variable {repair : RepairEffectiveV1}

theorem guardRepair_silent (settled : RepairSettled ctx fec repair) :
    Silent (guardRepair {} ctx fec repair) repair := by
  have retention : Silent (guardRetention repair.retentionTargetMillis)
      repair.retentionTargetMillis :=
    .guard (by have := settled.retention; omega)
  refine .bind .pure (.bind retention (.bind (guardUnsupported_silent settled.responsibility) ?_))
  rw [← settled.cache]
  exact .pure

/-! ### Transmit and receive -/

structure TxSettled (limits : HostLimitsV1) (tx : TxEffectiveV1) : Prop where
  sendBuffer : Within limits.sendBufferFloorBytes limits.sendBufferCapBytes tx.sendBufferBytes
  datagramAdmission : tx.datagramAdmissionBytes = 0
  producerWindow : tx.producerWindowBytes = 0

theorem guardTx_settled (proper : Proper limits.sendBufferFloorBytes limits.sendBufferCapBytes)
    (candidate : CandidateActionV1) (tx : TxEffectiveV1) :
    Yields (guardTx limits candidate tx) (TxSettled limits) := by
  refine .bind (clampReported_within proper) fun _ buffer => ?_
  refine .bind (guardUnsupported_yields _ _ _ _) fun _ admission => ?_
  refine .bind (guardUnsupported_yields _ _ _ _) fun _ window => ?_
  exact .pure ⟨buffer, admission, window⟩

variable {tx : TxEffectiveV1}

theorem guardTx_silent (settled : TxSettled limits tx) (candidate : CandidateActionV1) :
    Silent (guardTx limits candidate tx) tx := by
  refine .bind (clampReported_silent settled.sendBuffer) ?_
  refine .bind (guardUnsupported_silent settled.datagramAdmission) ?_
  exact .bind (guardUnsupported_silent settled.producerWindow) .pure

/-- The cap of an explicit reassembly budget. -/
def reassemblyCap (limits : HostLimitsV1) (receiveBufferBytes : Nat) : Nat :=
  min limits.receiveBufferCapBytes receiveBufferBytes

structure RxSettled (limits : HostLimitsV1) (rx : RxEffectiveV1) : Prop where
  receiveBuffer : Within limits.receiveBufferFloorBytes limits.receiveBufferCapBytes
    rx.receiveBufferBytes
  receiveBatch : Within 1 (max limits.receiveBatchCap 1) rx.receiveBatch
  reassembly : rx.reassemblyBudgetBytes = 0 ∨
    Within (min reassemblyBudgetFloorBytes (reassemblyCap limits rx.receiveBufferBytes))
      (reassemblyCap limits rx.receiveBufferBytes) rx.reassemblyBudgetBytes
  activeTrains : rx.activeTrainBudget ≤ activeTrainBudgetCap

/-- An explicit budget is clamped, except that a cap of zero does not bind. -/
theorem guardReassembly_yields (limits : HostLimitsV1) (receiveBufferBytes requested : Nat) :
    Yields (guardReassembly limits receiveBufferBytes requested) fun budget =>
      (budget = 0 ∨ Within (min reassemblyBudgetFloorBytes
        (reassemblyCap limits receiveBufferBytes))
        (reassemblyCap limits receiveBufferBytes) budget) ∧
      (reassemblyCap limits receiveBufferBytes = 0 → budget = requested) := by
  apply Yields.ite
  · intro _
    refine ⟨.inr ?_, ?_⟩
    · exact clampReported_within (.inr (min_le_right _ _))
    · intro none
      change (clampReported _ _ (min _ (reassemblyCap limits receiveBufferBytes))
        (reassemblyCap limits receiveBufferBytes)).run.1 = _
      rw [none, Nat.min_zero, clampReported_silent ⟨Nat.zero_le _, .inl rfl⟩]
  · intro zero
    exact .pure ⟨.inl (not_not.mp zero), fun _ => rfl⟩

theorem guardReassembly_silent {receiveBufferBytes budget : Nat} (settled : budget = 0 ∨
      Within (min reassemblyBudgetFloorBytes (reassemblyCap limits receiveBufferBytes))
        (reassemblyCap limits receiveBufferBytes) budget) :
    Silent (guardReassembly limits receiveBufferBytes budget) budget := by
  apply Silent.ite
  · intro nonzero
    exact clampReported_silent (settled.resolve_left nonzero)
  · intro _
    exact .pure

theorem guardActiveTrains_yields (requested : Nat) :
    Yields (guardActiveTrains requested) (· ≤ activeTrainBudgetCap) := by
  apply Yields.ite
  · intro _
    refine (clampReported_within (.inr (by decide))).mono fun _ within => ?_
    exact within.2.resolve_left (by decide)
  · intro zero
    exact .pure (by omega)

/-- What the limits make of a requested receive buffer. -/
def clampedReceiveBuffer (limits : HostLimitsV1) (requested : Nat) : Nat :=
  if requested < limits.receiveBufferFloorBytes then limits.receiveBufferFloorBytes
  else if limits.receiveBufferCapBytes = 0 then requested
  else min limits.receiveBufferCapBytes requested

theorem clampReported_receiveBuffer (limits : HostLimitsV1) (requested : Nat) :
    Yields (clampReported field requested limits.receiveBufferFloorBytes
      limits.receiveBufferCapBytes) (· = clampedReceiveBuffer limits requested) := by
  unfold clampedReceiveBuffer
  apply Yields.ite
  · exact fun below => .skip fun _ => .pure (if_pos below).symm
  intro above
  rw [if_neg above]
  exact .guard (fun capped => by grind) fun fine => by grind

/-- The receive domain is settled; the budget follows the request where its cap is zero. -/
theorem guardRx_yields (proper : Proper limits.receiveBufferFloorBytes limits.receiveBufferCapBytes)
    (rx : RxEffectiveV1) : Yields (guardRx limits rx) fun out => RxSettled limits out ∧
      out.receiveBufferBytes = clampedReceiveBuffer limits rx.receiveBufferBytes ∧
      (reassemblyCap limits out.receiveBufferBytes = 0 →
        out.reassemblyBudgetBytes = rx.reassemblyBudgetBytes) := by
  refine .bind ((clampReported_within proper).and
    (clampReported_receiveBuffer limits _)) fun _ buffer => ?_
  refine .bind (clampReported_within (.inr (le_max_right _ _))) fun _ batch => ?_
  refine .bind (guardReassembly_yields limits _ _) fun _ reassembly => ?_
  refine .bind (guardActiveTrains_yields _) fun _ trains => ?_
  exact .pure ⟨⟨buffer.1, batch, reassembly.1, trains⟩, buffer.2, reassembly.2⟩

variable {rx : RxEffectiveV1}

theorem guardRx_silent (settled : RxSettled limits rx) : Silent (guardRx limits rx) rx := by
  have trains : Silent (guardActiveTrains rx.activeTrainBudget) rx.activeTrainBudget := by
    apply Silent.ite
    · intro nonzero
      exact clampReported_silent ⟨Nat.one_le_iff_ne_zero.mpr nonzero, .inr settled.activeTrains⟩
    · intro _
      exact .pure
  refine .bind (clampReported_silent settled.receiveBuffer) ?_
  refine .bind (clampReported_silent settled.receiveBatch) ?_
  exact .bind (guardReassembly_silent settled.reassembly) (.bind trains .pure)

/-! ### Cover -/

structure CoverSettled (limits : HostLimitsV1) (ctx : GuardrailContextV1)
    (cover : CoverEffectiveV1) : Prop where
  overhead : cover.overheadPerMille ≤ limits.coverOverheadCapPerMille
  suppressed : ctx.coverSuppression.isSome → cover.overheadPerMille = 0
  idle : cover.profile = .idle → cover.overheadPerMille = 0
  padding : cover.paddingBytesPerSecond = coverPadding ctx cover.overheadPerMille

theorem clampOverhead_yields (requested current effective : Nat) (reason : ClampReasonV1) :
    Yields (clampOverhead requested current effective reason) (· = effective) :=
  .guard (fun _ => rfl) fun same => not_not.mp same

variable {reason : ClampReasonV1} {current effective : Nat}

theorem clampOverhead_silent (same : current = effective) :
    Silent (clampOverhead requested current effective reason) current :=
  .guard (not_not.mpr same)

theorem suppressOverhead_yields (limits : HostLimitsV1) (base : CoverEffectiveV1)
    (suppression : Option ClampReasonV1) (requested : Nat) :
    Yields (suppressOverhead limits base suppression requested) fun overhead =>
      overhead ≤ limits.coverOverheadCapPerMille ∧
        (suppression.isSome ∨ base.overheadPerMille = 0 → overhead = 0) := by
  cases suppression with
  | some reason =>
    refine (clampOverhead_yields _ _ 0 reason).mono ?_
    rintro _ rfl
    exact ⟨Nat.zero_le _, fun _ => rfl⟩
  | none =>
  apply Yields.ite
  · intro _
    refine (clampOverhead_yields _ _ 0 _).mono ?_
    rintro _ rfl
    exact ⟨Nat.zero_le _, fun _ => rfl⟩
  intro covered
  apply Yields.ite
  · intro _
    refine (clampOverhead_yields _ _ _ _).mono ?_
    rintro _ rfl
    exact ⟨le_rfl, fun none => absurd (none.resolve_left (by simp)) covered⟩
  · intro under
    exact .pure ⟨not_lt.mp under, fun none => absurd (none.resolve_left (by simp)) covered⟩

theorem idleOverhead_yields (profile : CoverProfileV1) (requested overhead : Nat) :
    Yields (idleOverhead profile requested overhead) fun out =>
      (out = overhead ∨ out = 0) ∧ (profile = .idle → out = 0) := by
  apply Yields.ite
  · intro _
    exact (clampOverhead_yields _ _ 0 _).mono fun _ zero => ⟨.inr zero, fun _ => zero⟩
  · intro active
    exact .pure ⟨.inl rfl, fun idle => absurd idle active⟩

theorem guardCover_settled (limits : HostLimitsV1) (candidate : CandidateActionV1)
    (base : CoverEffectiveV1) (ctx : GuardrailContextV1) (cover : CoverEffectiveV1) :
    Yields (guardCover limits candidate base ctx cover) fun out =>
      CoverSettled limits ctx out ∧ (base.overheadPerMille = 0 → out.overheadPerMille = 0) := by
  refine .bind (suppressOverhead_yields limits base _ _) fun _ bounded => ?_
  refine .bind (idleOverhead_yields _ _ _) fun overhead idle => .skip fun _ => .pure ?_
  have kept : ∀ {reason : Prop},
      (reason → ctx.coverSuppression.isSome ∨ base.overheadPerMille = 0) →
      reason → overhead = 0 := by
    intro reason off holds
    rcases idle.1 with rfl | zero
    · exact bounded.2 (off holds)
    · exact zero
  refine ⟨⟨?_, kept .inl, idle.2, rfl⟩, kept .inr⟩
  rcases idle.1 with rfl | rfl
  · exact bounded.1
  · exact Nat.zero_le _

variable {cover : CoverEffectiveV1}

theorem guardCover_silent (settled : CoverSettled limits ctx cover) :
    Silent (guardCover limits {} cover ctx cover) cover := by
  have suppression : Silent
      (suppressOverhead limits cover ctx.coverSuppression cover.overheadPerMille)
      cover.overheadPerMille := by
    cases suppressed : ctx.coverSuppression with
    | some reason => exact clampOverhead_silent (settled.suppressed (by rw [suppressed]; rfl))
    | none =>
    apply Silent.ite
    · intro zero
      exact clampOverhead_silent zero
    intro _
    apply Silent.ite
    · intro exceeds
      exact absurd settled.overhead (not_le.mpr exceeds)
    · intro _
      exact .pure
  have idle : Silent (idleOverhead cover.profile cover.overheadPerMille cover.overheadPerMille)
      cover.overheadPerMille := by
    apply Silent.ite
    · intro idle
      exact clampOverhead_silent (settled.idle idle)
    · intro _
      exact .pure
  refine .bind suppression (.bind idle (.bind .pure ?_))
  rw [← settled.padding]
  exact .pure

/-! ### Egress -/

structure EgressSettled (limits : HostLimitsV1) (egress : EgressRequestV1) : Prop where
  priority : egress.priority ≤ limits.egressPriorityCap
  minimum : egress.desiredRateBytesPerSecond = 0 ∨
    egress.minimumRateBytesPerSecond ≤ egress.desiredRateBytesPerSecond

theorem guardEgress_settled (limits : HostLimitsV1) (egress : EgressRequestV1) :
    Yields (guardEgress limits egress) (EgressSettled limits) := by
  have priority : Yields (guardPriority limits egress.priority) (· ≤ limits.egressPriorityCap) :=
    .guard (fun _ => le_rfl) fun under => not_lt.mp under
  have minimum : Yields (guardMinimumRate egress.desiredRateBytesPerSecond
      egress.minimumRateBytesPerSecond) fun rate =>
      egress.desiredRateBytesPerSecond = 0 ∨ rate ≤ egress.desiredRateBytesPerSecond :=
    .guard (fun _ => .inr le_rfl) fun fine => by omega
  exact .bind priority fun _ low => .bind minimum fun _ fits => .pure ⟨low, fits⟩

variable {egress : EgressRequestV1}

theorem guardEgress_silent (settled : EgressSettled limits egress) :
    Silent (guardEgress limits egress) egress := by
  have priority : Silent (guardPriority limits egress.priority) egress.priority :=
    .guard (not_lt.mpr settled.priority)
  have minimum : Silent (guardMinimumRate egress.desiredRateBytesPerSecond
      egress.minimumRateBytesPerSecond) egress.minimumRateBytesPerSecond :=
    .guard (by have := settled.minimum; omega)
  exact .bind priority (.bind minimum .pure)

/-! ### The whole pass -/

/-- Nothing is left to clamp. -/
structure Settled (limits : HostLimitsV1) (ctx : GuardrailContextV1) (out : EffectiveActionV1) :
    Prop where
  bbr : BbrInRange limits out.bbr
  scheduler : SchedulerSettled limits ctx out.scheduler
  fec : FecSettled limits ctx out.fec
  repair : RepairSettled ctx out.fec out.repair
  tx : TxSettled limits out.tx
  rx : RxSettled limits out.rx
  cover : CoverSettled limits ctx out.cover
  egress : EgressSettled limits out.egress

variable {out : EffectiveActionV1} {guardrails : GuardrailsV1}

/-- A second pass over a settled action is the identity and reports nothing. -/
theorem reapply_of_settled (settled : Settled guardrails.limits ctx out) :
    guardrails.reapply out ctx = (out, []) := by
  have silent : Silent (guardrails.guards {} out ctx) out := by
    refine .bind (guardBbr_silent settled.bbr) ?_
    refine .bind (guardScheduler_silent settled.scheduler {}) ?_
    refine .bind (guardFec_silent settled.fec out.fec) ?_
    refine .bind (guardRepair_silent settled.repair) ?_
    refine .bind (guardTx_silent settled.tx {}) (.bind (guardRx_silent settled.rx) ?_)
    refine .bind (guardCover_silent settled.cover) ?_
    refine .bind (guardEgress_silent settled.egress) ?_
    exact .bind (.bind (.pushIf (Nat.not_lt_zero _)) .pure) .pure
  exact silent

/-- Every floor leaves room below its cap, and the node cap can be executed. -/
structure LimitsProper (limits : HostLimitsV1) : Prop where
  trainTarget : Proper limits.trainTargetFloorBytes limits.trainTargetCapBytes
  quantum : Proper limits.bulkQuantumFloorCells limits.bulkQuantumCapCells
  sendBuffer : Proper limits.sendBufferFloorBytes limits.sendBufferCapBytes
  receiveBuffer : Proper limits.receiveBufferFloorBytes limits.receiveBufferCapBytes
  pacingCap : limits.pacingCapBytesPerSecond = 0 ∨
    pacingCapFloorBytesPerSecond ≤ limits.pacingCapBytesPerSecond

/-- The fields that a guard takes from the base are inside the limits. -/
structure BaseInside (limits : HostLimitsV1) (base : EffectiveActionV1) : Prop where
  scheduler : SchedulerInside limits base.scheduler
  fec : FecInside limits base.fec

/-- What one pass returns. -/
structure Guards (limits : HostLimitsV1) (ctx : GuardrailContextV1) (candidate : CandidateActionV1)
    (base out : EffectiveActionV1) : Prop where
  bbr : BbrInRange limits out.bbr
  notAbove : NotAbove ctx base.scheduler out.scheduler
  scheduler : (ctx.cpuEmergency = true → base.scheduler.bulkQuantumCells ≠ 0) →
    SchedulerSettled limits ctx out.scheduler
  fec : FecSettled limits ctx out.fec
  repair : RepairSettled ctx out.fec out.repair
  tx : TxSettled limits out.tx
  rx : RxSettled limits out.rx
  buffer : out.rx.receiveBufferBytes =
    clampedReceiveBuffer limits (candidate.applyOver base).rx.receiveBufferBytes
  budget : reassemblyCap limits out.rx.receiveBufferBytes = 0 →
    out.rx.reassemblyBudgetBytes = (candidate.applyOver base).rx.reassemblyBudgetBytes
  cover : CoverSettled limits ctx out.cover
  coverless : base.cover.overheadPerMille = 0 → out.cover.overheadPerMille = 0
  egress : EgressSettled limits out.egress

theorem guardScheduler_yields (proper : LimitsProper limits) (inside : SchedulerInside limits base)
    (candidate : CandidateActionV1) (ctx : GuardrailContextV1) (scheduler : SchedulerEffectiveV1) :
    Yields (guardScheduler limits candidate base ctx scheduler) fun out =>
      NotAbove ctx base out ∧ ((ctx.cpuEmergency = true → base.bulkQuantumCells ≠ 0) →
        SchedulerSettled limits ctx out) :=
  (guardScheduler_notAbove limits candidate base ctx scheduler).and fun nonzero =>
    guardScheduler_settled proper.trainTarget proper.quantum inside nonzero candidate scheduler

theorem apply_guards (proper : LimitsProper guardrails.limits) {base : EffectiveActionV1}
    (inside : BaseInside guardrails.limits base) (candidate : CandidateActionV1)
    (ctx : GuardrailContextV1) :
    Guards guardrails.limits ctx candidate base (guardrails.apply candidate base ctx).1 := by
  have yields : Yields (guardrails.guards candidate base ctx)
      (Guards guardrails.limits ctx candidate base) := by
    refine .bind (guardBbr_inRange proper.pacingCap _) fun _ bbr => ?_
    refine .bind (guardScheduler_yields proper inside.scheduler _ ctx _) fun _ scheduler => ?_
    refine .bind (guardFec_settled inside.fec _ ctx _) fun _ fec => ?_
    refine .bind (guardRepair_settled _ ctx _ _) fun _ repair => ?_
    refine .bind (guardTx_settled proper.sendBuffer _ _) fun _ tx => ?_
    refine .bind (guardRx_yields proper.receiveBuffer _) fun _ rx => ?_
    refine .bind (guardCover_settled _ _ base.cover ctx _) fun _ cover => ?_
    refine .bind (guardEgress_settled _ _) fun _ egress => .skip fun _ => ?_
    exact .pure ⟨bbr, scheduler.1, scheduler.2, fec, repair, tx, rx.1, rx.2.1, rx.2.2, cover.1,
      cover.2, egress⟩
  exact yields

/-! ### A quantum of zero -/

section
variable (quiet : ctx.latencyQueueActive = false)
include quiet

/-- A quantum of zero is corrected on every pass, and the correction is reported. -/
theorem guardQuantum_speaks : Speaks (guardQuantum limits ctx 0) := by
  have below : 0 < max limits.bulkQuantumFloorCells 1 := by omega
  simp only [guardQuantum, quiet, Bool.false_eq_true, if_false, clampReported, below, if_true]
  exact (Speaks.push _).first

theorem reapply_speaks (zero : out.scheduler.bulkQuantumCells = 0) :
    (guardrails.reapply out ctx).2 ≠ [] := by
  have speaks : Speaks (guardScheduler guardrails.limits {} out.scheduler ctx out.scheduler) :=
    .later fun _ => .first (zero ▸ guardQuantum_speaks quiet)
  exact Speaks.later fun _ => .first speaks

end

/-! ### The guarantee -/

/-- All that the host relies on. -/
structure Bounded (limits : HostLimitsV1) (ctx : GuardrailContextV1)
    (base out : EffectiveActionV1) :
    Prop where
  trainTarget : Within limits.trainTargetFloorBytes limits.trainTargetCapBytes
    out.scheduler.trainTargetBytes
  sendBuffer : Within limits.sendBufferFloorBytes limits.sendBufferCapBytes out.tx.sendBufferBytes
  receiveBuffer : Within limits.receiveBufferFloorBytes limits.receiveBufferCapBytes
    out.rx.receiveBufferBytes
  receiveBatch : Within 1 (max limits.receiveBatchCap 1) out.rx.receiveBatch
  quantum : if ctx.latencyQueueActive then out.scheduler.bulkQuantumCells = 1
    else Within limits.bulkQuantumFloorCells limits.bulkQuantumCapCells
      out.scheduler.bulkQuantumCells
  notAbove : NotAbove ctx base.scheduler out.scheduler
  fec : FecSettled limits ctx out.fec
  repairCache : out.repair.cacheBytes = Policy.repairCache ctx out.fec
  retention : out.repair.retentionTargetMillis ≤ repairRetentionCapMillis
  reassembly : out.rx.reassemblyBudgetBytes = 0 ∨
    out.rx.reassemblyBudgetBytes ≤ out.rx.receiveBufferBytes
  activeTrains : out.rx.activeTrainBudget ≤ activeTrainBudgetCap
  cover : CoverSettled limits ctx out.cover
  coverless : base.cover.overheadPerMille = 0 → out.cover.overheadPerMille = 0
  bbr : BbrInRange limits out.bbr
  egress : EgressSettled limits out.egress

/-- A zero quantum of the base does not come back in an emergency. -/
def QuantumKept (ctx : GuardrailContextV1) (base : EffectiveActionV1) : Prop :=
  ctx.cpuEmergency = true → base.scheduler.bulkQuantumCells ≠ 0

/-- The cap of an explicit reassembly budget binds, or is not needed. -/
def BudgetCapped (limits : HostLimitsV1) (candidate : CandidateActionV1)
    (base : EffectiveActionV1) :
    Prop :=
  let requested := (candidate.applyOver base).rx
  let buffer := clampedReceiveBuffer limits requested.receiveBufferBytes
  requested.reassemblyBudgetBytes ≤ buffer ∨ limits.receiveBufferCapBytes ≠ 0 ∧ buffer ≠ 0

theorem Guards.budgetCapped_iff {base : EffectiveActionV1}
    (guards : Guards limits ctx candidate base out) : BudgetCapped limits candidate base ↔
      (reassemblyCap limits out.rx.receiveBufferBytes = 0 →
        out.rx.reassemblyBudgetBytes ≤ out.rx.receiveBufferBytes) := by
  have budget := guards.budget
  simp only [BudgetCapped, reassemblyCap, ← guards.buffer] at budget ⊢
  omega

theorem Guards.bounded {base : EffectiveActionV1}
    (guards : Guards limits ctx candidate base out) (kept : QuantumKept ctx base)
    (capped : BudgetCapped limits candidate base) : Bounded limits ctx base out := by
  have scheduler := guards.scheduler kept
  refine ⟨scheduler.trainTarget, guards.tx.sendBuffer, guards.rx.receiveBuffer,
    guards.rx.receiveBatch, ?_, guards.notAbove, guards.fec, guards.repair.cache,
    guards.repair.retention, ?_, guards.rx.activeTrains, guards.cover, guards.coverless, guards.bbr,
    guards.egress⟩
  · have quantum := scheduler.quantum
    unfold QuantumSettled Within at quantum
    split_ifs at quantum ⊢
    · exact quantum
    · exact ⟨by omega, quantum.2⟩
  rcases guards.rx.reassembly with zero | ⟨-, none | below⟩
  · exact .inl zero
  · exact .inr (guards.budgetCapped_iff.mp capped none)
  · exact .inr (below.trans (min_le_right _ _))

theorem Guards.settled {base : EffectiveActionV1}
    (guards : Guards limits ctx candidate base out) (kept : QuantumKept ctx base) :
    Settled limits ctx out :=
  { guards with scheduler := guards.scheduler kept }

/-- For proper limits and a base inside them, whatever the candidate and the context: the effective
action is bounded and a second pass returns it unchanged without a report, exactly when a zero
quantum of the base does not come back and the cap of the reassembly budget binds. -/
theorem guardrails_bound (guardrails : GuardrailsV1) (proper : LimitsProper guardrails.limits)
    (base : EffectiveActionV1) (inside : BaseInside guardrails.limits base)
    (candidate : CandidateActionV1) (ctx : GuardrailContextV1) :
    (Bounded guardrails.limits ctx base (guardrails.apply candidate base ctx).1 ∧
      guardrails.reapply (guardrails.apply candidate base ctx).1 ctx =
        ((guardrails.apply candidate base ctx).1, [])) ↔
    QuantumKept ctx base ∧ BudgetCapped guardrails.limits candidate base := by
  have guards := apply_guards proper inside candidate ctx
  constructor
  · rintro ⟨bounded, again⟩
    constructor
    · intro emergency zero
      have none : (guardrails.apply candidate base ctx).1.scheduler.bulkQuantumCells = 0 :=
        Nat.le_zero.mp (zero ▸ (bounded.notAbove emergency).2)
      cases latency : ctx.latencyQueueActive with
      | true =>
        have one := bounded.quantum
        rw [if_pos latency, none] at one
        cases one
      | false =>
        apply reapply_speaks latency none
        rw [again]
    refine guards.budgetCapped_iff.mpr fun _ => ?_
    rcases bounded.reassembly with zero | below
    · exact zero ▸ Nat.zero_le _
    · exact below
  · rintro ⟨kept, capped⟩
    exact ⟨guards.bounded kept capped, reapply_of_settled (guards.settled kept)⟩

/-! ### Zero as a cap -/

/-- A base with trains of 32 KiB and this quantum, and neither protection nor cover. -/
def plainBase (bulkQuantumCells : Nat) : EffectiveActionV1 :=
  { scheduler := { trainTargetBytes := 32 * 1024, bulkQuantumCells } }

/-- A path without any pressure. -/
def calmContext : GuardrailContextV1 where
  reliable := false
  cpuLimited := false
  cpuEmergency := false
  protectionEmergency := false
  latencyQueueActive := false
  coverSuppression := none
  realTrafficBytesPerSecond := 1000000
  rttMicros := 30000
  deliveryRateBytesPerSecond := 1000000
  offeredRateBytesPerSecond := 1000000

def uncappedReceive : HostLimitsV1 := { receiveBufferCapBytes := 0 }

def floorlessQuantum : HostLimitsV1 := { bulkQuantumFloorCells := 0 }

/-- A candidate that asks for a buffer of 8 MiB and a reassembly budget of 64 MiB. -/
def largeBudget : CandidateActionV1 :=
  { rx := some { receiveBufferBytes := some (8 * 1024 * 1024)
                 reassemblyBudgetBytes := some (64 * 1024 * 1024) } }

/-- The CPU is exhausted and no latency traffic is queued. -/
def pressedContext : GuardrailContextV1 := { calmContext with cpuEmergency := true }

theorem uncappedReceive_proper : LimitsProper uncappedReceive := by
  constructor <;> first | exact .inl rfl | exact .inr (by decide)

theorem floorlessQuantum_proper : LimitsProper floorlessQuantum := by
  constructor <;> first | exact .inl rfl | exact .inr (by decide)

theorem plainBase_inside {bulkQuantumCells : Nat}
    (trainTarget : Within limits.trainTargetFloorBytes limits.trainTargetCapBytes (32 * 1024))
    (quantum : Within limits.bulkQuantumFloorCells limits.bulkQuantumCapCells bulkQuantumCells) :
    BaseInside limits (plainBase bulkQuantumCells) :=
  ⟨⟨trainTarget, quantum⟩, nofun⟩

/-- Where zero stands for no cap, an explicit reassembly budget outgrows the receive buffer; and
where a base has the quantum zero, a CPU emergency keeps it and every later pass reports a clamp
again. -/
theorem zero_caps_do_not_bind :
    (LimitsProper uncappedReceive ∧ BaseInside uncappedReceive (plainBase 2) ∧
      ¬ Bounded uncappedReceive calmContext (plainBase 2)
        ((⟨uncappedReceive⟩ : GuardrailsV1).apply largeBudget (plainBase 2) calmContext).1) ∧
    LimitsProper floorlessQuantum ∧ BaseInside floorlessQuantum (plainBase 0) ∧
      ((⟨floorlessQuantum⟩ : GuardrailsV1).reapply
        ((⟨floorlessQuantum⟩ : GuardrailsV1).apply {} (plainBase 0) pressedContext).1
          pressedContext).2 ≠ [] := by
  refine ⟨⟨uncappedReceive_proper, plainBase_inside ?_ ?_, ?_⟩, floorlessQuantum_proper,
    plainBase_inside ?_ ?_, by decide⟩
  · exact ⟨by decide, .inr (by decide)⟩
  · exact ⟨by decide, .inr (by decide)⟩
  · intro bounded
    have budget := bounded.reassembly
    revert budget
    decide
  · exact ⟨by decide, .inr (by decide)⟩
  · exact ⟨by decide, .inr (by decide)⟩

theorem default_proper : LimitsProper {} := by
  constructor <;> first | exact .inl rfl | exact .inr (by decide)

/-- With the default limits the large budget is cut to the receive buffer. -/
theorem guardrails_bound_default : Bounded {} calmContext (plainBase 2)
      ((⟨{}⟩ : GuardrailsV1).apply largeBudget (plainBase 2) calmContext).1 := by
  have inside : BaseInside {} (plainBase 2) :=
    plainBase_inside ⟨by decide, .inr (by decide)⟩ ⟨by decide, .inr (by decide)⟩
  refine ((guardrails_bound ⟨{}⟩ default_proper _ inside largeBudget calmContext).mpr
    ⟨nofun, .inr ?_⟩).1
  exact ⟨by decide, by decide⟩

end Ironet.Policy
