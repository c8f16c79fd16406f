import Ironet.Policy.Hysteresis
import Ironet.Policy.Tuner

/-!
# Justified parity

The tuner sends parity only on evidence. The rules propose a geometry only for filtered loss on a
path that is neither congested nor idle; the guardrails drop it on a reliable path or without CPU to
spare; and the transition controller, which may put the last geometry in the place of a proposed
one, never does so for a proposal to stop. The argument is about one call, for any last action
within the limits, and every call leaves such an action.
-/
namespace Ironet.Policy
open Support Reporting Ironet.Fec AutoTunerV2 FecEffectiveV1 NativePolicyV1

/-! ### What is proposed -/

def nativeGeometries : List FecGeometryV2 := [⟨8, 1⟩, ⟨4, 4⟩, ⟨4, 2⟩, ⟨6, 1⟩, ⟨6, 2⟩]

/-- The live evidence that parity needs. -/
structure ParityEvidence (filtered : FilteredTelemetryV1) : Prop where
  evidence : filtered.protectionEvidence = true
  loss : filtered.lossPpm ≠ 0
  calm : filtered.congested = false

variable {filtered : FilteredTelemetryV1} {geometry : FecGeometryV2}

theorem proposeFec_evidence (proposed : proposeFec filtered = some geometry) :
    ParityEvidence filtered ∧ geometry ∈ nativeGeometries := by
  unfold proposeFec at proposed
  split at proposed
  · cases proposed
  rename_i evidence
  split at proposed
  · cases proposed
  split at proposed
  · cases proposed
  rename_i calm
  split at proposed
  · cases proposed
  simp only [Bool.or_eq_true, Bool.not_eq_true', decide_eq_true_eq, not_or,
    Bool.not_eq_false] at evidence
  simp only [Bool.or_eq_true, not_or, Bool.not_eq_true] at calm
  constructor
  · exact ⟨evidence.1, evidence.2, by
      rw [FilteredTelemetryV1.congested, calm.1, calm.2, Bool.or_self]⟩
  · split_ifs at proposed <;> obtain rfl := Option.some.inj proposed <;>
      decide

variable {previous : EffectiveActionV1} {ctx : GuardrailContextV1} {limits : HostLimitsV1}

theorem native_enabled
    (enabled : ((⟨limits⟩ : GuardrailsV1).apply (propose filtered limits)
      ((propose filtered limits).applyOver previous) ctx).1.fec.enabled = true) :
    ParityEvidence filtered := by
  rw [apply_fec] at enabled
  cases executed : (executedGeometry limits (propose filtered limits)
      ((propose filtered limits).applyOver previous).fec ctx
      ((propose filtered limits).applyOver
        ((propose filtered limits).applyOver previous)).fec).1 with
  | none =>
    rw [executed] at enabled
    cases enabled
  | some geometry =>
  unfold executedGeometry at executed
  split_ifs at executed with _ emergency
  · -- the base of this pass is the proposal itself, which the off switch has switched off
    simp only [Bool.and_eq_true] at emergency
    cases proposed : proposeFec filtered with
    | none =>
      have off : ((propose filtered limits).applyOver previous).fec.enabled = false := by
        simp only [propose, proposed, fecCandidate]
        rfl
      exact absurd (off.symm.trans emergency.2) (by decide)
    | some geometry =>
      have on : requestedOff (propose filtered limits) = false := by
        simp only [propose, proposed, fecCandidate]
        rfl
      exact absurd (on.symm.trans emergency.1.2) (by decide)
  cases proposed : proposeFec filtered with
  | some geometry => exact (proposeFec_evidence proposed).1
  | none =>
    exfalso
    simp only [propose, proposed, fecCandidate] at executed
    cases executed

variable {action : EffectiveActionV1}

theorem reapply_enabled {guardrails : GuardrailsV1}
    (enabled : (guardrails.reapply action ctx).1.fec.enabled = true) :
    action.fec.enabled = true := by
  rw [GuardrailsV1.reapply, apply_fec] at enabled
  cases on : action.fec.enabled with
  | true => rfl
  | false =>
  have off : action.fec.toGeometry = none := by
    rw [toGeometry, on]
    rfl
  have nothing : (executedGeometry guardrails.limits {} action.fec ctx action.fec).1 = none := by
    unfold executedGeometry
    split_ifs
    · rfl
    · exact off
    · exact congrArg (Option.filter _) off
  rw [CandidateActionV1.applyOver_empty, nothing] at enabled
  cases enabled

/-! ### What the transition holds -/

variable {cap : Nat}

theorem stepTowards_within {floor current target : Nat} (step : Nat) (small : floor ≤ u64Max)
    (here : Within floor cap current) (there : Within floor cap target) :
    Within floor cap (stepTowards current target step) := by
  unfold Within stepTowards saturatingAdd at *
  split <;> omega

/-- The smoothed protection is the proposed one, or the last one in the place of a proposal that
asks for some. -/
def Held (proposed previous smoothed : FecEffectiveV1) : Prop :=
  smoothed = proposed ∨ (proposed.enabled = true ∧
    smoothed = fromGeometry previous.toGeometry)

theorem FecStep.held {self next : TransitionControllerV1} {proposed previous fec : FecEffectiveV1}
    {now : Instant} {ctx : TransitionContextV1}
    (step : FecStep self proposed previous now ctx fec next) : Held proposed previous fec := by
  cases step with
  | holds asks => exact .inr ⟨asks, rfl⟩
  | _ => exact .inl rfl

/-- What the controller makes of protection and scheduling. -/
structure Smooths (proposed previous smoothed : EffectiveActionV1) : Prop where
  fec : Held proposed.fec previous.fec smoothed.fec
  trainTarget : smoothed.scheduler.trainTargetBytes =
    stepTowards previous.scheduler.trainTargetBytes proposed.scheduler.trainTargetBytes
      trainTargetStepBytes
  quantum : smoothed.scheduler.bulkQuantumCells = proposed.scheduler.bulkQuantumCells

theorem smooth_smooths (self : TransitionControllerV1) (proposed previous : EffectiveActionV1)
    (now : Instant) (ctx : TransitionContextV1) :
    Smooths proposed previous (self.smooth proposed previous now ctx).1.1 := by
  have yields : Yields (self.smoothed proposed previous now ctx) fun out =>
      Smooths proposed previous out.1 := by
    refine .bind (smoothFec_steps self _ _ now ctx) fun _ fec => ?_
    refine .bind (stepReported_yields _ _ _ _) fun _ target => ?_
    exact .skip fun _ => .skip fun _ => .pure ⟨fec.held, target, rfl⟩
  exact yields

theorem fecInside_fromGeometry {fec : FecEffectiveV1} (inside : FecInside limits fec) :
    FecInside limits (fromGeometry fec.toGeometry) := by
  intro geometry is
  rw [toGeometry_fromGeometry] at is
  exact inside geometry is

/-! ### One call -/

/-- The action lies within every limit of the host. -/
structure WithinLimits (limits : HostLimitsV1) (action : EffectiveActionV1) : Prop where
  trainTarget : Within limits.trainTargetFloorBytes limits.trainTargetCapBytes
    action.scheduler.trainTargetBytes
  quantum : Within limits.bulkQuantumFloorCells limits.bulkQuantumCapCells
    action.scheduler.bulkQuantumCells
  sendBuffer : Within limits.sendBufferFloorBytes limits.sendBufferCapBytes
    action.tx.sendBufferBytes
  receiveBuffer : Within limits.receiveBufferFloorBytes limits.receiveBufferCapBytes
    action.rx.receiveBufferBytes
  receiveBatch : Within 1 limits.receiveBatchCap action.rx.receiveBatch
  repairCache : Within 0 limits.repairCacheCapBytes action.repair.cacheBytes
  fec : FecInside limits action.fec
  coverOverhead : action.cover.overheadPerMille ≤ limits.coverOverheadCapPerMille
  coverPadding : Within 0 limits.coverPaddingCapBytesPerSecond action.cover.paddingBytesPerSecond
  pacing : limits.pacingCapBytesPerSecond = 0 ∨ (action.bbr.pacingCapBytesPerSecond ≠ 0 ∧
    action.bbr.pacingCapBytesPerSecond ≤ limits.pacingCapBytesPerSecond)
  priority : action.egress.priority ≤ limits.egressPriorityCap

/-- Parity is on only with evidence, and the repair cache follows it. -/
structure Justified (limits : HostLimitsV1) (filtered : FilteredTelemetryV1)
    (action : EffectiveActionV1) : Prop where
  parity : action.fec.enabled = true →
    filtered.reliable = false ∧ filtered.cpuLimited = false ∧ ParityEvidence filtered
  cached : action.fec.enabled = true → 4 * 1024 * 1024 ≤ action.repair.cacheBytes
  uncached : action.fec.enabled = false → filtered.reliable = false → action.repair.cacheBytes = 0
  within : WithinLimits limits action

def runtimeLimits (pacingCap : Nat) : HostLimitsV1 :=
  { HostLimitsV1.fromBounds {} with pacingCapBytesPerSecond := pacingCap }

theorem runtimeLimits_proper (usable : cap = 0 ∨ pacingCapFloorBytesPerSecond ≤ cap) :
    LimitsProper (runtimeLimits cap) := by
  have defaults : LimitsProper (.fromBounds {}) := by
    constructor <;> first | exact .inl rfl | exact .inr (by decide)
  exact { defaults with pacingCap := usable }

theorem nativeGeometries_valid (cap : Nat) (native : geometry ∈ nativeGeometries) :
    (fromGeometry (some geometry)).toGeometry = some geometry ∧
      GeometryValid (runtimeLimits cap) geometry := by
  have all : ∀ geometry ∈ nativeGeometries,
      (fromGeometry (some geometry)).toGeometry = some geometry ∧
        fecViolation {} geometry = none := by
    decide
  obtain ⟨same, fine⟩ := all geometry native
  exact ⟨same, fecViolation_eq_none.mp fine⟩

/-- The rules propose within the limits, whatever they propose over. -/
theorem propose_inside (cap : Nat) (filtered : FilteredTelemetryV1) (previous : EffectiveActionV1) :
    BaseInside (runtimeLimits cap) ((propose filtered (runtimeLimits cap)).applyOver previous) := by
  constructor
  · constructor
    · change Within 8192 65536 (u32Saturating (clampTo 8192 65536 _))
      unfold Within u32Saturating clampTo u32Max
      split_ifs <;> omega
    · change Within 1 8 (proposeBulkQuantum filtered)
      unfold Within proposeBulkQuantum
      split_ifs <;> omega
  intro geometry is
  cases proposed : proposeFec filtered with
  | none =>
    simp only [propose, proposed, fecCandidate] at is
    cases is
  | some native =>
    obtain ⟨same, valid⟩ := nativeGeometries_valid cap (proposeFec_evidence proposed).2
    simp only [propose, proposed, fecCandidate] at is
    obtain rfl := Option.some.inj (same.symm.trans is)
    exact valid

/-- Before a call: the limits of the runtime, and a last action within what a pass takes from it. -/
structure Steady (cap : Nat) (tuner : AutoTunerV2) : Prop where
  limits : tuner.guardrails = ⟨runtimeLimits cap⟩
  bounds : tuner.bounds = {}
  current : BaseInside (runtimeLimits cap) tuner.current

theorem conservative_inside (cap epoch : Nat) (reason : ActionReasonV1) :
    BaseInside (runtimeLimits cap) (conservative epoch {} reason) := by
  have trainTarget : Within 8192 65536 16384 := ⟨by decide, .inr (by decide)⟩
  have quantum : Within 1 8 1 := ⟨by decide, .inr (by decide)⟩
  exact ⟨⟨trainTarget, quantum⟩, by rintro _ ⟨⟩⟩

variable {tuner : AutoTunerV2}

theorem Steady.enterEpoch (steady : Steady cap tuner)
    (sample : PathTelemetryV2) (now : Instant) : Steady cap (tuner.enterEpoch sample now) := by
  unfold AutoTunerV2.enterEpoch
  split
  · refine ⟨steady.limits, steady.bounds, ?_⟩
    rw [steady.bounds]
    exact conservative_inside cap _ _
  · exact steady

theorem repairCache_datagram (datagram : ctx.reliable = false) (fec : FecEffectiveV1) :
    (fec.enabled = true → 4 * 1024 * 1024 ≤ repairCache ctx fec) ∧
      (fec.enabled = false → repairCache ctx fec = 0) := by
  have path : ctx.reliability = .datagram := by
    rw [GuardrailContextV1.reliability, datagram]
    rfl
  unfold repairCache repairCacheTargetBytes toGeometry
  rw [path]
  constructor
  · intro on
    simp only [on, reduceCtorEq, if_false, if_true, Option.isNone_some, Bool.false_eq_true]
    split_ifs <;> omega
  · intro off
    simp [off]

theorem repairCache_capped (ctx : GuardrailContextV1) (fec : FecEffectiveV1) :
    repairCache ctx fec ≤ 32 * 1024 * 1024 := by
  unfold repairCache repairCacheTargetBytes
  split_ifs <;> first | omega | exact min_le_right _ _

/-- A smoothed action stays within what a pass takes from its base. -/
theorem Smooths.inside {proposed smoothed : EffectiveActionV1}
    (smooths : Smooths proposed previous smoothed) (new : BaseInside (runtimeLimits cap) proposed)
    (old : BaseInside (runtimeLimits cap) previous) : BaseInside (runtimeLimits cap) smoothed := by
  constructor
  · constructor
    · rw [smooths.trainTarget]
      refine stepTowards_within _ ?_ old.scheduler.trainTarget new.scheduler.trainTarget
      change 8192 ≤ u64Max
      decide
    · rw [smooths.quantum]
      exact new.scheduler.quantum
  rcases smooths.fec with same | ⟨-, held⟩
  · rw [same]
    exact new.fec
  · rw [held]
    exact fecInside_fromGeometry old.fec

theorem Settled.within (settled : Settled (runtimeLimits cap) ctx action) :
    WithinLimits (runtimeLimits cap) action where
  trainTarget := settled.scheduler.trainTarget
  quantum := by
    have quantum := settled.scheduler.quantum
    unfold QuantumSettled at quantum
    change Within 1 8 _
    split_ifs at quantum
    · rw [quantum]
      exact ⟨by decide, .inr (by decide)⟩
    · exact quantum
  sendBuffer := settled.tx.sendBuffer
  receiveBuffer := settled.rx.receiveBuffer
  receiveBatch := settled.rx.receiveBatch
  repairCache := ⟨Nat.zero_le _, .inr (settled.repair.cache ▸ repairCache_capped ctx _)⟩
  fec := settled.fec.inside
  coverOverhead := settled.cover.overhead
  coverPadding := ⟨Nat.zero_le _, .inl rfl⟩
  pacing := settled.bbr.nodeCap
  priority := settled.egress.priority

section
variable (usable : cap = 0 ∨ pacingCapFloorBytesPerSecond ≤ cap)
include usable

/-- A final pass over a smoothed proposal. The guards say where protection may be on; that it was
asked for in this very call is what the transition keeps. -/
theorem smoothed_justified {native smoothed : EffectiveActionV1}
    (smooths : Smooths native previous smoothed) (old : BaseInside (runtimeLimits cap) previous)
    (new : BaseInside (runtimeLimits cap) native)
    (asked : native.fec.enabled = true → ParityEvidence filtered) (effective : EffectiveActionV1)
    (final : effective = ((⟨runtimeLimits cap⟩ : GuardrailsV1).reapply smoothed
      (.fromFiltered filtered)).1) :
    Justified (runtimeLimits cap) filtered effective ∧
      BaseInside (runtimeLimits cap) effective := by
  have inside := smooths.inside new old
  have kept : QuantumKept (.fromFiltered filtered) smoothed := by
    intro _ zero
    have floor : 1 ≤ smoothed.scheduler.bulkQuantumCells := inside.scheduler.quantum.1
    omega
  have settled : Settled (runtimeLimits cap) (.fromFiltered filtered) effective := by
    have guards : Guards (runtimeLimits cap) (.fromFiltered filtered) {} smoothed effective := by
      rw [final]
      exact apply_guards (runtimeLimits_proper usable) inside {} _
    exact guards.settled kept
  have datagram : effective.fec.enabled = true →
      filtered.reliable = false ∧ filtered.cpuLimited = false := by
    intro on
    constructor
    · by_contra reliable
      exact absurd (settled.fec.suppressed (.inl (Bool.of_not_eq_false reliable)))
        (by rw [on]; decide)
    · by_contra limited
      exact absurd (settled.fec.suppressed (.inr (Bool.of_not_eq_false limited)))
        (by rw [on]; decide)
  refine ⟨⟨?_, ?_, ?_, settled.within⟩, ⟨settled.within.trainTarget, settled.within.quantum⟩,
    settled.fec.inside⟩
  · intro on
    refine ⟨(datagram on).1, (datagram on).2, asked ?_⟩
    -- the final pass switches nothing on, and a held geometry stands for a proposed one
    have smoothedOn := reapply_enabled (final ▸ on)
    rcases smooths.fec with same | ⟨proposed, -⟩
    · rw [← same]
      exact smoothedOn
    · exact proposed
  · intro on
    have unreliable : (GuardrailContextV1.fromFiltered filtered).reliable = false := (datagram on).1
    rw [settled.repair.cache]
    exact (repairCache_datagram unreliable _).1 on
  · intro off reliable
    have unreliable : (GuardrailContextV1.fromFiltered filtered).reliable = false := reliable
    rw [settled.repair.cache]
    exact (repairCache_datagram unreliable _).2 off

/-- What the first pass makes of the rules' proposal. -/
theorem native_guarded (filtered : FilteredTelemetryV1) (previous guarded : EffectiveActionV1)
    (first : guarded = ((⟨runtimeLimits cap⟩ : GuardrailsV1).apply
      (propose filtered (runtimeLimits cap))
      ((propose filtered (runtimeLimits cap)).applyOver previous) (.fromFiltered filtered)).1) :
    BaseInside (runtimeLimits cap) guarded ∧
      (guarded.fec.enabled = true → ParityEvidence filtered) := by
  have base := propose_inside cap filtered previous
  have guards := @apply_guards ⟨runtimeLimits cap⟩ (runtimeLimits_proper usable) _ base
    (propose filtered (runtimeLimits cap)) (.fromFiltered filtered)
  rw [← first] at guards
  have settled := guards.settled fun _ zero => by
    have floor : 1 ≤ _ := base.scheduler.quantum.1
    omega
  constructor
  · exact ⟨⟨settled.within.trainTarget, settled.within.quantum⟩, settled.fec.inside⟩
  · intro on
    rw [first] at on
    exact native_enabled on

end

theorem update_view (filter : TelemetryFilterV1) (sample : PathTelemetryV2) (buffer : Nat) :
    (filter.update sample buffer).2.view sample = (filter.update sample buffer).1 :=
  rfl

theorem observeOnPath_justified (steady : Steady cap tuner)
    (usable : cap = 0 ∨ pacingCapFloorBytesPerSecond ≤ cap) (sample : PathTelemetryV2)
    (now : Instant) :
    Justified (runtimeLimits cap) ((tuner.observeOnPath sample now none).2.smoothed.view sample)
        (tuner.observeOnPath sample now none).1 ∧
      Steady cap (tuner.observeOnPath sample now none).2 := by
  obtain ⟨bounds, epoch, filter, guardrails, transition, current, lastClamps⟩ := tuner
  obtain ⟨isLimits, isBounds, inside⟩ := steady
  subst isLimits isBounds
  simp only [observeOnPath, limits, override, update_view]
  generalize (filter.update sample current.rx.receiveBufferBytes).1 = filtered
  -- each stage is known only by its lemma from here on
  have native := native_guarded usable filtered current _ rfl
  generalize GuardrailsV1.apply _ (propose filtered (runtimeLimits cap)) _ _ = guarded at native ⊢
  have smooths := smooth_smooths transition
    { guarded.1 with
      reason := filtered.classify
      pathEpoch := epoch
      sampleCount := filtered.sampleCount } current now (.fromFiltered filtered)
  have justified := smoothed_justified usable smooths inside ⟨native.1.scheduler, native.1.fec⟩
    native.2 _ rfl
  refine ⟨justified.1, rfl, rfl, ?_⟩
  dsimp only
  exact justified.2

/-! ### Every call -/

/-- The tuner of the runtime under a node cap, before its first sample. -/
def runtimeTuner (pacingCap epoch : Nat) (start : Instant) : AutoTunerV2 :=
  (new {} epoch start).setLimits (runtimeLimits pacingCap)

/-- One call after the other, none of them forced. -/
def AutoTunerV2.observeAll (self : AutoTunerV2) (calls : List (PathTelemetryV2 × Instant)) :
    AutoTunerV2 :=
  calls.foldl (fun tuner call => (tuner.observeEffectiveAtWithForce call.1 call.2 none).2) self

theorem Steady.observeAll (usable : cap = 0 ∨ pacingCapFloorBytesPerSecond ≤ cap)
    (calls : List (PathTelemetryV2 × Instant)) (steady : Steady cap tuner) :
    Steady cap (tuner.observeAll calls) := by
  induction calls generalizing tuner with
  | nil => exact steady
  | cons call calls ih =>
    exact ih (observeOnPath_justified (steady.enterEpoch call.1 call.2) usable call.1 call.2).2

/-- After any calls, the next call sends parity only on the evidence of its own filtered telemetry,
sizes the repair cache after it and stays within the limits of the tuner. -/
theorem parity_justified (cap : Nat) (usable : cap = 0 ∨ pacingCapFloorBytesPerSecond ≤ cap)
    (epoch : Nat) (start : Instant) (calls : List (PathTelemetryV2 × Instant))
    (before : AutoTunerV2) (ran : before = (runtimeTuner cap epoch start).observeAll calls)
    (sample : PathTelemetryV2) (now : Instant) (effective : EffectiveActionV1) (after : AutoTunerV2)
    (called : before.observeEffectiveAtWithForce sample now none = (effective, after)) :
    Justified after.limits (after.smoothed.view sample) effective := by
  have initial : Steady cap (runtimeTuner cap epoch start) :=
    ⟨rfl, rfl, conservative_inside cap epoch _⟩
  have steady := (initial.observeAll usable calls).enterEpoch sample now
  obtain ⟨justified, steady⟩ := observeOnPath_justified steady usable sample now
  rw [observeEffectiveAtWithForce, ran] at called
  rw [called] at justified steady
  rw [limits, steady.limits]
  exact justified

/-- A lossy sample, and another after a change of path. -/
def lossyCalls : List (PathTelemetryV2 × Instant) :=
  [(lossySample 1, 1000000000), (lossySample 2, 2000000000)]

/-- The next call on the new path. -/
def lossyCall : EffectiveActionV1 × AutoTunerV2 :=
  ((runtimeTuner 1000000 1 0).observeAll lossyCalls).observeEffectiveAtWithForce (lossySample 2)
    3000000000 none

/-- The lossy path gets parity, with a cache for its repairs. -/
theorem parity_justified_lossy :
    lossyCall.1.fec.enabled = true ∧ 4 * 1024 * 1024 ≤ lossyCall.1.repair.cacheBytes := by
  have on : lossyCall.1.fec.enabled = true := by decide
  have justified := parity_justified 1000000 (.inr (by decide)) 1 0 lossyCalls
    ((runtimeTuner 1000000 1 0).observeAll lossyCalls) rfl (lossySample 2) 3000000000
    lossyCall.1 lossyCall.2 (by rw [lossyCall])
  exact ⟨on, justified.cached on⟩

end Ironet.Policy
