import Ironet.Policy.Slot
import Ironet.Support.Lockstep

/-!
# The policy tick

Model of `policy_tick.rs`: the pipeline of one peer. A tick derives the host's baseline, computes
the utility of the interval, asks the live backend, guards its candidate or falls back to the
baseline, clamps the pacing to what the node assigned, and last lets a shadow backend evaluate the
same input. BLAKE3 is a parameter.
-/
namespace Ironet.Policy
open Support

/-- `blake3::Hasher::new_derive_key` of a context, over some material. -/
abbrev DeriveKey := String → List UInt8 → List UInt8

/-! ### Seeds and the clock -/

inductive PolicySlotKindV1 where
  | live
  | shadow
  deriving DecidableEq, Repr

def PolicySlotKindV1.seedContext : PolicySlotKindV1 → String
  | .live => "ironet autotune policy seed v1 live"
  | .shadow => "ironet autotune policy seed v1 shadow"

def derivePolicySeed (deriveKey : DeriveKey) (slot : PolicySlotKindV1) (policyId : String)
    (stateSchema : Nat) (peerHash : List UInt8) (pathEpoch : Nat) : Nat :=
  let digest :=
    deriveKey slot.seedContext
      (policyId.toUTF8.toList ++ [0] ++ (putBe 4 stateSchema).reverse ++ peerHash ++
        (putBe 8 pathEpoch).reverse)
  getBe (digest.take 8).reverse

/-- Seconds since the first instant, never decreasing. -/
structure TickClock where
  origin : Option Instant := none
  last : Nat := 0
  deriving DecidableEq, Repr

def TickClock.tick (self : TickClock) (now : Instant) : Nat × TickClock :=
  let origin := self.origin.getD now
  let last := max self.last ((now - origin) / 1000000000)
  (last, { origin := some origin, last })

/-! ### Traces -/

/-- The index of the first threshold that the value is below. -/
def bucket (value : Nat) (thresholds : List Nat) : Nat :=
  min ((thresholds.findIdx? fun threshold => value < threshold).getD thresholds.length) u8Max

/-- The context of a sample under the built-in thresholds. -/
def ContextKeyV2.classify (sample : PathTelemetryV2) : ContextKeyV2 :=
  let telemetry := PolicyTelemetryV1.fromRuntime sample
  let rate :=
    saturatingMul
      (max telemetry.localTxWireRateBytesPerSecond telemetry.localTxControllerBwBytesPerSecond) 8
  let queueInflated :=
    max 5000 (telemetry.pathMinRttMicros / 2) < telemetry.pathQueueDelayMicros ||
      0 < telemetry.localTxControllerGuardTransitionsDelta
  let rawLossClass := bucket telemetry.localTxLossPpm [1000, 10000, 30000]
  { rttClass := bucket (telemetry.pathMinRttMicros / 1000) [10, 40, 120]
    rateClass := bucket (rate / 1000000) [10, 100, 500]
    lossClass :=
      if queueInflated && rawLossClass ≠ 0 then 3
      else if 2 ≤ telemetry.localTxBurstLossCells || 0 < telemetry.remoteExpiredStripesDelta then 2
      else min (max rawLossClass (if 0 < telemetry.remoteResidualLossPpm then 1 else 0)) 3
    reliable := sample.reliability = .reliableRelay
    hostRtt := telemetry.pathMinRttMicros < 2000 }

def Bbr3PresetV1.all : List Bbr3PresetV1 :=
  [.sharedConservative, .privateAggressive, .lossyRadio, .policer, .longFat, .relayReliable,
    .lowRttHost]

def presetName : Bbr3PresetV1 → String
  | .sharedConservative => "shared-conservative"
  | .privateAggressive => "private-aggressive"
  | .lossyRadio => "lossy-radio"
  | .policer => "policer"
  | .longFat => "long-fat"
  | .relayReliable => "relay-reliable"
  | .lowRttHost => "low-rtt-host"

/-- A label is padded with zeros. Its lossy decoding is a name, all of whose characters are ASCII,
exactly when its bytes are. -/
def presetFromLabel (label : List UInt8) : Option Bbr3PresetV1 :=
  Bbr3PresetV1.all.find? fun preset =>
    (presetName preset).toUTF8.toList = label.takeWhile (· ≠ 0)

/-- The trace of a tick without a usable output. -/
def baselineTrace (mode : LearnerModeV2) (telemetry : PathTelemetryV2)
    (baselinePreset : Bbr3PresetV1) : LearnerTraceV2 where
  mode
  context := .classify telemetry
  baselinePreset
  proposedPreset := baselinePreset
  appliedPreset := baselinePreset
  predictedAdvantage := 0.0
  exploring := false
  rollback := false
  rollbacks := 0
  fineUpGainDeltaMilli := 0
  fineHeadroomDeltaMilli := 0
  fineCwndGainDeltaMilli := 0

def traceFromDiagnostics (mode : LearnerModeV2) (telemetry : PathTelemetryV2)
    (baselinePreset effectivePreset : Bbr3PresetV1) (diagnostics : PolicyDiagnosticsV1) :
    LearnerTraceV2 where
  mode
  context := .classify telemetry
  baselinePreset
  proposedPreset := (presetFromLabel diagnostics.appliedArmLabel).getD effectivePreset
  appliedPreset := if mode = .on then effectivePreset else baselinePreset
  predictedAdvantage := Float.ofInt diagnostics.predictedAdvantageMilli / 1000.0
  exploring := diagnostics.exploring
  rollback := diagnostics.rollback
  rollbacks := diagnostics.rollbacks
  fineUpGainDeltaMilli := 0
  fineHeadroomDeltaMilli := 0
  fineCwndGainDeltaMilli := 0

def slotTrace (slot : PolicySlotV1) (mode : LearnerModeV2) (telemetry : PathTelemetryV2)
    (baselinePreset effectivePreset : Bbr3PresetV1) (diagnostics : PolicyDiagnosticsV1) :
    LearnerTraceV2 :=
  slot.lastTrace.getD
    (traceFromDiagnostics mode telemetry baselinePreset effectivePreset diagnostics)

/-! ### The input of a tick -/

structure PolicyTickConfigV1 where
  objective : Objective
  mode : LearnerModeV2
  forced : Option ForcedActionV2 := none
  maxEgressBytesPerSecond : Option Nat := none
  stateCapBytes : Nat := policyStateMaxBytes
  peerHash : List UInt8 := List.replicate 32 0
  seedOverride : Option Nat := none
  deriving DecidableEq, Repr

def uncoordinatedEgressView (limits : HostLimitsV1) : EgressAllocationViewV1 where
  assignedRateBytesPerSecond := limits.pacingCapBytesPerSecond
  nodeCapBytesPerSecond := limits.pacingCapBytesPerSecond

def egressAssignmentFloorBytesPerSecond : Nat := 64 * 1024

/-- The pacing cap after arbitration. An assignment of zero or below the controller's floor is
ignored. -/
def assignedPacing (assigned requested : Nat) : Nat :=
  if assigned = 0 ∨ assigned < egressAssignmentFloorBytesPerSecond then requested
  else if requested = 0 ∨ assigned < requested then assigned
  else requested

def clampPacingToAssigned (view : EgressAllocationViewV1)
    (guarded : EffectiveActionV1 × List ClampEntryV1) : EffectiveActionV1 × List ClampEntryV1 :=
  let requested := guarded.1.bbr.pacingCapBytesPerSecond
  let pacing := assignedPacing view.assignedRateBytesPerSecond requested
  if pacing ≠ requested then
    ({ guarded.1 with bbr := { guarded.1.bbr with pacingCapBytesPerSecond := pacing } },
      guarded.2 ++
        [⟨.bbrPacingCapBytesPerSecond, i64Sat requested, i64Sat pacing, .egressArbitration⟩])
  else guarded

def buildPolicyInput (logicalTick deterministicSeed : Nat) (peerHash : List UInt8)
    (telemetry : PathTelemetryV2) (baseline : EffectiveActionV1) (utility : UtilitySample)
    (objective : Objective) (limits : HostLimitsV1) (shadow : Bool)
    (egress : EgressAllocationViewV1) : PolicyInputV1 where
  logicalTick
  deterministicSeed
  peerHash
  pathEpoch := telemetry.pathEpoch
  reliability := telemetry.reliability
  telemetry := .fromRuntime telemetry
  previous := baseline
  previousUtility := .fromSample objective utility
  limits
  capabilities := {
    shadow
    egressCoordinator := egress.nodeCapBytesPerSecond ≠ 0
    extensionTags := [extensionTagHostUtilityF64V1] }
  egress
  extensions := [hostUtilityExtension utility.total]
  state := []

/-! ### The shadow evaluator -/

structure ShadowEvaluationV2 where
  decision : TuneDecisionV2
  utility : UtilitySample
  trace : LearnerTraceV2
  fault : Option PolicyFaultV1
  callMicros : Nat
  clampedFields : Nat

structure ShadowEvaluatorV2 where
  slot : PolicySlotV1
  utility : UtilityEstimator
  objective : Objective
  seedOverride : Option Nat := none
  peerHash : List UInt8 := List.replicate 32 0
  advantageSum : Float := 0.0
  samples : Nat := 0

namespace ShadowEvaluatorV2

variable (deriveKey : DeriveKey) (self : ShadowEvaluatorV2)

def seed (pathEpoch : Nat) : Nat :=
  self.seedOverride.getD
    (derivePolicySeed deriveKey .shadow self.slot.identity.policyId self.slot.identity.stateSchema
      self.peerHash pathEpoch)

/-- The live input with the shadow's own seed, reward and state. -/
def shadowInput (liveInput : PolicyInputV1)
    (telemetry : PathTelemetryV2) (utility : UtilitySample) : PolicyInputV1 :=
  { liveInput with
    capabilities := { liveInput.capabilities with shadow := true }
    deterministicSeed := self.seed deriveKey telemetry.pathEpoch
    previousUtility := .fromSample self.objective utility
    extensions := [hostUtilityExtension utility.total]
    state := [] }

def evaluate (tuner : AutoTunerV2) (input : PolicyInputV1)
    (telemetry : PathTelemetryV2) (utility : UtilitySample) (baseline : TuneDecisionV2) :
    ShadowEvaluationV2 × PolicySlotV1 :=
  let decided := self.slot.decide input
  match decided.1.1 with
  | .ok output =>
    let constrained := tuner.constrainCandidate telemetry output.candidate input.previous
    let slot := decided.2.recordClamps constrained.2
    ({ decision := constrained.1.toTuneDecision
       utility
       trace :=
         slotTrace slot .shadow telemetry baseline.bbr.preset constrained.1.bbr.preset
           output.diagnostics
       fault := none
       callMicros := slot.stats.lastCallMicros
       clampedFields := u32Saturating constrained.2.length }, slot)
  | .error fault =>
    ({ decision := baseline
       utility
       trace := baselineTrace .shadow telemetry baseline.bbr.preset
       fault := some fault
       callMicros := decided.2.stats.lastCallMicros
       clampedFields := 0 }, decided.2)

def observeInput (tuner : AutoTunerV2)
    (liveInput : PolicyInputV1) (telemetry : PathTelemetryV2) (wire : WireCostV2)
    (baseline : TuneDecisionV2) : ShadowEvaluationV2 × ShadowEvaluatorV2 :=
  let observed := self.utility.observe telemetry baseline wire
  let input := self.shadowInput deriveKey liveInput telemetry observed.1
  let evaluated := self.evaluate tuner input telemetry observed.1 baseline
  let advantage := evaluated.1.trace.predictedAdvantage
  (evaluated.1, { self with
    slot := evaluated.2
    utility := observed.2
    advantageSum :=
      if advantage.isFinite then self.advantageSum + advantage else self.advantageSum
    samples := if advantage.isFinite then saturatingAdd self.samples 1 else self.samples })

end ShadowEvaluatorV2

/-! ### The pipeline -/

structure TickOutcomeV1 where
  logicalTick : Nat
  baseline : TuneDecisionV2
  candidate : Option CandidateActionV1
  effective : EffectiveActionV1
  decision : TuneDecisionV2
  clamps : List ClampEntryV1
  utility : UtilitySample
  trace : LearnerTraceV2
  fault : Option PolicyFaultV1
  callMicros : Nat
  shadow : Option ShadowEvaluationV2

structure PolicyTickV1 where
  tuner : AutoTunerV2
  config : PolicyTickConfigV1
  live : PolicySlotV1
  utility : UtilityEstimator
  shadow : Option ShadowEvaluatorV2
  egressView : EgressAllocationViewV1
  clock : TickClock

/-- What one tick is fed. -/
structure TickInput where
  egressView : EgressAllocationViewV1
  telemetry : PathTelemetryV2
  wire : WireCostV2
  now : Instant

/-- What the host derives of a tick before it asks a backend. -/
structure HostView where
  baseline : EffectiveActionV1
  utility : UtilitySample
  logicalTick : Nat

/-- What the live backend made of a tick: its candidate, the guarded action, the trace and the
fault. -/
structure LiveDecision where
  candidate : Option CandidateActionV1
  effective : EffectiveActionV1
  clamps : List ClampEntryV1
  trace : LearnerTraceV2
  fault : Option PolicyFaultV1

namespace PolicyTickV1

def new (tuner : AutoTunerV2) (live : PolicySlotV1) (weights : UtilityWeights)
    (config : PolicyTickConfigV1) : PolicyTickV1 :=
  let limits := { tuner.limits with
    pacingCapBytesPerSecond := config.maxEgressBytesPerSecond.getD 0
    stateCapBytes := clampTo 1 policyStateMaxBytes config.stateCapBytes }
  { tuner := tuner.setLimits limits
    config
    live
    utility := .withWeights weights
    shadow := none
    egressView := uncoordinatedEgressView limits
    clock := {} }

def setShadow (self : PolicyTickV1) (shadow : Option ShadowEvaluatorV2) : PolicyTickV1 :=
  { self with shadow := shadow.map fun evaluator => { evaluator with
      peerHash := self.config.peerHash } }

def setEgressView (self : PolicyTickV1) (view : EgressAllocationViewV1) : PolicyTickV1 :=
  { self with egressView := view }

/-- A hot switch of the live backend; the weights follow the new policy. -/
def replaceLive (self : PolicyTickV1) (backend : PolicyBackend) (moduleDigest : String)
    (weights : UtilityWeights) (stateSchemaAccepts : List Nat) : PolicyTickV1 :=
  { self with
    live := self.live.replace backend moduleDigest stateSchemaAccepts
    utility := self.utility.setWeights weights }

variable (deriveKey : DeriveKey)

def liveSeed (self : PolicyTickV1) (pathEpoch : Nat) : Nat :=
  self.config.seedOverride.getD
    (derivePolicySeed deriveKey .live self.live.identity.policyId self.live.identity.stateSchema
      self.config.peerHash pathEpoch)

/-- The baseline of the tick through the final pass, as every tick executes it that the live backend
does not decide. -/
def fallback (self : PolicyTickV1) (telemetry : PathTelemetryV2) (baseline : EffectiveActionV1) :
    EffectiveActionV1 × List ClampEntryV1 :=
  clampPacingToAssigned self.egressView (self.tuner.reapplyEffective telemetry baseline)

/-- The action of a tick that the live backend answered. -/
def guarded (self : PolicyTickV1) (telemetry : PathTelemetryV2) (baseline : EffectiveActionV1)
    (candidate : CandidateActionV1) : EffectiveActionV1 × List ClampEntryV1 :=
  if self.config.mode = .on then
    clampPacingToAssigned self.egressView
      (self.tuner.constrainCandidate telemetry candidate baseline)
  else self.fallback telemetry baseline

/-- The decision of the live backend, the input as it left it, and the slot after it. -/
def decideLive (self : PolicyTickV1) (input : PolicyInputV1) (telemetry : PathTelemetryV2)
    (baseline : EffectiveActionV1) : (LiveDecision × PolicyInputV1) × PolicySlotV1 :=
  let decided := self.live.decide input
  let preset := baseline.toTuneDecision.bbr.preset
  match decided.1.1 with
  | .ok output =>
    let guarded := self.guarded telemetry baseline output.candidate
    let slot := decided.2.recordClamps guarded.2
    let trace :=
      slotTrace slot self.config.mode telemetry preset guarded.1.bbr.preset output.diagnostics
    ((⟨some output.candidate, guarded.1, guarded.2, trace, none⟩, decided.1.2), slot)
  | .error fault =>
    let guarded := self.fallback telemetry baseline
    let trace := baselineTrace self.config.mode telemetry preset
    ((⟨none, guarded.1, guarded.2, trace, some fault⟩, decided.1.2), decided.2)

/-- The baseline and the utility, which no backend has touched. -/
def observeHost (self : PolicyTickV1) (telemetry : PathTelemetryV2) (wire : WireCostV2)
    (now : Instant) : HostView × PolicyTickV1 :=
  let observed := self.tuner.observeEffectiveAtWithForce telemetry now self.config.forced
  let utility := self.utility.observe telemetry observed.1.toTuneDecision wire
  let tick := self.clock.tick now
  (⟨observed.1, utility.1, tick.1⟩,
    { self with tuner := observed.2, utility := utility.2, clock := tick.2 })

/-- The shadow sees the input of the tick after the live backend. -/
def observeShadow (self : PolicyTickV1) (input : PolicyInputV1)
    (telemetry : PathTelemetryV2) (wire : WireCostV2) (baseline : TuneDecisionV2) :
    Option (ShadowEvaluationV2 × ShadowEvaluatorV2) :=
  self.shadow.map fun evaluator =>
    evaluator.observeInput deriveKey self.tuner input telemetry wire baseline

/-- The input of the live backend; anything but `on` is a shadow evaluation to it. -/
def liveInput (self : PolicyTickV1) (host : HostView)
    (telemetry : PathTelemetryV2) : PolicyInputV1 :=
  buildPolicyInput host.logicalTick (self.liveSeed deriveKey telemetry.pathEpoch)
    self.config.peerHash telemetry host.baseline host.utility self.config.objective
    self.tuner.limits (self.config.mode ≠ .on) self.egressView

def ask (self : PolicyTickV1) (host : HostView)
    (telemetry : PathTelemetryV2) (wire : WireCostV2) : TickOutcomeV1 × PolicyTickV1 :=
  let decided :=
    self.decideLive (self.liveInput deriveKey host telemetry) telemetry host.baseline
  let baseline := host.baseline.toTuneDecision
  let shadow := self.observeShadow deriveKey decided.1.2 telemetry wire baseline
  ({ logicalTick := host.logicalTick
     baseline
     candidate := decided.1.1.candidate
     effective := decided.1.1.effective
     decision := decided.1.1.effective.toTuneDecision
     clamps := decided.1.1.clamps
     utility := host.utility
     trace := decided.1.1.trace
     fault := decided.1.1.fault
     callMicros := decided.2.stats.lastCallMicros
     shadow := shadow.map Prod.fst },
    { self with live := decided.2, shadow := shadow.map Prod.snd })

def run (self : PolicyTickV1) (telemetry : PathTelemetryV2)
    (wire : WireCostV2) (now : Instant) : TickOutcomeV1 × PolicyTickV1 :=
  let observed := self.observeHost telemetry wire now
  observed.2.ask deriveKey observed.1 telemetry wire

/-- One tick of the loop of a peer: the node's view, then the pipeline. -/
def step (self : PolicyTickV1) (input : TickInput) : TickOutcomeV1 × PolicyTickV1 :=
  (self.setEgressView input.egressView).run deriveKey input.telemetry input.wire input.now

/-- The outcomes of some ticks, and the pipeline after them. -/
def runAll (self : PolicyTickV1) (inputs : List TickInput) : List TickOutcomeV1 × PolicyTickV1 :=
  respondAll (step deriveKey) self inputs

end PolicyTickV1
end Ironet.Policy
