import Ironet.Policy.Transition

/-!
# The auto-tuner

Model of `AutoTunerV2` and of the decision it hands to the data plane. One observation filters the
sample, lets the native rules propose, guards the proposal, smooths it against the last effective
action, applies a forced action and guards once more.
-/
namespace Ironet.Policy
open Ironet.Fec

def initialSendBufferBytesV2 : Nat := 512 * 1024

/-! ### Decisions of the data plane -/

structure TuneDecisionV2 where
  reason : ActionReasonV1
  pathEpoch : Nat
  sampleCount : Nat
  trainTargetBytes : Nat
  bulkQuantumCells : Nat
  fec : Option FecGeometryV2
  repairCacheBytes : Nat
  repairRetentionMillis : Nat
  repairWaitPolicy : RepairWaitPolicyV1
  sendBufferBytes : Nat
  receiveBufferBytes : Nat
  reassemblyBudgetBytes : Nat
  activeTrainBudget : Nat
  receiveBatch : Nat
  coverProfile : CoverProfileV1
  coverOverheadPerMille : Nat
  coverPaddingBytesPerSecond : Nat
  bbr : Bbr3ProposalV2
  deriving DecidableEq, Repr

def TuneDecisionV2.conservative (epoch : Nat) (bounds : AutoTuneBoundsV2) : TuneDecisionV2 where
  reason := .coldStart
  pathEpoch := epoch
  sampleCount := 0
  trainTargetBytes := 16 * 1024
  bulkQuantumCells := 1
  fec := none
  repairCacheBytes := 2 * 1024 * 1024
  repairRetentionMillis := 0
  repairWaitPolicy := .hostDefault
  sendBufferBytes :=
    clampTo bounds.minimumSocketBufferBytes bounds.maximumSocketBufferBytes initialSendBufferBytesV2
  receiveBufferBytes := bounds.minimumReceiveBufferBytes
  reassemblyBudgetBytes := 0
  activeTrainBudget := 0
  receiveBatch := max bounds.maximumReceiveBatch 1
  coverProfile := .idle
  coverOverheadPerMille := 0
  coverPaddingBytesPerSecond := 0
  bbr := .sharedConservative

def BbrEffectiveV1.fromProposal (proposal : Bbr3ProposalV2) : BbrEffectiveV1 :=
  expandPreset proposal.preset proposal.upGainMilli proposal.headroomMilli proposal.cwndGainMilli
    proposal.pacingCapBytesPerSecond proposal.lossIsCongestion

def BbrEffectiveV1.toProposal (self : BbrEffectiveV1) : Bbr3ProposalV2 where
  preset := self.preset
  upGainMilli := self.probeBwUpPacingGainMilli
  headroomMilli := self.headroomMilli
  cwndGainMilli := self.defaultCwndGainMilli
  pacingCapBytesPerSecond := self.pacingCapBytesPerSecond
  lossIsCongestion := self.lossIsCongestion

namespace EffectiveActionV1

def fromTuneDecision (decision : TuneDecisionV2) : EffectiveActionV1 where
  reason := decision.reason
  pathEpoch := decision.pathEpoch
  sampleCount := decision.sampleCount
  bbr := .fromProposal decision.bbr
  scheduler := {
    trainTargetBytes := u32Saturating decision.trainTargetBytes
    bulkQuantumCells := u16Saturating decision.bulkQuantumCells }
  fec := .fromGeometry decision.fec
  repair := {
    cacheBytes := u64Saturating decision.repairCacheBytes
    retentionTargetMillis := decision.repairRetentionMillis
    waitPolicy := decision.repairWaitPolicy }
  tx := { sendBufferBytes := u64Saturating decision.sendBufferBytes }
  rx := {
    receiveBufferBytes := u64Saturating decision.receiveBufferBytes
    receiveBatch := u16Saturating decision.receiveBatch
    reassemblyBudgetBytes := u64Saturating decision.reassemblyBudgetBytes
    activeTrainBudget := decision.activeTrainBudget }
  cover := {
    profile := decision.coverProfile
    overheadPerMille := decision.coverOverheadPerMille
    paddingBytesPerSecond := decision.coverPaddingBytesPerSecond }

def toTuneDecision (self : EffectiveActionV1) : TuneDecisionV2 where
  reason := self.reason
  pathEpoch := self.pathEpoch
  sampleCount := self.sampleCount
  trainTargetBytes := self.scheduler.trainTargetBytes
  bulkQuantumCells := self.scheduler.bulkQuantumCells
  fec := self.fec.toGeometry
  repairCacheBytes := self.repair.cacheBytes
  repairRetentionMillis := self.repair.retentionTargetMillis
  repairWaitPolicy := self.repair.waitPolicy
  sendBufferBytes := self.tx.sendBufferBytes
  receiveBufferBytes := self.rx.receiveBufferBytes
  reassemblyBudgetBytes := self.rx.reassemblyBudgetBytes
  activeTrainBudget := self.rx.activeTrainBudget
  receiveBatch := self.rx.receiveBatch
  coverProfile := self.cover.profile
  coverOverheadPerMille := self.cover.overheadPerMille
  coverPaddingBytesPerSecond := self.cover.paddingBytesPerSecond
  bbr := self.bbr.toProposal

end EffectiveActionV1

/-! ### The tuner -/

structure AutoTunerV2 where
  bounds : AutoTuneBoundsV2
  epoch : Nat
  smoothed : TelemetryFilterV1
  guardrails : GuardrailsV1
  transition : TransitionControllerV1
  current : EffectiveActionV1
  lastClamps : List ClampEntryV1
  deriving DecidableEq, Repr

namespace AutoTunerV2

def conservative (epoch : Nat) (bounds : AutoTuneBoundsV2) (reason : ActionReasonV1) :
    EffectiveActionV1 :=
  .fromTuneDecision { TuneDecisionV2.conservative epoch bounds with reason }

def new (bounds : AutoTuneBoundsV2) (pathEpoch : Nat) (now : Instant) : AutoTunerV2 where
  bounds
  epoch := pathEpoch
  smoothed := .new bounds
  guardrails := { limits := .fromBounds bounds }
  transition := .new now
  current := conservative pathEpoch bounds .coldStart
  lastClamps := []

def limits (self : AutoTunerV2) : HostLimitsV1 := self.guardrails.limits

variable (self : AutoTunerV2)

def setLimits (limits : HostLimitsV1) : AutoTunerV2 :=
  { self with guardrails := { limits } }

variable (sample : PathTelemetryV2) (now : Instant)

/-- A sample of another epoch starts the path anew. -/
def enterEpoch : AutoTunerV2 :=
  if sample.pathEpoch ≠ self.epoch then
    { self with
      epoch := sample.pathEpoch
      smoothed := self.smoothed.reset
      transition := .new now
      current := conservative sample.pathEpoch self.bounds .pathChanged }
  else self

/-- A forced action is a candidate over the smoothed action; the clamp against the rules under a CPU
emergency is only for learned actions. -/
def override (ctx : GuardrailContextV1) (smoothed : EffectiveActionV1) :
    Option ForcedActionV2 → EffectiveActionV1 × List ClampEntryV1
  | some forced =>
    self.guardrails.apply (forced.toCandidate sample.controllerBwBytesPerSecond) smoothed
      { ctx with cpuEmergency := false }
  | none => (smoothed, [])

variable (forced : Option ForcedActionV2)

def observeOnPath : EffectiveActionV1 × AutoTunerV2 :=
  let previous := self.current
  let updated := self.smoothed.update sample previous.rx.receiveBufferBytes
  let filtered := updated.1
  let ctx := GuardrailContextV1.fromFiltered filtered
  -- the rules are the baseline of this tick, so they are guarded against their own values
  let candidate := NativePolicyV1.propose filtered self.limits
  let guarded := self.guardrails.apply candidate (candidate.applyOver previous) ctx
  let native := { guarded.1 with
    reason := filtered.classify
    pathEpoch := self.epoch
    sampleCount := filtered.sampleCount }
  let smoothed := self.transition.smooth native previous now (.fromFiltered filtered)
  let overridden := self.override sample ctx smoothed.1.1 forced
  let effective := self.guardrails.reapply overridden.1 ctx
  (effective.1, { self with
    smoothed := updated.2
    transition := smoothed.2
    current := effective.1
    lastClamps := guarded.2 ++ smoothed.1.2 ++ overridden.2 ++ effective.2 })

def observeEffectiveAtWithForce : EffectiveActionV1 × AutoTunerV2 :=
  (self.enterEpoch sample now).observeOnPath sample now forced

/-- The live facts of the last observation, with a sample. -/
def guardrailContext : GuardrailContextV1 :=
  .fromFiltered (self.smoothed.view sample)

def reapplyEffective (effective : EffectiveActionV1) : EffectiveActionV1 × List ClampEntryV1 :=
  self.guardrails.reapply effective (self.guardrailContext sample)

def constrainCandidate (candidate : CandidateActionV1) (base : EffectiveActionV1) :
    EffectiveActionV1 × List ClampEntryV1 :=
  self.guardrails.apply candidate base (self.guardrailContext sample)

end AutoTunerV2
end Ironet.Policy
