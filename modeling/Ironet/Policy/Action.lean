import Ironet.Fec.Wire

/-!
# Policy actions

Model of the policy ABI crate: the host-authoritative `EffectiveActionV1`, the untrusted
`CandidateActionV1` whose fields are all optional, the overlay of one on the other, the host limits
and the clamp report. Numbers are natural numbers; the widths of the source only matter where it
saturates, and there the model says so, and for the cells of a stripe, which are bytes. Diagnostics
that no modelled function reads are left out.
-/
namespace Ironet.Policy
open Support Ironet.Fec

/-! ### Widths -/

def u8Max : Nat := 255

def u16Max : Nat := 65535

def u32Max : Nat := 4294967295

def i64Max : Int := 9223372036854775807

variable (value : Nat)

def u16Saturating : Nat := min value u16Max

def u32Saturating : Nat := min value u32Max

def u64Saturating : Nat := min value u64Max

/-- `u64::saturating_mul` -/
def saturatingMul (left right : Nat) : Nat := min (left * right) u64Max

/-- `i64_sat` -/
def i64Sat : Int := min (value : Int) i64Max

/-! ### Enumerations -/

inductive PathReliability where
  | datagram
  | reliableRelay
  deriving DecidableEq, Repr

inductive ActionReasonV1 where
  | coldStart
  | telemetryUnavailable
  | pathChanged
  | healthyLowLoss
  | randomLoss
  | burstLoss
  | congested
  | cpuLimited
  | reliablePath
  deriving DecidableEq, Repr

inductive CoverProfileV1 where
  | idle
  | liveBroadcast
  | interactiveVideo
  | genericH3Bulk
  deriving DecidableEq, Repr

inductive Bbr3PresetV1 where
  | sharedConservative
  | privateAggressive
  | lossyRadio
  | policer
  | longFat
  | relayReliable
  | lowRttHost
  deriving DecidableEq, Repr

inductive FecPresetFamilyV1 where
  | unspecified
  | sparse
  | balanced
  | dense
  deriving DecidableEq, Repr

inductive RepairWaitPolicyV1 where
  | hostDefault
  | eager
  | afterFecWindow
  | patient
  deriving DecidableEq, Repr

inductive ProtectionResponsibilityV1 where
  | hostDefault
  | preferFec
  | preferRepair
  | both
  deriving DecidableEq, Repr

def ProtectionResponsibilityV1.all : List ProtectionResponsibilityV1 :=
  [.hostDefault, .preferFec, .preferRepair, .both]

inductive SchedulerPresetHintV1 where
  | hostDefault
  | latencyFirst
  | balanced
  | bulkThroughput
  deriving DecidableEq, Repr

def SchedulerPresetHintV1.all : List SchedulerPresetHintV1 :=
  [.hostDefault, .latencyFirst, .balanced, .bulkThroughput]

/-- The fields that the host may clamp. -/
inductive ClampFieldV1 where
  | bbrProbeBwUpPacingGainMilli
  | bbrProbeBwDownPacingGainMilli
  | bbrCruisePacingGainMilli
  | bbrDefaultCwndGainMilli
  | bbrProbeBwUpCwndGainMilli
  | bbrHeadroomMilli
  | bbrBetaMilli
  | bbrLossThresholdMilli
  | bbrQueueGuardInflationMilli
  | bbrQueueGuardSlackMicros
  | bbrProbeRttIntervalMillis
  | bbrProbeRttDurationMillis
  | bbrProbeRttCwndGainMilli
  | bbrMinProbeWaitMillis
  | bbrMaxAddedProbeWaitMillis
  | bbrPacingCapBytesPerSecond
  | bbrCwndFloorBytes
  | bbrCwndCapBytes
  | schedulerTrainTargetBytes
  | schedulerBulkQuantumCells
  | schedulerBulkAdmissionWindowBytes
  | schedulerPresetHint
  | fecEnabled
  | fecDataCells
  | fecParityCells
  | repairCacheBytes
  | repairRetentionTargetMillis
  | repairResponsibility
  | txSendBufferBytes
  | txDatagramAdmissionBytes
  | txProducerWindowBytes
  | rxReceiveBufferBytes
  | rxReceiveBatch
  | rxReassemblyBudgetBytes
  | rxActiveTrainBudget
  | coverOverheadPerMille
  | coverPaddingBytesPerSecond
  | egressMinimumRateBytesPerSecond
  | egressPriority
  | extension
  deriving DecidableEq, Repr

inductive ClampReasonV1 where
  | belowFloor
  | aboveCap
  | invalidValue
  | overflow
  | crossFieldConstraint
  | unknownExtension
  | extensionTooLarge
  | tooManyExtensions
  | reliableUnderlay
  | cpuPressure
  | queuePressure
  | capability
  | memoryBudget
  | wireOverhead
  | egressArbitration
  | transitionHold
  | unsupported
  deriving DecidableEq, Repr

structure ClampEntryV1 where
  field : ClampFieldV1
  requested : Int
  effective : Int
  reason : ClampReasonV1
  deriving DecidableEq, Repr

/-! ### Effective actions -/

def lowRttHostCwndFloorBytes : Nat := 512 * 1024

structure BbrEffectiveV1 where
  preset : Bbr3PresetV1
  probeBwUpPacingGainMilli : Nat
  probeBwDownPacingGainMilli : Nat
  cruisePacingGainMilli : Nat
  defaultCwndGainMilli : Nat
  probeBwUpCwndGainMilli : Nat
  headroomMilli : Nat
  betaMilli : Nat
  lossThresholdMilli : Nat
  lossIsCongestion : Bool
  queueGuardInflationMilli : Nat
  queueGuardSlackMicros : Nat
  probeRttIntervalMillis : Nat
  probeRttDurationMillis : Nat
  probeRttCwndGainMilli : Nat
  minProbeWaitMillis : Nat
  maxAddedProbeWaitMillis : Nat
  pacingCapBytesPerSecond : Nat
  cwndFloorBytes : Nat
  cwndCapBytes : Nat
  startupBwHintBytesPerSecond : Nat
  deriving DecidableEq, Repr

namespace BbrEffectiveV1

/-- Cruise gain, queue guard, probe interval and static cwnd floor of a preset. -/
def presetTable : Bbr3PresetV1 → Nat × Nat × Nat × Nat
  | .sharedConservative => (1000, 500, 10000, 0)
  | .privateAggressive => (1000, 500, 5000, 0)
  | .lossyRadio => (1000, 800, 10000, 0)
  | .policer => (970, 500, 10000, 0)
  | .longFat => (1000, 800, 20000, 0)
  | .relayReliable => (980, 500, 10000, 0)
  | .lowRttHost => (1000, 500, 5000, lowRttHostCwndFloorBytes)

def expandPreset (preset : Bbr3PresetV1) (upGainMilli headroomMilli cwndGainMilli : Nat)
    (pacingCapBytesPerSecond : Nat) (lossIsCongestion : Bool) : BbrEffectiveV1 :=
  let (cruise, guard, probeInterval, cwndFloor) := presetTable preset
  { preset
    probeBwUpPacingGainMilli := upGainMilli
    probeBwDownPacingGainMilli := 900
    cruisePacingGainMilli := cruise
    defaultCwndGainMilli := cwndGainMilli
    probeBwUpCwndGainMilli := max cwndGainMilli 1500
    headroomMilli
    betaMilli := 700
    lossThresholdMilli := 20
    lossIsCongestion
    queueGuardInflationMilli := guard
    queueGuardSlackMicros := 5000
    probeRttIntervalMillis := probeInterval
    probeRttDurationMillis := 200
    probeRttCwndGainMilli := 500
    minProbeWaitMillis := 2000
    maxAddedProbeWaitMillis := 1000
    pacingCapBytesPerSecond
    cwndFloorBytes := cwndFloor
    cwndCapBytes := 0
    startupBwHintBytesPerSecond := 0 }

instance : Inhabited BbrEffectiveV1 := ⟨expandPreset .sharedConservative 1150 250 2000 0 false⟩

end BbrEffectiveV1

structure SchedulerEffectiveV1 where
  trainTargetBytes : Nat := 0
  bulkQuantumCells : Nat := 0
  bulkAdmissionWindowBytes : Nat := 0
  presetHint : SchedulerPresetHintV1 := .hostDefault
  deriving DecidableEq, Repr

structure FecEffectiveV1 where
  enabled : Bool := false
  dataCells : UInt8 := 0
  parityCells : UInt8 := 0
  presetFamily : FecPresetFamilyV1 := .unspecified
  deriving DecidableEq, Repr

namespace FecEffectiveV1

def fromGeometry : Option FecGeometryV2 → FecEffectiveV1
  | some geometry =>
    { enabled := true
      dataCells := UInt8.ofNat (min geometry.dataCells u8Max)
      parityCells := UInt8.ofNat (min geometry.parityCells u8Max)
      presetFamily := .unspecified }
  | none => {}

def toGeometry (self : FecEffectiveV1) : Option FecGeometryV2 :=
  if self.enabled then
    some { dataCells := self.dataCells.toNat, parityCells := self.parityCells.toNat }
  else none

end FecEffectiveV1

structure RepairEffectiveV1 where
  cacheBytes : Nat := 0
  retentionTargetMillis : Nat := 0
  waitPolicy : RepairWaitPolicyV1 := .hostDefault
  responsibility : ProtectionResponsibilityV1 := .hostDefault
  deriving DecidableEq, Repr

structure TxEffectiveV1 where
  sendBufferBytes : Nat := 0
  datagramAdmissionBytes : Nat := 0
  producerWindowBytes : Nat := 0
  deriving DecidableEq, Repr

structure RxEffectiveV1 where
  receiveBufferBytes : Nat := 0
  receiveBatch : Nat := 0
  reassemblyBudgetBytes : Nat := 0
  activeTrainBudget : Nat := 0
  deriving DecidableEq, Repr

structure CoverEffectiveV1 where
  profile : CoverProfileV1 := .idle
  overheadPerMille : Nat := 0
  paddingBytesPerSecond : Nat := 0
  deriving DecidableEq, Repr

structure EgressRequestV1 where
  desiredRateBytesPerSecond : Nat := 0
  minimumRateBytesPerSecond : Nat := 0
  priority : Nat := 0
  exploring : Bool := false
  deriving DecidableEq, Repr

structure EffectiveActionV1 where
  reason : ActionReasonV1 := .coldStart
  pathEpoch : Nat := 0
  sampleCount : Nat := 0
  bbr : BbrEffectiveV1 := default
  scheduler : SchedulerEffectiveV1 := {}
  fec : FecEffectiveV1 := {}
  repair : RepairEffectiveV1 := {}
  tx : TxEffectiveV1 := {}
  rx : RxEffectiveV1 := {}
  cover : CoverEffectiveV1 := {}
  egress : EgressRequestV1 := {}
  deriving DecidableEq, Repr

/-! ### Candidates -/

structure BbrCandidateV1 where
  preset : Option Bbr3PresetV1 := none
  probeBwUpPacingGainMilli : Option Nat := none
  probeBwDownPacingGainMilli : Option Nat := none
  cruisePacingGainMilli : Option Nat := none
  defaultCwndGainMilli : Option Nat := none
  probeBwUpCwndGainMilli : Option Nat := none
  headroomMilli : Option Nat := none
  betaMilli : Option Nat := none
  lossThresholdMilli : Option Nat := none
  lossIsCongestion : Option Bool := none
  queueGuardInflationMilli : Option Nat := none
  queueGuardSlackMicros : Option Nat := none
  probeRttIntervalMillis : Option Nat := none
  probeRttDurationMillis : Option Nat := none
  probeRttCwndGainMilli : Option Nat := none
  minProbeWaitMillis : Option Nat := none
  maxAddedProbeWaitMillis : Option Nat := none
  pacingCapBytesPerSecond : Option Nat := none
  cwndFloorBytes : Option Nat := none
  cwndCapBytes : Option Nat := none
  startupBwHintBytesPerSecond : Option Nat := none
  deriving DecidableEq, Repr

def BbrCandidateV1.applyTo (self : BbrCandidateV1) (target : BbrEffectiveV1) : BbrEffectiveV1 where
  preset := self.preset.getD target.preset
  probeBwUpPacingGainMilli :=
    self.probeBwUpPacingGainMilli.getD target.probeBwUpPacingGainMilli
  probeBwDownPacingGainMilli :=
    self.probeBwDownPacingGainMilli.getD target.probeBwDownPacingGainMilli
  cruisePacingGainMilli := self.cruisePacingGainMilli.getD target.cruisePacingGainMilli
  defaultCwndGainMilli := self.defaultCwndGainMilli.getD target.defaultCwndGainMilli
  probeBwUpCwndGainMilli := self.probeBwUpCwndGainMilli.getD target.probeBwUpCwndGainMilli
  headroomMilli := self.headroomMilli.getD target.headroomMilli
  betaMilli := self.betaMilli.getD target.betaMilli
  lossThresholdMilli := self.lossThresholdMilli.getD target.lossThresholdMilli
  lossIsCongestion := self.lossIsCongestion.getD target.lossIsCongestion
  queueGuardInflationMilli :=
    self.queueGuardInflationMilli.getD target.queueGuardInflationMilli
  queueGuardSlackMicros := self.queueGuardSlackMicros.getD target.queueGuardSlackMicros
  probeRttIntervalMillis := self.probeRttIntervalMillis.getD target.probeRttIntervalMillis
  probeRttDurationMillis := self.probeRttDurationMillis.getD target.probeRttDurationMillis
  probeRttCwndGainMilli := self.probeRttCwndGainMilli.getD target.probeRttCwndGainMilli
  minProbeWaitMillis := self.minProbeWaitMillis.getD target.minProbeWaitMillis
  maxAddedProbeWaitMillis := self.maxAddedProbeWaitMillis.getD target.maxAddedProbeWaitMillis
  pacingCapBytesPerSecond := self.pacingCapBytesPerSecond.getD target.pacingCapBytesPerSecond
  cwndFloorBytes := self.cwndFloorBytes.getD target.cwndFloorBytes
  cwndCapBytes := self.cwndCapBytes.getD target.cwndCapBytes
  startupBwHintBytesPerSecond :=
    self.startupBwHintBytesPerSecond.getD target.startupBwHintBytesPerSecond

structure SchedulerCandidateV1 where
  trainTargetBytes : Option Nat := none
  bulkQuantumCells : Option Nat := none
  bulkAdmissionWindowBytes : Option Nat := none
  presetHint : Option SchedulerPresetHintV1 := none
  deriving DecidableEq, Repr

def SchedulerCandidateV1.applyTo (self : SchedulerCandidateV1) (target : SchedulerEffectiveV1) :
    SchedulerEffectiveV1 where
  trainTargetBytes := self.trainTargetBytes.getD target.trainTargetBytes
  bulkQuantumCells := self.bulkQuantumCells.getD target.bulkQuantumCells
  bulkAdmissionWindowBytes :=
    self.bulkAdmissionWindowBytes.getD target.bulkAdmissionWindowBytes
  presetHint := self.presetHint.getD target.presetHint

structure FecCandidateV1 where
  enabled : Option Bool := none
  dataCells : Option UInt8 := none
  parityCells : Option UInt8 := none
  presetFamily : Option FecPresetFamilyV1 := none
  deriving DecidableEq, Repr

def FecCandidateV1.applyTo (self : FecCandidateV1) (target : FecEffectiveV1) : FecEffectiveV1 where
  enabled := self.enabled.getD target.enabled
  dataCells := self.dataCells.getD target.dataCells
  parityCells := self.parityCells.getD target.parityCells
  presetFamily := self.presetFamily.getD target.presetFamily

structure RepairCandidateV1 where
  cacheBytes : Option Nat := none
  retentionTargetMillis : Option Nat := none
  waitPolicy : Option RepairWaitPolicyV1 := none
  responsibility : Option ProtectionResponsibilityV1 := none
  deriving DecidableEq, Repr

def RepairCandidateV1.applyTo (self : RepairCandidateV1) (target : RepairEffectiveV1) :
    RepairEffectiveV1 where
  cacheBytes := self.cacheBytes.getD target.cacheBytes
  retentionTargetMillis := self.retentionTargetMillis.getD target.retentionTargetMillis
  waitPolicy := self.waitPolicy.getD target.waitPolicy
  responsibility := self.responsibility.getD target.responsibility

structure TxCandidateV1 where
  sendBufferBytes : Option Nat := none
  datagramAdmissionBytes : Option Nat := none
  producerWindowBytes : Option Nat := none
  deriving DecidableEq, Repr

def TxCandidateV1.applyTo (self : TxCandidateV1) (target : TxEffectiveV1) : TxEffectiveV1 where
  sendBufferBytes := self.sendBufferBytes.getD target.sendBufferBytes
  datagramAdmissionBytes := self.datagramAdmissionBytes.getD target.datagramAdmissionBytes
  producerWindowBytes := self.producerWindowBytes.getD target.producerWindowBytes

structure RxCandidateV1 where
  receiveBufferBytes : Option Nat := none
  receiveBatch : Option Nat := none
  reassemblyBudgetBytes : Option Nat := none
  activeTrainBudget : Option Nat := none
  deriving DecidableEq, Repr

def RxCandidateV1.applyTo (self : RxCandidateV1) (target : RxEffectiveV1) : RxEffectiveV1 where
  receiveBufferBytes := self.receiveBufferBytes.getD target.receiveBufferBytes
  receiveBatch := self.receiveBatch.getD target.receiveBatch
  reassemblyBudgetBytes := self.reassemblyBudgetBytes.getD target.reassemblyBudgetBytes
  activeTrainBudget := self.activeTrainBudget.getD target.activeTrainBudget

structure CoverCandidateV1 where
  profile : Option CoverProfileV1 := none
  overheadPerMille : Option Nat := none
  paddingBytesPerSecond : Option Nat := none
  deriving DecidableEq, Repr

def CoverCandidateV1.applyTo (self : CoverCandidateV1) (target : CoverEffectiveV1) :
    CoverEffectiveV1 where
  profile := self.profile.getD target.profile
  overheadPerMille := self.overheadPerMille.getD target.overheadPerMille
  paddingBytesPerSecond := self.paddingBytesPerSecond.getD target.paddingBytesPerSecond

structure PolicyExtensionV1 where
  tag : Nat
  payload : List UInt8
  deriving DecidableEq, Repr

structure CandidateActionV1 where
  bbr : Option BbrCandidateV1 := none
  scheduler : Option SchedulerCandidateV1 := none
  fec : Option FecCandidateV1 := none
  repair : Option RepairCandidateV1 := none
  tx : Option TxCandidateV1 := none
  rx : Option RxCandidateV1 := none
  cover : Option CoverCandidateV1 := none
  egressRequest : Option EgressRequestV1 := none
  extensions : List PolicyExtensionV1 := []
  deriving DecidableEq, Repr

/-- Every field that is present overrides the base; nothing is clamped. -/
def CandidateActionV1.applyOver (self : CandidateActionV1) (base : EffectiveActionV1) :
    EffectiveActionV1 :=
  { base with
    bbr := self.bbr.elim base.bbr (·.applyTo base.bbr)
    scheduler := self.scheduler.elim base.scheduler (·.applyTo base.scheduler)
    fec := self.fec.elim base.fec (·.applyTo base.fec)
    repair := self.repair.elim base.repair (·.applyTo base.repair)
    tx := self.tx.elim base.tx (·.applyTo base.tx)
    rx := self.rx.elim base.rx (·.applyTo base.rx)
    cover := self.cover.elim base.cover (·.applyTo base.cover)
    egress := self.egressRequest.getD base.egress }

@[simp] theorem CandidateActionV1.applyOver_empty (base : EffectiveActionV1) :
    ({} : CandidateActionV1).applyOver base = base := rfl

/-! ### Limits -/

structure AutoTuneBoundsV2 where
  minimumTrainBytes : Nat := 8 * 1024
  maximumTrainBytes : Nat := 64 * 1024
  minimumSocketBufferBytes : Nat := 512 * 1024
  minimumReceiveBufferBytes : Nat := 8 * 1024 * 1024
  maximumSocketBufferBytes : Nat := 32 * 1024 * 1024
  maximumReceiveBatch : Nat := 64
  maximumCoverOverheadPerMille : Nat := 50
  deriving DecidableEq, Repr

def policyStateMaxBytes : Nat := 64 * 1024

structure HostLimitsV1 where
  trainTargetFloorBytes : Nat := 8 * 1024
  trainTargetCapBytes : Nat := 64 * 1024
  bulkQuantumFloorCells : Nat := 1
  bulkQuantumCapCells : Nat := 8
  sendBufferFloorBytes : Nat := 512 * 1024
  sendBufferCapBytes : Nat := 32 * 1024 * 1024
  receiveBufferFloorBytes : Nat := 8 * 1024 * 1024
  receiveBufferCapBytes : Nat := 32 * 1024 * 1024
  receiveBatchCap : Nat := 64
  repairCacheCapBytes : Nat := 32 * 1024 * 1024
  fecDataCellsCap : UInt8 := 16
  fecParityCellsCap : UInt8 := 8
  fecParityPerMilleCap : Nat := 1000
  coverOverheadCapPerMille : Nat := 50
  coverPaddingCapBytesPerSecond : Nat := 0
  pacingCapBytesPerSecond : Nat := 0
  egressPriorityCap : Nat := 7
  stateCapBytes : Nat := policyStateMaxBytes
  extensionPayloadCapBytes : Nat := 4 * 1024
  extensionCountCap : Nat := 32
  deriving DecidableEq, Repr

def HostLimitsV1.fromBounds (bounds : AutoTuneBoundsV2) : HostLimitsV1 where
  trainTargetFloorBytes := u32Saturating bounds.minimumTrainBytes
  trainTargetCapBytes := u32Saturating bounds.maximumTrainBytes
  sendBufferFloorBytes := u64Saturating bounds.minimumSocketBufferBytes
  sendBufferCapBytes := u64Saturating bounds.maximumSocketBufferBytes
  receiveBufferFloorBytes := u64Saturating bounds.minimumReceiveBufferBytes
  receiveBufferCapBytes := u64Saturating bounds.maximumSocketBufferBytes
  receiveBatchCap := max (u16Saturating bounds.maximumReceiveBatch) 1
  repairCacheCapBytes := u64Saturating bounds.maximumSocketBufferBytes
  coverOverheadCapPerMille := bounds.maximumCoverOverheadPerMille

end Ironet.Policy
