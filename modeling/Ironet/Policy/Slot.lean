import Ironet.Policy.Utility

/-!
# Policy slots

Model of the policy ABI and of `PolicySlotV1`: what a backend is asked, what it may answer, the
health machine that takes a faulting backend out of service, and the slot that carries a backend's
opaque state from call to call.

A backend is untrusted, so it is an arbitrary function of the calls it has received. Durations of
calls and the trace of its probe are part of what it does.
-/
namespace Ironet.Policy
open Support

def quarantineConsecutiveFaults : Nat := 3

def lastClampReasonsLimit : Nat := 8

/-! ### What a backend sees -/

structure PolicyTelemetryV1 where
  pathRttMicros : Nat
  pathMinRttMicros : Nat
  pathQueueDelayMicros : Nat
  localTxWireRateBytesPerSecond : Nat
  localTxTunIngressBytesPerSecond : Nat
  localTxRealTrafficBytesPerSecond : Nat
  localTxTrainBuildBytesPerSecond : Nat
  localTxPacketsPerSecond : Nat
  localTxLossPpm : Nat
  localTxBurstLossCells : Nat
  localTxAverageRecordBytes : Nat
  localTxGsoIngressRatioPpm : Nat
  localTxPacketTrainQueueBytes : Nat
  localTxLatencyQueueBytes : Nat
  localTxBulkPreemptionDelayAverageMicros : Nat
  localTxControllerPacingRateBytesPerSecond : Nat
  localTxControllerSendQuantumBytes : Nat
  localTxControllerState : Nat
  localTxControllerBwBytesPerSecond : Nat
  localTxControllerInflightLongtermBytes : Nat
  localTxControllerGuardTransitionsDelta : Nat
  localTxControllerAppLimited : Bool
  localTxControllerTunablesGeneration : Nat
  localTxControllerParamsGeneration : Nat
  localTxControllerClampedWrites : Nat
  localRxWireRateBytesPerSecond : Nat
  localRxReassemblyPressureEvictions : Nat
  remoteGoodputBytesPerSecond : Nat
  remoteResidualLossPpm : Nat
  remoteReorderPpm : Nat
  remoteExpiredStripesDelta : Nat
  remoteWastedParityPerMille : Nat
  remoteFecRecoveryPerMille : Nat
  remoteRepairHitPerMille : Nat
  remoteRepairCompletedRequests : Nat
  remoteRepairResponseLatencyMicros : Nat
  latencySojournP50Micros : Nat
  latencySojournP95Micros : Nat
  latencySojournP99Micros : Nat
  latencyQueueRecentlyNonempty : Bool
  hostCpuUtilizationPerMille : Nat
  deriving DecidableEq, Repr

def PolicyTelemetryV1.fromRuntime (sample : PathTelemetryV2) : PolicyTelemetryV1 where
  pathRttMicros := micros sample.rtt
  pathMinRttMicros := micros sample.minRtt
  pathQueueDelayMicros := micros sample.queueDelay
  localTxWireRateBytesPerSecond := sample.deliveryRateBytesPerSecond
  localTxTunIngressBytesPerSecond := sample.tunIngressBytesPerSecond
  localTxRealTrafficBytesPerSecond := sample.realTrafficBytesPerSecond
  localTxTrainBuildBytesPerSecond := sample.trainBuildBytesPerSecond
  localTxPacketsPerSecond := sample.packetsPerSecond
  localTxLossPpm := sample.lossPpm
  localTxBurstLossCells := sample.burstLossCells
  localTxAverageRecordBytes := sample.averageRecordBytes
  localTxGsoIngressRatioPpm := sample.gsoIngressRatioPpm
  localTxPacketTrainQueueBytes := sample.packetTrainQueueBytes
  localTxLatencyQueueBytes := sample.latencyQueueBytes
  localTxBulkPreemptionDelayAverageMicros := sample.bulkPreemptionDelayAverageMicros
  localTxControllerPacingRateBytesPerSecond := sample.controllerPacingRateBytesPerSecond
  localTxControllerSendQuantumBytes := sample.controllerSendQuantumBytes
  localTxControllerState := sample.controllerState
  localTxControllerBwBytesPerSecond := sample.controllerBwBytesPerSecond
  localTxControllerInflightLongtermBytes := sample.controllerInflightLongtermBytes
  localTxControllerGuardTransitionsDelta := sample.controllerGuardTransitionsDelta
  localTxControllerAppLimited := sample.controllerAppLimited
  localTxControllerTunablesGeneration := sample.controllerTunablesGeneration
  localTxControllerParamsGeneration := sample.controllerParamsGeneration
  localTxControllerClampedWrites := sample.controllerClampedWrites
  localRxWireRateBytesPerSecond := sample.receiveRateBytesPerSecond
  localRxReassemblyPressureEvictions := sample.reassemblyPressureEvictions
  remoteGoodputBytesPerSecond := sample.receiverGoodputBytesPerSecond
  remoteResidualLossPpm := sample.residualLossPpm
  remoteReorderPpm := sample.reorderPpm
  remoteExpiredStripesDelta := sample.remoteExpiredStripesDelta
  remoteWastedParityPerMille := sample.wastedParityPerMille
  remoteFecRecoveryPerMille := sample.fecRecoveryPerMille
  remoteRepairHitPerMille := sample.repairHitPerMille
  remoteRepairCompletedRequests := sample.repairCompletedRequests
  remoteRepairResponseLatencyMicros := micros sample.repairResponseLatency
  latencySojournP50Micros := sample.latencySojournP50Micros
  latencySojournP95Micros := sample.latencySojournP95Micros
  latencySojournP99Micros := sample.latencySojournP99Micros
  latencyQueueRecentlyNonempty := sample.latencyQueueRecentlyNonempty
  hostCpuUtilizationPerMille := sample.cpuUtilizationPerMille

structure HostUtilityV1 where
  objective : Objective
  valid : Bool
  utilityMilli : Int
  throughputMilli : Int
  queueDelayMilli : Int
  latencySojournMilli : Int
  residualLossMilli : Int
  jitterMilli : Int
  cpuMilli : Int
  wireOverheadMilli : Int
  memoryMilli : Int
  goodputBytesPerSecond : Nat

/-- `milli_i32`: the conversion of the rounded product saturates. -/
def milliI32 (value : Float) : Int :=
  if value.isNaN then 0 else (value * 1000.0).round.toInt32.toInt

def HostUtilityV1.fromSample (objective : Objective) (sample : UtilitySample) : HostUtilityV1 where
  objective
  valid := true
  utilityMilli := milliI32 sample.total
  throughputMilli := milliI32 sample.throughput
  queueDelayMilli := milliI32 sample.queueDelay
  latencySojournMilli := milliI32 sample.latencySojourn
  residualLossMilli := milliI32 sample.residualLoss
  jitterMilli := milliI32 sample.jitter
  cpuMilli := milliI32 sample.cpu
  wireOverheadMilli := milliI32 sample.wireOverhead
  memoryMilli := milliI32 sample.memory
  goodputBytesPerSecond := sample.goodputBytesPerSecond

def extensionTagHostUtilityF64V1 : Nat := 1

def hostUtilityExtension (total : Float) : PolicyExtensionV1 where
  tag := extensionTagHostUtilityF64V1
  payload := (putU64 total.toBits).reverse

structure HostCapabilitiesV1 where
  abiMajor : Nat := 1
  abiMinor : Nat := 0
  fecSupported : Bool := true
  repairSupported : Bool := true
  coverSupported : Bool := true
  bbrTunablesWritable : Bool := true
  egressCoordinator : Bool := false
  shadow : Bool := false
  extensionTags : List Nat := []
  deriving DecidableEq, Repr

structure EgressAllocationViewV1 where
  assignedRateBytesPerSecond : Nat := 0
  nodeCapBytesPerSecond : Nat := 0
  nodeDemandBytesPerSecond : Nat := 0
  pressurePerMille : Nat := 0
  activePeers : Nat := 0
  allocationGeneration : Nat := 0
  deriving DecidableEq, Repr

structure PolicyInputV1 where
  logicalTick : Nat
  deterministicSeed : Nat
  peerHash : List UInt8
  pathEpoch : Nat
  reliability : PathReliability
  telemetry : PolicyTelemetryV1
  previous : EffectiveActionV1
  previousUtility : HostUtilityV1
  limits : HostLimitsV1
  capabilities : HostCapabilitiesV1
  egress : EgressAllocationViewV1
  extensions : List PolicyExtensionV1
  state : List UInt8

/-! ### What a backend answers -/

inductive PolicyFaultV1 where
  | trap
  | timeout
  | fuelExhausted
  | outOfMemory
  | inputTooLarge
  | outputTooLarge
  | invalidOutput
  | stateTooLarge
  | abiMismatch
  | unavailable
  | internal
  deriving DecidableEq, Repr

structure PolicyDiagnosticsV1 where
  appliedArmLabel : List UInt8
  predictedAdvantageMilli : Int
  exploring : Bool
  rollback : Bool
  rollbacks : Nat
  deriving DecidableEq, Repr

structure PolicyOutputV1 where
  candidate : CandidateActionV1
  nextState : List UInt8
  diagnostics : PolicyDiagnosticsV1
  deriving DecidableEq, Repr

inductive LearnerModeV2 where
  | off
  | shadow
  | on
  deriving DecidableEq, Repr

structure ContextKeyV2 where
  rttClass : Nat
  rateClass : Nat
  lossClass : Nat
  reliable : Bool
  hostRtt : Bool
  deriving DecidableEq, Repr

structure LearnerTraceV2 where
  mode : LearnerModeV2
  context : ContextKeyV2
  baselinePreset : Bbr3PresetV1
  proposedPreset : Bbr3PresetV1
  appliedPreset : Bbr3PresetV1
  predictedAdvantage : Float
  exploring : Bool
  rollback : Bool
  rollbacks : Nat
  fineUpGainDeltaMilli : Int
  fineHeadroomDeltaMilli : Int
  fineCwndGainDeltaMilli : Int

structure PolicyIdentityV1 where
  policyId : String
  stateSchema : Nat
  moduleGeneration : Nat := 0
  deriving DecidableEq, Repr

/-- An arbitrary backend. What it answers, leaves in its probe and takes for a call may depend on
all the calls since it was installed, the latest of them last. -/
structure PolicyBackend where
  identity : PolicyIdentityV1
  decide : List PolicyInputV1 → Except PolicyFaultV1 PolicyOutputV1
  lastTrace : List PolicyInputV1 → Option LearnerTraceV2
  callMicros : List PolicyInputV1 → Nat

/-! ### Health -/

inductive PolicyHealthV1 where
  | healthy
  | degraded
  | quarantined
  | shadowWarmup
  deriving DecidableEq, Repr

structure BackendHealthV1 where
  state : PolicyHealthV1 := .healthy
  consecutiveFaults : Nat := 0
  faultsTotal : Nat := 0
  timeoutsTotal : Nat := 0
  quarantinesTotal : Nat := 0
  lastFault : Option PolicyFaultV1 := none
  deriving DecidableEq, Repr

namespace BackendHealthV1

variable (self : BackendHealthV1)

def isQuarantined : Bool := self.state = .quarantined

def recordSuccess : BackendHealthV1 :=
  { self with
    consecutiveFaults := 0
    state := if self.state = .degraded then .healthy else self.state }

def recordFault (fault : PolicyFaultV1) : BackendHealthV1 :=
  let counted := { self with
    faultsTotal := saturatingAdd self.faultsTotal 1
    timeoutsTotal :=
      if fault = .timeout then saturatingAdd self.timeoutsTotal 1 else self.timeoutsTotal
    consecutiveFaults := u32Saturating (self.consecutiveFaults + 1)
    lastFault := some fault }
  if self.state = .quarantined then counted
  else if quarantineConsecutiveFaults ≤ counted.consecutiveFaults then
    { counted with
      quarantinesTotal := saturatingAdd self.quarantinesTotal 1
      state := .quarantined }
  else { counted with state := .degraded }

def resetForNewModule : BackendHealthV1 :=
  { self with state := .healthy, consecutiveFaults := 0, lastFault := none }

end BackendHealthV1

/-! ### The slot -/

structure SlotStatsV1 where
  calls : Nat := 0
  lastCallMicros : Nat := 0
  clampedFieldsTotal : Nat := 0
  lastClampReasons : List ClampReasonV1 := []
  deriving DecidableEq, Repr

structure PolicySlotV1 where
  backend : PolicyBackend
  /-- the calls of the installed backend, the latest last -/
  asked : List PolicyInputV1 := []
  identity : PolicyIdentityV1
  moduleDigest : String
  state : List UInt8 := []
  stateDirty : Bool := false
  health : BackendHealthV1 := {}
  stats : SlotStatsV1 := {}

namespace PolicySlotV1

def new (backend : PolicyBackend) (moduleDigest : String) : PolicySlotV1 :=
  { backend, identity := backend.identity, moduleDigest }

variable (self : PolicySlotV1)

/-- A hot switch. The state stays when the policy is the same and the new module reads its
schema. -/
def replace (backend : PolicyBackend) (moduleDigest : String)
    (stateSchemaAccepts : List Nat) : PolicySlotV1 :=
  let keepState :=
    backend.identity.policyId = self.identity.policyId ∧
      (backend.identity.stateSchema = self.identity.stateSchema ∨
        self.identity.stateSchema ∈ stateSchemaAccepts)
  { self with
    backend
    asked := []
    identity := { backend.identity with
      moduleGeneration := saturatingAdd self.identity.moduleGeneration 1 }
    moduleDigest
    state := if keepState then self.state else []
    stateDirty := if keepState then self.stateDirty else false
    health := self.health.resetForNewModule }

/-- The call is counted, and its state filled in. -/
def call (input : PolicyInputV1) : PolicySlotV1 :=
  let asked := self.asked ++ [{ input with state := self.state }]
  { self with
    asked
    stats := { self.stats with
      lastCallMicros := self.backend.callMicros asked
      calls := saturatingAdd self.stats.calls 1 } }

def succeed (output : PolicyOutputV1) : PolicySlotV1 :=
  { self with
    state := output.nextState
    stateDirty := if output.nextState ≠ self.state then true else self.stateDirty
    health := self.health.recordSuccess }

/-- A rejected or corrupt state starts again from empty. -/
def fail (fault : PolicyFaultV1) : PolicySlotV1 :=
  let discards :=
    (fault = .stateTooLarge ∨ fault = .internal ∨ fault = .invalidOutput) ∧ self.state ≠ []
  { self with
    state := if discards then [] else self.state
    stateDirty := if discards then true else self.stateDirty
    health := self.health.recordFault fault }

/-- One decision: the answer, the input as it was left, and the slot after it. A quarantined backend
is not called. -/
def decide (self : PolicySlotV1) (input : PolicyInputV1) :
    (Except PolicyFaultV1 PolicyOutputV1 × PolicyInputV1) × PolicySlotV1 :=
  if self.health.isQuarantined then ((.error .unavailable, input), self)
  else
    let called := self.call input
    match self.backend.decide called.asked with
    | .ok output => ((.ok output, { input with state := self.state }), called.succeed output)
    | .error fault => ((.error fault, { input with state := self.state }), called.fail fault)

def lastTrace (self : PolicySlotV1) : Option LearnerTraceV2 := self.backend.lastTrace self.asked

/-- The distinct reasons, newest last. -/
def rememberReason (reasons : List ClampReasonV1) (entry : ClampEntryV1) : List ClampReasonV1 :=
  if reasons.getLast? = some entry.reason then reasons
  else
    let moved := reasons.filter (· ≠ entry.reason) ++ [entry.reason]
    if lastClampReasonsLimit < moved.length then moved.tail else moved

def recordClamps (report : List ClampEntryV1) : PolicySlotV1 :=
  { self with
    stats := { self.stats with
      clampedFieldsTotal := saturatingAdd self.stats.clampedFieldsTotal report.length
      lastClampReasons := report.foldl rememberReason self.stats.lastClampReasons } }

end PolicySlotV1
end Ironet.Policy
