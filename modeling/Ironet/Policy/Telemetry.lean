import Ironet.Policy.Guardrails

/-!
# Telemetry

Model of the telemetry half of `tuning.rs`: the raw sample of a path, the filter that folds one
sample after another into moving averages, a receive-pressure hold and the latch of a short-RTT
policer, and the snapshot that every later stage reads. Instants and durations count nanoseconds;
`usize` is as wide as `u64`.
-/
namespace Ironet.Policy
open Support

abbrev Instant := Nat
abbrev Duration := Nat

def receivePressureGrowthStepBytes : Nat := 8 * 1024 * 1024

def receivePressureHoldSamples : Nat := 10

def shortRttPolicerCleanDeliverySamples : Nat := 5

def minimumProtectionTrafficBytesPerSecond : Nat := 64 * 1024

def minimumProtectionPacketsPerSecond : Nat := 128

def minimumBacklogProtectionBytes : Nat := 64 * 1024

def minimumBacklogProtectionPacketsPerSecond : Nat := 32

def minimumShortRttPolicerModelBytesPerSecond : Nat := 8 * 1024 * 1024

/-- One raw sample of a path. -/
structure PathTelemetryV2 where
  pathEpoch : Nat
  reliability : PathReliability
  rtt : Duration
  minRtt : Duration
  queueDelay : Duration
  lossPpm : Nat
  burstLossCells : Nat
  reorderPpm : Nat
  receiverGoodputBytesPerSecond : Nat
  residualLossPpm : Nat
  latencySojournP95Micros : Nat
  latencySojournP50Micros : Nat
  latencySojournP99Micros : Nat
  latencyQueueRecentlyNonempty : Bool
  deliveryRateBytesPerSecond : Nat
  controllerPacingRateBytesPerSecond : Nat
  controllerSendQuantumBytes : Nat
  controllerState : Nat
  controllerBwBytesPerSecond : Nat
  controllerInflightLongtermBytes : Nat
  controllerGuardTransitionsDelta : Nat
  controllerAppLimited : Bool
  controllerTunablesGeneration : Nat
  controllerParamsGeneration : Nat
  controllerClampedWrites : Nat
  receiveRateBytesPerSecond : Nat
  packetsPerSecond : Nat
  tunIngressBytesPerSecond : Nat
  averageRecordBytes : Nat
  gsoIngressRatioPpm : Nat
  packetTrainQueueBytes : Nat
  latencyQueueBytes : Nat
  reassemblyPressureEvictions : Nat
  remoteExpiredStripesDelta : Nat
  trainBuildBytesPerSecond : Nat
  bulkPreemptionDelayAverageMicros : Nat
  cpuUtilizationPerMille : Nat
  wastedParityPerMille : Nat
  fecRecoveryPerMille : Nat
  repairHitPerMille : Nat
  repairCompletedRequests : Nat
  repairResponseLatency : Duration
  realTrafficBytesPerSecond : Nat
  deriving DecidableEq, Repr

/-- A long path that loses five Cells in a hundred. -/
def lossySample (epoch : Nat) : PathTelemetryV2 where
  pathEpoch := epoch
  reliability := .datagram
  rtt := 120000000
  minRtt := 120000000
  queueDelay := 0
  lossPpm := 50000
  burstLossCells := 1
  reorderPpm := 0
  receiverGoodputBytesPerSecond := 4000000
  residualLossPpm := 0
  latencySojournP95Micros := 0
  latencySojournP50Micros := 0
  latencySojournP99Micros := 0
  latencyQueueRecentlyNonempty := false
  deliveryRateBytesPerSecond := 4000000
  controllerPacingRateBytesPerSecond := 4000000
  controllerSendQuantumBytes := 16384
  controllerState := 0
  controllerBwBytesPerSecond := 4000000
  controllerInflightLongtermBytes := 0
  controllerGuardTransitionsDelta := 0
  controllerAppLimited := false
  controllerTunablesGeneration := 0
  controllerParamsGeneration := 0
  controllerClampedWrites := 0
  receiveRateBytesPerSecond := 0
  packetsPerSecond := 4000
  tunIngressBytesPerSecond := 4000000
  averageRecordBytes := 1200
  gsoIngressRatioPpm := 0
  packetTrainQueueBytes := 65536
  latencyQueueBytes := 0
  reassemblyPressureEvictions := 0
  remoteExpiredStripesDelta := 0
  trainBuildBytesPerSecond := 4000000
  bulkPreemptionDelayAverageMicros := 0
  cpuUtilizationPerMille := 200
  wastedParityPerMille := 0
  fecRecoveryPerMille := 500
  repairHitPerMille := 0
  repairCompletedRequests := 0
  repairResponseLatency := 0
  realTrafficBytesPerSecond := 4000000

/-- Enough real Cells and packets, or a real backlog, for the loss ratio to mean something. -/
def hasProtectionEvidence (sample : PathTelemetryV2) : Bool :=
  (minimumProtectionTrafficBytesPerSecond ≤ sample.realTrafficBytesPerSecond &&
      minimumProtectionPacketsPerSecond ≤ sample.packetsPerSecond) ||
    (minimumBacklogProtectionBytes ≤ sample.packetTrainQueueBytes &&
      minimumBacklogProtectionPacketsPerSecond ≤ sample.packetsPerSecond)

def ratesTrackWithinTenPercent (left right : Nat) : Bool :=
  if left = 0 || right = 0 then false
  else right * 1000 ≤ left * 1100 && left * 1000 ≤ right * 1100

def micros (duration : Duration) : Nat := u64Saturating (duration / 1000)

/-- An integer moving average; a state of zero takes the sample as it is. -/
def ewma (current sample numerator denominator : Nat) : Nat :=
  if current = 0 then sample
  else
    saturatingAdd (saturatingMul current (denominator - numerator))
      (saturatingMul sample numerator) / denominator

/-- `Ord::clamp` for a floor that is at most the cap; for a larger floor the source panics. -/
def clampTo (floor cap value : Nat) : Nat :=
  if value < floor then floor else if cap < value then cap else value

def activeDirection (sample : PathTelemetryV2) : Bool :=
  sample.realTrafficBytesPerSecond ≠ 0 || sample.tunIngressBytesPerSecond ≠ 0 ||
    sample.packetTrainQueueBytes ≠ 0

def activeRate : Nat := 128 * 1024

def classifyCoverProfile (txBytesPerSecond rxBytesPerSecond : Nat) : CoverProfileV1 :=
  if max txBytesPerSecond rxBytesPerSecond < activeRate then .idle
  else if activeRate ≤ txBytesPerSecond && saturatingMul rxBytesPerSecond 4 ≤ txBytesPerSecond then
    .liveBroadcast
  else if activeRate ≤ txBytesPerSecond && activeRate ≤ rxBytesPerSecond then .interactiveVideo
  else .genericH3Bulk

/-! ### The filtered view -/

/-- The state of the filter after a sample, together with that sample. -/
structure FilteredTelemetryV1 where
  raw : PathTelemetryV2
  sampleCount : Nat
  rttMicros : Nat
  minRttMicros : Nat
  queueDelayMicros : Nat
  lossPpm : Nat
  burstLossCells : Nat
  deliveryRateBytesPerSecond : Nat
  receiveRateBytesPerSecond : Nat
  packetsPerSecond : Nat
  tunIngressBytesPerSecond : Nat
  averageRecordBytes : Nat
  gsoIngressRatioPpm : Nat
  cpuPerMille : Nat
  wastedParityPerMille : Nat
  recoveryPerMille : Nat
  repairHitPerMille : Nat
  repairLatencyMicros : Nat
  repairObservations : Nat
  protectionSamples : Nat
  shortRttPolicerLimited : Bool
  shortRttPolicerPacingCapBytesPerSecond : Option Nat
  receivePressureFloorBytes : Nat
  deriving DecidableEq, Repr

namespace FilteredTelemetryV1

variable (self : FilteredTelemetryV1)

def reliable : Bool := self.raw.reliability = .reliableRelay

def cpuLimited : Bool := 900 ≤ self.cpuPerMille

/-- The live sample, not its average. -/
def cpuEmergency : Bool := 900 ≤ self.raw.cpuUtilizationPerMille

def queueDelayBudgetMicros : Nat := max 5000 (self.minRttMicros / 2)

def queueInflated : Bool :=
  self.queueDelayBudgetMicros < self.queueDelayMicros &&
    saturatingAdd self.minRttMicros self.queueDelayBudgetMicros < self.rttMicros

def rawQueueInflated : Bool :=
  max 5000 (micros self.raw.minRtt / 2) < micros self.raw.queueDelay

/-- Once armed, protection stays while the direction has any work at all. -/
def protectionEvidence : Bool :=
  self.protectionSamples ≠ 0 && activeDirection self.raw

def policerLimited : Bool := self.shortRttPolicerLimited

def congested : Bool := self.queueInflated || self.policerLimited

def protectionEmergency : Bool :=
  hasProtectionEvidence self.raw && (10000 ≤ self.raw.lossPpm || 3 ≤ self.raw.burstLossCells)

def latencyQueueActive : Bool := self.raw.latencyQueueBytes ≠ 0

def receivePressure : Bool := self.raw.reassemblyPressureEvictions ≠ 0

def classify : ActionReasonV1 :=
  if self.reliable then .reliablePath
  else if self.cpuLimited then .cpuLimited
  else if self.congested then .congested
  else if 2 ≤ self.burstLossCells then .burstLoss
  else if 1000 ≤ self.lossPpm then .randomLoss
  else .healthyLowLoss

def coverProfile : CoverProfileV1 :=
  classifyCoverProfile self.deliveryRateBytesPerSecond self.receiveRateBytesPerSecond

end FilteredTelemetryV1

variable (filtered : FilteredTelemetryV1)

/-- Why cover is off at this sample, if it is. -/
def coverSuppression : Option ClampReasonV1 :=
  if filtered.cpuLimited then some .cpuPressure
  else if filtered.queueInflated || 0 < filtered.raw.packetTrainQueueBytes then
    some .queuePressure
  else if 5000 ≤ filtered.raw.lossPpm then some .wireOverhead
  else if filtered.raw.realTrafficBytesPerSecond = 0 then some .invalidValue
  else none

def GuardrailContextV1.fromFiltered : GuardrailContextV1 where
  reliable := filtered.reliable
  cpuLimited := filtered.cpuLimited
  cpuEmergency := filtered.cpuEmergency
  protectionEmergency := filtered.protectionEmergency
  latencyQueueActive := filtered.latencyQueueActive
  coverSuppression := Policy.coverSuppression filtered
  realTrafficBytesPerSecond := filtered.raw.realTrafficBytesPerSecond
  rttMicros := filtered.rttMicros
  deliveryRateBytesPerSecond := filtered.deliveryRateBytesPerSecond
  offeredRateBytesPerSecond := filtered.tunIngressBytesPerSecond

/-! ### The filter -/

structure TelemetryFilterV1 where
  bounds : AutoTuneBoundsV2
  samples : Nat := 0
  rttMicros : Nat := 0
  minRttMicros : Nat := 0
  queueDelayMicros : Nat := 0
  lossPpm : Nat := 0
  burstLossCells : Nat := 0
  deliveryRate : Nat := 0
  receiveRate : Nat := 0
  packetsPerSecond : Nat := 0
  tunIngressRate : Nat := 0
  averageRecordBytes : Nat := 0
  gsoIngressRatioPpm : Nat := 0
  cpuPerMille : Nat := 0
  wastedParityPerMille : Nat := 0
  recoveryPerMille : Nat := 0
  repairHitPerMille : Nat := 0
  repairLatencyMicros : Nat := 0
  repairObservations : Nat := 0
  lastRepairCompletedRequests : Nat := 0
  repairCounterInitialized : Bool := false
  protectionSamples : Nat := 0
  shortRttPolicerLimited : Bool := false
  shortRttPolicerInactiveTicks : Nat := 0
  shortRttPolicerPacingCapBytesPerSecond : Option Nat := none
  shortRttPolicerCleanDelivery : List Nat :=
    List.replicate shortRttPolicerCleanDeliverySamples 0
  shortRttPolicerCleanDeliveryNext : Nat := 0
  receivePressureFloorBytes : Nat := 0
  receivePressureHold : Nat := 0
  deriving DecidableEq, Repr

namespace TelemetryFilterV1

def new (bounds : AutoTuneBoundsV2) : TelemetryFilterV1 := { bounds }

variable (self : TelemetryFilterV1)

def reset : TelemetryFilterV1 := new self.bounds

variable (sample : PathTelemetryV2)

def view : FilteredTelemetryV1 where
  raw := sample
  sampleCount := self.samples
  rttMicros := self.rttMicros
  minRttMicros := self.minRttMicros
  queueDelayMicros := self.queueDelayMicros
  lossPpm := self.lossPpm
  burstLossCells := self.burstLossCells
  deliveryRateBytesPerSecond := self.deliveryRate
  receiveRateBytesPerSecond := self.receiveRate
  packetsPerSecond := self.packetsPerSecond
  tunIngressBytesPerSecond := self.tunIngressRate
  averageRecordBytes := self.averageRecordBytes
  gsoIngressRatioPpm := self.gsoIngressRatioPpm
  cpuPerMille := self.cpuPerMille
  wastedParityPerMille := self.wastedParityPerMille
  recoveryPerMille := self.recoveryPerMille
  repairHitPerMille := self.repairHitPerMille
  repairLatencyMicros := self.repairLatencyMicros
  repairObservations := self.repairObservations
  protectionSamples := self.protectionSamples
  shortRttPolicerLimited := self.shortRttPolicerLimited
  shortRttPolicerPacingCapBytesPerSecond := self.shortRttPolicerPacingCapBytesPerSecond
  receivePressureFloorBytes := self.receivePressureFloorBytes

variable (currentReceiveBufferBytes : Nat)

/-- Pressure raises a floor for the receive buffer, and ten samples without it release the floor. -/
def holdReceivePressure : TelemetryFilterV1 :=
  if sample.reassemblyPressureEvictions ≠ 0 then
    { self with
      receivePressureFloorBytes :=
        clampTo self.bounds.minimumReceiveBufferBytes self.bounds.maximumSocketBufferBytes
          (max (saturatingMul currentReceiveBufferBytes 2)
            (saturatingAdd currentReceiveBufferBytes receivePressureGrowthStepBytes))
      receivePressureHold := receivePressureHoldSamples }
  else if self.receivePressureHold ≠ 0 then
    { self with
      receivePressureHold := self.receivePressureHold - 1
      receivePressureFloorBytes :=
        if self.receivePressureHold - 1 = 0 then 0 else self.receivePressureFloorBytes }
  else self

/-- Loss only counts at a sample with evidence: a lost probe of an idle path says nothing. -/
def smoothLoss : TelemetryFilterV1 :=
  if hasProtectionEvidence sample then
    { self with
      protectionSamples := saturatingAdd self.protectionSamples 1
      lossPpm := ewma self.lossPpm sample.lossPpm 3 8
      burstLossCells := ewma self.burstLossCells sample.burstLossCells 1 2 }
  else self

/-- Repair averages only move when another request was completed. -/
def smoothRepair : TelemetryFilterV1 :=
  let completedDelta :=
    if self.repairCounterInitialized then
      sample.repairCompletedRequests - self.lastRepairCompletedRequests
    else 0
  let counted :=
    if completedDelta ≠ 0 ∧ sample.repairResponseLatency ≠ 0 then
      { self with
        repairHitPerMille := ewma self.repairHitPerMille sample.repairHitPerMille 1 4
        repairLatencyMicros :=
          ewma self.repairLatencyMicros (micros sample.repairResponseLatency) 1 4
        repairObservations := saturatingAdd self.repairObservations completedDelta }
    else self
  { counted with
    repairCounterInitialized := true
    lastRepairCompletedRequests := sample.repairCompletedRequests }

/-- The averages that every sample moves. -/
def smoothRates : TelemetryFilterV1 :=
  { self with
    rttMicros := ewma self.rttMicros (micros sample.rtt) 3 8
    -- the controller's own bounded minimum; a lifetime minimum would never age out
    minRttMicros := micros sample.minRtt
    queueDelayMicros := ewma self.queueDelayMicros (micros sample.queueDelay) 3 8
    deliveryRate := ewma self.deliveryRate sample.deliveryRateBytesPerSecond 1 4
    receiveRate := ewma self.receiveRate sample.receiveRateBytesPerSecond 1 4
    packetsPerSecond := ewma self.packetsPerSecond sample.packetsPerSecond 1 4
    tunIngressRate := ewma self.tunIngressRate sample.tunIngressBytesPerSecond 1 4
    averageRecordBytes := ewma self.averageRecordBytes sample.averageRecordBytes 1 4
    gsoIngressRatioPpm := ewma self.gsoIngressRatioPpm sample.gsoIngressRatioPpm 1 4
    cpuPerMille := ewma self.cpuPerMille sample.cpuUtilizationPerMille 1 4
    wastedParityPerMille := ewma self.wastedParityPerMille sample.wastedParityPerMille 1 4
    recoveryPerMille := ewma self.recoveryPerMille sample.fecRecoveryPerMille 1 4 }

def smooth : TelemetryFilterV1 :=
  ((self.smoothRates sample).smoothLoss sample).smoothRepair sample

def recordShortRttPolicerCleanDelivery (deliveryRate : Nat) : TelemetryFilterV1 :=
  { self with
    shortRttPolicerCleanDelivery :=
      self.shortRttPolicerCleanDelivery.set self.shortRttPolicerCleanDeliveryNext deliveryRate
    shortRttPolicerCleanDeliveryNext :=
      (self.shortRttPolicerCleanDeliveryNext + 1) % shortRttPolicerCleanDeliverySamples }

def clearShortRttPolicerCleanDeliverySamples : TelemetryFilterV1 :=
  { self with
    shortRttPolicerCleanDelivery := List.replicate shortRttPolicerCleanDeliverySamples 0
    shortRttPolicerCleanDeliveryNext := 0 }

def shortRttPolicerCleanDeliveryPeak : Option Nat :=
  self.shortRttPolicerCleanDelivery.max?.filter (· ≠ 0)

/-- The rates of the last samples without loss; an idle sample forgets them. -/
def trackCleanDelivery : TelemetryFilterV1 :=
  if ¬ activeDirection sample then self.clearShortRttPolicerCleanDeliverySamples
  else if sample.lossPpm = 0 ∧ sample.deliveryRateBytesPerSecond ≠ 0 then
    self.recordShortRttPolicerCleanDelivery sample.deliveryRateBytesPerSecond
  else self

/-- A latched policer is released by the second idle sample in a row, and its loss evidence with
it. -/
def holdPolicer : TelemetryFilterV1 :=
  if activeDirection sample then { self with shortRttPolicerInactiveTicks := 0 }
  else if 2 ≤ min (self.shortRttPolicerInactiveTicks + 1) u8Max then
    { self with
      shortRttPolicerLimited := false
      shortRttPolicerInactiveTicks := 0
      shortRttPolicerPacingCapBytesPerSecond := none
      lossPpm := 0
      burstLossCells := 0
      protectionSamples := 0 }
  else
    { self with
      shortRttPolicerInactiveTicks := min (self.shortRttPolicerInactiveTicks + 1) u8Max }

/-- The controller's model speaks for a shallow token bucket on a short path. -/
def credibleShallowPolicer : Bool :=
  let shortRtt := self.rttMicros ≤ 10000 && self.minRttMicros ≤ 10000
  let modelInPolicerRange :=
    minimumShortRttPolicerModelBytesPerSecond ≤ sample.controllerBwBytesPerSecond
  let unqueuedCredibleModel :=
    modelInPolicerRange &&
      sample.deliveryRateBytesPerSecond ≤ sample.controllerBwBytesPerSecond
  let trackingBandCredibleModel :=
    modelInPolicerRange && self.minRttMicros ≤ 10000 && micros sample.minRtt ≤ 10000 &&
      micros sample.rtt ≤ 20000 && sample.controllerState ≠ 0 &&
      ratesTrackWithinTenPercent sample.controllerBwBytesPerSecond
        sample.deliveryRateBytesPerSecond
  (shortRtt && unqueuedCredibleModel && !(self.view sample).rawQueueInflated) ||
    trackingBandCredibleModel

/-- The cap captured at entry: 95% of the model, or the clean peak where it is close below. -/
def policerPacingCap : Option Nat :=
  if sample.controllerBwBytesPerSecond ≠ 0 then
    let modelCap := saturatingMul sample.controllerBwBytesPerSecond 950 / 1000
    some
      ((self.shortRttPolicerCleanDeliveryPeak.filter
        fun cleanCap => saturatingMul modelCap 95 / 100 ≤ cleanCap).elim modelCap (min modelCap))
  else none

def enterPolicer : TelemetryFilterV1 :=
  let limited :=
    self.protectionSamples ≠ 0 && activeDirection sample &&
      (sample.tunIngressBytesPerSecond ≠ 0 || sample.packetTrainQueueBytes ≠ 0) &&
      self.credibleShallowPolicer sample && 15000 ≤ self.lossPpm
  { self with
    shortRttPolicerInactiveTicks := 0
    shortRttPolicerLimited := limited
    shortRttPolicerPacingCapBytesPerSecond :=
      if limited then self.policerPacingCap sample
      else self.shortRttPolicerPacingCapBytesPerSecond }

def trackPolicer : TelemetryFilterV1 :=
  if self.shortRttPolicerLimited then self.holdPolicer sample else self.enterPolicer sample

def update : FilteredTelemetryV1 × TelemetryFilterV1 :=
  let held := self.holdReceivePressure sample currentReceiveBufferBytes
  let counted := { held with samples := u32Saturating (held.samples + 1) }
  let tracked := ((counted.smooth sample).trackCleanDelivery sample).trackPolicer sample
  (tracked.view sample, tracked)

end TelemetryFilterV1
end Ironet.Policy
