import Ironet.Policy.Telemetry

/-!
# The native rules

Model of `NativePolicyV1::propose`, a pure function from the filtered telemetry and the host limits
to a candidate, and of the forced actions of an experiment, which become candidates too.
-/
namespace Ironet.Policy
open Ironet.Fec

structure Bbr3ProposalV2 where
  preset : Bbr3PresetV1
  upGainMilli : Nat
  headroomMilli : Nat
  cwndGainMilli : Nat
  pacingCapBytesPerSecond : Nat
  lossIsCongestion : Bool
  deriving DecidableEq, Repr

namespace Bbr3ProposalV2

/-- The gains of a preset; only a policer has a pacing cap. -/
def forPreset (preset : Bbr3PresetV1) (controllerBw : Nat) : Bbr3ProposalV2 :=
  match preset with
  | .sharedConservative => ⟨preset, 1150, 250, 2000, 0, false⟩
  | .privateAggressive => ⟨preset, 1350, 100, 2500, 0, false⟩
  | .lossyRadio => ⟨preset, 1250, 150, 2500, 0, false⟩
  | .policer => ⟨preset, 1100, 250, 2000, saturatingMul controllerBw 970 / 1000, false⟩
  | .longFat => ⟨preset, 1250, 150, 3000, 0, false⟩
  | .relayReliable => ⟨preset, 1100, 300, 1500, 0, false⟩
  | .lowRttHost => ⟨preset, 1350, 100, 2500, 0, false⟩

def sharedConservative : Bbr3ProposalV2 := forPreset .sharedConservative 0

end Bbr3ProposalV2

def bbrCandidate (proposal : Bbr3ProposalV2) : BbrCandidateV1 where
  preset := some proposal.preset
  probeBwUpPacingGainMilli := some proposal.upGainMilli
  defaultCwndGainMilli := some proposal.cwndGainMilli
  headroomMilli := some proposal.headroomMilli
  lossIsCongestion := some proposal.lossIsCongestion
  pacingCapBytesPerSecond := some proposal.pacingCapBytesPerSecond

def fecCandidate : Option FecGeometryV2 → FecCandidateV1
  | some geometry =>
    { enabled := some true
      dataCells := some (UInt8.ofNat (min geometry.dataCells u8Max))
      parityCells := some (UInt8.ofNat (min geometry.parityCells u8Max)) }
  | none => { enabled := some false }

/-! ### Rules -/

def bulkQuantumBacklogBytes : Nat := 128 * 1024

namespace NativePolicyV1

variable (filtered : FilteredTelemetryV1)

/-- Matched feedback shows that repairs arrive within eight round trips. -/
def repairEffective : Bool :=
  3 ≤ filtered.repairObservations && 800 ≤ filtered.repairHitPerMille &&
    filtered.repairLatencyMicros ≠ 0 &&
    filtered.repairLatencyMicros ≤ max (saturatingMul filtered.rttMicros 8) 200000

/-- On a very short path one percent of loss is already congestion. -/
def shortRttCongestionCandidate : Bool :=
  filtered.minRttMicros ≤ 10000 && (10000 ≤ filtered.raw.lossPpm || 10000 ≤ filtered.lossPpm)

def lowRandomLoss : Bool :=
  filtered.lossPpm ≠ 0 && filtered.lossPpm < 10000 && filtered.burstLossCells < 3

/-- The geometry for the loss; parity only where it cannot feed the congestion it answers. -/
def proposeFec : Option FecGeometryV2 :=
  if !filtered.protectionEvidence || filtered.lossPpm = 0 then none
  else if shortRttCongestionCandidate filtered then none
  else if filtered.policerLimited || filtered.queueInflated then none
  else if lowRandomLoss filtered then none
  else if 80000 ≤ filtered.lossPpm then
    some (if filtered.rttMicros < 80000 then ⟨8, 1⟩ else ⟨4, 4⟩)
  else if 3 ≤ filtered.burstLossCells || 30000 ≤ filtered.lossPpm then
    some (if filtered.rttMicros < 80000 then ⟨8, 1⟩ else ⟨4, 2⟩)
  else if 2 ≤ filtered.burstLossCells || 10000 ≤ filtered.lossPpm then
    some
      (if filtered.rttMicros < 80000 then ⟨8, 1⟩
      else if 800 < filtered.wastedParityPerMille && filtered.recoveryPerMille < 100 then
        if repairEffective filtered then ⟨8, 1⟩ else ⟨6, 1⟩
      else ⟨6, 2⟩)
  else some ⟨if 80000 ≤ filtered.rttMicros then 6 else 8, 1⟩

variable (limits : HostLimitsV1)

def proposeTrainTarget : Nat :=
  clampTo limits.trainTargetFloorBytes limits.trainTargetCapBytes
    (if filtered.cpuLimited || filtered.congested then 16 * 1024
    else if 50 * 1024 * 1024 ≤ filtered.deliveryRateBytesPerSecond &&
        64 * 1024 ≤ filtered.raw.packetTrainQueueBytes then limits.trainTargetCapBytes
    else if 5 * 1024 * 1024 ≤ filtered.deliveryRateBytesPerSecond then 32 * 1024
    else limits.trainTargetFloorBytes)

/-- Only a real backlog justifies the larger submission. -/
def proposeBulkQuantum : Nat :=
  if bulkQuantumBacklogBytes ≤ filtered.raw.packetTrainQueueBytes then 8 else 2

/-- The bandwidth-delay product of the propagation time, never of the inflated round trip. -/
def propagationBdp (rate : Nat) : Nat := saturatingMul rate filtered.minRttMicros / 1000000

def processingWindow : Nat :=
  if filtered.cpuLimited && filtered.raw.latencyQueueBytes = 0 &&
      0 < filtered.raw.packetTrainQueueBytes then
    filtered.deliveryRateBytesPerSecond / 125
  else 0

def proposeSendBuffer : Nat :=
  clampTo limits.sendBufferFloorBytes limits.sendBufferCapBytes
    (max (saturatingMul (propagationBdp filtered filtered.deliveryRateBytesPerSecond) 2)
      (processingWindow filtered))

def proposeReceiveBuffer : Nat :=
  max
    (clampTo limits.receiveBufferFloorBytes limits.receiveBufferCapBytes
      (saturatingMul (propagationBdp filtered filtered.receiveRateBytesPerSecond) 2))
    filtered.receivePressureFloorBytes

/-- One aggregation is about eight records of maximum size. -/
def proposeReceiveBatch : Nat :=
  let maximumReceiveBatch := max limits.receiveBatchCap 1
  let batchByBytes :=
    clampTo 1 maximumReceiveBatch (512 * 1024 / max filtered.averageRecordBytes 1)
  if filtered.tunIngressBytesPerSecond = 0 then maximumReceiveBatch
  else if 500000 ≤ filtered.gsoIngressRatioPpm then min batchByBytes 8
  else batchByBytes

/-- The preset for the path; a policer gets no cap here, since BBR adapts to it itself. -/
def proposeBbr : Bbr3ProposalV2 :=
  if filtered.reliable then .forPreset .relayReliable 0
  else if filtered.minRttMicros < 2000 then .forPreset .lowRttHost 0
  else if filtered.policerLimited then .forPreset .policer 0
  else if 120000 ≤ filtered.minRttMicros then .forPreset .longFat 0
  else if filtered.classify = .randomLoss || filtered.classify = .burstLoss then
    .forPreset .lossyRadio 0
  else .sharedConservative

def propose : CandidateActionV1 where
  bbr := some (bbrCandidate (proposeBbr filtered))
  scheduler := some {
    trainTargetBytes := some (u32Saturating (proposeTrainTarget filtered limits))
    bulkQuantumCells := some (proposeBulkQuantum filtered) }
  fec := some (fecCandidate (proposeFec filtered))
  tx := some { sendBufferBytes := some (u64Saturating (proposeSendBuffer filtered limits)) }
  rx := some {
    receiveBufferBytes := some (u64Saturating (proposeReceiveBuffer filtered limits))
    receiveBatch := some (u16Saturating (proposeReceiveBatch filtered limits)) }
  cover := some {
    profile := some filtered.coverProfile
    overheadPerMille := some (min 30 limits.coverOverheadCapPerMille) }

end NativePolicyV1

/-! ### Forced actions -/

/-- An override of an experiment; `fec = some none` asks for protection off. -/
structure ForcedActionV2 where
  bbrPreset : Option Bbr3PresetV1 := none
  fec : Option (Option FecGeometryV2) := none
  trainTargetBytes : Option Nat := none
  bulkQuantumCells : Option Nat := none
  coverProfile : Option CoverProfileV1 := none
  coverOverheadPerMille : Option Nat := none
  deriving DecidableEq, Repr

def ForcedActionV2.toCandidate (self : ForcedActionV2) (controllerBwBytesPerSecond : Nat) :
    CandidateActionV1 where
  bbr := self.bbrPreset.map fun preset =>
    bbrCandidate (Bbr3ProposalV2.forPreset preset controllerBwBytesPerSecond)
  scheduler :=
    if self.trainTargetBytes.isSome || self.bulkQuantumCells.isSome then
      some {
        trainTargetBytes := self.trainTargetBytes.map u32Saturating
        bulkQuantumCells := self.bulkQuantumCells.map u16Saturating }
    else none
  fec := self.fec.map fecCandidate
  cover :=
    if self.coverProfile.isSome || self.coverOverheadPerMille.isSome then
      some { profile := self.coverProfile, overheadPerMille := self.coverOverheadPerMille }
    else none

end Ironet.Policy
