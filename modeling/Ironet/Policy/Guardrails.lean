import Ironet.Policy.Action
import Ironet.Support.Report

/-!
# Host guardrails

Model of `policy/guardrails.rs`: the pass that turns an untrusted candidate into the effective
action. The candidate is laid over the base, and then one guard per domain clamps what the host does
not accept and reports it. A guard of the source updates the whole action in place; here each takes
the domain it writes, and whatever other domains it reads.
-/
namespace Ironet.Policy
open Support Reporting Ironet.Fec

def repairRetentionCapMillis : Nat := 60000

def reassemblyBudgetFloorBytes : Nat := 1024 * 1024

def activeTrainBudgetCap : Nat := 1024

/-- The least pacing cap that the controller executes. -/
def pacingCapFloorBytesPerSecond : Nat := 64 * 1024

/-- Four minimum MTUs. -/
def cwndCapFloorBytes : Nat := 4 * 1200

def fecFamilyGeometry : FecPresetFamilyV1 → Option (UInt8 × UInt8)
  | .unspecified => none
  | .sparse => some (16, 1)
  | .balanced => some (8, 2)
  | .dense => some (8, 4)

/-- Live host facts beyond the static limits. -/
structure GuardrailContextV1 where
  reliable : Bool
  cpuLimited : Bool
  cpuEmergency : Bool
  protectionEmergency : Bool
  latencyQueueActive : Bool
  coverSuppression : Option ClampReasonV1
  realTrafficBytesPerSecond : Nat
  rttMicros : Nat
  deliveryRateBytesPerSecond : Nat
  offeredRateBytesPerSecond : Nat
  deriving DecidableEq, Repr

def GuardrailContextV1.reliability (self : GuardrailContextV1) : PathReliability :=
  if self.reliable then .reliableRelay else .datagram

abbrev Guarded (α : Type) := Reporting ClampEntryV1 α

variable (field : ClampFieldV1)

/-- The value within its floor and its cap, where a cap of zero is none. -/
def clampReported (value floor cap : Nat) : Guarded Nat :=
  if value < floor then do
    push ⟨field, i64Sat value, i64Sat floor, .belowFloor⟩
    return floor
  else if cap ≠ 0 ∧ cap < value then do
    push ⟨field, i64Sat value, i64Sat cap, .aboveCap⟩
    return cap
  else return value

/-- `enum_index` -/
def enumIndex {α : Type} [DecidableEq α] (all : List α) (value : α) : Int :=
  match all.findIdx? (fun candidate => candidate = value) with
  | some index => index
  | none => -1

/-! ### BBR -/

/-- A pacing cap below one maximum-size train per second would starve the path. -/
def guardPacingFloor (requested : Nat) : Guarded Nat :=
  if requested ≠ 0 ∧ requested < pacingCapFloorBytesPerSecond then do
    push ⟨.bbrPacingCapBytesPerSecond, i64Sat requested, i64Sat pacingCapFloorBytesPerSecond,
      .belowFloor⟩
    return pacingCapFloorBytesPerSecond
  else return requested

/-- No cap at all, or one above the node's, becomes the node's. -/
def guardNodeCap (nodeCap requested : Nat) : Guarded Nat :=
  if nodeCap ≠ 0 ∧ (requested = 0 ∨ nodeCap < requested) then do
    push ⟨.bbrPacingCapBytesPerSecond, i64Sat requested, i64Sat nodeCap, .aboveCap⟩
    return nodeCap
  else return requested

def guardCwndCap (requested : Nat) : Guarded Nat :=
  if requested ≠ 0 ∧ requested < cwndCapFloorBytes then do
    push ⟨.bbrCwndCapBytes, i64Sat requested, i64Sat cwndCapFloorBytes, .belowFloor⟩
    return cwndCapFloorBytes
  else return requested

def guardCwndFloor (cap requested : Nat) : Guarded Nat :=
  if cap ≠ 0 ∧ cap < requested then do
    push ⟨.bbrCwndFloorBytes, i64Sat requested, i64Sat cap, .crossFieldConstraint⟩
    return cap
  else return requested

variable (limits : HostLimitsV1)

/-- Every knob within the range that the controller accepts. -/
def guardBbr (bbr : BbrEffectiveV1) : Guarded BbrEffectiveV1 := do
  let probeBwUpPacingGainMilli ←
    clampReported .bbrProbeBwUpPacingGainMilli bbr.probeBwUpPacingGainMilli 1050 1500
  let probeBwDownPacingGainMilli ←
    clampReported .bbrProbeBwDownPacingGainMilli bbr.probeBwDownPacingGainMilli 700 950
  let cruisePacingGainMilli ←
    clampReported .bbrCruisePacingGainMilli bbr.cruisePacingGainMilli 950 1020
  let defaultCwndGainMilli ←
    clampReported .bbrDefaultCwndGainMilli bbr.defaultCwndGainMilli 1200 3000
  let probeBwUpCwndGainMilli ←
    clampReported .bbrProbeBwUpCwndGainMilli bbr.probeBwUpCwndGainMilli 1500 3500
  let headroomMilli ← clampReported .bbrHeadroomMilli bbr.headroomMilli 50 400
  let betaMilli ← clampReported .bbrBetaMilli bbr.betaMilli 500 900
  let lossThresholdMilli ← clampReported .bbrLossThresholdMilli bbr.lossThresholdMilli 5 100
  let queueGuardInflationMilli ←
    clampReported .bbrQueueGuardInflationMilli bbr.queueGuardInflationMilli 200 1500
  let probeRttCwndGainMilli ←
    clampReported .bbrProbeRttCwndGainMilli bbr.probeRttCwndGainMilli 100 3500
  let queueGuardSlackMicros ←
    clampReported .bbrQueueGuardSlackMicros bbr.queueGuardSlackMicros 2000 50000
  let probeRttIntervalMillis ←
    clampReported .bbrProbeRttIntervalMillis bbr.probeRttIntervalMillis 2000 30000
  let probeRttDurationMillis ←
    clampReported .bbrProbeRttDurationMillis bbr.probeRttDurationMillis 100 500
  let minProbeWaitMillis ←
    clampReported .bbrMinProbeWaitMillis bbr.minProbeWaitMillis 1000 10000
  let maxAddedProbeWaitMillis ←
    clampReported .bbrMaxAddedProbeWaitMillis bbr.maxAddedProbeWaitMillis 0 5000
  let pacingCapBytesPerSecond ← guardPacingFloor bbr.pacingCapBytesPerSecond
  let pacingCapBytesPerSecond ←
    guardNodeCap limits.pacingCapBytesPerSecond pacingCapBytesPerSecond
  let cwndCapBytes ← guardCwndCap bbr.cwndCapBytes
  let cwndFloorBytes ← guardCwndFloor cwndCapBytes bbr.cwndFloorBytes
  return { bbr with
    probeBwUpPacingGainMilli, probeBwDownPacingGainMilli, cruisePacingGainMilli,
    defaultCwndGainMilli, probeBwUpCwndGainMilli, headroomMilli, betaMilli, lossThresholdMilli,
    queueGuardInflationMilli, probeRttCwndGainMilli, queueGuardSlackMicros,
    probeRttIntervalMillis, probeRttDurationMillis, minProbeWaitMillis, maxAddedProbeWaitMillis,
    pacingCapBytesPerSecond, cwndCapBytes, cwndFloorBytes }

/-! ### Scheduler -/

/-- While latency traffic is queued the quantum is one Cell. -/
def guardQuantum (ctx : GuardrailContextV1) (requested : Nat) : Guarded Nat :=
  if ctx.latencyQueueActive then
    if requested ≠ 1 then do
      push ⟨.schedulerBulkQuantumCells, requested, 1, .queuePressure⟩
      return 1
    else return requested
  else
    clampReported .schedulerBulkQuantumCells requested (max limits.bulkQuantumFloorCells 1)
      limits.bulkQuantumCapCells

/-- Under a CPU emergency nothing is batched more than on the base. -/
def guardBatching (ctx : GuardrailContextV1) (base requested : Nat) : Guarded Nat :=
  if ctx.cpuEmergency ∧ base < requested then do
    push ⟨field, requested, base, .cpuPressure⟩
    return base
  else return requested

def reportUnsupported : Option Int → Guarded Unit
  | some value => push ⟨field, value, 0, .unsupported⟩
  | none => pure ()

/-- A domain that this build does not execute goes back to its default; what the candidate asked for
is reported. -/
def guardUnsupported {α : Type} [DecidableEq α] (field : ClampFieldV1) (hostDefault : α)
    (asked : Option Int) (requested : α) : Guarded α :=
  if requested ≠ hostDefault then do
    reportUnsupported field asked
    return hostDefault
  else return requested

/-- What the host derives itself is not taken from the candidate; a different wish is reported. -/
def reportDerived (derived : Nat) (reason : ClampReasonV1) : Option Nat → Guarded Unit
  | some value => pushIf (value ≠ derived) ⟨field, i64Sat value, i64Sat derived, reason⟩
  | none => pure ()

variable (candidate : CandidateActionV1)

def guardScheduler
    (base : SchedulerEffectiveV1) (ctx : GuardrailContextV1) (scheduler : SchedulerEffectiveV1) :
    Guarded SchedulerEffectiveV1 := do
  let trainTargetBytes ←
    clampReported .schedulerTrainTargetBytes scheduler.trainTargetBytes
      limits.trainTargetFloorBytes limits.trainTargetCapBytes
  let bulkQuantumCells ← guardQuantum limits ctx scheduler.bulkQuantumCells
  let trainTargetBytes ←
    guardBatching .schedulerTrainTargetBytes ctx base.trainTargetBytes trainTargetBytes
  let bulkQuantumCells ←
    guardBatching .schedulerBulkQuantumCells ctx base.bulkQuantumCells bulkQuantumCells
  let bulkAdmissionWindowBytes ←
    guardUnsupported .schedulerBulkAdmissionWindowBytes 0
      (candidate.scheduler.bind fun asked => asked.bulkAdmissionWindowBytes.map Int.ofNat)
      scheduler.bulkAdmissionWindowBytes
  let presetHint ←
    guardUnsupported .schedulerPresetHint .hostDefault
      (candidate.scheduler.bind fun asked =>
        asked.presetHint.map (enumIndex SchedulerPresetHintV1.all))
      scheduler.presetHint
  return { trainTargetBytes, bulkQuantumCells, bulkAdmissionWindowBytes, presetHint }

/-! ### FEC -/

/-- The rule that a requested geometry breaks, if any. -/
def fecViolation (geometry : FecGeometryV2) : Option (ClampFieldV1 × Nat × ClampReasonV1) :=
  if geometry.dataCells < 2 ∨ limits.fecDataCellsCap.toNat < geometry.dataCells then
    some (.fecDataCells, geometry.dataCells, .invalidValue)
  else if limits.fecParityCellsCap.toNat < geometry.parityCells then
    some (.fecParityCells, geometry.parityCells, .aboveCap)
  else if geometry.dataCells * limits.fecParityPerMilleCap < geometry.parityCells * 1000 then
    some (.fecParityCells, geometry.parityCells, .crossFieldConstraint)
  else none

/-- The candidate explicitly switches protection off. -/
def requestedOff : Bool :=
  candidate.fec.any fun fec => fec.enabled = some false

/-- The candidate names a preset family and no cell counts. -/
def familyRequested : Bool :=
  candidate.fec.any fun fec =>
    fec.presetFamily.any (fun family => family ≠ .unspecified) &&
      fec.dataCells.isNone && fec.parityCells.isNone

/-- The overlaid protection, with the cells of the family where only a family was requested. -/
def resolveFamily (fec : FecEffectiveV1) : FecEffectiveV1 :=
  if familyRequested candidate then
    match fecFamilyGeometry fec.presetFamily with
    | some (dataCells, parityCells) => { fec with dataCells, parityCells }
    | none => fec
  else fec

def guardGeometry (base : FecEffectiveV1) (ctx : GuardrailContextV1) (fec : FecEffectiveV1) :
    Guarded (Option FecGeometryV2 × FecPresetFamilyV1) := do
  let family := fec.presetFamily
  let geometry := (resolveFamily candidate fec).toGeometry
  if ctx.reliable || ctx.cpuLimited then
    if geometry.isSome then do
      push ⟨.fecEnabled, 1, 0, if ctx.reliable then .reliableUnderlay else .cpuPressure⟩
      return (none, family)
    else return (geometry, family)
  else if ctx.protectionEmergency && requestedOff candidate && base.enabled then do
    push ⟨.fecEnabled, 0, 1, .belowFloor⟩
    return (base.toGeometry, base.presetFamily)
  else
    match geometry with
    | some requested =>
      match fecViolation limits requested with
      | some (field, value, reason) => do
        push ⟨field, i64Sat value, 0, reason⟩
        return (none, family)
      | none => return (some requested, family)
    | none => return (none, family)

/-- Disabled protection has no cells and no family; an enabled geometry keeps its family. -/
def canonicalFec (geometry : Option FecGeometryV2) (family : FecPresetFamilyV1) : FecEffectiveV1 :=
  if geometry.isSome then { FecEffectiveV1.fromGeometry geometry with presetFamily := family }
  else FecEffectiveV1.fromGeometry geometry

def guardFec (base : FecEffectiveV1)
    (ctx : GuardrailContextV1) (fec : FecEffectiveV1) : Guarded FecEffectiveV1 := do
  let (geometry, family) ← guardGeometry limits candidate base ctx fec
  return canonicalFec geometry family

/-! ### Repair -/

def repairCacheTargetBytes (reliability : PathReliability) (fec : Option FecGeometryV2)
    (rttMicros deliveryRate offeredRate : Nat) : Nat :=
  if reliability = .reliableRelay then 1024 * 1024
  else if fec.isNone then 0
  else
    let mib := 1024 * 1024
    let rate := max deliveryRate offeredRate
    let rateTarget := saturatingMul (saturatingMul rate rttMicros) 10 / 1000000
    let rttFloor :=
      if 150000 ≤ rttMicros then 24 * mib else if 80000 ≤ rttMicros then 16 * mib else 4 * mib
    min (max rateTarget rttFloor) (32 * mib)

/-- What the host keeps for repair, from the context and the effective protection alone. -/
def repairCache (ctx : GuardrailContextV1) (fec : FecEffectiveV1) : Nat :=
  repairCacheTargetBytes ctx.reliability fec.toGeometry ctx.rttMicros
    ctx.deliveryRateBytesPerSecond ctx.offeredRateBytesPerSecond

/-- Zero is the default of the host; anything else is capped. -/
def guardRetention (requested : Nat) : Guarded Nat :=
  if requested ≠ 0 ∧ repairRetentionCapMillis < requested then do
    push ⟨.repairRetentionTargetMillis, requested, repairRetentionCapMillis, .aboveCap⟩
    return repairRetentionCapMillis
  else return requested

def guardRepair (ctx : GuardrailContextV1) (fec : FecEffectiveV1)
    (repair : RepairEffectiveV1) : Guarded RepairEffectiveV1 := do
  let cacheBytes := repairCache ctx fec
  reportDerived .repairCacheBytes cacheBytes .unsupported
    (candidate.repair.bind RepairCandidateV1.cacheBytes)
  let retentionTargetMillis ← guardRetention repair.retentionTargetMillis
  let responsibility ←
    guardUnsupported .repairResponsibility .hostDefault
      (candidate.repair.bind fun asked =>
        asked.responsibility.map (enumIndex ProtectionResponsibilityV1.all))
      repair.responsibility
  return { repair with cacheBytes, retentionTargetMillis, responsibility }

/-! ### Transmit and receive -/

def guardTx (tx : TxEffectiveV1) : Guarded TxEffectiveV1 := do
  let sendBufferBytes ←
    clampReported .txSendBufferBytes tx.sendBufferBytes limits.sendBufferFloorBytes
      limits.sendBufferCapBytes
  let datagramAdmissionBytes ←
    guardUnsupported .txDatagramAdmissionBytes 0
      (candidate.tx.bind fun asked => asked.datagramAdmissionBytes.map Int.ofNat)
      tx.datagramAdmissionBytes
  let producerWindowBytes ←
    guardUnsupported .txProducerWindowBytes 0
      (candidate.tx.bind fun asked => asked.producerWindowBytes.map i64Sat)
      tx.producerWindowBytes
  return { sendBufferBytes, datagramAdmissionBytes, producerWindowBytes }

/-- An explicit budget holds at least one maximum-size train and at most the receive buffer. -/
def guardReassembly (receiveBufferBytes requested : Nat) : Guarded Nat :=
  if requested ≠ 0 then
    let cap := min limits.receiveBufferCapBytes receiveBufferBytes
    let floor := min reassemblyBudgetFloorBytes cap
    clampReported .rxReassemblyBudgetBytes requested floor cap
  else return requested

def guardActiveTrains (requested : Nat) : Guarded Nat :=
  if requested ≠ 0 then clampReported .rxActiveTrainBudget requested 1 activeTrainBudgetCap
  else return requested

def guardRx (rx : RxEffectiveV1) : Guarded RxEffectiveV1 := do
  let receiveBufferBytes ←
    clampReported .rxReceiveBufferBytes rx.receiveBufferBytes limits.receiveBufferFloorBytes
      limits.receiveBufferCapBytes
  let receiveBatch ←
    clampReported .rxReceiveBatch rx.receiveBatch 1 (max limits.receiveBatchCap 1)
  let reassemblyBudgetBytes ← guardReassembly limits receiveBufferBytes rx.reassemblyBudgetBytes
  let activeTrainBudget ← guardActiveTrains rx.activeTrainBudget
  return { receiveBufferBytes, receiveBatch, reassemblyBudgetBytes, activeTrainBudget }

/-! ### Cover -/

/-- `clamp_overhead`; `requested` is the overhead before any clamp. -/
def clampOverhead (requested current effective : Nat) (reason : ClampReasonV1) : Guarded Nat :=
  if current ≠ effective then do
    push ⟨.coverOverheadPerMille, requested, effective, reason⟩
    return effective
  else return current

/-- Cover stays off where it is suppressed or where the base has none. -/
def suppressOverhead (base : CoverEffectiveV1)
    (suppression : Option ClampReasonV1) (requested : Nat) : Guarded Nat :=
  match suppression with
  | some reason => clampOverhead requested requested 0 reason
  | none =>
    if base.overheadPerMille = 0 then clampOverhead requested requested 0 .aboveCap
    else if limits.coverOverheadCapPerMille < requested then
      clampOverhead requested requested limits.coverOverheadCapPerMille .aboveCap
    else return requested

def idleOverhead (profile : CoverProfileV1) (requested overhead : Nat) : Guarded Nat :=
  if profile = .idle then clampOverhead requested overhead 0 .crossFieldConstraint
  else return overhead

/-- The padding that the host derives from the real traffic. -/
def coverPadding (ctx : GuardrailContextV1) (overheadPerMille : Nat) : Nat :=
  saturatingMul ctx.realTrafficBytesPerSecond overheadPerMille / 1000

def guardCover (base : CoverEffectiveV1)
    (ctx : GuardrailContextV1) (cover : CoverEffectiveV1) : Guarded CoverEffectiveV1 := do
  let overheadPerMille ←
    suppressOverhead limits base ctx.coverSuppression cover.overheadPerMille
  let overheadPerMille ← idleOverhead cover.profile cover.overheadPerMille overheadPerMille
  let paddingBytesPerSecond := coverPadding ctx overheadPerMille
  reportDerived .coverPaddingBytesPerSecond paddingBytesPerSecond .crossFieldConstraint
    (candidate.cover.bind CoverCandidateV1.paddingBytesPerSecond)
  return { cover with overheadPerMille, paddingBytesPerSecond }

/-! ### Egress -/

def guardPriority (requested : Nat) : Guarded Nat :=
  if limits.egressPriorityCap < requested then do
    push ⟨.egressPriority, requested, limits.egressPriorityCap, .aboveCap⟩
    return limits.egressPriorityCap
  else return requested

def guardMinimumRate (desired requested : Nat) : Guarded Nat :=
  if desired ≠ 0 ∧ desired < requested then do
    push ⟨.egressMinimumRateBytesPerSecond, i64Sat requested, i64Sat desired, .crossFieldConstraint⟩
    return desired
  else return requested

def guardEgress (egress : EgressRequestV1) : Guarded EgressRequestV1 := do
  let priority ← guardPriority limits egress.priority
  let minimumRateBytesPerSecond ←
    guardMinimumRate egress.desiredRateBytesPerSecond egress.minimumRateBytesPerSecond
  return { egress with priority, minimumRateBytesPerSecond }

/-! ### The pass -/

/-- Extensions have no effect in this build; they are only reported. -/
def reportExtensions : Guarded Unit := do
  pushIf (limits.extensionCountCap < candidate.extensions.length)
    ⟨.extension, candidate.extensions.length, limits.extensionCountCap, .tooManyExtensions⟩
  candidate.extensions.forM fun extension => push ⟨.extension, extension.tag, 0, .unsupported⟩

structure GuardrailsV1 where
  limits : HostLimitsV1
  deriving DecidableEq, Repr

namespace GuardrailsV1

variable (self : GuardrailsV1) (candidate : CandidateActionV1)

/-- The guards in their order, over the overlaid action. -/
def guards (base : EffectiveActionV1) (ctx : GuardrailContextV1) : Guarded EffectiveActionV1 := do
  let out := candidate.applyOver base
  let bbr ← guardBbr self.limits out.bbr
  let scheduler ← guardScheduler self.limits candidate base.scheduler ctx out.scheduler
  let fec ← guardFec self.limits candidate base.fec ctx out.fec
  let repair ← guardRepair candidate ctx fec out.repair
  let tx ← guardTx self.limits candidate out.tx
  let rx ← guardRx self.limits out.rx
  let cover ← guardCover self.limits candidate base.cover ctx out.cover
  let egress ← guardEgress self.limits out.egress
  reportExtensions self.limits candidate
  return { out with bbr, scheduler, fec, repair, tx, rx, cover, egress }

def apply (base : EffectiveActionV1)
    (ctx : GuardrailContextV1) : EffectiveActionV1 × List ClampEntryV1 :=
  (self.guards candidate base ctx).run

/-- The final pass over an action that is already effective. -/
def reapply (action : EffectiveActionV1) (ctx : GuardrailContextV1) :
    EffectiveActionV1 × List ClampEntryV1 :=
  self.apply {} action ctx

end GuardrailsV1
end Ironet.Policy
