import Ironet.Policy.Tuner

/-!
# Utility

Model of `utility.rs`: the reward that the host computes for the interval that just ended. It is the
only part of the policy pipeline in floating point, and nothing of it flows back into the tuner.
-/
namespace Ironet.Policy
open Support

inductive Objective where
  | balanced
  | throughput
  | latency
  deriving DecidableEq, Repr

structure UtilityWeights where
  throughput : Float
  queueDelay : Float
  latencySojourn : Float
  residualLoss : Float
  jitter : Float
  cpu : Float
  wireOverhead : Float
  memory : Float

def Objective.weights (objective : Objective) : UtilityWeights :=
  let weights : UtilityWeights :=
    { throughput := 1.0
      queueDelay := 0.8
      latencySojourn := 0.8
      residualLoss := 1.0
      jitter := 0.3
      cpu := 0.3
      wireOverhead := 0.4
      memory := 0.1 }
  match objective with
  | .balanced => weights
  | .throughput =>
    { weights with throughput := 1.5, queueDelay := 0.4, latencySojourn := 0.2 }
  | .latency =>
    { weights with throughput := 0.6, queueDelay := 1.5, latencySojourn := 1.5 }

/-- The bytes of one interval that the application layer put on the wire. -/
structure WireCostV2 where
  payloadBytes : Nat := 0
  parityBytes : Nat := 0
  repairBytes : Nat := 0
  coverBytes : Nat := 0
  cellEnvelopeBytes : Nat := 0
  deriving DecidableEq, Repr

def WireCostV2.overheadRatio (self : WireCostV2) : Float :=
  if self.payloadBytes = 0 then 0.0
  else
    Float.ofNat
      (saturatingAdd
        (saturatingAdd (saturatingAdd self.parityBytes self.repairBytes) self.coverBytes)
        self.cellEnvelopeBytes) /
      Float.ofNat self.payloadBytes

structure UtilitySample where
  total : Float
  throughput : Float
  queueDelay : Float
  latencySojourn : Float
  residualLoss : Float
  jitter : Float
  cpu : Float
  wireOverhead : Float
  memory : Float
  goodputBytesPerSecond : Nat

/-- `f64::max` -/
def floatMax (left right : Float) : Float := if left < right then right else left

def goodputNormalizerBytesPerSecond : Float := 1000000.0 / 8.0

def minimumQueueDelayBudgetMicros : Float := 5000.0

def latencySojournNormalizerMicros : Float := 20000.0

def memoryNormalizerBytes : Float := 32.0 * 1024.0 * 1024.0

def goodputWindow : Nat := 8

def coefficientOfVariation (samples : List Nat) : Float :=
  if samples.length < 2 then 0.0
  else
    let count := Float.ofNat samples.length
    let mean := (samples.map Float.ofNat).foldl (· + ·) (-0.0) / count
    if mean == 0.0 then 0.0
    else
      let squares := samples.map fun value =>
        (Float.ofNat value - mean) * (Float.ofNat value - mean)
      Float.sqrt (squares.foldl (· + ·) (-0.0) / count) / mean

structure UtilityEstimator where
  window : List Nat
  weights : UtilityWeights

namespace UtilityEstimator

def withWeights (weights : UtilityWeights) : UtilityEstimator := { window := [], weights }

variable (self : UtilityEstimator)

def setWeights (weights : UtilityWeights) : UtilityEstimator :=
  { self with weights }

/-- The goodputs of the last eight intervals, this one included. -/
def slide (goodput : Nat) : UtilityEstimator :=
  { self with
    window :=
      (if self.window.length = goodputWindow then self.window.tail else self.window) ++ [goodput] }

variable (telemetry : PathTelemetryV2)

/-- What a queue beyond its budget costs. -/
def queuePenalty : Float :=
  let budget := floatMax minimumQueueDelayBudgetMicros (Float.ofNat (micros telemetry.minRtt) * 0.5)
  floatMax (Float.ofNat (micros telemetry.queueDelay) / budget - 1.0) 0.0

def latencyPenalty : Float :=
  if telemetry.latencyQueueRecentlyNonempty then
    Float.ofNat telemetry.latencySojournP95Micros / latencySojournNormalizerMicros
  else 0.0

variable (decision : TuneDecisionV2)

def memoryBytes : Nat :=
  saturatingAdd (saturatingAdd decision.sendBufferBytes decision.receiveBufferBytes)
    decision.repairCacheBytes

/-- The weighted terms over the window, and their sum. -/
def sample (wire : WireCostV2) : UtilitySample :=
  let weights := self.weights
  let goodput := telemetry.receiverGoodputBytesPerSecond
  let throughput :=
    weights.throughput * Float.log (1.0 + Float.ofNat goodput / goodputNormalizerBytesPerSecond)
  let queueDelay := -weights.queueDelay * queuePenalty telemetry
  let latencySojourn := -weights.latencySojourn * latencyPenalty telemetry
  let residualLoss := -weights.residualLoss * Float.ofNat telemetry.residualLossPpm / 10000.0
  let jitter := -weights.jitter * coefficientOfVariation self.window
  let cpu := -weights.cpu * Float.ofNat telemetry.cpuUtilizationPerMille / 1000.0
  let wireOverhead := -weights.wireOverhead * wire.overheadRatio
  let memory := -weights.memory * Float.ofNat (memoryBytes decision) / memoryNormalizerBytes
  let components :=
    [throughput, queueDelay, latencySojourn, residualLoss, jitter, cpu, wireOverhead, memory]
  { total := components.foldl (· + ·) (-0.0)
    throughput, queueDelay, latencySojourn, residualLoss, jitter, cpu, wireOverhead, memory
    goodputBytesPerSecond := goodput }

def observe (wire : WireCostV2) : UtilitySample × UtilityEstimator :=
  let estimator := self.slide telemetry.receiverGoodputBytesPerSecond
  (estimator.sample telemetry decision wire, estimator)

end UtilityEstimator
end Ironet.Policy
