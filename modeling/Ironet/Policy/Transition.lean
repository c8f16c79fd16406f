import Ironet.Policy.Native

/-!
# Transitions

Model of `policy/transition.rs`: the one stage that smooths between ticks. Protection is enabled or
changed only after three ticks that propose the same geometry and a second of rest, unless the live
sample is an emergency; it is removed at once. The train target and the two buffers move one step a
tick.
-/
namespace Ironet.Policy
open Support Reporting Ironet.Fec

def fecConfirmationSamples : Nat := 3

def fecChangeCooldown : Duration := 1000000000

def trainTargetStepBytes : Nat := 8 * 1024

def sendBufferStepBytes : Nat := 256 * 1024

def receiveBufferStepBytes : Nat := 512 * 1024

def receivePressureStepBytes : Nat := receivePressureGrowthStepBytes

structure TransitionContextV1 where
  protectionEmergency : Bool
  receivePressure : Bool
  deriving DecidableEq, Repr

def TransitionContextV1.fromFiltered (filtered : FilteredTelemetryV1) : TransitionContextV1 where
  protectionEmergency := filtered.protectionEmergency
  receivePressure := filtered.receivePressure

structure TransitionControllerV1 where
  candidateFec : Option FecGeometryV2 := none
  candidateRepeats : Nat := 0
  lastChange : Instant
  deriving DecidableEq, Repr

def stepTowards (current target step : Nat) : Nat :=
  if current < target then min (saturatingAdd current step) target
  else max (current - step) target

def stepReported (field : ClampFieldV1) (current target step : Nat) : Guarded Nat := do
  let next := stepTowards current target step
  pushIf (next ≠ target) ⟨field, i64Sat target, i64Sat next, .transitionHold⟩
  return next

namespace TransitionControllerV1

def new (now : Instant) : TransitionControllerV1 := { lastChange := now }

variable (self : TransitionControllerV1)

/-- A proposal that differs from the current protection and is not its removal is counted. -/
def confirm (proposed : Option FecGeometryV2) : TransitionControllerV1 :=
  if proposed = self.candidateFec then
    { self with candidateRepeats := min (self.candidateRepeats + 1) u8Max }
  else { self with candidateFec := proposed, candidateRepeats := 1 }

/-- The confirmed proposal has to wait. -/
def holds (now : Instant) (ctx : TransitionContextV1) : Bool :=
  !ctx.protectionEmergency &&
    (self.candidateRepeats < fecConfirmationSamples || now - self.lastChange < fecChangeCooldown)

/-- The protection of this tick and the next state of the hysteresis. -/
def smoothFec (proposed previous : FecEffectiveV1) (now : Instant)
    (ctx : TransitionContextV1) : Guarded (FecEffectiveV1 × TransitionControllerV1) :=
  if proposed.toGeometry ≠ previous.toGeometry then
    if proposed.toGeometry.isNone then
      return (proposed, { candidateFec := none, candidateRepeats := 0, lastChange := now })
    else
      let confirmed := self.confirm proposed.toGeometry
      if confirmed.holds now ctx then do
        let held := FecEffectiveV1.fromGeometry previous.toGeometry
        push ⟨.fecEnabled, proposed.enabled.toInt, held.enabled.toInt, .transitionHold⟩
        return (held, confirmed)
      else return (proposed, { confirmed with candidateRepeats := 0, lastChange := now })
  else return (proposed, { self with candidateRepeats := 0 })

def smoothed (proposed previous : EffectiveActionV1) (now : Instant) (ctx : TransitionContextV1) :
    Guarded (EffectiveActionV1 × TransitionControllerV1) := do
  let protection ← self.smoothFec proposed.fec previous.fec now ctx
  let trainTargetBytes ←
    stepReported .schedulerTrainTargetBytes previous.scheduler.trainTargetBytes
      proposed.scheduler.trainTargetBytes trainTargetStepBytes
  let sendBufferBytes ←
    stepReported .txSendBufferBytes previous.tx.sendBufferBytes proposed.tx.sendBufferBytes
      sendBufferStepBytes
  let receiveBufferBytes ←
    stepReported .rxReceiveBufferBytes previous.rx.receiveBufferBytes
      proposed.rx.receiveBufferBytes
      (if ctx.receivePressure then receivePressureStepBytes else receiveBufferStepBytes)
  return ({ proposed with
    fec := protection.1
    scheduler := { proposed.scheduler with trainTargetBytes }
    tx := { proposed.tx with sendBufferBytes }
    rx := { proposed.rx with receiveBufferBytes } }, protection.2)

/-- The rate-limited action, what was held back, and the controller after it. -/
def smooth (proposed previous : EffectiveActionV1) (now : Instant) (ctx : TransitionContextV1) :
    (EffectiveActionV1 × List ClampEntryV1) × TransitionControllerV1 :=
  let smoothed := (self.smoothed proposed previous now ctx).run
  ((smoothed.1.1, smoothed.2), smoothed.1.2)

end TransitionControllerV1
end Ironet.Policy
