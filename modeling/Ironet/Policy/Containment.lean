import Ironet.Policy.Tick

/-!
# Containment of untrusted policies

Whatever a live or a shadow backend answers, the host's own part of the pipeline runs as if it were
not there. Two pipelines that are fed the same ticks are compared in lockstep: they keep the same
tuner, utility estimator and clock, so a backend can only reach the data plane through the candidate
of a tick that it decided in mode `on`. A backend that faults three times in a row is out.
-/
namespace Ironet.Policy
open Support PolicyTickV1

variable {deriveKey : DeriveKey}

/-! ### What a tick leaves of the host -/

/-- The same host under different backends, up to the mode. -/
structure SameHost (left right : PolicyTickV1) : Prop where
  tuner : left.tuner = right.tuner
  utility : left.utility = right.utility
  clock : left.clock = right.clock
  config : left.config = { right.config with mode := left.config.mode }

namespace PolicyTickV1

variable (self : PolicyTickV1) (input : TickInput)

/-- What the host makes of a tick, and the pipeline that goes on to ask its backends. -/
def observed : HostView × PolicyTickV1 :=
  (self.setEgressView input.egressView).observeHost input.telemetry input.wire input.now

theorem step_eq : self.step deriveKey input =
    (self.observed input).2.ask deriveKey (self.observed input).1 input.telemetry input.wire := rfl

theorem step_baseline : (self.step deriveKey input).1.baseline =
    (self.observed input).1.baseline.toTuneDecision := by
  rw [step_eq, ask]

theorem step_utility : (self.step deriveKey input).1.utility = (self.observed input).1.utility := by
  rw [step_eq, ask]

/-- A tick that the backend does not decide executes the baseline, whatever the backend said. -/
theorem decideLive_fallback {asked : PolicyInputV1} {telemetry : PathTelemetryV2}
    {baseline : EffectiveActionV1} (undecided : self.config.mode ≠ .on ∨
      (self.decideLive asked telemetry baseline).1.1.fault.isSome) :
    (self.decideLive asked telemetry baseline).1.1.effective =
      (self.fallback telemetry baseline).1 := by
  revert undecided
  simp only [decideLive]
  cases (self.live.decide asked).1.1 with
  | error fault =>
    intro _
    rfl
  | ok output =>
    rintro (notOn | faults)
    · simp only [guarded, if_neg notOn]
    · cases faults

theorem step_fallback
    (undecided : self.config.mode ≠ .on ∨ (self.step deriveKey input).1.fault.isSome) :
    (self.step deriveKey input).1.effective =
      ((self.observed input).2.fallback input.telemetry (self.observed input).1.baseline).1 :=
  decideLive_fallback _ undecided

end PolicyTickV1

namespace SameHost

variable {left right : PolicyTickV1} (same : SameHost left right) (input : TickInput)
include same

theorem forced : left.config.forced = right.config.forced := by
  rw [same.config]

theorem observed : (left.observed input).1 = (right.observed input).1 ∧
    SameHost (left.observed input).2 (right.observed input).2 := by
  have baseline := congrArg₂
    (fun tuner forced => tuner.observeEffectiveAtWithForce input.telemetry input.now forced)
    same.tuner same.forced
  constructor
  · simp only [PolicyTickV1.observed, PolicyTickV1.observeHost, PolicyTickV1.setEgressView]
    rw [baseline, same.utility, same.clock]
  refine ⟨?_, ?_, ?_, same.config⟩ <;>
    simp only [PolicyTickV1.observed, PolicyTickV1.observeHost, PolicyTickV1.setEgressView]
  · rw [baseline]
  · rw [baseline, same.utility]
  · rw [same.clock]

theorem step : SameHost (left.step deriveKey input).2 (right.step deriveKey input).2 :=
  have after := (same.observed input).2
  ⟨after.tuner, after.utility, after.clock, same.config⟩

theorem fallback :
    (left.observed input).2.fallback input.telemetry (left.observed input).1.baseline =
      (right.observed input).2.fallback input.telemetry (right.observed input).1.baseline := by
  obtain ⟨seen, after⟩ := same.observed input
  rw [PolicyTickV1.fallback, PolicyTickV1.fallback, seen, after.tuner]
  rfl

theorem sameBaseline :
    (left.step deriveKey input).1.baseline = (right.step deriveKey input).1.baseline ∧
      (left.step deriveKey input).1.utility = (right.step deriveKey input).1.utility := by
  rw [left.step_baseline, right.step_baseline, left.step_utility, right.step_utility,
    (same.observed input).1]
  exact ⟨rfl, rfl⟩

theorem sameEffective
    (undecided : left.config.mode ≠ .on ∨ (left.step deriveKey input).1.fault.isSome)
    (otherUndecided : right.config.mode ≠ .on) :
    (left.step deriveKey input).1.effective = (right.step deriveKey input).1.effective := by
  rw [left.step_fallback input undecided, right.step_fallback input (.inl otherUndecided),
    same.fallback]

end SameHost

/-! ### The shadow -/

/-- The outcome of a tick without the evaluation of the shadow. -/
def TickOutcomeV1.liveFields (self : TickOutcomeV1) : TickOutcomeV1 := { self with shadow := none }

/-- Pipelines that differ in their shadows only. -/
def SameLive (left right : PolicyTickV1) : Prop := left = { right with shadow := left.shadow }

variable (self : PolicyTickV1)

theorem PolicyTickV1.observed_withShadow (input : TickInput) (shadow : Option ShadowEvaluatorV2) :
    observed { self with shadow } input =
      ((self.observed input).1, { (self.observed input).2 with shadow }) := by
  simp only [observed, observeHost, setEgressView]

theorem PolicyTickV1.decideLive_withShadow (asked : PolicyInputV1) (telemetry : PathTelemetryV2)
    (baseline : EffectiveActionV1) (shadow : Option ShadowEvaluatorV2) :
    decideLive { self with shadow } asked telemetry baseline =
      self.decideLive asked telemetry baseline := by
  simp only [decideLive, guarded, fallback]

theorem PolicyTickV1.ask_withShadow (host : HostView) (telemetry : PathTelemetryV2)
    (wire : WireCostV2) (shadow : Option ShadowEvaluatorV2) :
    SameLive (ask deriveKey { self with shadow } host telemetry wire).2
        (self.ask deriveKey host telemetry wire).2 ∧
      (ask deriveKey { self with shadow } host telemetry wire).1.liveFields =
        (self.ask deriveKey host telemetry wire).1.liveFields := by
  have asked : liveInput deriveKey { self with shadow } host telemetry =
      self.liveInput deriveKey host telemetry := by
    simp only [liveInput, liveSeed]
  simp only [SameLive, ask, asked, decideLive_withShadow, TickOutcomeV1.liveFields, and_self]

theorem SameLive.step {left right : PolicyTickV1} (same : SameLive left right) (input : TickInput) :
    SameLive (left.step deriveKey input).2 (right.step deriveKey input).2 ∧
      (left.step deriveKey input).1.liveFields = (right.step deriveKey input).1.liveFields := by
  rw [same, step_eq, step_eq, observed_withShadow]
  exact ask_withShadow _ _ _ _ _

/-! ### Quarantine -/

namespace PolicySlotV1

variable (self : PolicySlotV1)

/-- The backend is out of service, or so many calls in a row have failed and it is not yet. -/
def Suspect (faults : Nat) : Prop :=
  self.health.state = .quarantined ∨
    faults ≤ self.health.consecutiveFaults ∧ faults < quarantineConsecutiveFaults

theorem suspect_zero : self.Suspect 0 := .inr ⟨Nat.zero_le _, by decide⟩

variable {faults : Nat}

theorem Suspect.quarantined {slot : PolicySlotV1} (suspect : slot.Suspect faults)
    (many : quarantineConsecutiveFaults ≤ faults) : slot.health.state = .quarantined :=
  suspect.resolve_right fun few => absurd few.2 (Nat.not_lt.mpr many)

theorem decide_quarantined (quarantined : self.health.state = .quarantined)
    (input : PolicyInputV1) : self.decide input = ((.error .unavailable, input), self) := by
  rw [decide, if_pos (by rwa [BackendHealthV1.isQuarantined, decide_eq_true_iff])]

@[simp] theorem recordClamps_health (report : List ClampEntryV1) :
    (self.recordClamps report).health = self.health := rfl

@[simp] theorem recordClamps_asked (report : List ClampEntryV1) :
    (self.recordClamps report).asked = self.asked := rfl

theorem recordFault_counts {health : BackendHealthV1} (fault : PolicyFaultV1)
    (counted : faults ≤ health.consecutiveFaults) (few : faults < quarantineConsecutiveFaults) :
    (health.recordFault fault).state = .quarantined ∨
      faults + 1 ≤ (health.recordFault fault).consecutiveFaults ∧
        faults + 1 < quarantineConsecutiveFaults := by
  have small : quarantineConsecutiveFaults ≤ u32Max := by decide
  simp only [BackendHealthV1.recordFault]
  by_cases out : health.state = .quarantined
  · left
    rw [if_pos out]
    exact out
  rw [if_neg out]
  by_cases many : quarantineConsecutiveFaults ≤ u32Saturating (health.consecutiveFaults + 1)
  · left
    rw [if_pos many]
  · right
    rw [if_neg many]
    simp only [u32Saturating] at many ⊢
    omega

theorem decide_called (serving : self.health.state ≠ .quarantined) (input : PolicyInputV1) :
    (self.decide input).2.asked = self.asked ++ [{ input with state := self.state }] ∧
      ∀ fault, (self.decide input).1.1 = .error fault →
        (self.decide input).2.health = self.health.recordFault fault := by
  have called : ¬ self.health.isQuarantined := by
    rwa [BackendHealthV1.isQuarantined, decide_eq_true_iff]
  simp only [decide, if_neg called]
  cases self.backend.decide (self.call input).asked with
  | ok output => exact ⟨rfl, nofun⟩
  | error failure =>
    refine ⟨rfl, ?_⟩
    rintro fault ⟨⟩
    rfl

theorem decide_suspect (suspect : self.Suspect faults) (input : PolicyInputV1)
    {fault : PolicyFaultV1} (failed : (self.decide input).1.1 = .error fault) :
    (self.decide input).2.Suspect (faults + 1) := by
  by_cases out : self.health.state = .quarantined
  · rw [self.decide_quarantined out]
    exact .inl out
  · obtain ⟨counted, few⟩ := suspect.resolve_left out
    rw [Suspect, (self.decide_called out input).2 fault failed]
    exact recordFault_counts fault counted few

end PolicySlotV1

namespace PolicyTickV1

variable (self : PolicyTickV1) (input : TickInput)

/-- What the live backend is asked at a tick. -/
def askedAt (deriveKey : DeriveKey) : PolicyInputV1 :=
  (self.observed input).2.liveInput deriveKey (self.observed input).1 input.telemetry

/-- A tick faults with the decision of the live slot, which it leaves as that decision did, up to
the clamp statistics. -/
theorem step_live (deriveKey : DeriveKey) :
    (∀ fault, (self.step deriveKey input).1.fault = some fault ↔
      (self.live.decide (self.askedAt input deriveKey)).1.1 = .error fault) ∧
    (self.step deriveKey input).2.live.health =
      (self.live.decide (self.askedAt input deriveKey)).2.health ∧
    (self.step deriveKey input).2.live.asked =
      (self.live.decide (self.askedAt input deriveKey)).2.asked := by
  have slot : (self.observed input).2.live = self.live := rfl
  simp only [step_eq, ask, decideLive, slot]
  rw [← askedAt]
  cases (self.live.decide (self.askedAt input deriveKey)).1.1 with
  | error failure => simp
  | ok output =>
    simp [PolicySlotV1.recordClamps_health, PolicySlotV1.recordClamps_asked]

/-- A tick that faults brings the live slot one fault closer to its quarantine. -/
theorem step_suspect {faults : Nat} (suspect : self.live.Suspect faults)
    (failed : (self.step deriveKey input).1.fault.isSome) :
    (self.step deriveKey input).2.live.Suspect (faults + 1) := by
  obtain ⟨fault, isFault⟩ := Option.isSome_iff_exists.mp failed
  obtain ⟨answers, health, -⟩ := self.step_live input deriveKey
  rw [PolicySlotV1.Suspect, health]
  exact self.live.decide_suspect suspect _ ((answers fault).mp isFault)

theorem runAll_suspect {faults : Nat} {burst : List TickInput} (suspect : self.live.Suspect faults)
    (failed : ∀ outcome ∈ (self.runAll deriveKey burst).1, outcome.fault.isSome) :
    (self.runAll deriveKey burst).2.live.Suspect (faults + burst.length) := by
  induction burst generalizing self faults with
  | nil => exact suspect
  | cons tick rest ih =>
    obtain ⟨first, later⟩ := List.forall_mem_cons.mp failed
    have counted := ih (self.step deriveKey tick).2 (self.step_suspect tick suspect first) later
    rwa [Nat.add_right_comm, Nat.add_assoc] at counted

/-- Every tick faults, and the backend is not called. -/
def Silenced (deriveKey : DeriveKey) : Prop :=
  ∀ ticks, (∀ outcome ∈ (self.runAll deriveKey ticks).1, outcome.fault = some .unavailable) ∧
    (self.runAll deriveKey ticks).2.live.asked = self.live.asked

theorem step_quarantined (deriveKey : DeriveKey)
    (quarantined : self.live.health.state = .quarantined) :
    (self.step deriveKey input).1.fault = some .unavailable ∧
      (self.step deriveKey input).2.live.health = self.live.health ∧
        (self.step deriveKey input).2.live.asked = self.live.asked := by
  obtain ⟨answers, health, asked⟩ := self.step_live input deriveKey
  have out := self.live.decide_quarantined quarantined (self.askedAt input deriveKey)
  rw [out] at answers health asked
  exact ⟨(answers .unavailable).mpr rfl, health, asked⟩

theorem silenced_of_quarantined (quarantined : self.live.health.state = .quarantined) :
    self.Silenced deriveKey := by
  intro ticks
  obtain ⟨⟨-, asked⟩, faults⟩ := respondAll_invariant
    (fun pipeline : PolicyTickV1 => pipeline.live.health.state = .quarantined ∧
      pipeline.live.asked = self.live.asked)
    (fun outcome : TickOutcomeV1 => outcome.fault = some .unavailable)
    (fun pipeline tick holds => by
      obtain ⟨-, health, asked⟩ := pipeline.step_quarantined tick deriveKey holds.1
      rw [health, asked]
      exact holds)
    (fun pipeline tick holds => (pipeline.step_quarantined tick deriveKey holds.1).1)
      ⟨quarantined, rfl⟩ ticks
  exact ⟨faults, asked⟩

theorem step_replaceLive (deriveKey : DeriveKey) (backend : PolicyBackend) (digest : String)
    (weights : UtilityWeights) (accepts : List Nat) :
    ((self.replaceLive backend digest weights accepts).step deriveKey input).2.live.asked.length =
      1 := by
  have serving : (self.live.replace backend digest accepts).health.state ≠ .quarantined := nofun
  obtain ⟨-, -, asked⟩ :=
    (self.replaceLive backend digest weights accepts).step_live input deriveKey
  rw [asked]
  exact congrArg List.length (PolicySlotV1.decide_called _ serving _).1

end PolicyTickV1

/-! ### Whole runs -/

/-- The outcomes of some ticks for a peer with these backends. -/
def outcomes (deriveKey : DeriveKey) (tuner : AutoTunerV2) (weights : UtilityWeights)
    (config : PolicyTickConfigV1) (live : PolicySlotV1) (shadow : Option ShadowEvaluatorV2)
    (ticks : List TickInput) : List TickOutcomeV1 :=
  (((PolicyTickV1.new tuner live weights config).setShadow shadow).runAll deriveKey ticks).1

/-- **Containment.** Whatever the backends do:
the baselines and utilities of a run are the same, in every mode;
outside mode `on` so are the effective actions;
a tick that faults executes what a run outside mode `on` executes at that tick;
the shadow does not show in the live fields of an outcome;
and three faults in a row silence a backend until it is replaced, when the next tick calls the new
one. -/
theorem policy_containment (deriveKey : DeriveKey) (tuner : AutoTunerV2)
    (weights : UtilityWeights) (config : PolicyTickConfigV1) (live other : PolicySlotV1)
    (shadow otherShadow : Option ShadowEvaluatorV2) (ticks : List TickInput) : (∀ mode, List.Forall₂
      (fun left right => left.baseline = right.baseline ∧ left.utility = right.utility)
      (outcomes deriveKey tuner weights config live shadow ticks)
      (outcomes deriveKey tuner weights { config with mode } other otherShadow ticks)) ∧
    (config.mode ≠ .on → List.Forall₂ (fun left right => left.effective = right.effective)
      (outcomes deriveKey tuner weights config live shadow ticks)
      (outcomes deriveKey tuner weights config other otherShadow ticks)) ∧
    (∀ mode, mode ≠ .on → List.Forall₂
      (fun left right => left.fault.isSome → left.effective = right.effective)
      (outcomes deriveKey tuner weights config live shadow ticks)
      (outcomes deriveKey tuner weights { config with mode } other otherShadow ticks)) ∧
    List.Forall₂ (fun left right => left.liveFields = right.liveFields)
      (outcomes deriveKey tuner weights config live shadow ticks)
      (outcomes deriveKey tuner weights config live otherShadow ticks) ∧
    ∀ (pipeline : PolicyTickV1) (burst : List TickInput),
      quarantineConsecutiveFaults ≤ burst.length →
      (∀ outcome ∈ (pipeline.runAll deriveKey burst).1, outcome.fault.isSome) →
      (pipeline.runAll deriveKey burst).2.Silenced deriveKey ∧
        ∀ backend digest newWeights accepts tick,
          (((pipeline.runAll deriveKey burst).2.replaceLive backend digest newWeights
            accepts).step deriveKey tick).2.live.asked.length = 1 := by
  have host : ∀ mode, SameHost ((new tuner live weights config).setShadow shadow)
      ((new tuner other weights { config with mode }).setShadow otherShadow) :=
    fun _ => ⟨rfl, rfl, rfl, rfl⟩
  refine ⟨fun mode => ?_, fun notOn => ?_, fun mode notOn => ?_, ?_,
    fun pipeline burst many faults => ?_⟩
  · exact (lockstep SameHost _ (fun _ _ tick same => same.step tick)
      (fun _ _ tick same => same.sameBaseline tick) (host mode) ticks).2
  · exact (lockstep (fun left right => SameHost left right ∧ left.config.mode ≠ .on ∧
        right.config.mode ≠ .on) _ (fun _ _ tick same => ⟨same.1.step tick, same.2⟩)
      (fun _ _ tick same => same.1.sameEffective tick (.inl same.2.1) same.2.2)
      ⟨host config.mode, notOn, notOn⟩ ticks).2
  · exact (lockstep (fun left right => SameHost left right ∧ right.config.mode ≠ .on) _
      (fun _ _ tick same => ⟨same.1.step tick, same.2⟩)
      (fun _ _ tick same faults => same.1.sameEffective tick (.inr faults) same.2)
      ⟨host mode, notOn⟩ ticks).2
  · have start : SameLive ((new tuner live weights config).setShadow shadow)
        ((new tuner live weights config).setShadow otherShadow) := rfl
    exact (lockstep SameLive _ (fun _ _ tick same => (same.step tick).1)
      (fun _ _ tick same => (same.step tick).2) start ticks).2
  · have out := (pipeline.runAll_suspect pipeline.live.suspect_zero faults).quarantined (by omega)
    exact ⟨silenced_of_quarantined _ out, fun _ _ _ _ tick =>
      step_replaceLive _ tick deriveKey _ _ _ _⟩

/-- A backend that never answers in time. -/
def lateBackend : PolicyBackend where
  identity := { policyId := "late", stateSchema := 1 }
  decide _ := .error .timeout
  lastTrace _ := none
  callMicros _ := 0

def latePipeline : PolicyTickV1 :=
  new (.new {} 1 0) (.new lateBackend "late") Objective.balanced.weights
    { objective := .balanced, mode := .on }

def threeTicks : List TickInput :=
  [1, 2, 3].map fun second => ⟨{}, lossySample 1, {}, second * 1000000000⟩

/-- It is asked three times and then no more. -/
theorem policy_containment_late : let ran := latePipeline.runAll (fun _ bytes => bytes) threeTicks
    ran.1.map TickOutcomeV1.fault = List.replicate 3 (some .timeout) ∧
      ran.2.live.asked.length = 3 ∧ ran.2.Silenced fun _ bytes => bytes := by
  obtain ⟨-, -, -, -, silences⟩ := policy_containment (fun _ bytes => bytes) (.new {} 1 0)
    Objective.balanced.weights { objective := .balanced, mode := .on } (.new lateBackend "late")
    (.new lateBackend "late") none none threeTicks
  exact ⟨rfl, rfl, (silences latePipeline threeTicks (by decide) (by decide +kernel)).1⟩

end Ironet.Policy
