import Ironet.Policy.Bounds

/-!
# Protection in an emergency

Under a loss emergency the guardrails give the base protection back to a candidate that switches it
off. They do not look at a candidate that removes the parity, or breaks the geometry, without using
the switch.
-/
namespace Ironet.Policy
open Support Reporting Ironet.Fec

def Protected (limits : HostLimitsV1) (fec : FecEffectiveV1) : Prop :=
  ∃ geometry, fec.toGeometry = some geometry ∧ GeometryValid limits geometry ∧
    0 < geometry.parityCells

theorem apply_fec (guardrails : GuardrailsV1) (candidate : CandidateActionV1)
    (base : EffectiveActionV1) (ctx : GuardrailContextV1) :
    (guardrails.apply candidate base ctx).1.fec =
      canonicalFec
        (executedGeometry guardrails.limits candidate base.fec ctx (candidate.applyOver base).fec).1
        (executedGeometry guardrails.limits candidate base.fec ctx
          (candidate.applyOver base).fec).2 := by
  have yields : Yields (guardrails.guards candidate base ctx) fun out =>
      out.fec = canonicalFec
        (executedGeometry guardrails.limits candidate base.fec ctx (candidate.applyOver base).fec).1
        (executedGeometry guardrails.limits candidate base.fec ctx
          (candidate.applyOver base).fec).2 := by
    refine .skip fun _ => .skip fun _ => ?_
    refine .bind (guardFec_yields _ candidate base.fec ctx _) fun _ same => ?_
    refine .skip fun _ => .skip fun _ => .skip fun _ => .skip fun _ => .skip fun _ => ?_
    exact .skip fun _ => .pure same
  exact yields

theorem toGeometry_canonicalFec {fec : FecEffectiveV1} {geometry : FecGeometryV2}
    (is : fec.toGeometry = some geometry) (family : FecPresetFamilyV1) :
    (canonicalFec (some geometry) family).toGeometry = some geometry := by
  rw [canonicalFec_toGeometry is]
  exact is

/-- Protection is in force exactly where a valid geometry with parity is executed. -/
theorem protected_canonicalFec {limits : HostLimitsV1} {executed : Option FecGeometryV2}
    {family : FecPresetFamilyV1} (source : ∀ geometry, executed = some geometry →
      ∃ fec : FecEffectiveV1, fec.toGeometry = some geometry) :
    Protected limits (canonicalFec executed family) ↔
      ∃ geometry, executed = some geometry ∧ GeometryValid limits geometry ∧
        0 < geometry.parityCells := by
  cases executed with
  | none =>
    constructor
    all_goals
      rintro ⟨_, is, _⟩
      cases is
  | some geometry =>
    obtain ⟨fec, is⟩ := source geometry rfl
    rw [Protected, toGeometry_canonicalFec is]

/-- In an emergency on an unreliable path with CPU to spare, over a base with valid protection: the
effective action is protected exactly when the candidate uses the off switch, or what it asks for is
itself a valid geometry with parity. -/
theorem emergency_protection (bounds : AutoTuneBoundsV2) (base : EffectiveActionV1)
    (candidate : CandidateActionV1) (ctx : GuardrailContextV1)
    (safe : Protected (.fromBounds bounds) base.fec) (emergency : ctx.protectionEmergency = true)
    (unreliable : ctx.reliable = false) (spare : ctx.cpuLimited = false) :
    Protected (.fromBounds bounds)
        ((⟨.fromBounds bounds⟩ : GuardrailsV1).apply candidate base ctx).1.fec ↔
      requestedOff candidate = true ∨
        Protected (.fromBounds bounds)
          (resolveFamily candidate (candidate.applyOver base).fec) := by
  obtain ⟨geometry, isGeometry, valid, parity⟩ := safe
  have enabled : base.fec.enabled = true := by
    cases on : base.fec.enabled with
    | true => rfl
    | false => simp [FecEffectiveV1.toGeometry, on] at isGeometry
  have inside : FecInside (.fromBounds bounds) base.fec := by
    intro other isOther
    obtain rfl := Option.some.inj (isGeometry.symm.trans isOther)
    exact valid
  rw [apply_fec, protected_canonicalFec fun _ executed =>
    (executedGeometry_valid inside executed).2.2]
  unfold executedGeometry
  simp only [unreliable, spare, emergency, enabled, Bool.or_self, Bool.false_eq_true, if_false,
    Bool.true_and, Bool.and_true]
  cases requestedOff candidate with
  | true =>
    -- the base comes back
    simp only [if_true, true_or, iff_true]
    exact ⟨geometry, isGeometry, valid, parity⟩
  | false =>
  simp only [Bool.false_eq_true, if_false, false_or]
  constructor
  · rintro ⟨asked, isAsked, good, some⟩
    exact ⟨asked, (Option.filter_eq_some_iff.mp isAsked).1, good, some⟩
  · rintro ⟨asked, isAsked, good, some⟩
    refine ⟨asked, Option.filter_eq_some_iff.mpr ⟨isAsked, ?_⟩, good, some⟩
    rw [fecViolation_eq_none.mpr good]
    rfl

def protectedBase : EffectiveActionV1 :=
  { plainBase 2 with fec := { enabled := true, dataCells := 8, parityCells := 1 } }

/-- The live sample crosses the loss threshold. -/
def emergencyContext : GuardrailContextV1 := { calmContext with protectionEmergency := true }

/-- The candidate leaves the switch alone and asks for no parity. -/
def noParity : CandidateActionV1 := { fec := some { parityCells := some 0 } }

/-- The candidate leaves the switch alone and asks for stripes of one Cell. -/
def singleCell : CandidateActionV1 := { fec := some { dataCells := some 1 } }

def switchedOff : CandidateActionV1 := { fec := some { enabled := some false } }

theorem protectedBase_protected : Protected (.fromBounds {}) protectedBase.fec :=
  ⟨⟨8, 1⟩, rfl, ⟨by decide, by decide, by decide, by decide⟩, by decide⟩

/-- Without the off switch a candidate removes the parity of the base, or all of its protection. -/
theorem emergency_parity_removed :
    Protected (.fromBounds {}) protectedBase.fec ∧
      ((⟨.fromBounds {}⟩ : GuardrailsV1).apply noParity protectedBase emergencyContext).1.fec =
        { enabled := true, dataCells := 8, parityCells := 0 } ∧
      ((⟨.fromBounds {}⟩ : GuardrailsV1).apply singleCell protectedBase emergencyContext).1.fec =
        {} := by
  refine ⟨protectedBase_protected, ?_, ?_⟩ <;> decide

/-- The off switch alone gives the base protection back. -/
theorem emergency_protection_switched_off : Protected (.fromBounds {})
      ((⟨.fromBounds {}⟩ : GuardrailsV1).apply switchedOff protectedBase emergencyContext).1.fec :=
  (emergency_protection {} protectedBase switchedOff emergencyContext
    protectedBase_protected rfl rfl
    rfl).mpr (.inl rfl)

end Ironet.Policy
