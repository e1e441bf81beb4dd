import WeakForm.Proofs.ElasticQuantities
import WeakForm.Proofs.Quantities
import WeakForm.Proofs.ThermalQuantities

/-!
# The verdict on an element

An element is verified at its sample point, whose arrays have the lengths that its dimensions ask
for: so nothing in the checks can fail, whatever the solid is, and the element is left as it was.
**All checks find nothing, with one exception**: the check of the failure index along the state
compares a square root with its difference quotient. It is named by `Exempt`, and only elasticity
has it, if it is asked for.
-/

namespace WeakForm

open Dims ElementModel ElementEntry Work

/-! ## The sample point -/

section Samples

variable {α : Type} [Scalar α]

omit [Scalar α] in
/-- A tabulated array is a vector. -/
theorem Sample.exists_tabulate (n : ℕ) (f : ℕ → α) :
    ∃ v : Vector α n, Sample.tabulate n f = v.toArray :=
  ⟨⟨Sample.tabulate n f, by simp [Sample.tabulate]⟩, rfl⟩

/-- **The sample of an element has the lengths of its dimensions.** -/
theorem AdjointSample.exists_ofDims (d : Dims) (elem : ℕ) :
    ∃ (place : Point α) (data : PointData d α) (a : AdjointData d α),
      (ofDims d elem).sample.point = data.pointAt place
        ∧ (ofDims d elem).psi = a.psi.toArray ∧ (ofDims d elem).psix = a.psix.toArray := by
  obtain ⟨ut, hut⟩ := Sample.exists_tabulate d.utLen
    fun i => (Sample.amplitude : α) * (1 + (0.5 : α) * Sample.wave elem i 1.7 0.3)
  obtain ⟨ux, hux⟩ := Sample.exists_tabulate d.uxLen
    fun i => (Sample.amplitude : α) * Sample.wave elem i 2.3 0.9
  obtain ⟨psi, hpsi⟩ := Sample.exists_tabulate d.varsPerNode
    fun i => Scalar.cos ((1.1 : α) * (i : α) + 0.4)
  obtain ⟨psix, hpsix⟩ := Sample.exists_tabulate (d.varsPerNode * d.spatialDim)
    fun i => Scalar.sin ((0.8 : α) * (i : α) + 1.3)
  refine ⟨(ofDims d elem).sample.point, ⟨#v[0.1, 0.2, 0.3], ut, ux⟩, ⟨psi, psix⟩, ?_, hpsi, hpsix⟩
  unfold PointData.pointAt
  rw [← hut, ← hux]
  rfl

end Samples

/-! ## The checks of an element -/

variable [Waves] {config : CheckConfig ℝ} {s : Solid ℝ}

/-- The model of an element has the exact linearization of its physics, with no more entries than
the Jacobian has places. -/
theorem exists_isLinearization_modelOf (physics : Physics ℝ) (place : Point ℝ) (x : Vector ℝ 3) :
    ∃ pattern f J, IsLinearization (modelOf physics s) place x pattern f J
      ∧ pattern.nnz (dims (modelOf physics s)).jacobianSize
        ≤ (dims (modelOf physics s)).jacobianSize * (dims (modelOf physics s)).jacobianSize := by
  cases physics with
  | elasticity thermalLoad =>
    have h := Elasticity.isLinearization
      (Elasticity.answers_solid thermalLoad s (PointData.siteAt x place))
    -- the model of an element evaluates what its physics does, so each field is that of the physics
    refine ⟨.sparse Elasticity.pattern, _, _, ⟨h.weakIntegrand_eq, h.weakJacobian_eq,
      h.increment_eq, h.value_eq_zero, h.fst_congr, h.snd_congr⟩, ?_⟩
    show Elasticity.pattern.length ≤ Elasticity.dims.jacobianSize * Elasticity.dims.jacobianSize
    decide
  | conduction =>
    have h := Conductor.isLinearization (Conductor.conduction_solid s (PointData.siteAt x place))
    refine ⟨.sparse Conductor.pattern, _, _, ⟨h.weakIntegrand_eq, h.weakJacobian_eq,
      h.increment_eq, h.value_eq_zero, h.fst_congr, h.snd_congr⟩, ?_⟩
    show Conductor.pattern.length ≤ Conductor.dims.jacobianSize * Conductor.dims.jacobianSize
    decide

/-- The Jacobian of both kinds of physics is found exact. -/
theorem exists_checkWeakJacobian_modelOf (physics : Physics ℝ) (place : Point ℝ)
    (data : PointData (dims (modelOf physics s)) ℝ) (hstep : config.stepSize ≠ 0)
    (hr : 0 ≤ config.rtol) (ha : 0 ≤ config.atol) :
    ∃ result, checkWeakJacobian (modelOf physics s) (data.pointAt place) config = .ok result
      ∧ result.IsExact := by
  obtain ⟨pattern, f, J, hlin, hnnz⟩ := exists_isLinearization_modelOf (s := s) physics place data.x
  exact hlin.isExact_checkWeakJacobian hnnz hstep hr ha

/-- **The one check that may find something**: that of the failure index along the state, which only
elasticity has. -/
def CheckResult.Exempt (r : CheckResult ℝ) (kind : String) (tags : List QuantityTag) : Prop :=
  kind = "linear_elasticity_3d" ∧ .failureIndex ∈ tags
    ∧ r.name = "failure_index state sensitivity"

omit [Waves] in
/-- A check under another name. -/
theorem CheckResult.IsExact.rename {r : CheckResult ℝ} (h : r.IsExact) (name : String) :
    { r with name }.IsExact :=
  ⟨h.maxAbsError, h.maxRelError, h.worstIndex, h.passed⟩

section Quantities

variable {tag : QuantityTag} {tags : List QuantityTag} {n : ℕ} {place : Point ℝ}
  (hstep : config.stepSize ≠ 0) (hr : 0 ≤ config.rtol) (ha : 0 ≤ config.atol) (name : String)

include hstep hr ha

/-- What elasticity evaluates can be verified. -/
theorem Elasticity.isVerifiable {thermalLoad : ℝ} {data : PointData dims ℝ}
    {q : dims.Values → Fin n → ℝ} {gradient : Array ℝ → dims.Values → dims.Values}
    {r : Solid ℝ → Fin n → ℝ}
    (hstate : Evaluates (⟨s, thermalLoad⟩ : Elasticity (Solid ℝ) ℝ) tag place #[] q gradient)
    (hdesign : IsExactByThickness (fun s => (⟨s, thermalLoad⟩ : Elasticity (Solid ℝ) ℝ)) tag
      (data.pointAt place) #[] r) :
    IsVerifiable (.elasticity thermalLoad) s tag (data.pointAt place) config fun result =>
      (∀ dfdq u, HasGradient (fun u => weighted dfdq (q u)) u (gradient dfdq u))
        → result.IsExact :=
  -- the model of an element evaluates what its physics does
  .of_derivatives ⟨hstate.quantityValues_eq, hstate.quantitySens_eq⟩
    ⟨hdesign.quantityValues_eq, hdesign.active, hdesign.inactive⟩ hstep hr ha

/-- What conduction evaluates can be verified. -/
theorem Conductor.isVerifiable {data : PointData dims ℝ} {q : dims.Values → Fin n → ℝ}
    {gradient : Array ℝ → dims.Values → dims.Values} {r : Solid ℝ → Fin n → ℝ}
    (hstate : Evaluates (⟨s⟩ : Conductor (Solid ℝ)) tag place #[] q gradient)
    (hdesign : IsExactByThickness (fun s => (⟨s⟩ : Conductor (Solid ℝ))) tag (data.pointAt place)
      #[] r) :
    IsVerifiable .conduction s tag (data.pointAt place) config fun result =>
      (∀ dfdq u, HasGradient (fun u => weighted dfdq (q u)) u (gradient dfdq u))
        → result.IsExact :=
  .of_derivatives ⟨hstate.quantityValues_eq, hstate.quantitySens_eq⟩
    ⟨hdesign.quantityValues_eq, hdesign.active, hdesign.inactive⟩ hstep hr ha

section Checks

variable {p : Point ℝ}

/-- The checks of a quantity whose derivatives are both exact. -/
theorem keeps_verifyQuantity_of_exact {physics : Physics ℝ} {exact : Prop}
    (h : IsVerifiable physics s tag p config fun result => exact → result.IsExact)
    (hexact : exact) :
    Keeps (verifyQuantity name p .builtin config tag) (modelOf physics s)
      fun checks => ∀ r ∈ checks, r.IsExact ∨ r.Exempt physics.kind tags := by
  refine (h.keeps_verifyQuantity hstep hr ha name .builtin).imp ?_
  rintro _ ⟨state, design, rfl, hstate, hdesign⟩ r hmem
  rcases List.mem_pair.mp hmem with rfl | rfl
  · exact Or.inl ((hstate hexact).rename _)
  · exact Or.inl (hdesign.rename _)

/-- The checks of the failure index: the one along the state is exempt. -/
theorem keeps_verifyQuantity_failure {thermalLoad : ℝ} {outcome : CheckResult ℝ → Prop}
    (h : IsVerifiable (.elasticity thermalLoad) s .failureIndex p config outcome)
    (hmem : .failureIndex ∈ tags) :
    Keeps (verifyQuantity name p .builtin config .failureIndex)
      (modelOf (.elasticity thermalLoad) s) fun checks =>
        ∀ r ∈ checks, r.IsExact ∨ r.Exempt (Physics.elasticity thermalLoad).kind tags := by
  refine (h.keeps_verifyQuantity hstep hr ha name .builtin).imp ?_
  rintro _ ⟨state, design, rfl, -, hdesign⟩ r hchecks
  rcases List.mem_pair.mp hchecks with rfl | rfl
  · exact Or.inr ⟨rfl, hmem, rfl⟩
  · exact Or.inl (hdesign.rename _)

end Checks

omit hstep hr ha in
/-- An unknown quantity has no checks. -/
theorem keeps_verifyQuantity_of_unknown {physics : Physics ℝ} {p : Point ℝ}
    (h : quantityValues (modelOf physics s) tag p #[] = .error (.unsupportedQuantity tag)) :
    Keeps (verifyQuantity name p .builtin config tag) (modelOf physics s)
      fun checks => ∀ r ∈ checks, r.IsExact ∨ r.Exempt physics.kind tags := by
  refine (keeps_verifyQuantity_of_unsupported h name .builtin).imp ?_
  rintro _ rfl r hchecks
  cases hchecks

/-- **The checks of a quantity** find nothing, are exempt, or there are none. -/
theorem keeps_verifyQuantity_modelOf (physics : Physics ℝ) (place : Point ℝ)
    (data : PointData (dims (modelOf physics s)) ℝ) (hmem : tag ∈ tags) :
    Keeps (verifyQuantity name (data.pointAt place) .builtin config tag) (modelOf physics s)
      fun checks => ∀ r ∈ checks, r.IsExact ∨ r.Exempt physics.kind tags := by
  cases physics with
  | elasticity thermalLoad =>
    by_cases hknown : tag ∈ Elasticity.tags
    · simp only [Elasticity.tags, List.mem_cons, List.not_mem_nil, or_false] at hknown
      obtain rfl | rfl | rfl := hknown
      · exact keeps_verifyQuantity_failure hstep hr ha name
          (Elasticity.isVerifiable hstep hr ha Elasticity.evaluates_failure
            (Elasticity.isExactByThickness_failure thermalLoad place #[] data)) hmem
      · exact keeps_verifyQuantity_of_exact hstep hr ha name
          (Elasticity.isVerifiable hstep hr ha Elasticity.evaluates_density
            (Elasticity.isExactByThickness_density thermalLoad place #[] data))
          Elasticity.hasGradient_weighted_density
      · exact keeps_verifyQuantity_of_exact hstep hr ha name
          (Elasticity.isVerifiable hstep hr ha Elasticity.evaluates_energy
            (Elasticity.isExactByThickness_energy thermalLoad place #[] data))
          Elasticity.hasGradient_weighted_energy
    · have hunknown : quantityValues (modelOf (.elasticity thermalLoad) s) tag
          (data.pointAt place) #[] = .error (.unsupportedQuantity tag) :=
        Elasticity.quantityValues_of_unknown #[] hknown
      exact keeps_verifyQuantity_of_unknown name hunknown
  | conduction =>
    by_cases hknown : tag ∈ Conductor.tags
    · simp only [Conductor.tags, List.mem_cons, List.not_mem_nil, or_false] at hknown
      obtain rfl | rfl | rfl := hknown
      · exact keeps_verifyQuantity_of_exact hstep hr ha name
          (Conductor.isVerifiable hstep hr ha Conductor.evaluates_density
            (Conductor.isExactByThickness_density place #[] data))
          Conductor.hasGradient_weighted_density
      · exact keeps_verifyQuantity_of_exact hstep hr ha name
          (Conductor.isVerifiable hstep hr ha Conductor.evaluates_temperature
            (Conductor.isExactByThickness_temperature place #[] data))
          Conductor.hasGradient_weighted_temperature
      · exact keeps_verifyQuantity_of_exact hstep hr ha name
          (Conductor.isVerifiable hstep hr ha Conductor.evaluates_heatFlux
            (Conductor.isExactByThickness_heatFlux place #[] data))
          Conductor.hasGradient_weighted_heatFlux
    · have hunknown : quantityValues (modelOf .conduction s) tag (data.pointAt place) #[]
          = .error (.unsupportedQuantity tag) :=
        Conductor.quantityValues_of_unknown #[] hknown
      exact keeps_verifyQuantity_of_unknown name hunknown

end Quantities

/-- **Verifying an element always succeeds**, and its checks find nothing but what is exempt. -/
theorem keeps_verifyElement (physics : Physics ℝ) (s : Solid ℝ) (hstep : config.stepSize ≠ 0)
    (hr : 0 ≤ config.rtol) (ha : 0 ≤ config.atol) (name kind : String) (elem : ℕ)
    (tags : List QuantityTag) :
    Keeps (verifyElement name kind elem tags .builtin config) (modelOf physics s)
      fun report => report.kind = kind
        ∧ ∀ r ∈ report.checks, r.IsExact ∨ r.Exempt physics.kind tags := by
  obtain ⟨place, data, a, hpoint, hpsi, hpsix⟩ :=
    AdjointSample.exists_ofDims (α := ℝ) (dims (modelOf physics s)) elem
  obtain ⟨jacobian, hjacobian, hexact⟩ :=
    exists_checkWeakJacobian_modelOf physics place data hstep hr ha
  unfold verifyElement
  refine keeps_subject.bind ?_
  rintro _ rfl
  dsimp only
  rw [hpoint, hpsi, hpsix]
  refine (keeps_liftM hjacobian).bind ?_
  rintro _ rfl
  refine (keeps_reported hexact).bind fun jacobian hjacobian => ?_
  refine (keeps_checkWeakAdjoint (hasExactAdjoint_modelOf physics place data a 1) hstep hr ha).bind
    fun adjoint hadjoint => ?_
  refine (keeps_mapM fun tag htag =>
    keeps_verifyQuantity_modelOf hstep hr ha name physics place data htag).bind
      fun quantities hquantities => ?_
  refine keeps_pure ⟨rfl, fun r hmem => ?_⟩
  rcases List.mem_cons.mp hmem with rfl | hmem
  · exact Or.inl hjacobian
  rcases List.mem_cons.mp hmem with rfl | hmem
  · exact Or.inl hadjoint
  · obtain ⟨checks, hchecks, hr⟩ := List.mem_flatten.mp hmem
    exact hquantities checks hchecks r hr

end WeakForm
