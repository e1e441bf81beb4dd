import WeakForm.Proofs.DesignVariables
import WeakForm.Proofs.QuantityDerivatives
import WeakForm.Verification

/-!
# Verifying a quantity

A quantity that an element knows is checked twice, along the state and along the design. What both
checks need is brought together here (`IsVerifiable`): the values of the quantity, a design
derivative that is exact, and an outcome of the check along the state. All of it comes from what the
model evaluates and from the derivative by the thickness (`IsVerifiable.of_derivatives`). **Such a
quantity has two checks, and an unknown one has none** (`IsVerifiable.keeps_verifyQuantity`,
`keeps_verifyQuantity_of_unsupported`).
-/

namespace WeakForm

open Dims ElementModel

variable [Waves]

/-! ## Verified quantities -/

open Work ElementEntry

/-- **A quantity that is verified**: a model that is made of a solid knows it, its derivatives by
state can be checked with an outcome, and its design derivative is exact. -/
structure IsVerifiable (physics : Physics ℝ) (s : Solid ℝ) (tag : QuantityTag) (p : Point ℝ)
    (config : CheckConfig ℝ) (outcome : CheckResult ℝ → Prop) : Prop where
  exists_values : ∃ values, quantityValues (modelOf physics s) tag p #[] = .ok values
    ∧ HasExactDesign physics s config.stepSize
      (fun _ => addQuantityDesignSens (modelOf physics s) tag 1 p #[]
        (quantityWeights values.length))
      (weightedQuantity · tag #[] (quantityWeights values.length) p)
  exists_state : ∃ result,
    checkQuantitySens (modelOf physics s) tag p #[] config = .ok result ∧ outcome result

variable {physics : Physics ℝ} {s : Solid ℝ} {p : Point ℝ} {config : CheckConfig ℝ}
  {outcome : CheckResult ℝ → Prop}

/-- The design derivative that is checked is the one by the thickness, for the weights of the
check. -/
theorem ElementModel.IsExactByThickness.hasExactDesign {tag : QuantityTag} {n : ℕ}
    {q : Solid ℝ → Fin n → ℝ} (h : IsExactByThickness (modelOf physics) tag p #[] q) (step : ℝ) :
    HasExactDesign physics s step
      (fun _ => addQuantityDesignSens (modelOf physics s) tag 1 p #[] (quantityWeights n))
      (weightedQuantity · tag #[] (quantityWeights n) p) where
  active := by
    intro index hs
    obtain ⟨D, hadd, hD⟩ := h.active s index hs 1 (quantityWeights n) (size_quantityWeights n)
    refine ⟨D, _, _, ?_, weightedQuantity_of_ok (h.quantityValues_eq _),
      weightedQuantity_of_ok (h.quantityValues_eq _), ?_⟩
    · rw [hadd, Solid.addFirst_zero]
    · rw [hD, one_mul, weighted_sub]
  inactive := fun hs =>
    ⟨_, h.inactive s hs 1 (quantityWeights n) (size_quantityWeights n) 0 _⟩

/-- **What is evaluated can be verified**, if its design derivative is exact. The check along the
state finds nothing if what is evaluated is exact along the state, too. -/
theorem IsVerifiable.of_derivatives {tag : QuantityTag} {place : Point ℝ}
    {data : PointData (dims (modelOf physics s)) ℝ} {n : ℕ}
    {q : (dims (modelOf physics s)).Values → Fin n → ℝ}
    {gradient : Array ℝ → (dims (modelOf physics s)).Values → (dims (modelOf physics s)).Values}
    {r : Solid ℝ → Fin n → ℝ} (hstate : Evaluates (modelOf physics s) tag place #[] q gradient)
    (hdesign : IsExactByThickness (modelOf physics) tag (data.pointAt place) #[] r)
    (hstep : config.stepSize ≠ 0) (hr : 0 ≤ config.rtol) (ha : 0 ≤ config.atol) :
    IsVerifiable physics s tag (data.pointAt place) config fun result =>
      (∀ dfdq u, HasGradient (fun u => weighted dfdq (q u)) u (gradient dfdq u))
        → result.IsExact where
  exists_values := by
    refine ⟨_, hstate.quantityValues_eq data, ?_⟩
    rw [List.length_ofFn]
    exact hdesign.hasExactDesign config.stepSize
  exists_state := hstate.exists_checkQuantitySens data hstep hr ha

omit [Waves] in
/-- The checks of a quantity that the element knows. -/
theorem keeps_verifyQuantity_of_supported {α M : Type} [Scalar α] [ElementModel M α] {model : M}
    {p : Point α} {config : CheckConfig α} {tag : QuantityTag} {state : CheckResult α}
    {P : CheckResult α → Prop} (hsupports : supports model tag p = .ok true)
    (hstate : checkQuantitySens model tag p #[] config = .ok state)
    (hdesign : Keeps (checkQuantityDesignSens tag p #[] config) model P) (name : String)
    (registry : Registry) :
    Keeps (verifyQuantity name p registry config tag) model fun checks => ∃ design, P design
      ∧ checks = [{ state with name := registry.label tag ++ " state sensitivity" },
        { design with name := registry.label tag ++ " design sensitivity" }] := by
  unfold verifyQuantity
  refine keeps_subject.bind ?_
  rintro _ rfl
  refine (keeps_liftM hsupports).bind ?_
  rintro _ rfl
  rw [if_pos rfl]
  refine (keeps_liftM hstate).bind ?_
  rintro _ rfl
  refine (keeps_reported (P := (· = _)) rfl).bind ?_
  rintro _ rfl
  exact hdesign.bind fun design hP => keeps_pure ⟨design, hP, rfl⟩

/-- The checks of a quantity that is verified. -/
theorem IsVerifiable.keeps_verifyQuantity {tag : QuantityTag}
    (h : IsVerifiable physics s tag p config outcome) (hstep : config.stepSize ≠ 0)
    (hr : 0 ≤ config.rtol) (ha : 0 ≤ config.atol) (name : String) (registry : Registry) :
    Keeps (verifyQuantity name p registry config tag) (modelOf physics s) fun checks =>
      ∃ state design : CheckResult ℝ,
        checks = [{ state with name := registry.label tag ++ " state sensitivity" },
          { design with name := registry.label tag ++ " design sensitivity" }]
        ∧ outcome state ∧ design.IsExact := by
  obtain ⟨values, hvalues, hdesign⟩ := h.exists_values
  obtain ⟨state, hstate, hout⟩ := h.exists_state
  have hsupports : supports (modelOf physics s) tag p = .ok true := by
    unfold supports
    rw [hvalues]
  have hcheck : Keeps (checkQuantityDesignSens tag p #[] config) (modelOf physics s)
      CheckResult.IsExact := by
    unfold checkQuantityDesignSens
    refine keeps_subject.bind ?_
    rintro _ rfl
    refine (keeps_liftM hvalues).bind ?_
    rintro _ rfl
    exact hdesign.keeps_comparison hstep hr ha _
  refine (keeps_verifyQuantity_of_supported hsupports hstate hcheck name registry).imp ?_
  rintro checks ⟨design, hexact, hchecks⟩
  exact ⟨state, design, hchecks, hout, hexact⟩

omit [Waves] in
/-- The checks of a quantity that the element does not know. -/
theorem keeps_verifyQuantity_of_unsupported {α : Type} [Scalar α] {physics : Physics α}
    {s : Solid α} {p : Point α} {config : CheckConfig α} {tag : QuantityTag}
    (h : quantityValues (modelOf physics s) tag p #[] = .error (.unsupportedQuantity tag))
    (name : String) (registry : Registry) :
    Keeps (verifyQuantity name p registry config tag) (modelOf physics s) (· = []) := by
  have hsupports : supports (modelOf physics s) tag p = .ok false := by
    unfold supports
    rw [h]
  unfold verifyQuantity
  refine keeps_subject.bind ?_
  rintro _ rfl
  refine (keeps_liftM hsupports).bind ?_
  rintro _ rfl
  rw [if_neg (Bool.false_ne_true)]
  exact (keeps_note _).bind fun _ _ => keeps_pure rfl

end WeakForm
