import Mathlib
import WeakForm.Case.Build
import WeakForm.Proofs.AdjointProduct
import WeakForm.Proofs.Comparison
import WeakForm.Proofs.Outcomes

/-!
# Working on a model and leaving it as it was

A check along the design variables sets them, asks the model, and sets them back. Seen from outside
nothing has happened to the model: **shifting the thickness of a solid keeps what is made of it**
(`Work.Keeps`), and the answer is that of the same model with another thickness
(`StoresThickness.keeps_shifted`).

A derivative that is the central difference of the answers (`HasExactDesign`) is then found exact by
the check, in whatever way both were computed.
-/

namespace WeakForm

open ElementModel

/-! ## The thickness of a solid -/

open Work ElementEntry

section Shift

variable {α σ : Type} [Scalar α] {set : Array α → Work (ModelError α) σ α Unit}
  {make : Solid α → σ} {s : Solid α} {index elem : ℕ}

/-- **What is made of a solid stores its thickness** as it is set. -/
def StoresThickness (set : Array α → Work (ModelError α) σ α Unit) (make : Solid α → σ) : Prop :=
  ∀ s index, s.designVar = some index → ∀ t journal, ∃ journal',
    set #[t] ⟨make s, journal⟩ = .ok () ⟨make { s with thickness := t }, journal'⟩

/-- Setting the thickness of a model that is made of a solid. -/
theorem storesThickness_modelOf (physics : Physics α) (elem : ℕ) :
    StoresThickness (setDesignVars elem) (modelOf physics) := by
  intro s index hs t journal
  obtain ⟨journal', hsolid⟩ := Solid.exists_setDesignVars hs t journal
  refine ⟨journal', ?_⟩
  cases physics with
  | elasticity thermalLoad =>
    exact SolidModel.setDesignVars_elasticity
      (onPart_of_ok Elasticity.law (fun law e => { e with law }) ⟨s, thermalLoad⟩ hsolid)
  | conduction =>
    exact SolidModel.setDesignVars_conduction
      (onPart_of_ok Conductor.law (fun law c => { c with law }) ⟨s⟩ hsolid)

/-- The design variables of a model that is made of a solid: its thickness, or none. -/
theorem designVarValues_of_some {physics : Physics α} (hs : s.designVar = some index) :
    designVarValues (modelOf physics s) elem = .ok #[s.thickness] := by
  obtain ⟨material, t, designVar, lower, upper⟩ := s
  cases hs
  cases physics <;> rfl

theorem designVarValues_of_none {physics : Physics α} (hs : s.designVar = none) :
    designVarValues (modelOf physics s) elem = .ok #[] := by
  obtain ⟨material, t, designVar, lower, upper⟩ := s
  cases hs
  cases physics <;> rfl

/-- **Shifting the thickness keeps what is made of the solid.** -/
theorem StoresThickness.keeps_shifted {β : Type} (h : StoresThickness set make)
    (hs : s.designVar = some index) {delta : α} {ask : σ → Except (ModelError α) β} {answer : β}
    (hask : ask (make { s with thickness := s.thickness + delta }) = .ok answer) :
    Keeps (shifted set #[s.thickness] 0 delta ask) (make s) (· = answer) := by
  intro journal
  obtain ⟨journal', hset⟩ := h s index hs (s.thickness + delta) journal
  -- between the two settings the subject is that of the shifted thickness
  obtain ⟨journal'', hback⟩ :=
    h { s with thickness := s.thickness + delta } index hs s.thickness journal'
  refine ⟨answer, journal'', ?_, rfl⟩
  unfold shifted
  have hbase : (#[s.thickness] : Array α).modify 0 (· + delta) = #[s.thickness + delta] := rfl
  rw [hbase, bind_of_ok hset]
  have hsubject : (subject : Work (ModelError α) σ α σ)
      ⟨make { s with thickness := s.thickness + delta }, journal'⟩ = .ok _ ⟨_, journal'⟩ := rfl
  rw [bind_of_ok hsubject, bind_of_ok hback, hask]
  rfl

/-- The quotient along the thickness. -/
theorem StoresThickness.keeps_designDifferences (h : StoresThickness set make)
    (hs : s.designVar = some index) {step plus minus : α} {ask : σ → Except (ModelError α) α}
    (hplus : ask (make { s with thickness := s.thickness + step }) = .ok plus)
    (hminus : ask (make { s with thickness := s.thickness + -step }) = .ok minus) :
    Keeps (designDifferences set #[s.thickness] step ask) (make s)
      (· = [differenceQuotient step plus minus]) := by
  unfold designDifferences
  show Keeps ([0].mapM _) _ _
  rw [List.mapM_cons]
  refine Keeps.bind (P := (· = differenceQuotient step plus minus)) ?_ ?_
  · refine (h.keeps_shifted hs hplus).bind ?_
    rintro _ rfl
    refine (h.keeps_shifted hs hminus).bind ?_
    rintro _ rfl
    exact keeps_pure rfl
  · rintro _ rfl
    exact keeps_pure rfl

end Shift

variable [Waves] {physics : Physics ℝ} {s : Solid ℝ} {index elem : ℕ}

/-! ## Checks along the thickness -/

/-- **An exact design derivative**: what is added to the sensitivity of the thickness is the central
difference of the answers. -/
structure HasExactDesign (physics : Physics ℝ) (s : Solid ℝ) (step : ℝ)
    (add : (n : ℕ) → Evaluation ℝ (Vector ℝ n) Unit)
    (ask : SolidModel ℝ → Except (ModelError ℝ) ℝ) : Prop where
  active : ∀ index, s.designVar = some index → ∃ D plus minus,
    add 1 (Vector.replicate 1 0) = .ok () #v[D]
      ∧ ask (modelOf physics { s with thickness := s.thickness + step }) = .ok plus
      ∧ ask (modelOf physics { s with thickness := s.thickness - step }) = .ok minus
      ∧ 2 * step * D = plus - minus
  inactive : s.designVar = none → ∃ b, add 0 (Vector.replicate 0 0) = .ok () b

/-- **The comparison along the thickness finds nothing** if the derivative is exact. -/
theorem HasExactDesign.keeps_comparison {config : CheckConfig ℝ}
    {add : (n : ℕ) → Evaluation ℝ (Vector ℝ n) Unit}
    {ask : SolidModel ℝ → Except (ModelError ℝ) ℝ}
    (h : HasExactDesign physics s config.stepSize add ask) (hstep : config.stepSize ≠ 0)
    (hr : 0 ≤ config.rtol) (ha : 0 ≤ config.atol) (name : String) :
    Keeps (show Work (ModelError ℝ) (SolidModel ℝ) ℝ (CheckResult ℝ) from do
        let base ← designVarValues (modelOf physics s) elem
        let analytic ← Evaluation.fill (Vector.replicate base.size 0) (add base.size)
        let differences ← designDifferences (setDesignVars elem) base config.stepSize ask
        reported (.compare name analytic.toList differences config))
      (modelOf physics s) CheckResult.IsExact := by
  cases hs : s.designVar with
  | none =>
    obtain ⟨b, hadd⟩ := h.inactive hs
    refine (keeps_liftM (designVarValues_of_none hs)).bind ?_
    rintro _ rfl
    refine (keeps_liftM (fill_of_ok hadd)).bind fun analytic _ => ?_
    refine Keeps.bind (P := (· = [])) (keeps_pure rfl) ?_
    rintro _ rfl
    -- without design variables nothing is compared with nothing
    have hempty : analytic.toList = [] := List.eq_nil_of_length_eq_zero analytic.length_toList
    rw [hempty]
    exact keeps_reported (CheckResult.isExact_compare_self _ _ hr ha)
  | some index =>
    obtain ⟨D, plus, minus, hadd, hplus, hminus, hD⟩ := h.active index hs
    refine (keeps_liftM (designVarValues_of_some hs)).bind ?_
    rintro _ rfl
    refine (keeps_liftM (fill_of_ok hadd)).bind ?_
    rintro _ rfl
    rw [sub_eq_add_neg] at hminus
    refine ((storesThickness_modelOf physics elem).keeps_designDifferences hs hplus hminus).bind ?_
    rintro _ rfl
    have hquotient : differenceQuotient config.stepSize plus minus = D := by
      rw [differenceQuotient_real, ← hD]
      field_simp
    rw [hquotient]
    exact keeps_reported (CheckResult.isExact_compare_self _ [D] hr ha)

/-- The check of an exact adjoint product finds nothing. -/
theorem keeps_checkWeakAdjoint {p : Point ℝ} {psi psix : Array ℝ} {config : CheckConfig ℝ}
    (h : HasExactAdjoint (modelOf physics) p psi psix 1) (hstep : config.stepSize ≠ 0)
    (hr : 0 ≤ config.rtol) (ha : 0 ≤ config.atol) :
    Keeps (checkWeakAdjoint p psi psix config) (modelOf physics s) CheckResult.IsExact := by
  have hdesign : HasExactDesign physics s config.stepSize
      (fun n => addWeakAdjoint (modelOf physics s) p psi psix 1)
      (fun model => adjointResidual model p psi psix) := by
    constructor
    · intro index hs
      obtain ⟨D, hadd, hdiff⟩ := h.active s index hs
      obtain ⟨plus, minus, hplus, hminus, hD⟩ := hdiff config.stepSize
      refine ⟨D, plus, minus, ?_, hplus, hminus, by rw [hD, one_mul]⟩
      rw [hadd 0, Solid.addFirst_zero]
    · exact fun hs => ⟨_, h.inactive s hs 0 _⟩
  unfold checkWeakAdjoint
  refine keeps_subject.bind ?_
  rintro _ rfl
  exact hdesign.keeps_comparison hstep hr ha _

/-- The adjoint product of a model that is made of a solid is exact. -/
theorem hasExactAdjoint_modelOf (physics : Physics ℝ) (place : Point ℝ)
    (data : PointData (dims (modelOf physics s)) ℝ)
    (a : AdjointData (dims (modelOf physics s)) ℝ) (scale : ℝ) :
    HasExactAdjoint (modelOf physics) (data.pointAt place) a.psi.toArray a.psix.toArray scale := by
  cases physics with
  | elasticity thermalLoad =>
    have h := Elasticity.hasExactAdjoint place scale thermalLoad data a
    exact ⟨h.active, h.inactive⟩
  | conduction =>
    have h := Conductor.hasExactAdjoint place scale data a
    exact ⟨h.active, h.inactive⟩

end WeakForm
