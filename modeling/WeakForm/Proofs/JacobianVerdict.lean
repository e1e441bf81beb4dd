import WeakForm.Proofs.Conduction
import WeakForm.Proofs.Solid

/-!
# The verdict on a Jacobian

Without tolerance, the check of a Jacobian passes exactly if the reported matrix is the derivative
of the weak form, for every model whose weak form is affine, whatever its dimensions and its pattern
are and whatever the step is. Both directions count: a check that passes too often hides a wrong
derivative, and one that passes too seldom is of no use. Where it does not pass, **the place that it
names is the first one of the largest deviation**, row by row.
-/

namespace WeakForm

open Dims ElementModel

section Affine

variable [Waves] {M : Type} [ElementModel M ℝ] {model : M} {place : Point ℝ}
  {data : PointData (dims model) ℝ} {f : (dims model).Values →ᵃ[ℝ] (dims model).Values} {step : ℝ}

/-- **The check of a Jacobian is sound and complete on affine weak forms.** -/
theorem passed_checkWeakJacobian_iff (hf : IsAffineAt model place data.x f) (hstep : step ≠ 0)
    {pattern : JacobianPattern}
    {filled : Linearization ℝ (dims model).utLen (dims model).uxLen
      ((dims model).jacobianSize * (dims model).jacobianSize)}
    (hjac : weakJacobian model (data.pointAt place) ⟨.zero _ _, Vector.replicate _ 0⟩
      = .ok pattern filled)
    {view : JacobianView ℝ}
    (hview : JacobianView.of? (dims model).jacobianSize pattern filled.jac.toArray = .ok view) :
    ∃ (result : CheckResult ℝ) (J : Matrix (dims model).Slot (dims model).Slot ℝ),
      checkWeakJacobian model (data.pointAt place) ⟨step, 0, 0⟩ = .ok result
        ∧ view.IsDenseOf J
        ∧ (result.passed = true ↔ J = derivative f data.values)
        ∧ (result.passed = false → ∃ r c,
            result.worstIndex = some (position r c)
              ∧ ∀ r' c', |J r' c' - derivative f data.values r' c'|
                    ≤ |J r c - derivative f data.values r c|
                ∧ (position r' c' < position r c →
                    |J r' c' - derivative f data.values r' c'|
                      < |J r c - derivative f data.values r c|)) := by
  obtain ⟨differences, hstored, hcheck⟩ :=
    checkWeakJacobian_of_affine hf (show (CheckConfig.mk step 0 0).stepSize ≠ 0 from hstep) hjac
      hview
  have hsize : view.size = (dims model).jacobianSize := by rw [JacobianView.of?_eq_ok hview]
  obtain ⟨J, hJ⟩ := view.exists_isDenseOf hsize
  -- the errors of the comparison are themselves stored as a matrix over the slots
  have herr := (hJ.isStored hsize).errors hstored
  have hworst := Deviation.isWorst_ofErrors (CheckResult.errors view.toDense.toList differences)
  have hlen : view.toDense.toList.length = differences.length := by
    rw [(hJ.isStored hsize).length_eq, hstored.length_eq]
  refine ⟨_, J, hcheck, hJ, ?_, ?_⟩
  · rw [CheckResult.passed_compare_iff _ _ hlen]
    constructor
    · intro h0
      ext r c
      have hle := hworst.le_error _ (List.mem_of_getElem? (herr.getElem? r c))
      rw [h0] at hle
      exact sub_eq_zero.mp (abs_nonpos_iff.mp hle)
    · rintro rfl
      rw [Deviation.ofErrors_eq_zero (fun e he => ?_)]
      · rfl
      · obtain ⟨i, hi⟩ := List.getElem?_of_mem he
        obtain ⟨r, c, -, rfl⟩ := herr.exists_of_getElem? hi
        rw [sub_self, abs_zero]
  · intro hfail
    -- a check that fails has met an error, and names the place of the worst
    cases hi : (Deviation.ofErrors (CheckResult.errors view.toDense.toList differences)).index with
    | none =>
      have hpass := (CheckResult.passed_compare_iff "weak jacobian" step hlen).mpr
        (hworst.error_of_none hi)
      exact absurd hpass (by rw [hfail]; exact Bool.false_ne_true)
    | some i =>
      obtain ⟨r, c, rfl, hrc⟩ := herr.exists_of_getElem? (hworst.getElem?_of_some i hi)
      refine ⟨r, c, hi, fun r' c' => ⟨?_, fun hlt => ?_⟩⟩
      · rw [hrc]
        exact hworst.le_error _ (List.mem_of_getElem? (herr.getElem? r' c'))
      · rw [hrc]
        exact hworst.lt_of_lt _ hi _ hlt _ (herr.getElem? r' c')

end Affine

/-! ## A verdict -/

/-- Conduction in a solid reports its derivative, so the check of it passes. -/
theorem passed_checkWeakJacobian_sample : ∃ result,
    checkWeakJacobian (⟨.sample⟩ : Conductor (Solid ℝ))
        (PointData.pointAt (d := Conductor.dims) ⟨#v[0, 0, 0], #v[1, 2, 3], #v[4, 5, 6]⟩
          ⟨0, 0, 0, #[], #[], #[], #[]⟩) ⟨1, 0, 0⟩ = .ok result
      ∧ result.passed = true := by
  let data : PointData Conductor.dims ℝ := ⟨#v[0, 0, 0], #v[1, 2, 3], #v[4, 5, 6]⟩
  have hk : (⟨.sample⟩ : Conductor (Solid ℝ)).conduction
      (PointData.siteAt data.x ⟨0, 0, 0, #[], #[], #[], #[]⟩)
        = .ok (.ofVector
          (Solid.sample.response.conduction.scale Solid.sample.thickness).toVector) := by
    unfold Conductor.conduction
    rw [fill_of_ok (Solid.tangentConduction_apply _ _ _)]
    rfl
  have hlin := Conductor.isLinearization hk
  obtain ⟨g, hg, hderiv⟩ := hlin.exists_isAffineAt
  obtain ⟨jac, view, hjac, hview, hdense⟩ := hlin.weakJacobian_eq data.values
    (Conductor.dims.jacobianSize * Conductor.dims.jacobianSize) ⟨.zero _ _, Vector.replicate _ 0⟩
    (show Conductor.pattern.length ≤ 5 * 5 by decide)
  rw [show PointData.ofValues (d := Conductor.dims) data.x data.values = data from
    PointData.ofValues_values data] at hjac
  obtain ⟨result, J, hcheck, hJ, hiff, -⟩ :=
    passed_checkWeakJacobian_iff hg one_ne_zero hjac hview
  exact ⟨result, hcheck, hiff.mpr ((hJ.unique hdense).trans (hderiv _).symm)⟩

end WeakForm
