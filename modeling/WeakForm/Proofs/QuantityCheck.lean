import WeakForm.Proofs.Comparison
import WeakForm.Proofs.JacobianCheck

/-!
# The check of a quantity

The derivative of a quantity with respect to the state is checked entry by entry: each entry of the
position, of the values by time and of the values by space is shifted on its own. Behind these three
loops there is one statement (`HasGradient`): along **any** direction, the central difference of the
quantity is the pairing of the direction with its gradient. The loops are the directions of the
entries, and a quantity does not see the position, so the check of such a gradient finds nothing.
-/

namespace WeakForm

open Dims ElementModel

/-! ## Entries as directions -/

namespace PointData

variable {d : Dims}

/-- Shifting one of the values by time. -/
theorem set_ut (data : PointData d ℝ) (i : Fin d.utLen) (t : ℝ) :
    { data with ut := data.ut.set i (data.ut.get i + t) i.isLt }
      = ofValues data.x (data.values + t • (Pi.single i 1, 0)) :=
  congrArg₂ (PointData.mk data.x) (set_get_add data.ut i t) (ofFn_get_add_zero data.ux t)

/-- Shifting one of the values by space. -/
theorem set_ux (data : PointData d ℝ) (i : Fin d.uxLen) (t : ℝ) :
    { data with ux := data.ux.set i (data.ux.get i + t) i.isLt }
      = ofValues data.x (data.values + t • (0, Pi.single i 1)) :=
  congrArg₂ (PointData.mk data.x) (ofFn_get_add_zero data.ut t) (set_get_add data.ux i t)

end PointData

/-- **A gradient of a quantity** at given values: along any direction, the central difference of the
quantity is the pairing of the direction with it. -/
def HasGradient {d : Dims} (Q : d.Values → ℝ) (u gradient : d.Values) : Prop :=
  ∀ du t, Q (u + t • du) - Q (u + (-t) • du)
    = 2 * t * (∑ i, gradient.1 i * du.1 i + ∑ i, gradient.2 i * du.2 i)

/-- A quantity that does not depend on the state has no gradient. -/
theorem hasGradient_const {d : Dims} (q : ℝ) (u : d.Values) : HasGradient (fun _ => q) u 0 := by
  intro du t
  simp

/-! ## The loops over the entries -/

section Loops

variable [Waves]

/-- The quotients of a function along each entry of a vector. -/
noncomputable def quotients {n : ℕ} (step : ℝ) (v : Vector ℝ n) (g : Vector ℝ n → ℝ) : List ℝ :=
  (List.finRange n).map fun i : Fin n =>
    differenceQuotient step (g (v.set i (v.get i + step) i.isLt))
      (g (v.set i (v.get i - step) i.isLt))

theorem differencesAlong_eq_quotients {n : ℕ} (v : Vector ℝ n) (step : ℝ)
    {ask : Array ℝ → Except ε ℝ} {g : Vector ℝ n → ℝ}
    (hask : ∀ w : Vector ℝ n, ask w.toArray = .ok (g w)) :
    differencesAlong step v.toArray ask = .ok (quotients step v g) := by
  -- the loop works on an array, whose length has to be that of the vector by definition
  obtain ⟨values, rfl⟩ := v
  unfold differencesAlong quotients
  refine mapM_of_ok fun i _ => ?_
  have hplus : ask (values.set i (values[i] + step)) = .ok _ :=
    hask ((Vector.mk values rfl).set i (values[i] + step))
  have hminus : ask (values.set i (values[i] - step)) = .ok _ :=
    hask ((Vector.mk values rfl).set i (values[i] - step))
  rw [hplus, hminus]
  rfl

/-- The quotients of a function with a gradient. -/
theorem quotients_of_gradient {n : ℕ} {v gradient : Vector ℝ n} {step : ℝ} {g : Vector ℝ n → ℝ}
    (hstep : step ≠ 0)
    (hg : ∀ i : Fin n, g (v.set i (v.get i + step) i.isLt) - g (v.set i (v.get i + -step) i.isLt)
      = 2 * step * gradient.get i) : quotients step v g = gradient.toList := by
  unfold quotients
  refine List.ext_getElem (by simp) fun i hi _ => ?_
  have hn : i < n := by simpa using hi
  have hquotient := hg ⟨i, hn⟩
  rw [← sub_eq_add_neg] at hquotient
  rw [List.getElem_map, List.getElem_finRange, differenceQuotient_real,
    div_eq_iff (mul_ne_zero two_ne_zero hstep), Vector.getElem_toList, mul_comm gradient[i]]
  exact hquotient

end Loops

/-! ## The check -/

section Check

variable [Waves] {M : Type} [ElementModel M ℝ] {model : M} {tag : QuantityTag} {place : Point ℝ}
  {data : PointData (dims model) ℝ} {xd : Array ℝ} {config : CheckConfig ℝ}
  {Q : (dims model).Values → ℝ} {gradient : (dims model).Values} {values : List ℝ}

/-- What is written as the derivatives of a quantity with a gradient. -/
def sensOf {d : Dims} (gradient : d.Values) :
    QuantitySens ℝ numCoords (numCoords * numCoords) d.utLen d.uxLen :=
  ⟨Vector.replicate _ 0, Vector.replicate _ 0, Vector.ofFn gradient.1, Vector.ofFn gradient.2⟩

omit [Waves] in
@[simp] theorem QuantitySens.checkLengths_self (d : Dims) :
    checkLengths d numCoords (numCoords * numCoords) d.utLen d.uxLen
      = .ok ⟨⟨rfl, rfl⟩, ⟨rfl, rfl⟩⟩ := by
  simp [checkLengths]

section Written

variable {d : Dims}

omit [Waves] in
theorem ofFn_zero (n : ℕ) : Vector.ofFn (0 : Fin n → ℝ) = Vector.replicate n 0 :=
  Vector.ext fun i hi => by simp

/-- No derivatives at all. -/
theorem sensOf_zero : sensOf (0 : d.Values) = .zero _ _ _ _ := by
  unfold sensOf QuantitySens.zero
  rw [Prod.fst_zero, Prod.snd_zero, ofFn_zero, ofFn_zero]

/-- Derivatives by the values by time. -/
theorem sensOf_ut (dfdut : Vector ℝ d.utLen) :
    sensOf (dfdut.get, 0) = { QuantitySens.zero _ _ d.utLen _ with dfdut } := by
  unfold sensOf QuantitySens.zero
  rw [ofFn_get, ofFn_zero]

/-- Derivatives by the values by space. -/
theorem sensOf_ux (dfdux : Vector ℝ d.uxLen) :
    sensOf (0, dfdux.get) = { QuantitySens.zero _ _ _ d.uxLen with dfdux } := by
  unfold sensOf QuantitySens.zero
  rw [ofFn_get, ofFn_zero]

end Written

/-- **A quantity that is evaluated everywhere can be checked**, and if what is written is its
gradient, the check finds nothing. -/
theorem exists_checkQuantitySens
    (hvalues : quantityValues model tag (data.pointAt place) xd = .ok values)
    (hsens : Evaluation.fill (.zero _ _ _ _)
      (quantitySens model tag (data.pointAt place) xd (quantityWeights values.length))
        = .ok (sensOf gradient))
    (hask : ∀ data : PointData (dims model) ℝ,
      weightedQuantity model tag xd (quantityWeights values.length) (data.pointAt place)
        = .ok (Q data.values))
    (hstep : config.stepSize ≠ 0) (hr : 0 ≤ config.rtol) (ha : 0 ≤ config.atol) :
    ∃ result, checkQuantitySens model tag (data.pointAt place) xd config = .ok result
      ∧ (HasGradient Q data.values gradient → result.IsExact) := by
  have hposition : differencesAlong config.stepSize (data.pointAt place).x
      (fun x => weightedQuantity model tag xd (quantityWeights values.length)
        { data.pointAt place with x })
      = .ok (quotients config.stepSize data.x fun w => Q { data with x := w }.values) :=
    differencesAlong_eq_quotients data.x _ fun w => hask { data with x := w }
  have htime : differencesAlong config.stepSize (data.pointAt place).ut
      (fun ut => weightedQuantity model tag xd (quantityWeights values.length)
        { data.pointAt place with ut })
      = .ok (quotients config.stepSize data.ut fun w => Q { data with ut := w }.values) :=
    differencesAlong_eq_quotients data.ut _ fun w => hask { data with ut := w }
  have hspace : differencesAlong config.stepSize (data.pointAt place).ux
      (fun ux => weightedQuantity model tag xd (quantityWeights values.length)
        { data.pointAt place with ux })
      = .ok (quotients config.stepSize data.ux fun w => Q { data with ux := w }.values) :=
    differencesAlong_eq_quotients data.ux _ fun w => hask { data with ux := w }
  unfold checkQuantitySens
  simp only [hvalues, hsens, hposition, htime, hspace, except_ok_bind, except_pure]
  refine ⟨_, rfl, fun hgradient => ?_⟩
  -- the values at a point do not see its position, so nothing changes along it
  have hx : quotients config.stepSize data.x (fun w => Q { data with x := w }.values)
      = (Vector.replicate 3 0).toList := by
    refine quotients_of_gradient hstep fun i => ?_
    have hzero : (Vector.replicate 3 (0 : ℝ)).get i = 0 := Vector.getElem_replicate _
    rw [hzero, mul_zero]
    exact sub_self _
  have hut : quotients config.stepSize data.ut (fun w => Q { data with ut := w }.values)
      = (Vector.ofFn gradient.1).toList := by
    refine quotients_of_gradient hstep fun i => ?_
    rw [PointData.set_ut, PointData.set_ut, PointData.values_ofValues, PointData.values_ofValues,
      hgradient]
    simp [Pi.single_apply]
  have hux : quotients config.stepSize data.ux (fun w => Q { data with ux := w }.values)
      = (Vector.ofFn gradient.2).toList := by
    refine quotients_of_gradient hstep fun i => ?_
    rw [PointData.set_ux, PointData.set_ux, PointData.values_ofValues, PointData.values_ofValues,
      hgradient]
    simp [Pi.single_apply]
  rw [hx, hut, hux]
  exact CheckResult.isExact_compare_self _ _ hr ha

end Check

end WeakForm
