import WeakForm.Proofs.AdjointProduct
import WeakForm.Proofs.QuantityCheck

/-!
# Exact derivatives of a quantity

A quantity is differentiated in two ways. By the state at a point there is one derivative for each
entry of the position, of the values by time and of the values by space, and they are written over
whatever the buffers hold. By the thickness of the solid there is one derivative, which is added to
what the buffer holds. The values of the quantity are weighted, with weights that the caller
chooses.

Both derivatives are exact in the same sense: **a central difference of the weighted values, with
any step, is twice the step times the derivative** along the direction of the difference
(`IsExactByState`, `IsExactByThickness`). The direction by state is any direction at all, and the
thickness is any thickness. For the state, values and derivatives are evaluated apart from each
other, so what is evaluated comes first (`Evaluates`), and that one is the gradient of the other is
left as a statement about functions.
-/

namespace WeakForm

open Dims ElementModel

/-! ## Directions -/

section Directions

variable {d : Dims}

/-- The data of a point moved in a direction, which has a position and values of its own. -/
noncomputable def PointData.move (data direction : PointData d ℝ) (h : ℝ) : PointData d ℝ where
  x := Vector.zipWith (· + h * ·) data.x direction.x
  ut := Vector.zipWith (· + h * ·) data.ut direction.ut
  ux := Vector.zipWith (· + h * ·) data.ux direction.ux

theorem PointData.values_move (data direction : PointData d ℝ) (h : ℝ) :
    (data.move direction h).values = data.values + h • direction.values := by
  refine Prod.ext (funext fun i => ?_) (funext fun i => ?_)
  · simp [move, values, Vector.get_eq_getElem]
  · simp [move, values, Vector.get_eq_getElem]

/-- **The pairing of derivatives with a direction.** -/
noncomputable def QuantitySens.pairing
    (g : QuantitySens ℝ numCoords (numCoords * numCoords) d.utLen d.uxLen)
    (direction : PointData d ℝ) : ℝ :=
  ∑ i : Fin 3, g.dfdx.get i * direction.x.get i + ∑ i, g.dfdut.get i * direction.ut.get i
    + ∑ i, g.dfdux.get i * direction.ux.get i

/-- A gradient by the values at a point does not meet the position of a direction. -/
theorem pairing_sensOf (gradient : d.Values) (direction : PointData d ℝ) :
    (sensOf gradient).pairing direction
      = ∑ i, gradient.1 i * direction.values.1 i + ∑ i, gradient.2 i * direction.values.2 i := by
  have hx : ∑ i : Fin 3, (sensOf gradient).dfdx.get i * direction.x.get i = 0 := by
    refine Finset.sum_eq_zero fun i _ => ?_
    rw [show (sensOf gradient).dfdx.get i = 0 from Vector.getElem_replicate _, zero_mul]
  unfold QuantitySens.pairing
  rw [hx, zero_add]
  simp only [sensOf, get_ofFn]
  rfl

theorem pairing_sensOf_smul (c : ℝ) (gradient : d.Values) (direction : PointData d ℝ) :
    (sensOf (c • gradient)).pairing direction = c * (sensOf gradient).pairing direction := by
  rw [pairing_sensOf, pairing_sensOf]
  simp only [Prod.smul_fst, Prod.smul_snd, Pi.smul_apply, smul_eq_mul, mul_assoc,
    ← Finset.mul_sum, ← mul_add]

/-- Along a direction, a quantity with a gradient changes by its pairing with the direction. -/
theorem HasGradient.sub_move {Q : d.Values → ℝ} {data : PointData d ℝ} {gradient : d.Values}
    (h : HasGradient Q data.values gradient) (direction : PointData d ℝ) (t : ℝ) :
    Q (data.move direction t).values - Q (data.move direction (-t)).values
      = 2 * t * (sensOf gradient).pairing direction := by
  rw [PointData.values_move, PointData.values_move, h, pairing_sensOf]

/-- A multiple of a quantity has the multiple of its gradient. -/
theorem HasGradient.const_mul {Q : d.Values → ℝ} {u gradient : d.Values}
    (h : HasGradient Q u gradient) (c : ℝ) :
    HasGradient (fun u => c * Q u) u (c • gradient) := by
  intro du t
  rw [← mul_sub, h du t]
  simp only [Prod.smul_fst, Prod.smul_snd, Pi.smul_apply, smul_eq_mul, mul_assoc,
    ← Finset.mul_sum, ← mul_add]
  ring

end Directions

/-! ## Weights -/

/-- Values summed with weights; a value without a weight counts for nothing. -/
noncomputable def weighted {n : ℕ} (weights : Array ℝ) (q : Fin n → ℝ) : ℝ :=
  ∑ j : Fin n, weights.getD j 0 * q j

theorem weighted_one (weights : Array ℝ) (q : Fin 1 → ℝ) :
    weighted weights q = weights.getD 0 0 * q 0 := by
  unfold weighted
  rw [Fin.sum_univ_one]
  rfl

theorem weighted_two (weights : Array ℝ) (q : Fin 2 → ℝ) :
    weighted weights q = weights.getD 0 0 * q 0 + weights.getD 1 0 * q 1 := by
  unfold weighted
  rw [Fin.sum_univ_two]
  rfl

theorem weighted_sub {n : ℕ} (weights : Array ℝ) (q r : Fin n → ℝ) :
    weighted weights (q - r) = weighted weights q - weighted weights r := by
  unfold weighted
  rw [← Finset.sum_sub_distrib]
  exact Finset.sum_congr rfl fun j _ => mul_sub _ _ _

theorem weighted_smul {n : ℕ} (weights : Array ℝ) (c : ℝ) (q : Fin n → ℝ) :
    weighted weights (c • q) = c * weighted weights q := by
  unfold weighted
  rw [Finset.mul_sum]
  exact Finset.sum_congr rfl fun j _ => mul_left_comm _ _ _

/-- The inner product of values with weights, of which there are enough. -/
theorem dot_ofFn [Waves] {n : ℕ} {weights : Array ℝ} (h : n ≤ weights.size) (q : Fin n → ℝ) :
    Scalar.dot (List.ofFn q) weights.toList = weighted weights q := by
  unfold Scalar.dot weighted
  rw [Scalar.sum_real, ← List.sum_ofFn]
  refine congrArg List.sum (List.ext_getElem (by simpa using h) fun i hi _ => ?_)
  have hw : i < weights.size := by
    simp only [List.length_zipWith, List.length_ofFn, Array.length_toList] at hi
    omega
  rw [List.getElem_zipWith, List.getElem_ofFn, List.getElem_ofFn, Array.getElem_toList,
    Array.getD_eq_getD_getElem?, Array.getElem?_eq_getElem hw, Option.getD_some, mul_comm]

/-- There is a weight for each value. -/
theorem size_quantityWeights {α : Type} [Scalar α] (n : ℕ) :
    n ≤ (quantityWeights n : Array α).size := by
  simp [quantityWeights]

/-! ## Values -/

section Values

variable {α M : Type} [Scalar α] [ElementModel M α] {model : M} {tag : QuantityTag} {p : Point α}
  {xd : Array α}

/-- The values of a quantity are what has been written for it. -/
theorem quantityValues_of_written {n : ℕ} {written : Vector α QuantityTag.maxLength}
    (h : quantity model tag p xd (Vector.replicate QuantityTag.maxLength 0) = .ok n written) :
    quantityValues model tag p xd = .ok (written.toList.take n) := by
  unfold quantityValues
  dsimp only
  rw [answer_of_ok h]
  rfl

/-- An error of a quantity is an error of its values. -/
theorem quantityValues_of_error {e : ModelError α} {s' : Vector α QuantityTag.maxLength}
    (h : quantity model tag p xd (Vector.replicate QuantityTag.maxLength 0) = .error e s') :
    quantityValues model tag p xd = .error e := by
  unfold quantityValues
  dsimp only
  rw [answer_of_error h]
  rfl

/-- A weighted quantity is the sum of its values with the weights. -/
theorem weightedQuantity_of_ok [Waves] {M : Type} [ElementModel M ℝ] {model : M} {p : Point ℝ}
    {xd : Array ℝ} {n : ℕ} {q : Fin n → ℝ}
    (h : quantityValues model tag p xd = .ok (List.ofFn q)) :
    weightedQuantity model tag xd (quantityWeights n) p = .ok (weighted (quantityWeights n) q) := by
  unfold weightedQuantity
  rw [h, ← dot_ofFn (size_quantityWeights n)]
  rfl

end Values

/-! ## Exactness by state -/

section State

variable [Waves] {M : Type} [ElementModel M ℝ]

/-- **What a model evaluates for a quantity** at a place: the values `q`, and for given weights the
derivatives `gradient`, written over whatever the buffers hold. -/
structure ElementModel.Evaluates (model : M) (tag : QuantityTag) (place : Point ℝ) (xd : Array ℝ)
    {n : ℕ} (q : (dims model).Values → Fin n → ℝ)
    (gradient : Array ℝ → (dims model).Values → (dims model).Values) : Prop where
  quantityValues_eq : ∀ data : PointData (dims model) ℝ,
    quantityValues model tag (data.pointAt place) xd = .ok (List.ofFn (q data.values))
  quantitySens_eq : ∀ (data : PointData (dims model) ℝ) (dfdq : Array ℝ), n ≤ dfdq.size →
    ∀ buffers, quantitySens model tag (data.pointAt place) xd dfdq buffers
      = .ok () (sensOf (gradient dfdq data.values))

/-- A law of differences: it relates the weights, the values at a point, those above and below it,
and the change that the derivative predicts, which is twice the step times the derivative along the
direction. -/
abbrev DifferenceLaw (n : ℕ) : Type :=
  Array ℝ → (Fin n → ℝ) → (Fin n → ℝ) → (Fin n → ℝ) → ℝ → Prop

/-- The values change as predicted. -/
def DifferenceLaw.linear (n : ℕ) : DifferenceLaw n := fun weights _ up down change =>
  weighted weights (up - down) = change

/-- The square of the value changes by twice the value times what is predicted for the value. **This
asks for nothing where the value is zero**, but that its square grows evenly to both sides. -/
def DifferenceLaw.square : DifferenceLaw 1 := fun weights q up down change =>
  ∀ i : Fin 1, weights.getD i 0 * (up i ^ 2 - down i ^ 2) = (q i + q i) * change

/-- **Exact derivatives by state**: at every point the quantity has values, and the derivatives that
are written for given weights, whatever the buffers hold, obey the law of differences along every
direction and for every step. None is written for the derivatives of the position. -/
structure ElementModel.IsExactByState (model : M) (tag : QuantityTag) (place : Point ℝ)
    (xd : Array ℝ) {n : ℕ} (law : DifferenceLaw n) (q : PointData (dims model) ℝ → Fin n → ℝ) :
    Prop where
  quantityValues_eq : ∀ data : PointData (dims model) ℝ,
    quantityValues model tag (data.pointAt place) xd = .ok (List.ofFn (q data))
  exists_sens : ∀ (data : PointData (dims model) ℝ) (dfdq : Array ℝ), n ≤ dfdq.size → ∃ g,
    (∀ buffers, quantitySens model tag (data.pointAt place) xd dfdq buffers = .ok () g)
      ∧ g.dfdxd = Vector.replicate _ 0
      ∧ ∀ direction h, law dfdq (q data) (q (data.move direction h))
          (q (data.move direction (-h))) (2 * h * g.pairing direction)

variable {model : M} {tag : QuantityTag} {place : Point ℝ} {xd : Array ℝ} {n : ℕ}
  {q : (dims model).Values → Fin n → ℝ}
  {gradient : Array ℝ → (dims model).Values → (dims model).Values}

/-- What is evaluated is exact if it is the gradient of the weighted values. -/
theorem ElementModel.Evaluates.isExactByState (h : Evaluates model tag place xd q gradient)
    (hgradient : ∀ dfdq u, HasGradient (fun u => weighted dfdq (q u)) u (gradient dfdq u)) :
    IsExactByState model tag place xd (.linear n) fun data => q data.values where
  quantityValues_eq := h.quantityValues_eq
  exists_sens := by
    intro data dfdq hn
    refine ⟨_, h.quantitySens_eq data dfdq hn, rfl, fun direction t => ?_⟩
    show weighted dfdq (q _ - q _) = _
    rw [weighted_sub, (hgradient dfdq data.values).sub_move]

/-- What is evaluated for a single value is exact in the square if it is the gradient of the value
wherever its square has one. -/
theorem ElementModel.Evaluates.isExactByState_square {q : (dims model).Values → ℝ}
    {gradient : (dims model).Values → (dims model).Values}
    (h : Evaluates model tag place xd (fun u (_ : Fin 1) => q u)
      fun dfdq u => dfdq.getD 0 0 • gradient u)
    (hgradient : ∀ u, HasGradient (fun u => q u ^ 2) u ((2 * q u) • gradient u)) :
    IsExactByState model tag place xd .square fun data (_ : Fin 1) => q data.values where
  quantityValues_eq := h.quantityValues_eq
  exists_sens := by
    intro data dfdq hn
    refine ⟨_, h.quantitySens_eq data dfdq hn, rfl, fun direction t i => ?_⟩
    obtain rfl : i = 0 := Subsingleton.elim i 0
    show dfdq.getD 0 0 * (q _ ^ 2 - q _ ^ 2) = (q data.values + q data.values) * _
    rw [(hgradient data.values).sub_move, pairing_sensOf_smul, pairing_sensOf_smul]
    ring

/-- **A quantity that is evaluated everywhere can be checked**, and if what is written is its
gradient, the check finds nothing. -/
theorem ElementModel.Evaluates.exists_checkQuantitySens (h : Evaluates model tag place xd q gradient)
    (data : PointData (dims model) ℝ) {config : CheckConfig ℝ} (hstep : config.stepSize ≠ 0)
    (hr : 0 ≤ config.rtol) (ha : 0 ≤ config.atol) :
    ∃ result, checkQuantitySens model tag (data.pointAt place) xd config = .ok result
      ∧ ((∀ dfdq u, HasGradient (fun u => weighted dfdq (q u)) u (gradient dfdq u))
        → result.IsExact) := by
  have hlen : (List.ofFn (q data.values)).length = n := List.length_ofFn
  have hsens := fill_of_ok
    (h.quantitySens_eq data (quantityWeights n) (size_quantityWeights n) (.zero _ _ _ _))
  have hask : ∀ data : PointData (dims model) ℝ,
      weightedQuantity model tag xd (quantityWeights n) (data.pointAt place)
        = .ok (weighted (quantityWeights n) (q data.values)) :=
    fun data => weightedQuantity_of_ok (h.quantityValues_eq data)
  obtain ⟨result, hresult, hexact⟩ := WeakForm.exists_checkQuantitySens
    (Q := fun u => weighted (quantityWeights n) (q u)) (h.quantityValues_eq data)
    (by rwa [hlen]) (by rwa [hlen]) hstep hr ha
  exact ⟨result, hresult, fun hgradient => hexact (hgradient _ _)⟩

end State

/-! ## Exactness by thickness -/

section Thickness

variable [Waves] {M : Type} [ElementModel M ℝ]

/-- **Exact derivatives by thickness** of a quantity of a model that is made of a solid. -/
structure ElementModel.IsExactByThickness (model : Solid ℝ → M) (tag : QuantityTag) (p : Point ℝ)
    (xd : Array ℝ) {n : ℕ} (q : Solid ℝ → Fin n → ℝ) : Prop where
  quantityValues_eq : ∀ s, quantityValues (model s) tag p xd = .ok (List.ofFn (q s))
  /-- If the thickness is a design variable, the derivative is added to the first place. -/
  active : ∀ (s : Solid ℝ) (index : ℕ), s.designVar = some index →
    ∀ (scale : ℝ) (dfdq : Array ℝ), n ≤ dfdq.size → ∃ D,
      (∀ k (b : Vector ℝ (k + 1)),
        addQuantityDesignSens (model s) tag scale p xd dfdq b = .ok () (Solid.addFirst D b))
      ∧ ∀ h, 2 * h * D = scale * weighted dfdq
          (q { s with thickness := s.thickness + h } - q { s with thickness := s.thickness - h })
  /-- If it is none, nothing is added. -/
  inactive : ∀ s : Solid ℝ, s.designVar = none → ∀ (scale : ℝ) (dfdq : Array ℝ), n ≤ dfdq.size →
    ∀ k (b : Vector ℝ k), addQuantityDesignSens (model s) tag scale p xd dfdq b = .ok () b

/-- A derivative is exact if its amount is the weighted slope of values that are affine in the
thickness. -/
theorem ElementModel.IsExactByThickness.of_slope {model : Solid ℝ → M} {tag : QuantityTag}
    {p : Point ℝ} {xd : Array ℝ} {n : ℕ} {q : Solid ℝ → Fin n → ℝ} (slope : Solid ℝ → Fin n → ℝ)
    (hvalues : ∀ s, quantityValues (model s) tag p xd = .ok (List.ofFn (q s)))
    (hadd : ∀ (s : Solid ℝ) (scale : ℝ) (dfdq : Array ℝ), n ≤ dfdq.size →
      ∀ k (b : Vector ℝ k), s.HasPlace k →
        addQuantityDesignSens (model s) tag scale p xd dfdq b
          = .ok () (s.accumulate (scale * weighted dfdq (slope s)) b))
    (hdiff : ∀ (s : Solid ℝ) (h : ℝ), q { s with thickness := s.thickness + h }
      - q { s with thickness := s.thickness - h } = (2 * h) • slope s) :
    IsExactByThickness model tag p xd q where
  quantityValues_eq := hvalues
  active := by
    intro s index hs scale dfdq hn
    refine ⟨scale * weighted dfdq (slope s), fun k b => ?_, fun h => ?_⟩
    · rw [hadd s scale dfdq hn _ b fun _ => Nat.le_add_left 1 k, Solid.accumulate_of_some hs]
    · rw [hdiff, weighted_smul]
      ring
  inactive := by
    intro s hs scale dfdq hn k b
    rw [hadd s scale dfdq hn _ b (Solid.hasPlace_of_none hs k), Solid.accumulate_of_none hs]

end Thickness

end WeakForm
