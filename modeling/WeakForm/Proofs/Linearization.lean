import WeakForm.Proofs.JacobianCheck

/-!
# Exact linearizations

A model gives the coefficients of its weak form and, with another loop, their Jacobian. That the two
belong together is one statement for all models (`IsLinearization`): the coefficients are a function
`f` of the values at the point, the dense form of the reported Jacobian is a matrix `J` over the
slots, and **an increment of the values changes `f` by `J` times the increment**, whatever the
values and the increment are. The values by space have no part in this: no coefficient belongs to
them, and no coefficient depends on them.

Such a weak form is affine, and `J` is its derivative at every point
(`IsLinearization.exists_isAffineAt`). So the check of its Jacobian finds nothing, under any
tolerance.
-/

namespace WeakForm

open Dims ElementModel

/-! ## What a model has written -/

@[simp] theorem Dims.checkCoefficients_self (d : Dims) :
    d.checkCoefficients d.utLen d.uxLen = .ok ⟨rfl, rfl⟩ := by
  simp [Dims.checkCoefficients]

/-- Evaluating the coefficients of a linearization leaves its Jacobian alone. -/
theorem Linearization.onCoefficients_of_ok {α β : Type} {n m k : ℕ}
    {evaluation : Evaluation α (Coefficients α n m) β} (buffers : Linearization α n m k)
    {c : Coefficients α n m} {b : β} (h : evaluation buffers.coefficients = .ok b c) :
    onCoefficients evaluation buffers = .ok b ⟨c, buffers.jac⟩ := by
  unfold onCoefficients
  rw [h]

/-- Values that were written from the first place on are read back from there. -/
theorem take_overwrite {α : Type} {n : ℕ} (buffer : Vector α n) {values : Array α}
    (h : values.size ≤ n) : (overwrite buffer 0 values).toArray.take values.size = values := by
  refine Array.ext (by simpa using h) (fun i _ hi => ?_)
  simp [overwrite, Array.getElem?_eq_getElem hi]

/-- The entries of a pattern and of its values, listed by their slots. -/
theorem JacobianView.entries_of_listed {d : Dims} (listed : List (d.Slot × d.Slot × ℝ)) (size : ℕ) :
    entries ⟨size, .sparse (listed.map fun e => (rowIndex e.1, rowIndex e.2.1)),
        (listed.map (·.2.2)).toArray⟩
      = listed.map fun e => (rowIndex e.1, rowIndex e.2.1, e.2.2) := by
  unfold entries JacobianPattern.cells
  dsimp only
  rw [List.zipWith_map, List.zipWith_self]

/-- **Listed entries that were written to a buffer are the dense form of what is read from it.** -/
theorem JacobianView.exists_of?_listed [Waves] {d : Dims} (listed : List (d.Slot × d.Slot × ℝ))
    {pairs : List (ℕ × ℕ)} {values : List ℝ}
    (hpairs : pairs = listed.map fun e => (rowIndex e.1, rowIndex e.2.1))
    (hvalues : values = listed.map (·.2.2)) {k : ℕ} (hk : pairs.length ≤ k) (buffer : Vector ℝ k) :
    ∃ view, of? d.jacobianSize (.sparse pairs) (overwrite buffer 0 values.toArray).toArray
        = .ok view
      ∧ view.IsDenseOf (listedMatrix listed) := by
  have hlen : values.toArray.size = pairs.length := by simp [hpairs, hvalues]
  have hin : ∀ p ∈ pairs, p.1 < d.jacobianSize ∧ p.2 < d.jacobianSize := by
    intro p hp
    rw [hpairs] at hp
    obtain ⟨e, -, rfl⟩ := List.mem_map.mp hp
    exact ⟨rowIndex_lt _, rowIndex_lt _⟩
  have htake : (overwrite buffer 0 values.toArray).toArray.take pairs.length = values.toArray := by
    rw [← hlen] at hk ⊢
    exact take_overwrite buffer hk
  have hof := of?_sparse hin
    (show pairs.length ≤ (overwrite buffer 0 values.toArray).toArray.size by simpa using hk)
  rw [htake] at hof
  refine ⟨_, hof, isDenseOf_of_entries rfl ?_⟩
  rw [hpairs, hvalues]
  exact entries_of_listed listed _

/-! ## The statement for all models -/

variable [Waves] {M : Type} [ElementModel M ℝ]

/-- **An exact linearization** of the weak form of a model at a place: the coefficients are `f` of
the values at the point, and the reported Jacobian, which has the given pattern, is `J`. -/
structure ElementModel.IsLinearization (model : M) (place : Point ℝ) (x : Vector ℝ 3)
    (pattern : JacobianPattern) (f : (dims model).Values → (dims model).Values)
    (J : Matrix (dims model).Slot (dims model).Slot ℝ) : Prop where
  /-- The weak form writes `f` over whatever its buffers hold. -/
  weakIntegrand_eq : ∀ u (buffers : Coefficients ℝ (dims model).utLen (dims model).uxLen),
    weakIntegrand model ((PointData.ofValues x u).pointAt place) buffers = .ok () (.ofValues (f u))
  /-- The Jacobian, in a buffer that is long enough, is `J`; the coefficients beside it are `f`. -/
  weakJacobian_eq : ∀ u (k : ℕ)
    (buffers : Linearization ℝ (dims model).utLen (dims model).uxLen k),
    pattern.nnz (dims model).jacobianSize ≤ k → ∃ jac view,
      weakJacobian model ((PointData.ofValues x u).pointAt place) buffers
          = .ok pattern ⟨.ofValues (f u), jac⟩
        ∧ JacobianView.of? (dims model).jacobianSize pattern jac.toArray = .ok view
        ∧ view.IsDenseOf J
  increment_eq : ∀ u du r,
    component r (f (u + du)) - component r (f u) = ∑ c, J r c * component c du
  value_eq_zero : ∀ u k, (f u).2 (valuePlace k) = 0
  /-- The coefficients by time depend on the values by time only. -/
  fst_congr : ∀ u v, u.1 = v.1 → (f u).1 = (f v).1
  /-- The coefficients by space depend on the derivatives by space only. -/
  snd_congr : ∀ u v, (∀ k j, u.2 (spacePlace k j) = v.2 (spacePlace k j)) → (f u).2 = (f v).2

/-! ## What a linearization says -/

namespace ElementModel.IsLinearization

variable {model : M} {place : Point ℝ} {x : Vector ℝ 3} {pattern : JacobianPattern}
  {f : (dims model).Values → (dims model).Values}
  {J : Matrix (dims model).Slot (dims model).Slot ℝ}

/-- What is behind an increment is a linear function of it. -/
theorem exists_linear (h : IsLinearization model place x pattern f J) :
    ∃ g : (dims model).Values →ₗ[ℝ] (dims model).Values,
      (∀ u du, f (u + du) = f u + g du)
        ∧ ∀ r du, component r (g du) = ∑ c, J r c * component c du := by
  -- the linear function is the increment from zero, where `f` itself may have an offset
  have hcomp : ∀ r du, component r (f du - f 0) = ∑ c, J r c * component c du := by
    intro r du
    have h0 := h.increment_eq 0 du r
    rwa [zero_add, ← component_sub] at h0
  have hvalue : ∀ u v k, (f u - f v).2 (valuePlace k) = 0 := by
    intro u v k
    rw [Prod.snd_sub, Pi.sub_apply, h.value_eq_zero, h.value_eq_zero, sub_zero]
  refine ⟨⟨⟨fun du => f du - f 0, ?_⟩, ?_⟩, ?_, hcomp⟩
  · intro du dv
    refine Values.ext (fun r => ?_) (fun k => ?_)
    · simp only [component_add, hcomp, mul_add, Finset.sum_add_distrib]
    · rw [Prod.snd_add, Pi.add_apply, hvalue, hvalue, hvalue, add_zero]
  · intro t du
    refine Values.ext (fun r => ?_) (fun k => ?_)
    · simp only [RingHom.id_apply, component_smul, hcomp, Finset.mul_sum]
      exact Finset.sum_congr rfl (fun c _ => mul_left_comm _ _ _)
    · rw [RingHom.id_apply, Prod.smul_snd, Pi.smul_apply, hvalue, hvalue, smul_zero]
  · intro u du
    show f (u + du) = f u + (f du - f 0)
    rw [← sub_eq_iff_eq_add']
    refine Values.ext (fun r => ?_) (fun k => ?_)
    · rw [component_sub, h.increment_eq, hcomp]
    · rw [hvalue, hvalue]

/-- **A weak form with an exact linearization is affine**, and its derivative is the same matrix
everywhere. -/
theorem exists_isAffineAt (h : IsLinearization model place x pattern f J) :
    ∃ g : (dims model).Values →ᵃ[ℝ] (dims model).Values,
      IsAffineAt model place x g ∧ ∀ u, derivative g u = J := by
  obtain ⟨linear, hadd, hcomp⟩ := h.exists_linear
  refine ⟨⟨f, linear, fun u v => ?_⟩, h.weakIntegrand_eq, fun u => ?_⟩
  · rw [vadd_eq_add, vadd_eq_add, add_comm v, hadd, add_comm]
  · ext r c
    have hvalue : ∀ k, (linear (direction c)).2 (valuePlace k) = 0 := by
      intro k
      have hk := congrArg (fun v : (dims model).Values => v.2 (valuePlace k))
        (hadd 0 (direction c))
      simpa only [Prod.snd_add, Pi.add_apply, h.value_eq_zero, zero_add, eq_comm] using hk
    rw [derivative_affine, rowValue_eq_component r hvalue, hcomp]
    simp only [component_direction, mul_ite, mul_one, mul_zero, Finset.sum_ite_eq', Finset.mem_univ,
      if_true]

/-- **The check of an exact linearization finds nothing**, whatever the step and the tolerances. -/
theorem isExact_checkWeakJacobian {data : PointData (dims model) ℝ}
    (h : IsLinearization model place data.x pattern f J)
    (hnnz : pattern.nnz (dims model).jacobianSize
      ≤ (dims model).jacobianSize * (dims model).jacobianSize)
    {config : CheckConfig ℝ} (hstep : config.stepSize ≠ 0) (hr : 0 ≤ config.rtol)
    (ha : 0 ≤ config.atol) :
    ∃ result, checkWeakJacobian model (data.pointAt place) config = .ok result
      ∧ result.IsExact := by
  obtain ⟨g, hg, hderiv⟩ := h.exists_isAffineAt
  obtain ⟨jac, view, hjac, hview, hJ⟩ := h.weakJacobian_eq data.values _
    ⟨.zero _ _, Vector.replicate _ 0⟩ hnnz
  rw [PointData.ofValues_values] at hjac
  obtain ⟨differences, hstored, hcheck⟩ := checkWeakJacobian_of_affine hg hstep hjac hview
  rw [hderiv] at hstored
  have hsize : view.size = (dims model).jacobianSize := by rw [JacobianView.of?_eq_ok hview]
  -- both lists store the same matrix, so a list is compared with itself
  rw [(hJ.isStored hsize).unique hstored] at hcheck
  exact ⟨_, hcheck, CheckResult.isExact_compare_self _ _ hr ha⟩

end ElementModel.IsLinearization

end WeakForm
