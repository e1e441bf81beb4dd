import WeakForm.Proofs.QuantityDerivatives

/-!
# The quantities of elasticity

Density, strain energy and failure index. Each depends on the state through the strain only, so its
derivative is one by strain, scattered over the displacement gradients. The energy is quadratic in
the strain, and the central difference of a quadratic is its derivative: **its gradient is the
stress, for every step** (`hasGradient_energy`). The failure index is the square root of a quadratic,
and its gradient is that of another module.

Density and energy are proportional to the thickness. The failure index does not depend on it: it is
the stress of the material that fails, not its resultant.
-/

namespace WeakForm

open Dims ElementModel

variable [Waves]

/-! ## Energy -/

/-- The energy of a strain. -/
noncomputable def Stiffness.energy (K : Stiffness ℝ) (strain : Voigt ℝ) : ℝ :=
  0.5 * Scalar.dot (K.mulVec strain).toList strain.toList

/-- The energy as a sum. -/
theorem Stiffness.energy_eq_sum (K : Stiffness ℝ) (v : Voigt ℝ) :
    K.energy v = 0.5 * ∑ i : Fin 6, (K.mulVec v).get i * v.get i := by
  unfold Stiffness.energy
  rw [Scalar.dot_toList]

/-- **The central difference of the energy is the work of the stress.** The stiffness is symmetric,
so both halves of the energy contribute the same. -/
theorem Stiffness.energy_sub (K : Stiffness ℝ) {v w plus minus : Voigt ℝ} {t : ℝ}
    (hplus : ∀ i : Fin 6, plus.get i = v.get i + t * w.get i)
    (hminus : ∀ i : Fin 6, minus.get i = v.get i + (-t) * w.get i) :
    K.energy plus - K.energy minus = 2 * t * ∑ i : Fin 6, (K.mulVec v).get i * w.get i := by
  -- the products of a strain with itself cancel, and the mixed ones double
  have hsplit : (∑ i : Fin 6, (K.mulVec plus).get i * plus.get i)
        - ∑ i : Fin 6, (K.mulVec minus).get i * minus.get i
      = 2 * t * (∑ i : Fin 6, (K.mulVec v).get i * w.get i)
        + 2 * t * ∑ i : Fin 6, v.get i * (K.mulVec w).get i := by
    simp only [Finset.mul_sum, ← Finset.sum_sub_distrib, ← Finset.sum_add_distrib]
    refine Finset.sum_congr rfl fun i _ => ?_
    rw [K.get_mulVec_add hplus, K.get_mulVec_add hminus, hplus, hminus]
    ring
  rw [K.energy_eq_sum, K.energy_eq_sum, ← mul_sub, hsplit, K.sum_mul_mulVec]
  norm_num
  ring

/-- The energy is proportional to the stiffness. -/
theorem Stiffness.energy_scale (K : Stiffness ℝ) (t : ℝ) (v : Voigt ℝ) :
    (K.scale t).energy v = t * K.energy v := by
  have hsum : ∑ i : Fin 6, ((K.scale t).mulVec v).get i * v.get i
      = t * ∑ i : Fin 6, (K.mulVec v).get i * v.get i := by
    rw [Finset.mul_sum]
    refine Finset.sum_congr rfl fun i _ => ?_
    rw [Stiffness.get_mulVec_scale, mul_assoc]
  rw [Stiffness.energy_eq_sum, Stiffness.energy_eq_sum, hsum]
  ring

namespace Elasticity

variable {m : Material ℝ} {thermalLoad : ℝ}

/-- The strain along a direction. -/
theorem get_strainOf_add (u du : dims.Values) (t : ℝ) (i : Fin 6) :
    (strainOf m thermalLoad (u + t • du)).get i
      = (strainOf m thermalLoad u).get i
        + t * (gather fun k j => component (gradSlot k j) du).get i := by
  unfold strainOf
  fin_cases i <;> simp [gather, Vector.get_eq_getElem] <;> ring

/-- The derivatives of a quantity by its derivative with respect to strain, if it depends on
strain. -/
noncomputable def gradientOf : Option (Voigt ℝ) → dims.Values
  | none => 0
  | some stress => (0, (scatter stress).get)

/-- Scattered stresses work on the gradients that they are scattered to. -/
theorem sum_scatter_mul (stress : Voigt ℝ) (v : Fin dims.uxLen → ℝ) :
    ∑ i : Fin dims.uxLen, (scatter stress).get i * v i
      = ∑ k : Fin 3, ∑ j : Fin 3, stress.get (voigt k j) * v (spacePlace k j) := by
  show ∑ i : Fin 12, (scatter stress).get i * v i = _
  simp [Fin.sum_univ_succ, scatter]
  simp only [add_assoc]
  rfl

/-- Derivatives by strain meet the strain of a direction. -/
theorem sum_gradientOf_mul (stress : Voigt ℝ) (du : dims.Values) :
    ∑ i, (gradientOf (some stress)).1 i * du.1 i + ∑ i, (gradientOf (some stress)).2 i * du.2 i
      = ∑ m : Fin 6, stress.get m * (gather fun k j => component (gradSlot k j) du).get m := by
  unfold gradientOf
  dsimp only
  rw [sum_scatter_mul, sum_mul_gather fun m => stress.get m]
  simp
  rfl

/-- **The stress is the gradient of the energy.** -/
theorem hasGradient_energy (K : Stiffness ℝ) (u : dims.Values) :
    HasGradient (fun u => K.energy (strainOf m thermalLoad u)) u
      (gradientOf (some (K.mulVec (strainOf m thermalLoad u)))) := by
  intro du t
  dsimp only
  rw [K.energy_sub (get_strainOf_add u du t) (get_strainOf_add u du (-t)), sum_gradientOf_mul]

/-- A multiple of the derivatives. -/
theorem smul_gradientOf (c : ℝ) (stress : Voigt ℝ) :
    c • gradientOf (some stress) = (0, (scatter (stress.map (c * ·))).get) := by
  have hscatter : scatter (stress.map (c * ·)) = (scatter stress).map (c * ·) := by
    simp [scatter]
  refine Prod.ext (smul_zero c) (funext fun i => ?_)
  rw [hscatter]
  exact (Vector.getElem_map _ i.isLt).symm

/-! ### What is evaluated -/

variable {s : Solid ℝ} {tag : QuantityTag} {place : Point ℝ} {xd : Array ℝ}

/-- **What elasticity evaluates for a quantity** is its value, and the multiple of its derivative by
strain, scattered. -/
theorem evaluates_of_ok {e : Elasticity (Solid ℝ) ℝ} (value : dims.Values → ℝ)
    (gradient : dims.Values → Option (Voigt ℝ))
    (hvalue : ∀ data : PointData dims ℝ,
      e.quantityValue tag (PointData.siteAt data.x place) data = .ok (value data.values))
    (hgradient : ∀ data : PointData dims ℝ,
      e.quantityStrainGradient tag (PointData.siteAt data.x place) data
        = .ok (gradient data.values)) :
    Evaluates e tag place xd (fun u (_ : Fin 1) => value u)
      fun dfdq u => dfdq.getD 0 0 • gradientOf (gradient u) where
  quantityValues_eq := by
    intro data
    have hrun : ElementModel.quantity e tag (data.pointAt place) xd
        (Vector.replicate QuantityTag.maxLength 0)
          = .ok 1 ((Vector.replicate QuantityTag.maxLength 0).set 0 (value data.values)) := by
      show quantity e tag (data.pointAt place) _ = _
      unfold quantity
      simp only [PointData.checkPoint_pointAt, PointData.site_pointAt, hvalue,
        lengthAtLeast_of_le (show 1 ≤ QuantityTag.maxLength by decide), liftM_length_ok, liftM_ok,
        pure_bind_apply, modify_bind_apply, pure_apply]
    exact quantityValues_of_written hrun
  quantitySens_eq := by
    intro data dfdq hn (buffers : QuantitySens ℝ _ _ dims.utLen dims.uxLen)
    show quantitySens e tag (data.pointAt place) dfdq buffers = _
    unfold quantitySens
    simp only [PointData.checkPoint_pointAt, PointData.site_pointAt, hgradient,
      QuantitySens.checkLengths_self, liftM_length_ok, liftM_ok, pure_bind_apply,
      lengthAtLeast_of_le hn, Array.getElem_eq_getD (0 : ℝ)]
    cases gradient data.values with
    | none =>
      refine congrArg (EStateM.Result.ok ()) (Eq.trans sensOf_zero.symm (congrArg sensOf ?_))
      exact (smul_zero _).symm
    | some stress =>
      rw [smul_gradientOf]
      exact congrArg (EStateM.Result.ok ()) (sensOf_ux (d := dims) _).symm

/-- The density of a solid does not depend on the state. -/
theorem evaluates_density :
    Evaluates (⟨s, thermalLoad⟩ : Elasticity (Solid ℝ) ℝ) .density place xd
      (fun _ (_ : Fin 1) => s.thickness * s.response.density)
      fun dfdq _ => dfdq.getD 0 0 • gradientOf none :=
  evaluates_of_ok (fun _ => _) (fun _ => none)
    (fun data => congrArg Except.ok (s.density_eq (PointData.siteAt data.x place))) (fun _ => rfl)

/-- The strain energy of a solid, and the stress that its derivative is. -/
theorem evaluates_energy :
    Evaluates (⟨s, thermalLoad⟩ : Elasticity (Solid ℝ) ℝ) .strainEnergyDensity place xd
      (fun u (_ : Fin 1) =>
        (s.response.stiffness.scale s.thickness).energy (strainOf s.response thermalLoad u))
      fun dfdq u => dfdq.getD 0 0 • gradientOf (some
        ((s.response.stiffness.scale s.thickness).mulVec (strainOf s.response thermalLoad u))) := by
  refine evaluates_of_ok _ _ (fun data => ?_) (fun data => ?_)
  · unfold quantityValue resultantStress
    dsimp only
    rw [mechanicalStrain_solid,
      (answers_solid thermalLoad s (PointData.siteAt data.x place)).tangent]
    rfl
  · unfold quantityStrainGradient resultantStress
    dsimp only
    rw [mechanicalStrain_solid,
      (answers_solid thermalLoad s (PointData.siteAt data.x place)).tangent]
    rfl

/-- The failure index of a solid, and its derivative by stress, pulled back to strain by the
stiffness. -/
theorem evaluates_failure :
    Evaluates (⟨s, thermalLoad⟩ : Elasticity (Solid ℝ) ℝ) .failureIndex place xd
      (fun u (_ : Fin 1) =>
        s.response.failure (s.response.stiffness.mulVec (strainOf s.response thermalLoad u)))
      fun dfdq u => dfdq.getD 0 0 • gradientOf (some (s.response.stiffness.mulVec
        (s.response.failureGradient
          (s.response.stiffness.mulVec (strainOf s.response thermalLoad u))))) := by
  refine evaluates_of_ok _ _ (fun data => ?_) (fun data => ?_)
  · unfold quantityValue
    dsimp only
    rw [mechanicalStrain_solid]
    exact s.failure_eq (PointData.siteAt data.x place) _
  · have hfill : ∀ strain : Voigt ℝ, Evaluation.fill (Vector.replicate 6 0) (do
        let _ ← Constitutive.failureGradient s (PointData.siteAt data.x place) strain.toArray)
          = .ok (s.response.stiffness.mulVec
            (s.response.failureGradient (s.response.stiffness.mulVec strain))) := by
      intro strain
      refine fill_of_ok ?_
      rw [bind_of_ok (s.failureGradient_apply _ _ _), pure_apply]
    unfold quantityStrainGradient
    dsimp only
    rw [mechanicalStrain_solid]
    exact congrArg (· >>= fun gradient => pure (some gradient)) (hfill _)

/-! ### Along the state -/

/-- A multiple of a quantity with one value has the multiple of its gradient. -/
theorem hasGradient_weighted {value : dims.Values → ℝ} {gradient : Option (Voigt ℝ)}
    {u : dims.Values} (h : HasGradient value u (gradientOf gradient)) (dfdq : Array ℝ) :
    HasGradient (fun u => weighted dfdq fun (_ : Fin 1) => value u) u
      (dfdq.getD 0 0 • gradientOf gradient) := by
  simp only [weighted_one]
  exact h.const_mul _

theorem hasGradient_weighted_density (dfdq : Array ℝ) (u : dims.Values) :
    HasGradient (fun _ => weighted dfdq fun (_ : Fin 1) => s.thickness * s.response.density) u
      (dfdq.getD 0 0 • gradientOf none) :=
  hasGradient_weighted (hasGradient_const _ u) dfdq

theorem hasGradient_weighted_energy (dfdq : Array ℝ) (u : dims.Values) :
    HasGradient (fun u => weighted dfdq fun (_ : Fin 1) =>
        (s.response.stiffness.scale s.thickness).energy (strainOf s.response thermalLoad u)) u
      (dfdq.getD 0 0 • gradientOf (some
        ((s.response.stiffness.scale s.thickness).mulVec (strainOf s.response thermalLoad u)))) :=
  hasGradient_weighted (hasGradient_energy _ u) dfdq

/-! ### Along the thickness -/

variable {data : PointData dims ℝ}

/-- What is added for the density. -/
theorem addQuantityDesignSens_density {n : ℕ} (h : s.HasPlace n) (scale : ℝ) {dfdq : Array ℝ}
    (hq : 1 ≤ dfdq.size) (b : Vector ℝ n) :
    (⟨s, thermalLoad⟩ : Elasticity (Solid ℝ) ℝ).addQuantityDesignSens .density scale
        (data.pointAt place) dfdq b
      = .ok () (s.accumulate (scale * (dfdq.getD 0 0 * s.response.density)) b) := by
  unfold addQuantityDesignSens
  simp only [PointData.checkPoint_pointAt, PointData.site_pointAt, lengthAtLeast_of_le hq,
    liftM_length_ok, pure_bind_apply, Array.getElem_eq_getD (0 : ℝ)]
  refine (Solid.addDensitySens_apply h (PointData.siteAt data.x place) _ b).trans ?_
  rw [mul_assoc]

/-- What is added for the energy: its half is taken before the stress is paired with the strain. -/
theorem addQuantityDesignSens_energy {n : ℕ} (h : s.HasPlace n) (scale : ℝ) {dfdq : Array ℝ}
    (hq : 1 ≤ dfdq.size) (b : Vector ℝ n) :
    (⟨s, thermalLoad⟩ : Elasticity (Solid ℝ) ℝ).addQuantityDesignSens .strainEnergyDensity scale
        (data.pointAt place) dfdq b
      = .ok () (s.accumulate (scale * (dfdq.getD 0 0
          * s.response.stiffness.energy (strainOf s.response thermalLoad data.values))) b) := by
  unfold addQuantityDesignSens
  simp only [PointData.checkPoint_pointAt, PointData.site_pointAt, mechanicalStrain_solid,
    lengthAtLeast_of_le hq, liftM_length_ok, liftM_ok, pure_bind_apply,
    Array.getElem_eq_getD (0 : ℝ)]
  refine (Solid.addStressSens_apply h (PointData.siteAt data.x place) _ _ _ b).trans ?_
  refine congrArg (fun amount => EStateM.Result.ok () (s.accumulate amount b)) ?_
  unfold Stiffness.energy
  ring

/-- **Nothing is added for the failure index**, which does not depend on the thickness. -/
theorem addQuantityDesignSens_failure {n : ℕ} (scale : ℝ) {dfdq : Array ℝ} (hq : 1 ≤ dfdq.size)
    (b : Vector ℝ n) :
    (⟨s, thermalLoad⟩ : Elasticity (Solid ℝ) ℝ).addQuantityDesignSens .failureIndex scale
      (data.pointAt place) dfdq b = .ok () b := by
  unfold addQuantityDesignSens
  simp only [PointData.checkPoint_pointAt, PointData.site_pointAt, mechanicalStrain_solid,
    lengthAtLeast_of_le hq, liftM_length_ok, liftM_ok, pure_bind_apply]
  rfl

variable (thermalLoad place data xd)

/-- The density is proportional to the thickness. -/
theorem isExactByThickness_density :
    IsExactByThickness (fun s => (⟨s, thermalLoad⟩ : Elasticity (Solid ℝ) ℝ)) .density
      (data.pointAt place) xd fun s (_ : Fin 1) => s.thickness * s.response.density := by
  refine .of_slope (fun s _ => s.response.density)
    (fun s => evaluates_density.quantityValues_eq data) (fun s scale dfdq hq n b h => ?_)
    (fun s h => funext fun _ => ?_)
  · rw [weighted_one]
    exact addQuantityDesignSens_density h scale hq b
  · show (s.thickness + h) * s.response.density - (s.thickness - h) * s.response.density
      = 2 * h * s.response.density
    ring

/-- The strain energy is proportional to the thickness. -/
theorem isExactByThickness_energy :
    IsExactByThickness (fun s => (⟨s, thermalLoad⟩ : Elasticity (Solid ℝ) ℝ)) .strainEnergyDensity
      (data.pointAt place) xd fun s (_ : Fin 1) =>
        (s.response.stiffness.scale s.thickness).energy
          (strainOf s.response thermalLoad data.values) := by
  refine .of_slope
    (fun s _ => s.response.stiffness.energy (strainOf s.response thermalLoad data.values))
    (fun s => evaluates_energy.quantityValues_eq data) (fun s scale dfdq hq n b h => ?_)
    (fun s h => funext fun _ => ?_)
  · rw [weighted_one]
    exact addQuantityDesignSens_energy h scale hq b
  · show (s.response.stiffness.scale (s.thickness + h)).energy _
      - (s.response.stiffness.scale (s.thickness - h)).energy _ = 2 * h * _
    rw [Stiffness.energy_scale, Stiffness.energy_scale]
    dsimp only [Solid.response]
    ring

/-- The failure index does not depend on the thickness. -/
theorem isExactByThickness_failure :
    IsExactByThickness (fun s => (⟨s, thermalLoad⟩ : Elasticity (Solid ℝ) ℝ)) .failureIndex
      (data.pointAt place) xd fun s (_ : Fin 1) =>
        s.response.failure
          (s.response.stiffness.mulVec (strainOf s.response thermalLoad data.values)) := by
  refine .of_slope (fun _ _ => 0) (fun s => evaluates_failure.quantityValues_eq data)
    (fun s scale dfdq hq n b _ => ?_) (fun s h => funext fun _ => ?_)
  · rw [weighted_one, mul_zero, mul_zero, Solid.accumulate_zero]
    exact addQuantityDesignSens_failure scale hq b
  · rw [Pi.smul_apply, smul_zero]
    exact sub_self _

/-! ### Other quantities -/

/-- The quantities that elasticity knows. -/
def tags : List QuantityTag := [.failureIndex, .density, .strainEnergyDensity]

section Unknown

omit [Waves]

variable {C α : Type} [Scalar α] [Constitutive C α] {e : Elasticity C α} {place : Point α}
  {data : PointData dims α}

/-- Elasticity has no other quantities, whatever its law is. -/
theorem quantity_of_unknown (xd : Array α) (hunknown : tag ∉ tags) {n : ℕ} (b : Vector α n) :
    ElementModel.quantity e tag (data.pointAt place) xd b
      = .error (.unsupportedQuantity tag) b := by
  simp only [tags, List.mem_cons, List.not_mem_nil, or_false, not_or] at hunknown
  obtain ⟨hfailure, hdensity, henergy⟩ := hunknown
  have hvalue : ∀ site : Site α,
      e.quantityValue tag site data = .error (.unsupportedQuantity tag) := by
    intro site
    unfold quantityValue
    split
    · exact absurd rfl hfailure
    · exact absurd rfl hdensity
    · exact absurd rfl henergy
    · rfl
  show quantity _ tag (data.pointAt place) _ = _
  unfold quantity
  simp only [PointData.checkPoint_pointAt, hvalue, liftM_length_ok, liftM_error, pure_bind_apply,
    throw_bind_apply]

theorem quantityValues_of_unknown (xd : Array α) (hunknown : tag ∉ tags) :
    quantityValues e tag (data.pointAt place) xd = .error (.unsupportedQuantity tag) :=
  quantityValues_of_error (quantity_of_unknown xd hunknown _)

end Unknown

end Elasticity

end WeakForm
