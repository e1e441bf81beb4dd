import WeakForm.Proofs.QuantityDerivatives

/-!
# The quantities of conduction

Density, temperature and heat flux. All are linear in the state, so their gradients do not depend on
it, and linear in the thickness, or free of it. **The heat flux has two values**, each with a weight
of its own, and its gradient mixes both weights.
-/

namespace WeakForm

open Dims ElementModel

variable [Waves]

namespace Conductor

variable {s : Solid ℝ} {tag : QuantityTag} {place : Point ℝ} {xd : Array ℝ}

/-! ### The heat flux -/

/-- The flux of a solid of unit thickness. -/
noncomputable def unitFlux (m : Material ℝ) (u : dims.Values) : Vector ℝ 2 :=
  m.conduction.mulVec (gradientOf u)

/-- The flux of a solid. -/
noncomputable def fluxOf (s : Solid ℝ) (u : dims.Values) : Vector ℝ 2 :=
  (s.response.conduction.scale s.thickness).mulVec (gradientOf u)

/-- The flux is proportional to the thickness. -/
theorem get_fluxOf (s : Solid ℝ) (u : dims.Values) (j : Fin 2) :
    (fluxOf s u).get j = s.thickness * (unitFlux s.response u).get j := by
  fin_cases j <;>
    simp [fluxOf, unitFlux, Conduction.mulVec, Conduction.scale, Vector.get_eq_getElem] <;> ring

/-- The flux is linear in the values. -/
theorem get_unitFlux_add (m : Material ℝ) (u du : dims.Values) (t : ℝ) (j : Fin 2) :
    (unitFlux m (u + t • du)).get j
      = (unitFlux m u).get j + t * (unitFlux m du).get j := by
  fin_cases j <;>
    simp [unitFlux, gradientOf, Conduction.mulVec, Vector.get_eq_getElem] <;> ring

/-- What is evaluated as the gradient of the weighted flux: the conduction times the weights. -/
noncomputable def fluxGradient (s : Solid ℝ) (weights : Array ℝ) : dims.Values :=
  let tensor := s.response.conduction.scale s.thickness
  let dfdux : Vector ℝ 3 :=
    #v[0, weights.getD 0 0 * tensor.k11 + weights.getD 1 0 * tensor.k12,
      weights.getD 0 0 * tensor.k12 + weights.getD 1 0 * tensor.k22]
  (0, dfdux.get)

/-- Along a direction, the gradient of the flux is the flux of the direction: the conduction is
symmetric. -/
theorem pairing_fluxGradient (s : Solid ℝ) (weights : Array ℝ) (du : dims.Values) :
    ∑ i, (fluxGradient s weights).1 i * du.1 i + ∑ i, (fluxGradient s weights).2 i * du.2 i
      = weighted weights (fluxOf s du).get := by
  have hflux : (fluxOf s du).get
      = ![s.thickness * s.response.conduction.k11 * component (gradSlot 0) du
          + s.thickness * s.response.conduction.k12 * component (gradSlot 1) du,
        s.thickness * s.response.conduction.k12 * component (gradSlot 0) du
          + s.thickness * s.response.conduction.k22 * component (gradSlot 1) du] := by
    funext j
    fin_cases j <;> rfl
  show ∑ i : Fin 3, 0 * du.1 i + ∑ i : Fin 3, (#v[(0 : ℝ), _, _] : Vector ℝ 3).get i * du.2 i = _
  rw [weighted_two, hflux]
  simp [Fin.sum_univ_three, Conduction.scale]
  show _ * component (gradSlot 0) du + _ * component (gradSlot 1) du = _
  ring

/-- What is evaluated as the gradient of a weighted temperature. -/
noncomputable def temperatureGradient (weights : Array ℝ) : dims.Values :=
  let dfdut : Vector ℝ 3 := #v[weights.getD 0 0, 0, 0]
  (dfdut.get, 0)

omit [Waves] in
/-- Along a direction, the gradient of the temperature is the temperature of the direction. -/
theorem pairing_temperatureGradient (weights : Array ℝ) (du : dims.Values) :
    ∑ i, (temperatureGradient weights).1 i * du.1 i + ∑ i, (temperatureGradient weights).2 i * du.2 i
      = weights.getD 0 0 * component (timeSlot 0) du := by
  show ∑ i : Fin 3, (#v[weights.getD 0 0, 0, 0] : Vector ℝ 3).get i * du.1 i
    + ∑ i : Fin 3, 0 * du.2 i = _
  simp [Fin.sum_univ_three]
  exact Or.inl rfl

/-! ### What is evaluated -/

/-- The density of a solid does not depend on the state. -/
theorem evaluates_density :
    Evaluates (⟨s⟩ : Conductor (Solid ℝ)) .density place xd
      (fun _ (_ : Fin 1) => s.thickness * s.response.density) fun _ _ => 0 where
  quantityValues_eq := by
    intro data
    have hrun : ElementModel.quantity (⟨s⟩ : Conductor (Solid ℝ)) .density (data.pointAt place) xd
        (Vector.replicate QuantityTag.maxLength 0)
          = .ok 1 ((Vector.replicate QuantityTag.maxLength 0).set 0
              (s.thickness * s.response.density)) := by
      show quantity _ .density (data.pointAt place) _ = _
      unfold quantity
      simp only [PointData.checkPoint_pointAt, PointData.site_pointAt,
        lengthAtLeast_of_le (show 1 ≤ QuantityTag.maxLength by decide), liftM_length_ok,
        pure_bind_apply, Solid.density_eq]
      rfl
    exact quantityValues_of_written hrun
  quantitySens_eq := by
    intro data dfdq hn (buffers : QuantitySens ℝ _ _ dims.utLen dims.uxLen)
    show quantitySens _ .density (data.pointAt place) dfdq buffers = _
    unfold quantitySens
    simp only [PointData.checkPoint_pointAt, QuantitySens.checkLengths_self, liftM_length_ok,
      pure_bind_apply, lengthAtLeast_of_le hn]
    exact congrArg (EStateM.Result.ok ()) sensOf_zero.symm

/-- The temperature at a point is its first value by time. -/
theorem evaluates_temperature :
    Evaluates (⟨s⟩ : Conductor (Solid ℝ)) .temperature place xd
      (fun u (_ : Fin 1) => component (timeSlot 0) u) fun dfdq _ => temperatureGradient dfdq where
  quantityValues_eq := by
    intro data
    have hrun : ElementModel.quantity (⟨s⟩ : Conductor (Solid ℝ)) .temperature (data.pointAt place)
        xd (Vector.replicate QuantityTag.maxLength 0)
          = .ok 1 ((Vector.replicate QuantityTag.maxLength 0).set 0
              (component (timeSlot 0) data.values)) := by
      show quantity _ .temperature (data.pointAt place) _ = _
      unfold quantity
      simp only [PointData.checkPoint_pointAt,
        lengthAtLeast_of_le (show 1 ≤ QuantityTag.maxLength by decide), liftM_length_ok,
        pure_bind_apply]
      rfl
    exact quantityValues_of_written hrun
  quantitySens_eq := by
    intro data dfdq hn (buffers : QuantitySens ℝ _ _ dims.utLen dims.uxLen)
    show quantitySens _ .temperature (data.pointAt place) dfdq buffers = _
    unfold quantitySens
    simp only [PointData.checkPoint_pointAt, QuantitySens.checkLengths_self, liftM_length_ok,
      pure_bind_apply, lengthAtLeast_of_le hn, Array.getElem_eq_getD (0 : ℝ)]
    exact congrArg (EStateM.Result.ok ()) (sensOf_ut (d := dims) _).symm

/-- The heat flux of a solid, and its gradient. -/
theorem evaluates_heatFlux :
    Evaluates (⟨s⟩ : Conductor (Solid ℝ)) .heatFlux place xd (fun u => (fluxOf s u).get)
      fun dfdq _ => fluxGradient s dfdq where
  quantityValues_eq := by
    intro data
    have hrun : ElementModel.quantity (⟨s⟩ : Conductor (Solid ℝ)) .heatFlux (data.pointAt place) xd
        (Vector.replicate QuantityTag.maxLength 0)
          = .ok 2 (overwrite (Vector.replicate QuantityTag.maxLength 0) 0
              (fluxOf s data.values).toArray) := by
      show quantity _ .heatFlux (data.pointAt place) _ = _
      unfold quantity flux
      simp only [PointData.checkPoint_pointAt, PointData.site_pointAt, conduction_solid,
        lengthAtLeast_of_le (show 2 ≤ QuantityTag.maxLength by decide), liftM_length_ok,
        pure_bind_apply, except_ok_bind, except_pure, liftM_ok]
      rfl
    refine (quantityValues_of_written hrun).trans (congrArg Except.ok ?_)
    have htake := take_overwrite (Vector.replicate QuantityTag.maxLength 0)
      (show (fluxOf s data.values).toArray.size ≤ QuantityTag.maxLength by simp; decide)
    have hlist := congrArg Array.toList htake
    rw [Array.take_eq_extract, Array.toList_extract] at hlist
    exact hlist
  quantitySens_eq := by
    intro data dfdq hn (buffers : QuantitySens ℝ _ _ dims.utLen dims.uxLen)
    show quantitySens _ .heatFlux (data.pointAt place) dfdq buffers = _
    unfold quantitySens
    simp only [PointData.checkPoint_pointAt, QuantitySens.checkLengths_self, liftM_length_ok,
      pure_bind_apply, PointData.site_pointAt, conduction_solid, liftM_ok, lengthAtLeast_of_le hn,
      Array.getElem_eq_getD (0 : ℝ)]
    exact congrArg (EStateM.Result.ok ()) (sensOf_ux (d := dims) _).symm

/-! ### Along the state -/

omit [Waves] in
theorem hasGradient_weighted_density (dfdq : Array ℝ) (u : dims.Values) :
    HasGradient (fun _ => weighted dfdq fun (_ : Fin 1) => s.thickness * s.response.density) u 0 :=
  hasGradient_const _ u

omit [Waves] in
theorem hasGradient_weighted_temperature (dfdq : Array ℝ) (u : dims.Values) :
    HasGradient (fun u => weighted dfdq fun (_ : Fin 1) => component (timeSlot 0) u) u
      (temperatureGradient dfdq) := by
  intro du t
  dsimp only
  rw [pairing_temperatureGradient, weighted_one, weighted_one, component_add, component_add,
    component_smul, component_smul]
  ring

theorem hasGradient_weighted_heatFlux (dfdq : Array ℝ) (u : dims.Values) :
    HasGradient (fun u => weighted dfdq (fluxOf s u).get) u (fluxGradient s dfdq) := by
  intro du t
  rw [pairing_fluxGradient, ← weighted_sub, ← weighted_smul]
  refine congrArg (weighted dfdq) (funext fun j => ?_)
  show (fluxOf s _).get j - (fluxOf s _).get j = 2 * t * (fluxOf s du).get j
  simp only [get_fluxOf, get_unitFlux_add]
  ring

/-! ### Along the thickness -/

variable {data : PointData dims ℝ}

/-- What is added for the density. -/
theorem addQuantityDesignSens_density {n : ℕ} (h : s.HasPlace n) (scale : ℝ) {dfdq : Array ℝ}
    (hq : 1 ≤ dfdq.size) (b : Vector ℝ n) :
    (⟨s⟩ : Conductor (Solid ℝ)).addQuantityDesignSens .density scale (data.pointAt place) dfdq b
      = .ok () (s.accumulate (scale * (dfdq.getD 0 0 * s.response.density)) b) := by
  unfold addQuantityDesignSens
  simp only [PointData.checkPoint_pointAt, PointData.site_pointAt, lengthAtLeast_of_le hq,
    liftM_length_ok, pure_bind_apply, Array.getElem_eq_getD (0 : ℝ)]
  refine (Solid.addDensitySens_apply h (PointData.siteAt data.x place) _ b).trans ?_
  rw [mul_assoc]

/-- **Nothing is added for the temperature**, which does not depend on the thickness. -/
theorem addQuantityDesignSens_temperature {n : ℕ} (scale : ℝ) (dfdq : Array ℝ) (b : Vector ℝ n) :
    (⟨s⟩ : Conductor (Solid ℝ)).addQuantityDesignSens .temperature scale (data.pointAt place) dfdq b
      = .ok () b := by
  unfold addQuantityDesignSens
  simp only [PointData.checkPoint_pointAt, liftM_length_ok, pure_bind_apply]
  rfl

/-- What is added for the heat flux: the weights are paired with it like an adjoint gradient. -/
theorem addQuantityDesignSens_heatFlux {n : ℕ} (h : s.HasPlace n) (scale : ℝ) {dfdq : Array ℝ}
    (hq : 2 ≤ dfdq.size) (b : Vector ℝ n) :
    (⟨s⟩ : Conductor (Solid ℝ)).addQuantityDesignSens .heatFlux scale (data.pointAt place) dfdq b
      = .ok () (s.accumulate
          (scale * weighted dfdq (unitFlux s.response data.values).get) b) := by
  let psi : Vector ℝ 2 := ⟨dfdq.take 2, by simpa using hq⟩
  have hpsi : ∀ (i : ℕ) (hi : i < 2), psi[i] = dfdq.getD i 0 := by
    intro i hi
    rw [← Array.getElem_eq_getD (h := hi.trans_le hq)]
    simp [psi]
  unfold addQuantityDesignSens
  simp only [PointData.checkPoint_pointAt, PointData.site_pointAt, liftM_length_ok,
    pure_bind_apply, lengthAtLeast_of_le hq]
  refine (Solid.addHeatFluxSens_apply h (PointData.siteAt data.x place) scale (gradient data.ux)
    psi b).trans ?_
  refine congrArg (fun amount => EStateM.Result.ok () (s.accumulate (scale * amount) b)) ?_
  rw [weighted_two]
  unfold Conduction.pairing
  rw [hpsi, hpsi, mul_comm, mul_comm (_ : ℝ) (dfdq.getD 1 0)]
  rfl

variable (place data xd)

/-- The density is proportional to the thickness. -/
theorem isExactByThickness_density :
    IsExactByThickness (fun s => (⟨s⟩ : Conductor (Solid ℝ))) .density (data.pointAt place) xd
      fun s (_ : Fin 1) => s.thickness * s.response.density := by
  refine .of_slope (fun s _ => s.response.density)
    (fun s => evaluates_density.quantityValues_eq data) (fun s scale dfdq hq n b h => ?_)
    (fun s h => funext fun _ => ?_)
  · rw [weighted_one]
    exact addQuantityDesignSens_density h scale hq b
  · show (s.thickness + h) * s.response.density - (s.thickness - h) * s.response.density
      = 2 * h * s.response.density
    ring

/-- The temperature does not depend on the thickness. -/
theorem isExactByThickness_temperature :
    IsExactByThickness (fun s => (⟨s⟩ : Conductor (Solid ℝ))) .temperature (data.pointAt place) xd
      fun _ (_ : Fin 1) => component (timeSlot 0) data.values := by
  refine .of_slope (fun _ _ => 0) (fun s => evaluates_temperature.quantityValues_eq data)
    (fun s scale dfdq hq n b _ => ?_) (fun s h => funext fun _ => ?_)
  · rw [weighted_one, mul_zero, mul_zero, Solid.accumulate_zero]
    exact addQuantityDesignSens_temperature scale dfdq b
  · rw [Pi.smul_apply, smul_zero]
    exact sub_self _

/-- The heat flux is proportional to the thickness. -/
theorem isExactByThickness_heatFlux :
    IsExactByThickness (fun s => (⟨s⟩ : Conductor (Solid ℝ))) .heatFlux (data.pointAt place) xd
      fun s => (fluxOf s data.values).get := by
  refine .of_slope (fun s => (unitFlux s.response data.values).get)
    (fun s => evaluates_heatFlux.quantityValues_eq data) (fun s scale dfdq hq n b h =>
      addQuantityDesignSens_heatFlux h scale hq b) (fun s h => funext fun j => ?_)
  show (fluxOf _ _).get j - (fluxOf _ _).get j = 2 * h * (unitFlux s.response data.values).get j
  rw [get_fluxOf, get_fluxOf]
  dsimp only [Solid.response]
  ring

/-! ### Other quantities -/

/-- The quantities that conduction knows. -/
def tags : List QuantityTag := [.density, .temperature, .heatFlux]

section Unknown

omit [Waves]

variable {C α : Type} [Scalar α] [Constitutive C α] {c : Conductor C} {place : Point α}
  {data : PointData dims α}

/-- Conduction has no other quantities, whatever its law is. -/
theorem quantity_of_unknown (xd : Array α) (hunknown : tag ∉ tags) {n : ℕ} (b : Vector α n) :
    ElementModel.quantity c tag (data.pointAt place) xd b
      = .error (.unsupportedQuantity tag) b := by
  simp only [tags, List.mem_cons, List.not_mem_nil, or_false, not_or] at hunknown
  obtain ⟨hdensity, htemperature, hflux⟩ := hunknown
  show quantity _ tag (data.pointAt place) _ = _
  unfold quantity
  simp only [PointData.checkPoint_pointAt, liftM_length_ok, pure_bind_apply]
  split
  · exact absurd rfl hdensity
  · exact absurd rfl htemperature
  · exact absurd rfl hflux
  · rfl

theorem quantityValues_of_unknown (xd : Array α) (hunknown : tag ∉ tags) :
    quantityValues c tag (data.pointAt place) xd = .error (.unsupportedQuantity tag) :=
  quantityValues_of_error (quantity_of_unknown xd hunknown _)

end Unknown

end Conductor

end WeakForm
