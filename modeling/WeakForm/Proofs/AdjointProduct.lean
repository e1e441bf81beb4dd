import WeakForm.Proofs.Conduction
import WeakForm.Proofs.Elasticity
import WeakForm.Proofs.Solid

/-!
# Exact adjoint products

The product of an adjoint with the design derivative of the residual is computed without the
residual: from the sensitivities of the constitutive law, with gradients that are gathered where the
residual has scattered stresses. It is the derivative all the same. For a solid, the residual is a
polynomial in the thickness, of degree one in elasticity and of degree two in conduction, where the
thickness enters the capacity twice. **The central difference of such a polynomial is its derivative
for every step**, so there is an exact statement without limits: twice the step times the product is
the difference of the residuals (`HasExactAdjoint`).
-/

namespace WeakForm

open Dims ElementModel

/-! ## The residual of an adjoint -/

namespace AdjointData

variable {d : Dims}

/-- The adjoint gradient of a variable in a direction. -/
def gradient (a : AdjointData d ℝ) (k : Fin d.varsPerNode) (j : Fin d.spatialDim) : ℝ :=
  a.psix.get ⟨k.val * d.spatialDim + j.val, d.psixIndex_lt k.isLt j.isLt⟩

@[simp] theorem checkAdjoint_toArray {α : Type} (a : AdjointData d α) :
    d.checkAdjoint a.psi.toArray a.psix.toArray = .ok a := by
  simp only [Dims.checkAdjoint, sized_toArray]
  rfl

/-- **The pairing of an adjoint with coefficients**: adjoint values meet what no derivative by space
belongs to, adjoint gradients meet the rest. -/
noncomputable def pairing (a : AdjointData d ℝ) (u : d.Values) : ℝ :=
  ∑ k, (a.psi.get k * ((∑ s, component (k, .inl s) u) + u.2 (valuePlace k))
    + ∑ j, a.gradient k j * component (k, .inr j) u)

end AdjointData

/-- An adjoint is well-formed or it is reported. -/
theorem Dims.checkAdjoint_cases {α : Type} (d : Dims) (psi psix : Array α) :
    (∃ fault, d.checkAdjoint psi psix = .error fault)
      ∨ ∃ a : AdjointData d α, psi = a.psi.toArray ∧ psix = a.psix.toArray := by
  obtain ⟨fault, hpsi⟩ | ⟨psi, rfl⟩ := sized_cases "psi" d.varsPerNode psi
  · exact Or.inl ⟨fault, by rw [checkAdjoint, hpsi]; rfl⟩
  obtain ⟨fault, hpsix⟩ | ⟨psix, rfl⟩ := sized_cases "psix" (d.varsPerNode * d.spatialDim) psix
  · exact Or.inl ⟨fault, by rw [checkAdjoint, sized_toArray, hpsix]; rfl⟩
  exact Or.inr ⟨⟨psi, psix⟩, rfl, rfl⟩

variable [Waves] {M : Type} [ElementModel M ℝ]

/-- The residual pairs the adjoint with the coefficients of the weak form. -/
theorem adjointResidual_of_ok {model : M} {p : Point ℝ}
    {c : Coefficients ℝ (dims model).utLen (dims model).uxLen}
    (h : coefficients model p = .ok c) (a : AdjointData (dims model) ℝ) :
    adjointResidual model p a.psi.toArray a.psix.toArray = .ok (a.pairing c.values) := by
  unfold adjointResidual
  simp only [AdjointData.checkAdjoint_toArray, liftM_except_ok, except_ok_bind, h, except_pure]
  refine congrArg Except.ok ?_
  -- the terms are listed one variable after the other, which makes their sum a sum of sums
  rw [Scalar.sum_real, List.flatMap_def, List.sum_flatten, List.map_map, AdjointData.pairing,
    Fin.sum_univ_def]
  refine congrArg List.sum (List.map_congr_left fun k _ => ?_)
  dsimp only [Function.comp_apply]
  rw [List.sum_cons, Fin.sum_univ_three, Fin.sum_univ_def]
  rfl

/-- **An exact adjoint product**, of a model that is made of a solid. -/
structure ElementModel.HasExactAdjoint (model : Solid ℝ → M) (p : Point ℝ) (psi psix : Array ℝ)
    (scale : ℝ) : Prop where
  /-- If the thickness is a design variable, the product is added to the first place, and it is what
  the residual changes by. -/
  active : ∀ (s : Solid ℝ) (index : ℕ), s.designVar = some index → ∃ D,
    (∀ n (b : Vector ℝ (n + 1)),
      addWeakAdjoint (model s) p psi psix scale b = .ok () (Solid.addFirst D b))
    ∧ ∀ h, ∃ plus minus,
      adjointResidual (model { s with thickness := s.thickness + h }) p psi psix = .ok plus
        ∧ adjointResidual (model { s with thickness := s.thickness - h }) p psi psix = .ok minus
        ∧ 2 * h * D = scale * (plus - minus)
  /-- If it is none, nothing is added. -/
  inactive : ∀ s : Solid ℝ, s.designVar = none → ∀ n (b : Vector ℝ n),
    addWeakAdjoint (model s) p psi psix scale b = .ok () b

/-- A product is exact if its amount is the central difference of the residual. -/
theorem ElementModel.HasExactAdjoint.of_residual {model : Solid ℝ → M} {p : Point ℝ}
    {psi psix : Array ℝ} {scale : ℝ} {amount residual : Solid ℝ → ℝ}
    (hadd : ∀ (s : Solid ℝ) n (b : Vector ℝ n), s.HasPlace n →
      addWeakAdjoint (model s) p psi psix scale b = .ok () (s.accumulate (amount s) b))
    (hresidual : ∀ s, adjointResidual (model s) p psi psix = .ok (residual s))
    (hdiff : ∀ s h, 2 * h * amount s = scale * (residual { s with thickness := s.thickness + h }
      - residual { s with thickness := s.thickness - h })) :
    HasExactAdjoint model p psi psix scale where
  active := by
    intro s index hs
    refine ⟨amount s, fun n b => ?_, fun h => ⟨_, _, hresidual _, hresidual _, hdiff s h⟩⟩
    rw [hadd _ _ b (fun _ => Nat.le_add_left 1 n), Solid.accumulate_of_some hs]
  inactive := by
    intro s hs n b
    rw [hadd _ _ b (Solid.hasPlace_of_none hs n), Solid.accumulate_of_none hs]

/-! ## Elasticity -/

namespace Elasticity

variable (m : Material ℝ) (thermalLoad : ℝ)

/-- The strain that a material feels under a thermal load. -/
noncomputable def strainOf (u : dims.Values) : Voigt ℝ :=
  Vector.zipWith (· - ·) (gather fun k j => component (gradSlot k j) u)
    (m.thermalStrain.map (thermalLoad * ·))

/-- A solid answers elasticity. -/
theorem answers_solid (s : Solid ℝ) (site : Site ℝ) :
    (⟨s, thermalLoad⟩ : Elasticity (Solid ℝ) ℝ).Answers site
      (s.response.stiffness.scale s.thickness)
      (s.response.thermalStrain.map (thermalLoad * ·)) := by
  have h := answers_of_ok (e := ⟨s, thermalLoad⟩) (fill_of_ok (s.tangentStiffness_apply site _))
    (fill_of_ok (s.thermalStrain_apply site thermalLoad _))
  have hthermal : (if thermalLoad = 0 then Vector.replicate 6 0
      else s.response.thermalStrain.map (thermalLoad * ·))
        = s.response.thermalStrain.map (thermalLoad * ·) := by
    -- without a load the law is not asked, but it would have answered with zeros
    by_cases h0 : thermalLoad = 0
    · rw [if_pos h0]
      refine Vector.ext fun i hi => ?_
      simp [h0]
    · rw [if_neg h0]
  dsimp only at h
  rwa [hthermal] at h

/-- The mechanical strain at a point. -/
theorem mechanicalStrain_solid (s : Solid ℝ) (site : Site ℝ) (data : PointData dims ℝ) :
    (⟨s, thermalLoad⟩ : Elasticity (Solid ℝ) ℝ).mechanicalStrain site data.ux
      = .ok (strainOf s.response thermalLoad data.values) := by
  unfold strainOf
  rw [← strain_eq_gather]
  exact (answers_solid thermalLoad s site).mechanicalStrain data.ux

/-- The sum of the adjoint values times the accelerations. -/
noncomputable def inertia (data : PointData dims ℝ) (a : AdjointData dims ℝ) : ℝ :=
  ∑ k : Fin 3, a.psi.get k * component (timeSlot k acceleration) data.values

/-- The work of a stress on the adjoint gradients. -/
noncomputable def work (stress : Voigt ℝ) (a : AdjointData dims ℝ) : ℝ :=
  ∑ k : Fin 3, ∑ j : Fin 3, stress.get (voigt k j) * a.gradient k j

/-- The residual of a material of unit thickness. -/
noncomputable def unitResidual (data : PointData dims ℝ) (a : AdjointData dims ℝ) : ℝ :=
  m.density * inertia data a + work (m.stiffness.mulVec (strainOf m thermalLoad data.values)) a

/-- The residual of a solid is proportional to its thickness. -/
theorem pairing_form (t : ℝ) (data : PointData dims ℝ) (a : AdjointData dims ℝ) :
    a.pairing (form (t * m.density) (m.stiffness.scale t)
        (m.thermalStrain.map (thermalLoad * ·)) data.values)
      = t * unitResidual m thermalLoad data a := by
  set F := form (t * m.density) (m.stiffness.scale t) (m.thermalStrain.map (thermalLoad * ·))
    data.values with hF
  -- by time only the accelerations have coefficients, and by space only the derivatives
  have hvalue : ∀ k : Fin 3, F.2 (valuePlace k) = 0 := by
    intro k
    fin_cases k <;> rfl
  have htime : ∀ k : Fin 3, ∑ s : Fin 3, component (timeSlot k s) F
      = t * m.density * component (timeSlot k acceleration) data.values := by
    intro k
    simp [hF, component_timeSlot_form]
  have hspace : ∀ k j : Fin 3, component (gradSlot k j) F
      = t * (m.stiffness.mulVec (strainOf m thermalLoad data.values)).get (voigt k j) := by
    intro k j
    rw [hF, component_gradSlot_form, Stiffness.get_mulVec_scale, strainOf]
  show ∑ k : Fin 3, (a.psi.get k * ((∑ s : Fin 3, component (timeSlot k s) F) + F.2 (valuePlace k))
    + ∑ j : Fin 3, a.gradient k j * component (gradSlot k j) F) = _
  unfold unitResidual inertia work
  simp only [hvalue, htime, hspace, add_zero, Finset.sum_add_distrib, mul_add, Finset.mul_sum]
  refine congrArg₂ (· + ·) ?_ ?_
  · exact Finset.sum_congr rfl (fun k _ => by ring)
  · exact Finset.sum_congr rfl (fun k _ => Finset.sum_congr rfl (fun j _ => by ring))

/-- The work as it is computed, on the gathered gradients. -/
theorem dot_gather_eq_work (stress : Voigt ℝ) (a : AdjointData dims ℝ) :
    Scalar.dot stress.toList (gather (adjointGradients a.psix)).toList = work stress a := by
  have hgradient : adjointGradients a.psix = fun k j => a.gradient k j := by
    funext k j
    fin_cases k <;> fin_cases j <;> rfl
  rw [Scalar.dot_toList, hgradient]
  exact sum_mul_gather (fun m => stress.get m) _

/-- **The product of elasticity**: the adjoint values meet the inertia forces, the gathered adjoint
gradients the stress. -/
theorem addWeakAdjoint_apply {s : Solid ℝ} {n : ℕ} (h : s.HasPlace n) (data : PointData dims ℝ)
    (place : Point ℝ) (a : AdjointData dims ℝ) (scale : ℝ) (b : Vector ℝ n) :
    (⟨s, thermalLoad⟩ : Elasticity (Solid ℝ) ℝ).addWeakAdjoint (data.pointAt place) a.psi.toArray
        a.psix.toArray scale b
      = .ok () (s.accumulate (scale * unitResidual s.response thermalLoad data a) b) := by
  have hmechanical := mechanicalStrain_solid thermalLoad s (PointData.siteAt data.x place) data
  unfold addWeakAdjoint
  simp only [PointData.checkPoint_pointAt, AdjointData.checkAdjoint_toArray, liftM_length_ok,
    pure_bind_apply, PointData.site_pointAt]
  rw [bind_of_ok (Solid.addDensitySens_apply h _ _ b), hmechanical]
  simp only [liftM_ok, pure_bind_apply]
  rw [Solid.addStressSens_apply h, Solid.accumulate_accumulate]
  rw [dot_gather_eq_work, mul_assoc, mul_comm (Scalar.sum _), ← mul_add]
  refine congrArg (fun total => EStateM.Result.ok () (s.accumulate (scale * total) b)) ?_
  exact congrArg (s.response.density * · + _) (Scalar.sum_finRange _)

end Elasticity

/-! ## Conduction -/

namespace Conductor

variable (m : Material ℝ)

/-- A solid answers conduction. -/
theorem conduction_solid (s : Solid ℝ) (site : Site ℝ) :
    (⟨s⟩ : Conductor (Solid ℝ)).conduction site
      = .ok (s.response.conduction.scale s.thickness) := by
  unfold conduction
  rw [fill_of_ok (s.tangentConduction_apply site _)]
  rfl

/-- The capacity of a solid is quadratic in its thickness. -/
theorem capacity_solid (s : Solid ℝ) (site : Site ℝ) :
    (⟨s⟩ : Conductor (Solid ℝ)).capacity site
      = s.thickness ^ 2 * (s.response.density * s.response.specificHeat) := by
  unfold capacity
  rw [Solid.density_eq, Solid.specificHeat_eq]
  ring

/-- The adjoint value times the rate. -/
noncomputable def storage (data : PointData dims ℝ) (a : AdjointData dims ℝ) : ℝ :=
  a.psi.get (timeSlot rate).1 * component (timeSlot rate) data.values

/-- The pairing of the flux with the adjoint gradient. -/
noncomputable def dissipation (data : PointData dims ℝ) (a : AdjointData dims ℝ) : ℝ :=
  Conduction.pairing (m.conduction.mulVec (gradient data.ux)) a.psix

/-- The residual of a solid is quadratic in its thickness, which scales the capacity twice and the
flux once. -/
theorem pairing_form (t : ℝ) (data : PointData dims ℝ) (a : AdjointData dims ℝ) :
    a.pairing (form (t ^ 2 * (m.density * m.specificHeat)) (m.conduction.scale t) data.values)
      = t ^ 2 * (m.density * m.specificHeat * storage data a) + t * dissipation m data a := by
  set F := form (t ^ 2 * (m.density * m.specificHeat)) (m.conduction.scale t) data.values with hF
  have htime : ∑ s : Fin 3, component (timeSlot s) F
      = t ^ 2 * (m.density * m.specificHeat) * component (timeSlot rate) data.values := by
    rw [Fin.sum_univ_three]
    show 0 + _ + 0 = _
    rw [zero_add, add_zero]
    rfl
  show ∑ k : Fin 1, (a.psi.get k * ((∑ s : Fin 3, component (timeSlot s) F) + 0)
    + ∑ j : Fin 2, a.gradient k j * component (gradSlot j) F) = _
  rw [Fin.sum_univ_one, Fin.sum_univ_two, htime, add_zero]
  show _ + (a.gradient (0 : Fin 1) (0 : Fin 2)
      * (t * m.conduction.k11 * component (gradSlot 0) data.values
        + t * m.conduction.k12 * component (gradSlot 1) data.values)
    + a.gradient (0 : Fin 1) (1 : Fin 2)
      * (t * m.conduction.k12 * component (gradSlot 0) data.values
        + t * m.conduction.k22 * component (gradSlot 1) data.values)) = _
  have hdissipation : dissipation m data a
      = (m.conduction.k11 * component (gradSlot 0) data.values
          + m.conduction.k12 * component (gradSlot 1) data.values)
            * a.gradient (0 : Fin 1) (0 : Fin 2)
        + (m.conduction.k12 * component (gradSlot 0) data.values
          + m.conduction.k22 * component (gradSlot 1) data.values)
            * a.gradient (0 : Fin 1) (1 : Fin 2) := rfl
  rw [hdissipation, storage, timeSlot_fst]
  ring

/-- **The product of conduction**, with one term for each factor of the capacity. -/
theorem addWeakAdjoint_apply {s : Solid ℝ} {n : ℕ} (h : s.HasPlace n) (data : PointData dims ℝ)
    (place : Point ℝ) (a : AdjointData dims ℝ) (scale : ℝ) (b : Vector ℝ n) :
    (⟨s⟩ : Conductor (Solid ℝ)).addWeakAdjoint (data.pointAt place) a.psi.toArray a.psix.toArray
        scale b
      = .ok () (s.accumulate (scale * (2 * s.thickness
          * (s.response.density * s.response.specificHeat * storage data a)
          + dissipation s.response data a)) b) := by
  unfold addWeakAdjoint
  simp only [PointData.checkPoint_pointAt, AdjointData.checkAdjoint_toArray, liftM_length_ok,
    pure_bind_apply, PointData.site_pointAt]
  rw [bind_of_ok (Solid.addDensitySens_apply h _ _ b),
    bind_of_ok (Solid.addSpecificHeatSens_apply h _ _ _), Solid.density_eq, Solid.specificHeat_eq]
  refine (Solid.addHeatFluxSens_apply h _ scale (gradient data.ux) a.psix _).trans ?_
  rw [Solid.accumulate_accumulate, Solid.accumulate_accumulate]
  refine congrArg (fun amount => EStateM.Result.ok () (s.accumulate amount b)) ?_
  -- the derivative of one factor of the capacity times the other factor, twice, and the flux
  show scale * a.psi.get (0 : Fin 1) * component (timeSlot rate) data.values
      * (s.thickness * s.response.specificHeat) * s.response.density
    + (scale * a.psi.get (0 : Fin 1) * component (timeSlot rate) data.values
      * (s.thickness * s.response.density) * s.response.specificHeat
    + scale * dissipation s.response data a) = _
  unfold storage
  rw [timeSlot_fst]
  ring

end Conductor

/-! ## Exactness -/

variable (place : Point ℝ) (scale : ℝ)

/-- The product of elasticity is exact. -/
theorem Elasticity.hasExactAdjoint (thermalLoad : ℝ) (data : PointData Elasticity.dims ℝ)
    (a : AdjointData Elasticity.dims ℝ) :
    HasExactAdjoint (fun s => (⟨s, thermalLoad⟩ : Elasticity (Solid ℝ) ℝ)) (data.pointAt place)
      a.psi.toArray a.psix.toArray scale := by
  have hresidual : ∀ s : Solid ℝ, adjointResidual (⟨s, thermalLoad⟩ : Elasticity (Solid ℝ) ℝ)
      (data.pointAt place) a.psi.toArray a.psix.toArray
        = .ok (s.thickness * unitResidual s.response thermalLoad data a) := by
    intro s
    have hcoefficients : coefficients (⟨s, thermalLoad⟩ : Elasticity (Solid ℝ) ℝ)
        (data.pointAt place) = .ok _ :=
      fill_of_ok (weakIntegrand_of_answers (answers_solid thermalLoad s _) _)
    refine (adjointResidual_of_ok hcoefficients a).trans (congrArg Except.ok ?_)
    rw [Solid.density_eq]
    exact (congrArg a.pairing (Coefficients.values_ofValues _)).trans
      (pairing_form s.response thermalLoad s.thickness data a)
  refine .of_residual (fun s n b h => addWeakAdjoint_apply thermalLoad h data place a scale b)
    hresidual (fun s h => ?_)
  show 2 * h * (scale * unitResidual s.response thermalLoad data a)
    = scale * ((s.thickness + h) * unitResidual s.response thermalLoad data a
      - (s.thickness - h) * unitResidual s.response thermalLoad data a)
  ring

/-- The product of conduction is exact. -/
theorem Conductor.hasExactAdjoint (data : PointData Conductor.dims ℝ)
    (a : AdjointData Conductor.dims ℝ) :
    HasExactAdjoint (fun s => (⟨s⟩ : Conductor (Solid ℝ))) (data.pointAt place)
      a.psi.toArray a.psix.toArray scale := by
  have hresidual : ∀ s : Solid ℝ, adjointResidual (⟨s⟩ : Conductor (Solid ℝ))
      (data.pointAt place) a.psi.toArray a.psix.toArray
        = .ok (s.thickness ^ 2 * (s.response.density * s.response.specificHeat * storage data a)
          + s.thickness * dissipation s.response data a) := by
    intro s
    have hcoefficients : coefficients (⟨s⟩ : Conductor (Solid ℝ)) (data.pointAt place) = .ok _ :=
      fill_of_ok (weakIntegrand_of_ok (conduction_solid s _) _)
    refine (adjointResidual_of_ok hcoefficients a).trans (congrArg Except.ok ?_)
    rw [capacity_solid]
    exact (congrArg a.pairing (Coefficients.values_ofValues _)).trans
      (pairing_form s.response s.thickness data a)
  refine .of_residual (fun s n b h => addWeakAdjoint_apply h data place a scale b) hresidual
    (fun s h => ?_)
  show 2 * h * (scale * (2 * s.thickness
      * (s.response.density * s.response.specificHeat * storage data a)
      + dissipation s.response data a))
    = scale * (((s.thickness + h) ^ 2
          * (s.response.density * s.response.specificHeat * storage data a)
        + (s.thickness + h) * dissipation s.response data a)
      - ((s.thickness - h) ^ 2
          * (s.response.density * s.response.specificHeat * storage data a)
        + (s.thickness - h) * dissipation s.response data a))
  ring

/-- **The adjoint products of both kinds of physics are exact**, for every solid, with or without a
material, at every point and for every adjoint. -/
theorem hasExactAdjoint_solid :
    (∀ (thermalLoad : ℝ) (data : PointData Elasticity.dims ℝ) (a : AdjointData Elasticity.dims ℝ),
        HasExactAdjoint (fun s => (⟨s, thermalLoad⟩ : Elasticity (Solid ℝ) ℝ)) (data.pointAt place)
          a.psi.toArray a.psix.toArray scale)
      ∧ ∀ (data : PointData Conductor.dims ℝ) (a : AdjointData Conductor.dims ℝ),
        HasExactAdjoint (fun s => (⟨s⟩ : Conductor (Solid ℝ))) (data.pointAt place)
          a.psi.toArray a.psix.toArray scale :=
  ⟨fun thermalLoad data a => Elasticity.hasExactAdjoint place scale thermalLoad data a,
    fun data a => Conductor.hasExactAdjoint place scale data a⟩

end WeakForm
