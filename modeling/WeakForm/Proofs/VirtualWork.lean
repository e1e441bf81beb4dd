import WeakForm.Proofs.ElasticQuantities

/-!
# Virtual work

The coefficients by space are the stress, scattered over the displacement gradients. Adjoint
gradients do work on them, and since gathering is scattering turned around, that is **the work of
the strain of the adjoint gradients on the stress** (`Elasticity.virtualWork_scatterMap`).

Strain and stress are linear maps, and so are the coefficients, as a function of the thermal load
and of the values by space together (`Elasticity.forces`). Motions without strain are then nothing
but the kernel of the strain, in which all skew gradients lie: as adjoint gradients they do no work,
and added to the displacement gradients they change neither a coefficient nor a quantity that is
read off the strain. All of this holds under any thermal load, whether the constitutive law is asked
for its strain or, without a load, is not.
-/

namespace WeakForm

open Dims ElementModel Matrix

namespace Elasticity

/-- **A skew array of gradients**, which is that of a rotation. -/
def IsSkew (g : Fin 3 → Fin 3 → ℝ) : Prop := ∀ k j, g k j = -g j k

theorem gradients_ofFn (v : Fin dims.uxLen → ℝ) :
    gradients (Vector.ofFn v) = fun k j : Fin 3 => v (spacePlace k j) := by
  funext k j
  refine (Vector.getElem_ofFn _).trans (congrArg v (Fin.ext ?_))
  show 4 * k.val + 1 + j.val = k.val * 4 + 1 + j.val
  rw [mul_comm]

variable [Waves]

/-! ## Strains, stresses and coefficients -/

/-- **A skew array of gradients has no strain.** -/
theorem gatherMap_of_isSkew {g : Fin 3 → Fin 3 → ℝ} (h : IsSkew g) : gatherMap g = 0 := by
  have hdiagonal : ∀ k, g k k = 0 := fun k => by linarith [h k k]
  ext i
  rw [gatherMap_apply]
  fin_cases i <;> simp [gather, Vector.get_eq_getElem, hdiagonal]
  · rw [h, neg_add_cancel]
  · rw [h, neg_add_cancel]
  · rw [h, neg_add_cancel]

/-- The strain of values by space. -/
noncomputable def strainMap : (Fin dims.uxLen → ℝ) →ₗ[ℝ] Fin 6 → ℝ :=
  gatherMap ∘ₗ ⟨⟨fun v k j => v (spacePlace k j), fun _ _ => rfl⟩, fun _ _ => rfl⟩

theorem strainMap_apply (v : Fin dims.uxLen → ℝ) :
    strainMap v = (strain (Vector.ofFn v)).get := by
  unfold strain
  rw [gradients_ofFn]
  rfl

/-- A displacement with a skew gradient has no strain. -/
theorem strainMap_of_isSkew {ux : Fin dims.uxLen → ℝ} (h : IsSkew (gradients (Vector.ofFn ux))) :
    strainMap ux = 0 := by
  rw [gradients_ofFn] at h
  exact gatherMap_of_isSkew h

/-- A stress, scattered. -/
noncomputable def scattered (stress : Fin 6 → ℝ) : Fin dims.uxLen → ℝ :=
  (scatter (Vector.ofFn stress)).get

theorem scattered_spacePlace (stress : Fin 6 → ℝ) (k : Fin dims.varsPerNode)
    (j : Fin dims.spatialDim) : scattered stress (spacePlace k j) = stress (voigt k j) := by
  have hplace : scattered stress (spacePlace k j) = (Vector.ofFn stress)[voigt k j] := by
    fin_cases k <;> fin_cases j <;> rfl
  exact hplace.trans (Vector.getElem_ofFn _)

theorem scattered_valuePlace (stress : Fin 6 → ℝ) (k : Fin dims.varsPerNode) :
    scattered stress (valuePlace k) = 0 := by
  fin_cases k <;> rfl

/-- Scattering is linear. -/
noncomputable def scatterMap : (Fin 6 → ℝ) →ₗ[ℝ] Fin dims.uxLen → ℝ where
  toFun := scattered
  map_add' s t := by
    ext i
    obtain ⟨k, rfl⟩ | ⟨k, j, rfl⟩ := exists_spacePlace (d := dims) i
    · simp only [Pi.add_apply, scattered_valuePlace, add_zero]
    · simp only [Pi.add_apply, scattered_spacePlace]
  map_smul' c s := by
    ext i
    obtain ⟨k, rfl⟩ | ⟨k, j, rfl⟩ := exists_spacePlace (d := dims) i
    · simp only [Pi.smul_apply, scattered_valuePlace, smul_zero]
    · simp only [Pi.smul_apply, scattered_spacePlace, RingHom.id_apply]

theorem scatterMap_spacePlace (stress : Fin 6 → ℝ) (k j : Fin 3) :
    scatterMap stress (spacePlace k j) = stress (voigt k j) := scattered_spacePlace stress k j

/-- The work of adjoint gradients on coefficients by space. -/
noncomputable def virtualWork (g : Fin 3 → Fin 3 → ℝ) (c : Fin dims.uxLen → ℝ) : ℝ :=
  ∑ k : Fin 3, ∑ j : Fin 3, g k j * c (spacePlace k j)

/-- **Adjoint gradients do the work of their strain on the stress.** -/
theorem virtualWork_scatterMap (g : Fin 3 → Fin 3 → ℝ) (stress : Fin 6 → ℝ) :
    virtualWork g (scatterMap stress) = (gather g).get ⬝ᵥ stress := by
  unfold virtualWork
  simp only [scatterMap_spacePlace]
  rw [dotProduct_comm]
  exact (Finset.sum_congr rfl fun k _ => Finset.sum_congr rfl fun j _ => mul_comm _ _).trans
    (sum_mul_gather stress g).symm

/-- **The coefficients by space**, as a linear function of a thermal load and the values by space:
the stress of the strain less the thermal strain, scattered. -/
noncomputable def forces (C : Stiffness ℝ) (thermal : Voigt ℝ) :
    ℝ × (Fin dims.uxLen → ℝ) →ₗ[ℝ] Fin dims.uxLen → ℝ :=
  scatterMap ∘ₗ C.toMatrix.mulVecLin
    ∘ₗ (strainMap ∘ₗ LinearMap.snd ℝ ℝ _ - (LinearMap.fst ℝ ℝ _).smulRight thermal.get)

variable (C : Stiffness ℝ) (thermal : Voigt ℝ) (theta : ℝ) (ux : Fin dims.uxLen → ℝ)

theorem forces_apply :
    forces C thermal (theta, ux)
      = scatterMap (C.toMatrix *ᵥ (strainMap ux - theta • thermal.get)) := rfl

/-- What the weak form writes by space. -/
theorem snd_form (density : ℝ) (u : dims.Values) :
    (form density C (thermal.map (theta * ·)) u).2 = forces C thermal (theta, u.2) := by
  have hstrain : (Vector.zipWith (· - ·) (gather fun k j => component (gradSlot k j) u)
      (thermal.map (theta * ·))).get = strainMap u.2 - theta • thermal.get := by
    ext i
    show (Vector.zipWith (· - ·) _ _)[i.val] = strainMap u.2 i - theta * thermal[i.val]
    rw [Vector.getElem_zipWith, Vector.getElem_map]
    rfl
  rw [forces_apply, ← hstrain, ← C.mulVec_eq]
  show (scatter _).get = (scatter (Vector.ofFn _)).get
  rw [ofFn_get]

theorem virtualWork_forces (g : Fin 3 → Fin 3 → ℝ) :
    virtualWork g (forces C thermal (theta, ux))
      = (gather g).get ⬝ᵥ C.toMatrix *ᵥ (strainMap ux - theta • thermal.get) := by
  rw [forces_apply, virtualWork_scatterMap]

variable {C thermal theta ux}

/-- A skew array of adjoint gradients does no work. -/
theorem virtualWork_of_isSkew {g : Fin 3 → Fin 3 → ℝ} (h : IsSkew g) :
    virtualWork g (forces C thermal (theta, ux)) = 0 := by
  rw [virtualWork_forces, ← gatherMap_apply, gatherMap_of_isSkew h, zero_dotProduct]

/-- A motion without strain leaves the coefficients as they are. -/
theorem forces_add_of_strain {du : Fin dims.uxLen → ℝ} (h : strainMap du = 0) :
    forces C thermal (theta, ux + du) = forces C thermal (theta, ux) := by
  rw [forces_apply, forces_apply, map_add, h, add_zero]

/-- A thermal strain that is free to happen leaves no coefficients. -/
theorem forces_eq_zero (h : strainMap ux = theta • thermal.get) :
    forces C thermal (theta, ux) = 0 := by
  rw [forces_apply, h, sub_self, mulVec_zero, map_zero]

/-- The mechanical strain does not see a motion without strain. -/
theorem strainOf_add_of_strain {m : Material ℝ} {u du : dims.Values} (h : strainMap du.2 = 0) :
    strainOf m theta (u + du) = strainOf m theta u := by
  have hadd : ∀ i : Fin 6, (strainOf m theta (u + (1 : ℝ) • du)).get i = _ :=
    get_strainOf_add u du 1
  rw [one_smul] at hadd
  have hzero : ∀ i, (gather fun k j => component (gradSlot k j) du).get i = 0 := congrFun h
  refine Vector.ext fun i hi => (hadd ⟨i, hi⟩).trans ?_
  rw [hzero, mul_zero, add_zero]
  rfl

/-! ## The weak form of a solid -/

/-- **Coefficients by space that obey the principle of virtual work**: at a place, the tangent of
the solid is `C`, its strain under a unit thermal load is `expansion`, and the coefficients are a
linear function `F` of the thermal load and the values by space together. -/
structure HasVirtualWork (s : Solid ℝ) (place : Point ℝ) (x : Vector ℝ 3) (C : Stiffness ℝ)
    (expansion : Voigt ℝ) (F : ℝ × (Fin dims.uxLen → ℝ) →ₗ[ℝ] Fin dims.uxLen → ℝ) : Prop where
  tangent_eq : Evaluation.fill (Vector.replicate 21 0)
    (Constitutive.tangentStiffness s (PointData.siteAt x place)) = .ok C.packed
  thermalStrain_eq : ∀ theta, Evaluation.fill (Vector.replicate 6 0)
    (Constitutive.thermalStrain s (PointData.siteAt x place) theta)
      = .ok (expansion.map (theta * ·))
  weakIntegrand_eq : ∀ theta ut ux (buffers : Coefficients ℝ dims.utLen dims.uxLen), ∃ dut,
    ElementModel.weakIntegrand (⟨s, theta⟩ : Elasticity (Solid ℝ) ℝ)
        ((PointData.ofValues x (ut, ux)).pointAt place) buffers
      = .ok () ⟨dut, Vector.ofFn (F (theta, ux))⟩
  /-- The work of adjoint gradients is that of their strain on the stress. -/
  work_eq : ∀ theta ux g, virtualWork g (F (theta, ux))
    = (gather g).get ⬝ᵥ C.toMatrix *ᵥ ((strain (Vector.ofFn ux)).get - theta • expansion.get)
  /-- A rotation does no work. -/
  work_eq_zero : ∀ theta ux g, IsSkew g → virtualWork g (F (theta, ux)) = 0
  /-- A rotation leaves the coefficients as they are. -/
  add_eq : ∀ theta ux (du : Fin dims.uxLen → ℝ),
    IsSkew (gradients (Vector.ofFn du)) → F (theta, ux + du) = F (theta, ux)
  /-- A rotation leaves the quantities as they are that are read off the strain. -/
  quantityValues_add_eq : ∀ theta ut ux (du : Fin dims.uxLen → ℝ) xd,
    ∀ tag ∈ [QuantityTag.failureIndex, .strainEnergyDensity],
      IsSkew (gradients (Vector.ofFn du)) → ∃ value,
        quantityValues (⟨s, theta⟩ : Elasticity (Solid ℝ) ℝ) tag
            ((PointData.ofValues x (ut, ux)).pointAt place) xd = .ok [value]
          ∧ quantityValues (⟨s, theta⟩ : Elasticity (Solid ℝ) ℝ) tag
            ((PointData.ofValues x (ut, ux + du)).pointAt place) xd = .ok [value]
  /-- A strain that is the thermal strain leaves no coefficients. -/
  eq_zero : ∀ theta (ux : Fin dims.uxLen → ℝ),
    (strain (Vector.ofFn ux)).get = theta • expansion.get → F (theta, ux) = 0

/-- A quantity that is read off the mechanical strain does not see a motion without strain. -/
theorem quantityValues_add_of_strain {s : Solid ℝ} {place : Point ℝ} {x : Vector ℝ 3}
    {tag : QuantityTag} {xd : Array ℝ} (q : Voigt ℝ → ℝ)
    {gradient : Array ℝ → dims.Values → dims.Values}
    (h : Evaluates (⟨s, theta⟩ : Elasticity (Solid ℝ) ℝ) tag place xd
      (fun u (_ : Fin 1) => q (strainOf s.response theta u)) gradient)
    {ut : Fin dims.utLen → ℝ} {du : Fin dims.uxLen → ℝ} (hdu : strainMap du = 0) :
    ∃ value, quantityValues (⟨s, theta⟩ : Elasticity (Solid ℝ) ℝ) tag
          ((PointData.ofValues x (ut, ux)).pointAt place) xd = .ok [value]
        ∧ quantityValues (⟨s, theta⟩ : Elasticity (Solid ℝ) ℝ) tag
          ((PointData.ofValues x (ut, ux + du)).pointAt place) xd = .ok [value] := by
  have hstrain : strainOf s.response theta (ut, ux + du) = strainOf s.response theta (ut, ux) := by
    have hadd : strainOf s.response theta ((ut, ux) + (0, du)) = _ := strainOf_add_of_strain hdu
    rwa [Prod.mk_add_mk, add_zero] at hadd
  have hvalues : ∀ u, quantityValues (⟨s, theta⟩ : Elasticity (Solid ℝ) ℝ) tag
      ((PointData.ofValues x u).pointAt place) xd = .ok [q (strainOf s.response theta u)] := by
    intro u
    have hu := h.quantityValues_eq (PointData.ofValues x u)
    rwa [PointData.values_ofValues, List.ofFn_succ, List.ofFn_zero] at hu
  exact ⟨_, hvalues _, (hvalues _).trans (by rw [hstrain])⟩

/-- Evaluating the weak form of a solid. -/
theorem weakIntegrand_solid (s : Solid ℝ) (place : Point ℝ) (x : Vector ℝ 3) (u : dims.Values)
    (buffers : Coefficients ℝ dims.utLen dims.uxLen) :
    ∃ dut, weakIntegrand (⟨s, theta⟩ : Elasticity (Solid ℝ) ℝ)
        ((PointData.ofValues x u).pointAt place) buffers
      = .ok () ⟨dut, Vector.ofFn (forces (s.response.stiffness.scale s.thickness)
          s.response.thermalStrain (theta, u.2))⟩ := by
  have hform := weakIntegrand_of_answers (show Answers _ (PointData.siteAt
    (PointData.ofValues (d := dims) x u).x place) _ _ from answers_solid theta s _) buffers
  unfold Coefficients.ofValues at hform
  rw [PointData.values_ofValues, snd_form] at hform
  exact ⟨_, hform⟩

/-- **The weak form of elasticity obeys the principle of virtual work**, for every solid, with or
without a material, at every point and under every thermal load. -/
theorem exists_hasVirtualWork (s : Solid ℝ) (place : Point ℝ) (x : Vector ℝ 3) :
    ∃ C expansion F, HasVirtualWork s place x C expansion F := by
  refine ⟨s.response.stiffness.scale s.thickness, s.response.thermalStrain,
    forces (s.response.stiffness.scale s.thickness) s.response.thermalStrain, ?_⟩
  exact {
    tangent_eq := fill_of_ok (s.tangentStiffness_apply _ _)
    thermalStrain_eq := fun theta => fill_of_ok (s.thermalStrain_apply _ theta _)
    weakIntegrand_eq := fun theta ut ux buffers => weakIntegrand_solid s place x (ut, ux) buffers
    work_eq := fun theta ux g => by rw [virtualWork_forces, strainMap_apply]
    work_eq_zero := fun theta ux g hg => virtualWork_of_isSkew hg
    add_eq := fun theta ux du hdu => forces_add_of_strain (strainMap_of_isSkew hdu)
    quantityValues_add_eq := by
      intro theta ut ux du xd tag htag hdu
      rw [List.mem_pair] at htag
      obtain rfl | rfl := htag
      · exact quantityValues_add_of_strain
          (fun strain => s.response.failure (s.response.stiffness.mulVec strain))
          evaluates_failure (strainMap_of_isSkew hdu)
      · exact quantityValues_add_of_strain (s.response.stiffness.scale s.thickness).energy
          evaluates_energy (strainMap_of_isSkew hdu)
    eq_zero := fun theta ux h => forces_eq_zero (by rwa [strainMap_apply]) }

end Elasticity

end WeakForm
