import WeakForm.Proofs.AdjointProduct
import WeakForm.Proofs.Compliance

/-!
# The energy of an increment

The Jacobian of elasticity is the second derivative of an energy. Between two increments it takes
the product of their accelerations times the density, and the product of their strains by the
tangent, in which each strain gathers what the gradients of an increment contribute to it
(`Elasticity.dotProduct_listedMatrix`). **The tangent is symmetric, so the Jacobian is**, and its
quadratic form is that of the density and that of the tangent, side by side.

A material is admitted by the least eigenvalue of its stiffness, so the energy of no increment is
negative but for the tolerance of that test.
-/

namespace WeakForm

open Dims ElementModel Matrix

namespace Elasticity

/-- The strain of an increment of the slots. -/
def slotStrain (z : dims.Slot → ℝ) (m : Fin 6) : ℝ :=
  ∑ k, ∑ j, if voigt k j = m then z (gradSlot k j) else 0

/-- **A Jacobian is that of an energy**: it is symmetric, and the energy of an increment is that of
its accelerations and that of its strain. -/
structure HasEnergy (J : Matrix dims.Slot dims.Slot ℝ) (density : ℝ) (K : Stiffness ℝ) : Prop where
  isSymm : J.IsSymm
  form_eq : ∀ z, z ⬝ᵥ J *ᵥ z
    = density * ∑ k, z (timeSlot k acceleration) ^ 2
      + slotStrain z ⬝ᵥ K.toMatrix *ᵥ slotStrain z

/-- A sum over the slots: those by time, then those by space. -/
theorem sum_slots (f : dims.Slot → ℝ) :
    ∑ r, f r = ∑ k, ∑ s, f (timeSlot k s) + ∑ k, ∑ j, f (gradSlot k j) := by
  simp only [Fintype.sum_prod_type, Fintype.sum_sum_type, Finset.sum_add_distrib]
  rfl

variable [Waves] (density : ℝ) (K : Stiffness ℝ) (y z : dims.Slot → ℝ)

/-- Stresses on the gradients of an increment are stresses on its strain. -/
theorem sum_mul_slotStrain (stress : Fin 6 → ℝ) :
    ∑ k, ∑ j, z (gradSlot k j) * stress (voigt k j) = slotStrain z ⬝ᵥ stress := by
  have hgather : slotStrain z = (gather fun k j => z (gradSlot k j)).get :=
    funext fun m => (get_gather _ m).symm
  rw [hgather, dotProduct_comm, dotProduct, sum_mul_gather stress]
  simp only [mul_comm]

/-- A row by space meets the stress of an increment. -/
theorem listedMatrix_mulVec_gradSlot (k j : Fin 3) :
    (listedMatrix (listed density K) *ᵥ z) (gradSlot k j)
      = (K.toMatrix *ᵥ slotStrain z) (voigt k j) := by
  rw [mulVec, mulVec, dotProduct, sum_listedMatrix_gradSlot, dotProduct_comm, ← sum_mul_slotStrain]
  exact Finset.sum_congr rfl fun l _ => Finset.sum_congr rfl fun b _ => mul_comm _ _

/-- **The product of two increments by the Jacobian** is that of their accelerations and that of
their strains. -/
theorem dotProduct_listedMatrix :
    y ⬝ᵥ listedMatrix (listed density K) *ᵥ z
      = density * ∑ k, y (timeSlot k acceleration) * z (timeSlot k acceleration)
        + slotStrain y ⬝ᵥ K.toMatrix *ᵥ slotStrain z := by
  have htime : ∀ k, ∑ s, y (timeSlot k s)
      * (listedMatrix (listed density K) *ᵥ z) (timeSlot k s)
        = density * (y (timeSlot k acceleration) * z (timeSlot k acceleration)) := by
    intro k
    simp only [mulVec, dotProduct, sum_listedMatrix_timeSlot, mul_ite, mul_zero,
      Finset.sum_ite_eq', Finset.mem_univ, if_true, mul_left_comm]
  rw [dotProduct, sum_slots]
  simp only [htime, listedMatrix_mulVec_gradSlot, sum_mul_slotStrain, Finset.mul_sum]

/-- **The Jacobian of elasticity is that of an energy.** -/
theorem hasEnergy_listedMatrix : HasEnergy (listedMatrix (listed density K)) density K where
  isSymm := by
    have hcomm : ∀ y z : dims.Slot → ℝ, y ⬝ᵥ listedMatrix (listed density K) *ᵥ z
        = z ⬝ᵥ listedMatrix (listed density K) *ᵥ y := by
      intro y z
      rw [dotProduct_listedMatrix, dotProduct_listedMatrix, K.dotProduct_mulVec_comm]
      simp only [mul_comm (y _)]
    refine IsSymm.ext fun r c => ?_
    simpa using hcomm (Pi.single c 1) (Pi.single r 1)
  form_eq := fun z => by simp only [dotProduct_listedMatrix, pow_two]

/-! ## Solids -/

variable {s : Solid ℝ} {m : Material ℝ}

/-- **The energy of an increment of a built material is not negative**, but for the tolerance of
the test that its stiffness has passed. -/
theorem le_energy [Spectral ℝ] [Spectral.IsExact] (hm : m.IsBuilt) {t : ℝ} (ht : 0 ≤ t) :
    -1e-12 * t * (⨆ i : Fin 21, |m.stiffness.packed.get i|) * (slotStrain z ⬝ᵥ slotStrain z)
      ≤ t * m.density * ∑ k, z (timeSlot k acceleration) ^ 2
        + slotStrain z ⬝ᵥ (m.stiffness.scale t).toMatrix *ᵥ slotStrain z := by
  have hkinetic : 0 ≤ t * m.density * ∑ k, z (timeSlot k acceleration) ^ 2 :=
    mul_nonneg (mul_nonneg ht hm.isAdmitted.density_nonneg)
      (Finset.sum_nonneg fun k _ => sq_nonneg _)
  have hstrain := mul_le_mul_of_nonneg_left (hm.isAdmitted.le_quadraticForm (slotStrain z)) ht
  calc -1e-12 * t * (⨆ i : Fin 21, |m.stiffness.packed.get i|) * (slotStrain z ⬝ᵥ slotStrain z)
      = t * (-1e-12 * m.stiffness.magnitude * (slotStrain z ⬝ᵥ slotStrain z)) := by
        rw [m.stiffness.magnitude_eq_iSup]
        ring
    _ ≤ t * (slotStrain z ⬝ᵥ m.stiffness.toMatrix *ᵥ slotStrain z) := hstrain
    _ = slotStrain z ⬝ᵥ (m.stiffness.scale t).toMatrix *ᵥ slotStrain z := by
        rw [Stiffness.toMatrix_scale, smul_mulVec, dotProduct_smul, smul_eq_mul]
    _ ≤ _ := le_add_of_nonneg_left hkinetic

/-- **The Jacobian of elasticity is that of an energy which no material makes negative**: for every
solid, with or without a material, at every point and under every thermal load it is symmetric and
has the energy of the density and the tangent of the solid; and where the material is one that is
built, and the thickness is not negative, the energy is not negative but for the tolerance of
admission. -/
theorem exists_hasEnergy [Spectral ℝ] [Spectral.IsExact] (s : Solid ℝ) (thermalLoad : ℝ)
    (place : Point ℝ) (x : Vector ℝ 3) :
    ∃ f J K,
      IsLinearization (⟨s, thermalLoad⟩ : Elasticity (Solid ℝ) ℝ) place x (.sparse pattern) f J
      ∧ Evaluation.fill (Vector.replicate 21 0)
          (Constitutive.tangentStiffness s (PointData.siteAt x place)) = .ok K.packed
      ∧ HasEnergy J (Constitutive.density s (PointData.siteAt x place)) K
      ∧ ∀ m : Material ℝ, s.material = some m → m.IsBuilt → 0 ≤ s.thickness → ∀ z,
        -1e-12 * s.thickness * (⨆ i : Fin 21, |m.stiffness.packed.get i|)
          * (slotStrain z ⬝ᵥ slotStrain z) ≤ z ⬝ᵥ J *ᵥ z := by
  refine ⟨_, _, _, isLinearization (answers_solid thermalLoad s _),
    fill_of_ok (s.tangentStiffness_apply _ _), hasEnergy_listedMatrix _ _, ?_⟩
  intro m hs hm ht z
  have hresponse : s.response = m := by
    unfold Solid.response
    rw [hs]
    rfl
  refine (le_energy z hm ht).trans_eq ?_
  rw [(hasEnergy_listedMatrix _ _).form_eq, ← hresponse, ← s.density_eq]

end Elasticity

/-- A solid of a material that is built. -/
theorem Elasticity.exists_hasEnergy_sample :
    ∃ m, @Material.orthotropic? ℝ _ Spectral.exact "sample" 1 .sample 1 = .ok m
      ∧ ∃ f J K, IsLinearization (⟨⟨some m, 2, none, 0, 0⟩, 3⟩ : Elasticity (Solid ℝ) ℝ)
          ⟨0, 0, 0, #[], #[], #[], #[]⟩ #v[0, 0, 0] (.sparse Elasticity.pattern) f J
        ∧ HasEnergy J (2 * m.density) K
        ∧ ∀ z, -1e-12 * 2 * (⨆ i : Fin 21, |m.stiffness.packed.get i|)
          * (slotStrain z ⬝ᵥ slotStrain z) ≤ z ⬝ᵥ J *ᵥ z := by
  let _ := Spectral.exact
  have _ := Spectral.isExact_exact
  obtain ⟨m, hm⟩ := Material.exists_orthotropic?_sample
  obtain ⟨f, J, K, hlinear, -, henergy, hbound⟩ :=
    exists_hasEnergy ⟨some m, 2, none, 0, 0⟩ 3 ⟨0, 0, 0, #[], #[], #[], #[]⟩ #v[0, 0, 0]
  exact ⟨m, hm, f, J, K, hlinear, henergy, hbound m rfl (.orthotropic hm) zero_le_two⟩

end WeakForm
