import WeakForm.Proofs.Compliance
import WeakForm.Proofs.PartialNumbers

/-!
# Isotropic materials

An isotropic material treats all axes alike, and so does its compliance: each of them is given by
one number on the diagonal of its normal block and one beside it (`Matrix3.even`). Such a block has
two eigenvalues, that of a change of volume and that of a change of shape, and **blocks are inverse
to each other if both eigenvalues are**. For Young's modulus `E` and Poisson's ratio `ν` they are
`E/(1-2ν)` and `E/(1+ν)`, so the closed form of the stiffness is the inverse of the compliance.

The sign of the first one decides everything. Up to a ratio of one half it is positive, and so is
the energy of every strain, however negative or large single entries are. Beyond one half it is
negative, and **no entry of the stiffness is larger than it** (`magnitude_isotropicStiffness_le`),
so the tolerance of the test for definiteness lets no such material through. The orthotropic
constructor, which has no other test of the ratio, therefore accepts the same constants
(`Material.constructorsAgree`).
-/

namespace WeakForm

open Matrix

/-! ## Blocks that treat all axes alike -/

namespace Matrix3

/-- One number on the diagonal and one beside it. -/
def even (same cross : ℝ) : Matrix3 ℝ :=
  ⟨same, cross, cross, cross, same, cross, cross, cross, same⟩

variable (same cross : ℝ)

theorem isSymm_even : (even same cross).toMatrix.IsSymm := by
  refine IsSymm.ext fun i j => ?_
  fin_cases i <;> fin_cases j <;> rfl

/-- The eigenvalue of a change of shape counts twice. -/
theorem det_even :
    (even same cross).toMatrix.det = (same - cross) ^ 2 * (same + 2 * cross) := by
  rw [det_fin_three]
  simp [toMatrix, even]
  ring

theorem dotProduct_even (x y z : ℝ) :
    ![x, y, z] ⬝ᵥ (even same cross).toMatrix *ᵥ ![x, y, z]
      = (same - cross) * (x ^ 2 + y ^ 2 + z ^ 2) + cross * (x + y + z) ^ 2 := by
  simp [dotProduct, mulVec, Fin.sum_univ_three, toMatrix, even]
  ring

variable {same cross}

/-- **Blocks are inverse to each other if their eigenvalues are.** -/
theorem even_mul_even {same' cross' : ℝ} (hshape : (same - cross) * (same' - cross') = 1)
    (hvolume : (same + 2 * cross) * (same' + 2 * cross') = 1) :
    (even same cross).toMatrix * (even same' cross').toMatrix = 1 := by
  have hdiagonal : same * same' + 2 * (cross * cross') = 1 := by
    linear_combination (2 * hshape + hvolume) / 3
  have hbeside : same * cross' + cross * same' + cross * cross' = 0 := by
    linear_combination (hvolume - hshape) / 3
  ext i j
  fin_cases i <;> fin_cases j <;> simp [mul_apply, Fin.sum_univ_three, toMatrix, even]
  all_goals linarith only [hdiagonal, hbeside]

end Matrix3

/-! ## The constants -/

/-- Lamé's first constant of Young's modulus and Poisson's ratio. -/
noncomputable def lameConstant (young poisson : ℝ) : ℝ :=
  young * poisson / ((1 + poisson) * (1 - (2 : ℕ) * poisson))

/-- The shear modulus of Young's modulus and Poisson's ratio. -/
noncomputable def shearModulus (young poisson : ℝ) : ℝ := young / ((2 : ℕ) * (1 + poisson))

/-- The engineering constants of a material that is the same along all axes. -/
noncomputable def EngineeringConstants.uniform (young poisson : ℝ) : EngineeringConstants ℝ where
  e1 := young
  e2 := young
  e3 := young
  nu12 := poisson
  nu13 := poisson
  nu23 := poisson
  g23 := shearModulus young poisson
  g13 := shearModulus young poisson
  g12 := shearModulus young poisson

/-- The common factor of the normal block of an isotropic stiffness. -/
noncomputable def isotropicFactor (young poisson : ℝ) : ℝ :=
  young / ((1 + poisson) * (1 - (2 : ℕ) * poisson))

/-- The normal block of an isotropic stiffness. -/
noncomputable def isotropicNormal (young poisson : ℝ) : Matrix3 ℝ :=
  .even (isotropicFactor young poisson * (1 - poisson)) (isotropicFactor young poisson * poisson)

section Constants

variable {young poisson : ℝ}

theorem isotropicFactor_mul_poisson :
    isotropicFactor young poisson * poisson = lameConstant young poisson := by
  rw [isotropicFactor, lameConstant, div_mul_eq_mul_div]

/-- **The eigenvalue of a change of shape** is twice the shear modulus. -/
theorem isotropicFactor_shape (h : 1 - 2 * poisson ≠ 0) :
    isotropicFactor young poisson * (1 - poisson) - isotropicFactor young poisson * poisson
      = young / (1 + poisson) := by
  rw [isotropicFactor, Nat.cast_ofNat, ← mul_sub, sub_sub, ← two_mul, ← div_div,
    div_mul_cancel₀ _ h]

/-- **The eigenvalue of a change of volume.** -/
theorem isotropicFactor_volume (h : 1 + poisson ≠ 0) :
    isotropicFactor young poisson * (1 - poisson) + 2 * (isotropicFactor young poisson * poisson)
      = young / (1 - 2 * poisson) := by
  rw [isotropicFactor, Nat.cast_ofNat, mul_comm (1 + poisson), ← div_div]
  linear_combination div_mul_cancel₀ (young / (1 - 2 * poisson)) h

theorem two_mul_shearModulus : 2 * shearModulus young poisson = young / (1 + poisson) := by
  rw [shearModulus, Nat.cast_ofNat, ← div_div, div_right_comm, mul_div_cancel₀ _ two_ne_zero]

/-- The compliance treats all axes alike. -/
theorem complianceMatrix_uniform :
    (EngineeringConstants.uniform young poisson).complianceMatrix
      = (Matrix3.even (1 / young) (-poisson / young)).toMatrix := rfl

variable [Waves]

/-- The stiffness is that of the engineering constants and of the normal block. -/
theorem isotropicStiffness_eq :
    Material.isotropicStiffness young poisson
      = (EngineeringConstants.uniform young poisson).stiffness (isotropicNormal young poisson) :=
  rfl

/-- **The closed form is the inverse of the compliance.** -/
theorem inverse?_uniform (hyoung : young ≠ 0) (hshape : 1 + poisson ≠ 0)
    (hvolume : 1 - 2 * poisson ≠ 0) :
    (EngineeringConstants.uniform young poisson).compliance.inverse?
      = some (isotropicNormal young poisson) := by
  have hcompliance : 1 / young - -poisson / young = (1 + poisson) / young
      ∧ 1 / young + 2 * (-poisson / young) = (1 - 2 * poisson) / young :=
    ⟨by ring, by ring⟩
  rw [Matrix3.inverse?_eq_some_iff, EngineeringConstants.toMatrix_compliance,
    complianceMatrix_uniform, Matrix3.det_even, hcompliance.1, hcompliance.2]
  refine ⟨mul_ne_zero (pow_ne_zero 2 (div_ne_zero hshape hyoung)) (div_ne_zero hvolume hyoung), ?_⟩
  refine (inv_eq_left_inv (Matrix3.even_mul_even ?_ ?_)).symm
  · rw [isotropicFactor_shape hvolume, hcompliance.1, div_mul_div_cancel₀ hshape, div_self hyoung]
  · rw [isotropicFactor_volume hshape, hcompliance.2, div_mul_div_cancel₀ hvolume,
      div_self hyoung]

/-- At a ratio of one half the compliance has no inverse. -/
theorem inverse?_uniform_half :
    (EngineeringConstants.uniform young (1 / 2)).compliance.inverse? = none := by
  rw [Matrix3.inverse?_eq_none_iff, EngineeringConstants.toMatrix_compliance,
    complianceMatrix_uniform, Matrix3.det_even]
  ring

end Constants

/-! ## Energy -/

/-- **The energy of strains by Lamé's constants**, which is positive. -/
structure Stiffness.HasLameEnergy [Waves] (K : Stiffness ℝ) (lame shear : ℝ) : Prop where
  energy_eq : ∀ e : Voigt ℝ, ∑ i : Fin 6, e.get i * (K.mulVec e).get i
    = lame * (e.xx + e.yy + e.zz) ^ 2 + 2 * shear * (e.xx ^ 2 + e.yy ^ 2 + e.zz ^ 2)
      + shear * (e.yz ^ 2 + e.xz ^ 2 + e.xy ^ 2)
  energy_pos : ∀ e : Voigt ℝ, e.get ≠ 0 → 0 < ∑ i : Fin 6, e.get i * (K.mulVec e).get i

section Energy

variable [Waves] {young poisson : ℝ}

theorem energy_isotropicStiffness (h : 1 - 2 * poisson ≠ 0) (e : Voigt ℝ) :
    e.get ⬝ᵥ (Material.isotropicStiffness young poisson).toMatrix *ᵥ e.get
      = lameConstant young poisson * (e.xx + e.yy + e.zz) ^ 2
        + 2 * shearModulus young poisson * (e.xx ^ 2 + e.yy ^ 2 + e.zz ^ 2)
        + shearModulus young poisson * (e.yz ^ 2 + e.xz ^ 2 + e.xy ^ 2) := by
  rw [isotropicStiffness_eq, isotropicNormal,
    EngineeringConstants.dotProduct_stiffness _ (Matrix3.isSymm_even _ _),
    Matrix3.dotProduct_even, isotropicFactor_shape h, isotropicFactor_mul_poisson,
    ← two_mul_shearModulus]
  unfold EngineeringConstants.uniform
  ring

/-- Three times the first constant and twice the shear modulus resist a change of volume. -/
theorem lameConstant_volume (hshape : 1 + poisson ≠ 0) (hvolume : 1 - 2 * poisson ≠ 0) :
    3 * lameConstant young poisson + 2 * shearModulus young poisson
      = young / (1 - 2 * poisson) := by
  rw [← isotropicFactor_volume hshape, two_mul_shearModulus, ← isotropicFactor_shape hvolume,
    ← isotropicFactor_mul_poisson]
  ring

/-- **Energy of shape, energy of volume, and energy of shear.** -/
theorem energy_isotropicStiffness' (hshape : 1 + poisson ≠ 0) (hvolume : 1 - 2 * poisson ≠ 0)
    (e : Voigt ℝ) :
    e.get ⬝ᵥ (Material.isotropicStiffness young poisson).toMatrix *ᵥ e.get
      = shearModulus young poisson * (2 / 3 * ((e.xx - e.yy) ^ 2 + (e.xx - e.zz) ^ 2
          + (e.yy - e.zz) ^ 2) + (e.yz ^ 2 + e.xz ^ 2 + e.xy ^ 2))
        + young / (1 - 2 * poisson) * ((e.xx + e.yy + e.zz) ^ 2 / 3) := by
  rw [energy_isotropicStiffness hvolume, ← lameConstant_volume hshape hvolume]
  ring

omit [Waves] in
theorem shearModulus_pos (hyoung : 0 < young) (hshape : -1 < poisson) :
    0 < shearModulus young poisson :=
  div_pos hyoung (mul_pos (by norm_num) (by linarith))

theorem min_modulus_pos (hyoung : 0 < young) (hshape : -1 < poisson) (hvolume : poisson < 1 / 2) :
    0 < min (shearModulus young poisson) (young / (1 - 2 * poisson)) :=
  lt_min (shearModulus_pos hyoung hshape) (div_pos hyoung (by linarith))

/-- **The lesser of the two moduli bounds the energy** from below. -/
theorem min_mul_le_energy (hyoung : 0 < young) (hshape : -1 < poisson) (hvolume : poisson < 1 / 2)
    (e : Voigt ℝ) :
    min (shearModulus young poisson) (young / (1 - 2 * poisson)) * (e.get ⬝ᵥ e.get)
      ≤ e.get ⬝ᵥ (Material.isotropicStiffness young poisson).toMatrix *ᵥ e.get := by
  have hself : e.get ⬝ᵥ e.get = e.xx * e.xx + e.yy * e.yy + e.zz * e.zz + e.yz * e.yz
      + e.xz * e.xz + e.xy * e.xy := by
    rw [dotProduct, Fin.sum_univ_six]
    rfl
  have hsplit : e.get ⬝ᵥ e.get = (((e.xx - e.yy) ^ 2 + (e.xx - e.zz) ^ 2 + (e.yy - e.zz) ^ 2) / 3
      + (e.yz ^ 2 + e.xz ^ 2 + e.xy ^ 2)) + (e.xx + e.yy + e.zz) ^ 2 / 3 := by
    rw [hself]
    ring
  rw [energy_isotropicStiffness' (by linarith) (by linarith), hsplit, mul_add]
  refine add_le_add ?_ ?_
  · refine mul_le_mul (min_le_left _ _) ?_ (by positivity) (shearModulus_pos hyoung hshape).le
    linarith only [sq_nonneg (e.xx - e.yy), sq_nonneg (e.xx - e.zz), sq_nonneg (e.yy - e.zz)]
  · exact mul_le_mul_of_nonneg_right (min_le_right _ _) (by positivity)

/-- **The stiffness of constants in the physical range has positive energy.** -/
theorem hasLameEnergy_isotropicStiffness (hyoung : 0 < young) (hshape : -1 < poisson)
    (hvolume : poisson < 1 / 2) :
    (Material.isotropicStiffness young poisson).HasLameEnergy (lameConstant young poisson)
      (shearModulus young poisson) where
  energy_eq e := by
    rw [← energy_isotropicStiffness (by linarith) e, ← Stiffness.mulVec_eq]
    rfl
  energy_pos e he := by
    have hself : 0 < e.get ⬝ᵥ e.get :=
      lt_of_le_of_ne (Finset.sum_nonneg fun i _ => mul_self_nonneg _)
        (Ne.symm (dotProduct_self_eq_zero.not.mpr he))
    have henergy := (mul_pos (min_modulus_pos hyoung hshape hvolume) hself).trans_le
      (min_mul_le_energy hyoung hshape hvolume e)
    rwa [← Stiffness.mulVec_eq] at henergy

/-! ## Acceptance -/

/-- The entries of an isotropic stiffness are few. -/
theorem magnitude_isotropicStiffness_le_iff (b : ℝ) :
    (Material.isotropicStiffness young poisson).magnitude ≤ b
      ↔ |isotropicFactor young poisson * (1 - poisson)| ≤ b
        ∧ |isotropicFactor young poisson * poisson| ≤ b ∧ |shearModulus young poisson| ≤ b := by
  rw [Stiffness.magnitude_le_iff]
  constructor
  · rintro ⟨-, h⟩
    exact ⟨h 0, h 1, h 15⟩
  · rintro ⟨hsame, hcross, hshear⟩
    have hb : |(0 : ℝ)| ≤ b := by
      rw [abs_zero]
      exact (abs_nonneg _).trans hsame
    refine ⟨(abs_nonneg _).trans hsame, fun s => ?_⟩
    fin_cases s
    exacts [hsame, hcross, hcross, hb, hb, hb, hsame, hcross, hb, hb, hb, hsame, hb, hb, hb,
      hshear, hb, hb, hshear, hb, hshear]

/-- **Beyond a ratio of one half no entry is larger than the eigenvalue of volume.** -/
theorem magnitude_isotropicStiffness_le (hyoung : 0 < young) (hvolume : 1 / 2 < poisson) :
    (Material.isotropicStiffness young poisson).magnitude ≤ young / (2 * poisson - 1) := by
  have hgap : 0 < 2 * poisson - 1 := by linarith
  have hshape : 0 < 1 + poisson := by linarith
  have hmodulus : 0 < young / (2 * poisson - 1) := div_pos hyoung hgap
  have hfactor : |isotropicFactor young poisson| = young / (2 * poisson - 1) / (1 + poisson) := by
    rw [isotropicFactor, Nat.cast_ofNat, abs_div, abs_mul, abs_of_pos hyoung, abs_of_pos hshape,
      abs_sub_comm, abs_of_pos hgap, mul_comm, div_div]
  -- the factor carries `1 / (1 + ν)`, which makes up for the `1 - ν` or `ν` beside it
  have hentry : ∀ x : ℝ, |x| ≤ 1 + poisson →
      |isotropicFactor young poisson * x| ≤ young / (2 * poisson - 1) := by
    intro x hx
    rw [abs_mul, hfactor, div_mul_eq_mul_div, div_le_iff₀ hshape]
    exact mul_le_mul_of_nonneg_left hx hmodulus.le
  rw [magnitude_isotropicStiffness_le_iff]
  refine ⟨hentry _ (abs_le.mpr ⟨by linarith, by linarith⟩),
    hentry _ (abs_le.mpr ⟨by linarith, by linarith⟩), ?_⟩
  rw [abs_of_pos (shearModulus_pos hyoung (by linarith)), shearModulus, Nat.cast_ofNat]
  exact div_le_div_of_nonneg_left hyoung.le hgap (by linarith)

variable [Spectral ℝ] [Spectral.IsExact]

/-- **In the physical range no eigenvalue is negative**, so the test for definiteness refuses no
stiffness. -/
theorem minEigenvalue_isotropicStiffness_nonneg (hyoung : 0 < young) (hshape : -1 < poisson)
    (hvolume : poisson < 1 / 2) :
    0 ≤ (Material.isotropicStiffness young poisson).minEigenvalue := by
  refine Stiffness.minEigenvalue_nonneg fun e => ?_
  have hself : 0 ≤ e.get ⬝ᵥ e.get := Finset.sum_nonneg fun i _ => mul_self_nonneg _
  exact (mul_nonneg (min_modulus_pos hyoung hshape hvolume).le hself).trans
    (min_mul_le_energy hyoung hshape hvolume e)

/-- **Beyond a ratio of one half the least eigenvalue is below the tolerance.** -/
theorem minEigenvalue_isotropicStiffness_lt (hyoung : 0 < young) (hvolume : 1 / 2 < poisson) :
    (Material.isotropicStiffness young poisson).minEigenvalue
      < -1e-12 * (Material.isotropicStiffness young poisson).magnitude := by
  by_contra h
  -- a pure change of volume has too little energy
  have henergy := (Stiffness.le_minEigenvalue_iff _ _).mp (not_lt.mp h)
    (#v[1, 1, 1, 0, 0, 0] : Voigt ℝ).get
  have hself : (#v[1, 1, 1, 0, 0, 0] : Voigt ℝ).get ⬝ᵥ (#v[1, 1, 1, 0, 0, 0] : Voigt ℝ).get
      = 3 := by
    rw [dotProduct, Fin.sum_univ_six]
    norm_num [Vector.get]
  have hmodulus : young / (1 - 2 * poisson) = -(young / (2 * poisson - 1)) := by
    rw [← div_neg, neg_sub]
  have hpos : 0 < young / (2 * poisson - 1) := div_pos hyoung (by linarith)
  have hmagnitude := magnitude_isotropicStiffness_le hyoung hvolume
  rw [energy_isotropicStiffness' (by linarith) (by linarith), hself, hmodulus] at henergy
  norm_num [Voigt.xx, Voigt.yy, Voigt.zz, Voigt.yz, Voigt.xz, Voigt.xy] at henergy
  linarith

end Energy

namespace Material

variable [Waves] [Spectral ℝ]

section Accepted

variable [Spectral.IsExact] {name : String} {density young poisson yieldStress : ℝ}

/-- **Isotropic materials are those of constants in the physical range.** -/
theorem exists_isotropic?_iff :
    (∃ m, isotropic? name density young poisson yieldStress = .ok m)
      ↔ 0 < young ∧ (-1 < poisson ∧ poisson < 1 / 2) ∧ 0 ≤ density ∧ 0 < yieldStress := by
  constructor
  · rintro ⟨m, hm⟩
    obtain ⟨hyoung, hpoisson, hbuilt⟩ := isotropic?_eq_ok_iff.mp hm
    obtain ⟨hdensity, hyield, -, -⟩ := ofStiffness?_eq_ok_iff.mp hbuilt
    exact ⟨hyoung, hpoisson, hdensity, hyield⟩
  · rintro ⟨hyoung, hpoisson, hdensity, hyield⟩
    obtain ⟨m, hm⟩ := exists_ofStiffness? name .isotropic hdensity hyield
      (minEigenvalue_isotropicStiffness_nonneg hyoung hpoisson.1 hpoisson.2)
    exact ⟨m, isotropic?_eq_ok_iff.mpr ⟨hyoung, hpoisson, hm⟩⟩

omit [Spectral.IsExact] in
/-- What is accepted has positive energy. -/
theorem hasLameEnergy_of_isotropic? {m : Material ℝ}
    (hm : isotropic? name density young poisson yieldStress = .ok m) :
    m.stiffness.HasLameEnergy (lameConstant young poisson) (shearModulus young poisson) := by
  obtain ⟨hyoung, hpoisson, hbuilt⟩ := isotropic?_eq_ok_iff.mp hm
  obtain ⟨-, -, -, rfl⟩ := ofStiffness?_eq_ok_iff.mp hbuilt
  exact hasLameEnergy_isotropicStiffness hyoung hpoisson.1 hpoisson.2

end Accepted

/-! ## Divisions -/

section Divisions

variable {name : String} {density young poisson yieldStress : ℝ}

omit [Spectral ℝ] in
/-- **The closed form divides by nothing that is zero** in the physical range. -/
theorem isotropicStiffness_of (hshape : -1 < poisson) (hvolume : poisson < 1 / 2) :
    isotropicStiffness (Partial.of young) (Partial.of poisson)
      = (isotropicStiffness young poisson).map Partial.of := by
  have hfactor : Partial.of young / ((1 + .of poisson) * (1 - ((2 : ℕ) : Partial) * .of poisson))
      = .of (young / ((1 + poisson) * (1 - (2 : ℕ) * poisson))) := by
    refine Partial.of_div (mul_ne_zero ?_ ?_)
    · linarith
    · rw [Nat.cast_ofNat]
      linarith
  have hshear : Partial.of young / (((2 : ℕ) : Partial) * (1 + .of poisson))
      = .of (young / ((2 : ℕ) * (1 + poisson))) := by
    refine Partial.of_div (mul_ne_zero ?_ ?_)
    · norm_num
    · linarith
  unfold isotropicStiffness Stiffness.map
  rw [hfactor, hshear]
  simp only [Vector.map_mk, List.map_toArray, List.map_cons, List.map_nil, Partial.one_eq,
    Partial.zero_eq, Partial.of_sub, Partial.of_mul]

/-- In partial arithmetic the same constants are accepted. -/
theorem isotropic?_of {M : Material Partial} :
    isotropic? name (Partial.of density) (.of young) (.of poisson) (.of yieldStress) = .ok M
      ↔ ∃ m, isotropic? name density young poisson yieldStress = .ok m ∧ M = m.map .of := by
  have hhalf : (0.5 : ℝ) = 1 / 2 := by norm_num
  constructor
  · intro hM
    obtain ⟨hyoung, hpoisson, hbuilt⟩ := isotropic?_eq_ok.mp hM
    have hshape : -1 < poisson := not_le.mp hpoisson.1
    have hvolume : poisson < 0.5 := not_le.mp hpoisson.2
    rw [isotropicStiffness_of hshape (hhalf ▸ hvolume)] at hbuilt
    obtain ⟨m, hm, rfl⟩ := Partial.ofStiffness?_map.mp hbuilt
    exact ⟨m, isotropic?_eq_ok.mpr ⟨hyoung, hpoisson, hm⟩, rfl⟩
  · rintro ⟨m, hm, rfl⟩
    obtain ⟨hyoung, hpoisson, hbuilt⟩ := isotropic?_eq_ok.mp hm
    refine isotropic?_eq_ok.mpr ⟨hyoung, hpoisson, ?_⟩
    rw [isotropicStiffness_of (not_le.mp hpoisson.1) (hhalf ▸ not_le.mp hpoisson.2)]
    exact Partial.ofStiffness?_map.mpr ⟨m, hbuilt, rfl⟩

end Divisions

/-! ## Verdict on isotropic constants -/

variable (name : String) (density young poisson yieldStress : ℝ)

/-- **What becomes of the constants of an isotropic material.** -/
structure JudgesIsotropic : Prop where
  exists_iff : (∃ m, isotropic? name density young poisson yieldStress = .ok m)
    ↔ 0 < young ∧ (-1 < poisson ∧ poisson < 1 / 2) ∧ 0 ≤ density ∧ 0 < yieldStress
  hasLameEnergy : ∀ m, isotropic? name density young poisson yieldStress = .ok m →
    m.stiffness.HasLameEnergy (lameConstant young poisson) (shearModulus young poisson)
  /-- No division is by zero: where the constants are in their range, all entries have values. -/
  isotropicStiffness_of : 0 < young → -1 < poisson → poisson < 1 / 2 →
    isotropicStiffness (Partial.of young) (Partial.of poisson)
      = (isotropicStiffness young poisson).map Partial.of
  /-- So the same constants are accepted if no division by zero has a value. -/
  isotropic?_of : ∀ M,
    isotropic? name (Partial.of density) (.of young) (.of poisson) (.of yieldStress) = .ok M
      ↔ ∃ m, isotropic? name density young poisson yieldStress = .ok m ∧ M = m.map .of

/-- **The tests of the constants imply the test of the stiffness.** -/
theorem judgesIsotropic [Spectral.IsExact] :
    JudgesIsotropic name density young poisson yieldStress where
  exists_iff := exists_isotropic?_iff
  hasLameEnergy _ hm := hasLameEnergy_of_isotropic? hm
  isotropicStiffness_of _ hshape hvolume := Material.isotropicStiffness_of hshape hvolume
  isotropic?_of _ := Material.isotropic?_of

end Material

/-- A material that grows thinner when it is pressed is accepted. -/
theorem Material.judgesIsotropic_sample :
    (∃ m, @isotropic? ℝ _ Spectral.exact "sample" 0 1 (-(1 / 2)) 1 = .ok m
        ∧ m.stiffness.HasLameEnergy (lameConstant 1 (-(1 / 2))) (shearModulus 1 (-(1 / 2))))
      ∧ isotropicStiffness (Partial.of 1) (.of (-(1 / 2)))
        = (isotropicStiffness 1 (-(1 / 2))).map Partial.of := by
  let _ := Spectral.exact
  have _ := Spectral.isExact_exact
  have hjudges := judgesIsotropic "sample" 0 1 (-(1 / 2)) 1
  obtain ⟨m, hm⟩ := hjudges.exists_iff.mpr (by norm_num)
  exact ⟨⟨m, hm, hjudges.hasLameEnergy m hm⟩,
    hjudges.isotropicStiffness_of one_pos (by norm_num) (by norm_num)⟩

/-! ## The same material as an orthotropic one -/

namespace Material

variable [Waves] [Spectral ℝ]

section Uniform

variable {name : String} {density young poisson yieldStress : ℝ}

omit [Spectral ℝ] in
theorem hasNonPositiveModulus_uniform_eq_false_iff (hshape : -1 < poisson) :
    (EngineeringConstants.uniform young poisson).hasNonPositiveModulus = false ↔ 0 < young := by
  rw [EngineeringConstants.hasNonPositiveModulus_eq_false_iff]
  constructor
  · intro h
    exact h.1
  · intro h
    have hshear := shearModulus_pos h hshape
    exact ⟨h, h, h, hshear, hshear, hshear⟩

/-- The orthotropic constructor meets the stiffness of the isotropic one. -/
theorem orthotropic?_uniform (hyoung : 0 < young) (hshape : -1 < poisson)
    (hvolume : poisson ≠ 1 / 2) :
    orthotropic? name density (.uniform young poisson) yieldStress
      = ofStiffness? name .orthotropic density yieldStress (isotropicStiffness young poisson) := by
  have hgap : 1 - 2 * poisson ≠ 0 := fun h => hvolume (by linarith)
  unfold orthotropic?
  rw [(hasNonPositiveModulus_uniform_eq_false_iff hshape).mpr hyoung,
    inverse?_uniform hyoung.ne' (by linarith) hgap]
  rfl

variable [Spectral.IsExact]

/-- **Both constructors accept the same constants**, and build the same material but for its
class. -/
theorem orthotropic?_uniform_eq_ok_iff (hshape : -1 < poisson) {m' : Material ℝ} :
    orthotropic? name density (.uniform young poisson) yieldStress = .ok m'
      ↔ ∃ m, isotropic? name density young poisson yieldStress = .ok m
        ∧ m' = { m with symmetry := .orthotropic } := by
  constructor
  · intro h
    obtain ⟨hmoduli, normal, hnormal, -⟩ := orthotropic?_eq_ok_iff.mp h
    have hyoung := (hasNonPositiveModulus_uniform_eq_false_iff hshape).mp hmoduli
    have hne : poisson ≠ 1 / 2 := by
      rintro rfl
      rw [inverse?_uniform_half] at hnormal
      cases hnormal
    rw [orthotropic?_uniform hyoung hshape hne] at h
    have hvolume : poisson < 1 / 2 := by
      obtain ⟨-, -, hK, -⟩ := ofStiffness?_eq_ok.mp h
      refine lt_of_le_of_ne (not_lt.mp fun hlarge => ?_) hne
      exact hK (minEigenvalue_isotropicStiffness_lt hyoung hlarge)
    obtain ⟨m, hm, rfl⟩ := (ofStiffness?_eq_ok_iff_of_symmetry .isotropic .orthotropic).mp h
    exact ⟨m, isotropic?_eq_ok_iff.mpr ⟨hyoung, ⟨hshape, hvolume⟩, hm⟩, rfl⟩
  · rintro ⟨m, hm, rfl⟩
    obtain ⟨hyoung, hpoisson, hbuilt⟩ := isotropic?_eq_ok_iff.mp hm
    rw [orthotropic?_uniform hyoung hshape hpoisson.2.ne]
    exact (ofStiffness?_eq_ok_iff_of_symmetry .isotropic .orthotropic).mpr ⟨m, hbuilt, rfl⟩

end Uniform

variable (name : String) (density young poisson yieldStress : ℝ)

/-- **The two constructors agree** on a material that is the same along all axes, and each has its
own reason to refuse a ratio of one half or above. -/
structure ConstructorsAgree : Prop where
  exists_iff : (∃ m, isotropic? name density young poisson yieldStress = .ok m)
    ↔ ∃ m, orthotropic? name density (.uniform young poisson) yieldStress = .ok m
  eq : ∀ m m', isotropic? name density young poisson yieldStress = .ok m →
    orthotropic? name density (.uniform young poisson) yieldStress = .ok m' →
    m'.stiffness.packed = m.stiffness.packed ∧ m' = { m with symmetry := .orthotropic }
  outOfRange : 0 < young → 1 / 2 ≤ poisson →
    isotropic? name density young poisson yieldStress
      = .error (.invalidMaterial name (.poissonOutOfRange poisson))
  singular : 0 < young → poisson = 1 / 2 →
    orthotropic? name density (.uniform young poisson) yieldStress
      = .error (.invalidMaterial name .singularCompliance)
  indefinite : 0 < young → 1 / 2 < poisson → 0 ≤ density → 0 < yieldStress →
    orthotropic? name density (.uniform young poisson) yieldStress
      = .error (.invalidMaterial name
          (.indefinite (isotropicStiffness young poisson).minEigenvalue))

/-- **A closed form and an inverse, a range and an eigenvalue come to the same.** -/
theorem constructorsAgree [Spectral.IsExact] (hshape : -1 < poisson) :
    ConstructorsAgree name density young poisson yieldStress where
  exists_iff := by
    constructor
    · rintro ⟨m, hm⟩
      exact ⟨_, (orthotropic?_uniform_eq_ok_iff hshape).mpr ⟨m, hm, rfl⟩⟩
    · rintro ⟨m', hm'⟩
      obtain ⟨m, hm, -⟩ := (orthotropic?_uniform_eq_ok_iff hshape).mp hm'
      exact ⟨m, hm⟩
  eq m m' hm hm' := by
    obtain ⟨m₀, hm₀, rfl⟩ := (orthotropic?_uniform_eq_ok_iff hshape).mp hm'
    cases hm.symm.trans hm₀
    exact ⟨rfl, rfl⟩
  outOfRange hyoung hvolume := by
    have hhalf : (0.5 : ℝ) = 1 / 2 := by norm_num
    unfold isotropic?
    rw [if_neg hyoung.not_ge, if_pos (Or.inr (hhalf ▸ hvolume))]
  singular hyoung hvolume := by
    rw [orthotropic?_eq_singularCompliance_iff, hvolume, inverse?_uniform_half]
    exact ⟨(hasNonPositiveModulus_uniform_eq_false_iff (by norm_num)).mpr hyoung, rfl⟩
  indefinite hyoung hvolume hdensity hyield := by
    rw [orthotropic?_uniform hyoung hshape hvolume.ne']
    unfold ofStiffness?
    rw [if_neg hdensity.not_gt, if_neg hyield.not_ge,
      if_pos (minEigenvalue_isotropicStiffness_lt hyoung hvolume)]

end Material

/-- A material that both constructors accept, and one that both refuse. -/
theorem Material.constructorsAgree_sample :
    (∃ m, @isotropic? ℝ _ Spectral.exact "sample" 0 1 (1 / 4) 1 = .ok m
        ∧ @orthotropic? ℝ _ Spectral.exact "sample" 0 (.uniform 1 (1 / 4)) 1
          = .ok { m with symmetry := .orthotropic })
      ∧ ¬ ∃ m, @orthotropic? ℝ _ Spectral.exact "sample" 0 (.uniform 1 1) 1 = .ok m := by
  let _ := Spectral.exact
  have _ := Spectral.isExact_exact
  constructor
  · have hagree := constructorsAgree "sample" 0 1 (1 / 4) 1 (by norm_num)
    obtain ⟨m, hm⟩ := exists_isotropic?_iff.mpr
      (show (0 : ℝ) < 1 ∧ (-1 < (1 / 4 : ℝ) ∧ 1 / 4 < 1 / 2) ∧ 0 ≤ 0 ∧ 0 < 1 by norm_num)
    obtain ⟨m', hm'⟩ := hagree.exists_iff.mp ⟨m, hm⟩
    obtain ⟨-, rfl⟩ := hagree.eq m m' hm hm'
    exact ⟨m, hm, hm'⟩
  · have hagree := constructorsAgree "sample" 0 1 1 1 (by norm_num)
    rw [← hagree.exists_iff, exists_isotropic?_iff]
    norm_num

end WeakForm
