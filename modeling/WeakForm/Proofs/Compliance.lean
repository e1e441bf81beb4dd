import WeakForm.Proofs.AdmittedMaterials

/-!
# Orthotropic materials

An orthotropic material is given by its compliance, the strains of unit normal stresses, and is
stored by its stiffness. The inverse between the two is written out entry by entry, for a matrix
without any symmetry (`Matrix3.inverse?_eq_some_iff`); half of it is then dropped, because a
stiffness is packed. **Nothing is lost that way**: the compliance is symmetric, and so is its
inverse, and what is read back is the inverse in the block of normal components and the shear moduli
on the diagonal beside it (`EngineeringConstants.submatrix_stiffness`). So the compliance takes the
normal stresses of any strain back to its normal strains.
-/

namespace WeakForm

open Matrix

/-! ## Inverses -/

namespace Matrix3

/-- The matrix of the named entries. -/
def toMatrix (m : Matrix3 ℝ) : Matrix (Fin 3) (Fin 3) ℝ :=
  !![m.m11, m.m12, m.m13; m.m21, m.m22, m.m23; m.m31, m.m32, m.m33]

theorem toMatrix_injective : Function.Injective toMatrix := by
  intro m n h
  have hentry : ∀ i j, m.toMatrix i j = n.toMatrix i j := fun i j => congrFun (congrFun h i) j
  cases m
  cases n
  congr
  exacts [hentry 0 0, hentry 0 1, hentry 0 2, hentry 1 0, hentry 1 1, hentry 1 2, hentry 2 0,
    hentry 2 1, hentry 2 2]

variable [Waves] {m n : Matrix3 ℝ}

theorem det_toMatrix (m : Matrix3 ℝ) : m.toMatrix.det = m.det := by
  simp [toMatrix, det_fin_three, det, firstMinors]
  ring

/-- There is no inverse of a matrix whose determinant is zero. -/
theorem inverse?_eq_none_iff : m.inverse? = none ↔ m.toMatrix.det = 0 := by
  rw [det_toMatrix]
  unfold inverse?
  by_cases h : m.det = 0
  · simp [h]
  · simp [h]

/-- The cofactors divided by the determinant are the inverse. -/
theorem toMatrix_of_inverse? (h : m.inverse? = some n) : n.toMatrix = m.toMatrix⁻¹ := by
  have hdet : m.det ≠ 0 := by
    rw [← det_toMatrix, Ne, ← inverse?_eq_none_iff, h]
    exact Option.some_ne_none n
  unfold inverse? at h
  rw [if_neg (by simpa using hdet), Option.some.injEq] at h
  subst h
  rw [inv_def, Ring.inverse_eq_inv', det_toMatrix]
  unfold toMatrix
  rw [adjugate_fin_three_of]
  ext i j
  fin_cases i <;> fin_cases j <;> simp [firstMinors, div_eq_inv_mul, hdet] <;> ring

/-- **The inverse is found** if there is one. -/
theorem inverse?_eq_some_iff :
    m.inverse? = some n ↔ m.toMatrix.det ≠ 0 ∧ n.toMatrix = m.toMatrix⁻¹ := by
  constructor
  · intro h
    refine ⟨fun hdet => ?_, toMatrix_of_inverse? h⟩
    rw [inverse?_eq_none_iff.mpr hdet] at h
    cases h
  · rintro ⟨hdet, hn⟩
    cases hinverse : m.inverse? with
    | none => exact absurd (inverse?_eq_none_iff.mp hinverse) hdet
    | some n' =>
      rw [toMatrix_injective ((toMatrix_of_inverse? hinverse).trans hn.symm)]

end Matrix3

/-! ## The compliance -/

/-- The normal components, then the shear components. -/
def Voigt.blocks : Fin 3 ⊕ Fin 3 ≃ Fin 6 := finSumFinEquiv

theorem Voigt.get_comp_blocks (e : Voigt ℝ) :
    e.get ∘ blocks = Sum.elim ![e.xx, e.yy, e.zz] ![e.yz, e.xz, e.xy] := by
  ext (i | i) <;> fin_cases i <;> rfl

namespace EngineeringConstants

/-- **The compliance of the normal components**: the strains of unit normal stresses. -/
noncomputable def complianceMatrix (p : EngineeringConstants ℝ) : Matrix (Fin 3) (Fin 3) ℝ :=
  !![1 / p.e1, -p.nu12 / p.e1, -p.nu13 / p.e1;
    -p.nu12 / p.e1, 1 / p.e2, -p.nu23 / p.e2;
    -p.nu13 / p.e1, -p.nu23 / p.e2, 1 / p.e3]

theorem isSymm_complianceMatrix (p : EngineeringConstants ℝ) : p.complianceMatrix.IsSymm := by
  refine IsSymm.ext fun i j => ?_
  fin_cases i <;> fin_cases j <;> rfl

variable [Waves] (p : EngineeringConstants ℝ)

theorem toMatrix_compliance : p.compliance.toMatrix = p.complianceMatrix := rfl

theorem hasNonPositiveModulus_eq_false_iff :
    p.hasNonPositiveModulus = false
      ↔ 0 < p.e1 ∧ 0 < p.e2 ∧ 0 < p.e3 ∧ 0 < p.g23 ∧ 0 < p.g13 ∧ 0 < p.g12 := by
  simp [hasNonPositiveModulus]

/-- **Nothing is lost by packing** a stiffness whose normal block is symmetric: what is read back is
that block, and the shear moduli on the diagonal beside it. -/
theorem submatrix_stiffness {normal : Matrix3 ℝ} (h : normal.toMatrix.IsSymm) :
    (p.stiffness normal).toMatrix.submatrix Voigt.blocks Voigt.blocks
      = fromBlocks normal.toMatrix 0 0 (diagonal ![p.g23, p.g13, p.g12]) := by
  have h21 : normal.m21 = normal.m12 := h.apply 0 1
  have h31 : normal.m31 = normal.m13 := h.apply 0 2
  have h32 : normal.m32 = normal.m23 := h.apply 1 2
  -- below the diagonal of the normal block, what is read is the entry above it
  ext (i | i) (j | j)
  · fin_cases i <;> fin_cases j
    exacts [rfl, rfl, rfl, h21.symm, rfl, rfl, h31.symm, h32.symm, rfl]
  · fin_cases i <;> fin_cases j <;> rfl
  · fin_cases i <;> fin_cases j <;> rfl
  · fin_cases i <;> fin_cases j <;> rfl

/-- The normal stresses and the shear stresses of a strain. -/
theorem mulVec_stiffness {normal : Matrix3 ℝ} (h : normal.toMatrix.IsSymm) (e : Voigt ℝ) :
    ((p.stiffness normal).mulVec e).get ∘ Voigt.blocks
      = Sum.elim (normal.toMatrix *ᵥ ![e.xx, e.yy, e.zz])
        ![p.g23 * e.yz, p.g13 * e.xz, p.g12 * e.xy] := by
  have hshear : diagonal ![p.g23, p.g13, p.g12] *ᵥ ![e.yz, e.xz, e.xy]
      = ![p.g23 * e.yz, p.g13 * e.xz, p.g12 * e.xy] := by
    ext i
    rw [mulVec_diagonal]
    fin_cases i <;> rfl
  calc ((p.stiffness normal).mulVec e).get ∘ Voigt.blocks
      = (p.stiffness normal).toMatrix.submatrix Voigt.blocks Voigt.blocks
          *ᵥ (e.get ∘ Voigt.blocks) := by
        rw [Stiffness.mulVec_eq, submatrix_mulVec_equiv, Function.comp_assoc,
          Equiv.self_comp_symm, Function.comp_id]
    _ = _ := by
        rw [p.submatrix_stiffness h, Voigt.get_comp_blocks, fromBlocks_mulVec, Sum.elim_comp_inl,
          Sum.elim_comp_inr, zero_mulVec, zero_mulVec, add_zero, zero_add, hshear]

/-- The form of the stiffness: that of the normal block, and a square for each shear. -/
theorem dotProduct_stiffness {normal : Matrix3 ℝ} (h : normal.toMatrix.IsSymm) (e : Voigt ℝ) :
    e.get ⬝ᵥ (p.stiffness normal).toMatrix *ᵥ e.get
      = ![e.xx, e.yy, e.zz] ⬝ᵥ normal.toMatrix *ᵥ ![e.xx, e.yy, e.zz]
        + (p.g23 * e.yz ^ 2 + p.g13 * e.xz ^ 2 + p.g12 * e.xy ^ 2) := by
  have hshear : ![e.yz, e.xz, e.xy] ⬝ᵥ ![p.g23 * e.yz, p.g13 * e.xz, p.g12 * e.xy]
      = p.g23 * e.yz ^ 2 + p.g13 * e.xz ^ 2 + p.g12 * e.xy ^ 2 := by
    simp [dotProduct, Fin.sum_univ_three]
    ring
  rw [← Stiffness.mulVec_eq, ← comp_equiv_dotProduct_comp_equiv _ _ Voigt.blocks,
    Voigt.get_comp_blocks, p.mulVec_stiffness h, sumElim_dotProduct_sumElim, hshear]

end EngineeringConstants

/-! ## An orthotropic material -/

namespace EngineeringConstants

/-- Constants of an orthotropic material, two of whose normal strains are coupled. -/
def sample : EngineeringConstants ℝ where
  e1 := (2 : ℕ)
  e2 := 1
  e3 := 1
  nu12 := 1
  nu13 := 0
  nu23 := 0
  g23 := (3 : ℕ)
  g13 := (5 : ℕ)
  g12 := (7 : ℕ)

/-- The normal block of the stiffness of the sample. -/
def sampleNormal : Matrix3 ℝ := ⟨(4 : ℕ), (2 : ℕ), 0, (2 : ℕ), (2 : ℕ), 0, 0, 0, 1⟩

variable [Waves]

theorem inverse?_sample : sample.compliance.inverse? = some sampleNormal := by
  norm_num [sample, compliance, Matrix3.inverse?, Matrix3.det, Matrix3.firstMinors, sampleNormal]

/-- The stiffness of the sample has no eigenvalue below zero: its form is a sum of squares. -/
theorem minEigenvalue_sample_nonneg [Spectral ℝ] [Spectral.IsExact] :
    0 ≤ (sample.stiffness sampleNormal).minEigenvalue := by
  have hsymm : sampleNormal.toMatrix.IsSymm := by
    refine IsSymm.ext fun i j => ?_
    fin_cases i <;> fin_cases j <;> rfl
  refine Stiffness.minEigenvalue_nonneg fun e => ?_
  have hnormal : ∀ x y z : ℝ, ![x, y, z] ⬝ᵥ sampleNormal.toMatrix *ᵥ ![x, y, z]
      = (2 * x + y) ^ 2 + y ^ 2 + z ^ 2 := by
    intro x y z
    simp [dotProduct, mulVec, Fin.sum_univ_three, Matrix3.toMatrix, sampleNormal]
    ring
  rw [sample.dotProduct_stiffness hsymm, hnormal]
  unfold sample
  positivity

end EngineeringConstants

/-- **There is an orthotropic material.** -/
theorem Material.exists_orthotropic?_sample [Waves] [Spectral ℝ] [Spectral.IsExact] :
    ∃ m, Material.orthotropic? "sample" 1 .sample 1 = .ok m := by
  obtain ⟨m, hm⟩ := exists_ofStiffness? "sample" .orthotropic zero_le_one one_pos
    EngineeringConstants.minEigenvalue_sample_nonneg
  refine ⟨m, orthotropic?_eq_ok_iff.mpr ⟨?_, _, EngineeringConstants.inverse?_sample, hm⟩⟩
  norm_num [EngineeringConstants.hasNonPositiveModulus, EngineeringConstants.sample]

/-! ## Materials with a compliance -/

namespace Material

/-- **A material has a compliance**: its stiffness is the inverse of the compliance and the shear
moduli beside it, as it is read back and as it answers strains with stresses. -/
structure HasCompliance [Waves] (m : Material ℝ) (p : EngineeringConstants ℝ) : Prop where
  submatrix_eq : m.stiffness.toMatrix.submatrix Voigt.blocks Voigt.blocks
    = fromBlocks p.complianceMatrix⁻¹ 0 0 (diagonal ![p.g23, p.g13, p.g12])
  /-- The compliance takes the normal stresses of a strain back to its normal strains. -/
  complianceMatrix_mulVec : ∀ e : Voigt ℝ,
    p.complianceMatrix *ᵥ ![(m.stiffness.mulVec e).xx, (m.stiffness.mulVec e).yy,
        (m.stiffness.mulVec e).zz]
      = ![e.xx, e.yy, e.zz]
  yz_eq : ∀ e : Voigt ℝ, (m.stiffness.mulVec e).yz = p.g23 * e.yz
  xz_eq : ∀ e : Voigt ℝ, (m.stiffness.mulVec e).xz = p.g13 * e.xz
  xy_eq : ∀ e : Voigt ℝ, (m.stiffness.mulVec e).xy = p.g12 * e.xy

variable [Waves] {m : Material ℝ} {p : EngineeringConstants ℝ}

/-- A material with the stiffness of an inverted compliance has that compliance. -/
theorem hasCompliance_of_inverse? {normal : Matrix3 ℝ}
    (hnormal : p.compliance.inverse? = some normal) (hm : m.stiffness = p.stiffness normal) :
    m.HasCompliance p := by
  obtain ⟨hdet, hinverse⟩ := Matrix3.inverse?_eq_some_iff.mp hnormal
  rw [p.toMatrix_compliance] at hdet hinverse
  have hsymm : normal.toMatrix.IsSymm := by
    rw [hinverse, IsSymm, transpose_nonsing_inv, p.isSymm_complianceMatrix.eq]
  have hstress := p.mulVec_stiffness hsymm
  rw [← hm] at hstress
  have hblocks : ∀ e i, (m.stiffness.mulVec e).get (Voigt.blocks i) = _ :=
    fun e => congrFun (hstress e)
  refine ⟨?_, fun e => ?_, fun e => hblocks e (.inr 0), fun e => hblocks e (.inr 1),
    fun e => hblocks e (.inr 2)⟩
  · rw [hm, p.submatrix_stiffness hsymm, hinverse]
  · have hnormal : ![(m.stiffness.mulVec e).xx, (m.stiffness.mulVec e).yy,
        (m.stiffness.mulVec e).zz] = normal.toMatrix *ᵥ ![e.xx, e.yy, e.zz] := by
      ext i
      fin_cases i
      exacts [hblocks e (.inl 0), hblocks e (.inl 1), hblocks e (.inl 2)]
    rw [hnormal, hinverse, mulVec_mulVec, mul_nonsing_inv _ hdet.isUnit, one_mulVec]

variable [Spectral ℝ] {name : String} {density yieldStress : ℝ}

/-- The tests of all materials know nothing of a compliance. -/
theorem ofStiffness?_ne_singularCompliance {symmetry : Symmetry} {K : Stiffness ℝ} :
    ofStiffness? name symmetry density yieldStress K
      ≠ .error (.invalidMaterial name .singularCompliance) := by
  unfold ofStiffness?
  repeat' split
  all_goals simp

theorem orthotropic?_eq_singularCompliance_iff :
    orthotropic? name density p yieldStress = .error (.invalidMaterial name .singularCompliance)
      ↔ p.hasNonPositiveModulus = false ∧ p.compliance.inverse? = none := by
  unfold orthotropic?
  cases p.hasNonPositiveModulus with
  | true => simp
  | false => cases p.compliance.inverse? <;> simp [ofStiffness?_ne_singularCompliance]

variable (name density p yieldStress)

/-- **An orthotropic material has the compliance of its constants**, and the constants of positive
moduli whose compliance has no inverse are reported as such. -/
theorem hasCompliance_orthotropic :
    (∀ m, orthotropic? name density p yieldStress = .ok m → m.HasCompliance p)
      ∧ (orthotropic? name density p yieldStress
            = .error (.invalidMaterial name .singularCompliance)
          ↔ (0 < p.e1 ∧ 0 < p.e2 ∧ 0 < p.e3 ∧ 0 < p.g23 ∧ 0 < p.g13 ∧ 0 < p.g12)
            ∧ p.complianceMatrix.det = 0) := by
  constructor
  · intro m hm
    obtain ⟨-, normal, hnormal, hbuilt⟩ := orthotropic?_eq_ok_iff.mp hm
    obtain ⟨-, -, -, rfl⟩ := ofStiffness?_eq_ok_iff.mp hbuilt
    exact hasCompliance_of_inverse? hnormal rfl
  · rw [orthotropic?_eq_singularCompliance_iff, p.hasNonPositiveModulus_eq_false_iff,
      Matrix3.inverse?_eq_none_iff, p.toMatrix_compliance]

end Material

/-- A material with a compliance, and constants whose compliance has no inverse. -/
theorem Material.hasCompliance_orthotropic_sample :
    (∃ m, @orthotropic? ℝ _ Spectral.exact "sample" 1 .sample 1 = .ok m
        ∧ m.HasCompliance .sample)
      ∧ @orthotropic? ℝ _ Spectral.exact "sample" 1 { EngineeringConstants.sample with e1 := 1 } 1
        = .error (.invalidMaterial "sample" .singularCompliance) := by
  let _ := Spectral.exact
  have _ := Spectral.isExact_exact
  constructor
  · obtain ⟨m, hm⟩ := exists_orthotropic?_sample
    exact ⟨m, hm, (hasCompliance_orthotropic _ _ _ _).1 m hm⟩
  · refine (hasCompliance_orthotropic _ _ _ _).2.mpr ⟨?_, ?_⟩
    · norm_num [EngineeringConstants.sample]
    · simp [EngineeringConstants.complianceMatrix, EngineeringConstants.sample, det_fin_three]

end WeakForm
