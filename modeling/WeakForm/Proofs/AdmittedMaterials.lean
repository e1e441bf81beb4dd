import Mathlib
import WeakForm.Material.Basic
import WeakForm.Proofs.StiffnessMatrix

/-!
# Admitted materials

Three constructors build materials, and all of them end with the same tests. So **what the tests
refuse, no material has** (`Material.IsBuilt.isAdmitted`), whichever constructor it comes from and
whatever is set afterwards: no setter touches what was tested.

Of the stiffness, the tests know the least eigenvalue. Where it is found exactly, an admitted
stiffness is a quadratic form that is positive but for a tolerance in proportion to its entries
(`Material.IsAdmitted.le_quadraticForm`).
-/

namespace WeakForm

open Matrix

namespace Material

/-! ## Acceptance -/

section Generic

variable {α : Type} [Scalar α] [Spectral α] {name : String} {density yieldStress : α}
  {m : Material α}

/-- **The common end of all constructors accepts what it does not refuse.** -/
theorem ofStiffness?_eq_ok {symmetry : Symmetry} {K : Stiffness α} :
    ofStiffness? name symmetry density yieldStress K = .ok m
      ↔ ¬ density < 0 ∧ ¬ yieldStress ≤ 0 ∧ ¬ K.minEigenvalue < -1e-12 * K.magnitude
        ∧ m = ⟨name, symmetry, density, 0, yieldStress, K, Vector.replicate 6 0, .zero⟩ := by
  unfold ofStiffness?
  by_cases hdensity : density < 0
  · rw [if_pos hdensity]
    exact ⟨nofun, fun h => absurd hdensity h.1⟩
  by_cases hyield : yieldStress ≤ 0
  · rw [if_neg hdensity, if_pos hyield]
    exact ⟨nofun, fun h => absurd hyield h.2.1⟩
  by_cases hK : K.minEigenvalue < -1e-12 * K.magnitude
  · rw [if_neg hdensity, if_neg hyield, if_pos hK]
    exact ⟨nofun, fun h => absurd hK h.2.2.1⟩
  rw [if_neg hdensity, if_neg hyield, if_neg hK, Except.ok.injEq]
  exact ⟨fun h => ⟨hdensity, hyield, hK, h.symm⟩, fun h => h.2.2.2.symm⟩

/-- The tests do not ask for the class. -/
theorem ofStiffness?_eq_ok_iff_of_symmetry (symmetry symmetry' : Symmetry) {K : Stiffness α}
    {m' : Material α} :
    ofStiffness? name symmetry' density yieldStress K = .ok m'
      ↔ ∃ m, ofStiffness? name symmetry density yieldStress K = .ok m
        ∧ m' = { m with symmetry := symmetry' } := by
  constructor
  · intro h
    obtain ⟨hdensity, hyield, hK, rfl⟩ := ofStiffness?_eq_ok.mp h
    exact ⟨_, ofStiffness?_eq_ok.mpr ⟨hdensity, hyield, hK, rfl⟩, rfl⟩
  · rintro ⟨m, hm, rfl⟩
    obtain ⟨hdensity, hyield, hK, rfl⟩ := ofStiffness?_eq_ok.mp hm
    exact ofStiffness?_eq_ok.mpr ⟨hdensity, hyield, hK, rfl⟩

/-- An isotropic material has passed the tests of its constants, then those of all materials. -/
theorem isotropic?_eq_ok {young poisson : α} :
    isotropic? name density young poisson yieldStress = .ok m
      ↔ ¬ young ≤ 0 ∧ (¬ poisson ≤ -1 ∧ ¬ 0.5 ≤ poisson)
        ∧ ofStiffness? name .isotropic density yieldStress (isotropicStiffness young poisson)
          = .ok m := by
  unfold isotropic?
  by_cases hyoung : young ≤ 0
  · rw [if_pos hyoung]
    exact ⟨nofun, fun h => absurd hyoung h.1⟩
  by_cases hpoisson : poisson ≤ -1 ∨ 0.5 ≤ poisson
  · rw [if_neg hyoung, if_pos hpoisson]
    exact ⟨nofun, fun h => absurd hpoisson (not_or.mpr h.2.1)⟩
  rw [if_neg hyoung, if_neg hpoisson, and_iff_right hyoung, and_iff_right (not_or.mp hpoisson)]

/-- An orthotropic material has positive moduli, a compliance with an inverse, and has passed the
tests of all materials. -/
theorem orthotropic?_eq_ok_iff {constants : EngineeringConstants α} :
    orthotropic? name density constants yieldStress = .ok m
      ↔ constants.hasNonPositiveModulus = false
        ∧ ∃ normal, constants.compliance.inverse? = some normal
          ∧ ofStiffness? name .orthotropic density yieldStress (constants.stiffness normal)
            = .ok m := by
  unfold orthotropic?
  cases hmoduli : constants.hasNonPositiveModulus with
  | true => simp
  | false => cases constants.compliance.inverse? <;> simp

end Generic

variable [Waves] [Spectral ℝ]

section Acceptance

variable {name : String} {symmetry : Symmetry} {density yieldStress : ℝ} {K : Stiffness ℝ}
  {m : Material ℝ}

/-- Of numbers that are all defined, it accepts those that pass its tests. -/
theorem ofStiffness?_eq_ok_iff :
    ofStiffness? name symmetry density yieldStress K = .ok m
      ↔ 0 ≤ density ∧ 0 < yieldStress ∧ -1e-12 * K.magnitude ≤ K.minEigenvalue
        ∧ m = ⟨name, symmetry, density, 0, yieldStress, K, Vector.replicate 6 0, .zero⟩ := by
  rw [ofStiffness?_eq_ok, not_lt, not_le, not_lt]

/-- The constants of an isotropic material lie in their range. -/
theorem isotropic?_eq_ok_iff {young poisson : ℝ} :
    isotropic? name density young poisson yieldStress = .ok m
      ↔ 0 < young ∧ (-1 < poisson ∧ poisson < 1 / 2)
        ∧ ofStiffness? name .isotropic density yieldStress (isotropicStiffness young poisson)
          = .ok m := by
  have hhalf : (0.5 : ℝ) = 1 / 2 := by norm_num
  rw [isotropic?_eq_ok, not_le, not_le, not_le, hhalf]

end Acceptance

/-! ## Admission -/

/-- **What the tests of all materials leave.** -/
structure IsAdmitted (m : Material ℝ) : Prop where
  density_nonneg : 0 ≤ m.density
  yieldStress_pos : 0 < m.yieldStress
  le_minEigenvalue : -1e-12 * m.stiffness.magnitude ≤ m.stiffness.minEigenvalue

/-- A material that a constructor has built, with what was set afterwards. -/
inductive IsBuilt : Material ℝ → Prop
  | isotropic {name density young poisson yieldStress m} :
    isotropic? name density young poisson yieldStress = .ok m → IsBuilt m
  | orthotropic {name density constants yieldStress m} :
    orthotropic? name density constants yieldStress = .ok m → IsBuilt m
  | anisotropic {name density stiffness yieldStress m} :
    anisotropic? name density stiffness yieldStress = .ok m → IsBuilt m
  | withSpecificHeat {m} (specificHeat : ℝ) : IsBuilt m → IsBuilt (m.withSpecificHeat specificHeat)
  | withThermalStrain {m} (strain : Voigt ℝ) : IsBuilt m → IsBuilt (m.withThermalStrain strain)
  | withConduction {m} (conduction : Conduction ℝ) :
    IsBuilt m → IsBuilt (m.withConduction conduction)

theorem isAdmitted_of_ofStiffness? {name : String} {symmetry : Symmetry}
    {density yieldStress : ℝ} {K : Stiffness ℝ} {m : Material ℝ}
    (h : ofStiffness? name symmetry density yieldStress K = .ok m) : m.IsAdmitted := by
  obtain ⟨hdensity, hyield, hK, rfl⟩ := ofStiffness?_eq_ok_iff.mp h
  exact ⟨hdensity, hyield, hK⟩

/-- **Every material that is built is admitted.** -/
theorem IsBuilt.isAdmitted {m : Material ℝ} (h : m.IsBuilt) : m.IsAdmitted := by
  induction h with
  | isotropic h => exact isAdmitted_of_ofStiffness? (isotropic?_eq_ok_iff.mp h).2.2
  | orthotropic h =>
    obtain ⟨-, normal, -, h⟩ := orthotropic?_eq_ok_iff.mp h
    exact isAdmitted_of_ofStiffness? h
  | anisotropic h => exact isAdmitted_of_ofStiffness? h
  | withSpecificHeat _ _ ih => exact ⟨ih.density_nonneg, ih.yieldStress_pos, ih.le_minEigenvalue⟩
  | withThermalStrain _ _ ih => exact ⟨ih.density_nonneg, ih.yieldStress_pos, ih.le_minEigenvalue⟩
  | withConduction _ _ ih => exact ⟨ih.density_nonneg, ih.yieldStress_pos, ih.le_minEigenvalue⟩

/-- **An admitted stiffness is positive but for the tolerance.** -/
theorem IsAdmitted.le_quadraticForm [Spectral.IsExact] {m : Material ℝ} (h : m.IsAdmitted)
    (v : Fin 6 → ℝ) :
    -1e-12 * m.stiffness.magnitude * (v ⬝ᵥ v) ≤ v ⬝ᵥ m.stiffness.toMatrix *ᵥ v :=
  (m.stiffness.le_minEigenvalue_iff _).mp h.le_minEigenvalue v

/-- A stiffness without an eigenvalue below zero is accepted. -/
theorem exists_ofStiffness? {K : Stiffness ℝ} {density yieldStress : ℝ} (name : String)
    (symmetry : Symmetry) (hdensity : 0 ≤ density) (hyield : 0 < yieldStress)
    (hK : 0 ≤ K.minEigenvalue) :
    ∃ m, ofStiffness? name symmetry density yieldStress K = .ok m := by
  refine ⟨_, ofStiffness?_eq_ok_iff.mpr ⟨hdensity, hyield, ?_, rfl⟩⟩
  have hmagnitude := K.magnitude_nonneg
  norm_num
  linarith

end Material

end WeakForm
