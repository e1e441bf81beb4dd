import Mathlib
import WeakForm.Proofs.ExactNumbers
import WeakForm.Stiffness.Spectrum

/-!
# A stiffness as a matrix

A packed stiffness is the upper triangle of a symmetric matrix, and everything that is known about
symmetric matrices is known about it as soon as it is read as one (`Stiffness.toMatrix`).

**A bound of the least eigenvalue from below is a bound of the quadratic form**
(`Stiffness.le_minEigenvalue_iff`). That is a statement about every way to find the least
eigenvalue exactly (`Spectral.IsExact`), and there is one: the least number in the spectrum.
-/

namespace WeakForm

open Matrix

namespace Stiffness

/-- The full symmetric matrix. -/
def toMatrix (K : Stiffness ℝ) : Matrix (Fin 6) (Fin 6) ℝ := Matrix.of K.get

theorem isSymm_toMatrix (K : Stiffness ℝ) : K.toMatrix.IsSymm :=
  Matrix.IsSymm.ext fun i j => K.get_comm j i

theorem isHermitian_toMatrix (K : Stiffness ℝ) : K.toMatrix.IsHermitian := K.isSymm_toMatrix

/-- **A stiffness is symmetric**, since it is read from half of its entries. -/
theorem dotProduct_mulVec_comm (K : Stiffness ℝ) (v w : Fin 6 → ℝ) :
    v ⬝ᵥ K.toMatrix *ᵥ w = w ⬝ᵥ K.toMatrix *ᵥ v := by
  rw [dotProduct_mulVec, ← mulVec_transpose, K.isSymm_toMatrix.eq, dotProduct_comm]

section Operations

variable [Waves]

/-- The product with a vector, as a sum over the columns. -/
theorem get_mulVec (K : Stiffness ℝ) (v : Voigt ℝ) (i : Fin 6) :
    (K.mulVec v).get i = ∑ j : Fin 6, K.get i j * v.get j := by
  show (K.mulVec v)[i] = ∑ j : Fin 6, K.get i j * v[j]
  simp [Stiffness.mulVec, Fin.sum_univ_succ, Voigt.xx, Voigt.yy, Voigt.zz, Voigt.yz, Voigt.xz,
    Voigt.xy]
  ring

/-- The product with a vector is that of the matrix. -/
theorem mulVec_eq (K : Stiffness ℝ) (v : Voigt ℝ) : (K.mulVec v).get = K.toMatrix *ᵥ v.get :=
  funext fun i => K.get_mulVec v i

theorem toMatrix_scale (K : Stiffness ℝ) (t : ℝ) : (K.scale t).toMatrix = t • K.toMatrix := by
  ext i j
  show (K.packed.map (· * t))[slot i j] = t * K.packed[slot i j]
  rw [Fin.getElem_fin, Vector.getElem_map, mul_comm]
  rfl

/-- Every entry times a factor takes the product times the factor. -/
theorem get_mulVec_scale (K : Stiffness ℝ) (t : ℝ) (v : Voigt ℝ) (i : Fin 6) :
    ((K.scale t).mulVec v).get i = t * (K.mulVec v).get i := by
  rw [mulVec_eq, mulVec_eq, toMatrix_scale, smul_mulVec]
  rfl

/-- The product is linear. -/
theorem get_mulVec_add (K : Stiffness ℝ) {v w sum : Voigt ℝ} {t : ℝ}
    (hsum : ∀ i : Fin 6, sum.get i = v.get i + t * w.get i) (i : Fin 6) :
    (K.mulVec sum).get i = (K.mulVec v).get i + t * (K.mulVec w).get i := by
  have hget : sum.get = v.get + t • w.get := funext hsum
  rw [mulVec_eq, mulVec_eq, mulVec_eq, hget, mulVec_add, mulVec_smul]
  rfl

/-- The work of one strain on the stress of another is the same either way. -/
theorem sum_mul_mulVec (K : Stiffness ℝ) (v w : Voigt ℝ) :
    ∑ i : Fin 6, v.get i * (K.mulVec w).get i = ∑ i : Fin 6, (K.mulVec v).get i * w.get i := by
  rw [mulVec_eq, mulVec_eq]
  exact (K.dotProduct_mulVec_comm v.get w.get).trans (dotProduct_comm _ _)

/-- The magnitude is the largest magnitude of an entry. -/
theorem magnitude_le_iff (K : Stiffness ℝ) (b : ℝ) :
    K.magnitude ≤ b ↔ 0 ≤ b ∧ ∀ s : Fin 21, |K.packed.get s| ≤ b := by
  unfold magnitude
  rw [← Vector.foldl_toList, Scalar.foldl_maximum_abs_le_iff]
  refine and_congr_right fun _ => ⟨fun h s => h _ ?_, fun h x hx => ?_⟩
  · exact Vector.mem_toList_iff.mpr (Vector.getElem_mem s.isLt)
  · obtain ⟨i, hi, rfl⟩ := Vector.getElem_of_mem (Vector.mem_toList_iff.mp hx)
    exact h ⟨i, hi⟩

theorem magnitude_nonneg (K : Stiffness ℝ) : 0 ≤ K.magnitude :=
  ((K.magnitude_le_iff _).mp le_rfl).1

theorem magnitude_eq_iSup (K : Stiffness ℝ) : K.magnitude = ⨆ s : Fin 21, |K.packed.get s| := by
  have hbdd : BddAbove (Set.range fun s : Fin 21 => |K.packed.get s|) :=
    (Set.finite_range _).bddAbove
  refine le_antisymm ((K.magnitude_le_iff _).mpr ⟨?_, fun s => le_ciSup hbdd s⟩)
    (ciSup_le ((K.magnitude_le_iff _).mp le_rfl).2)
  exact (abs_nonneg _).trans (le_ciSup hbdd 0)

end Operations

end Stiffness

/-! ## The least eigenvalue -/

/-- **The least eigenvalue is found**: it is the least number in the spectrum of the matrix. -/
class Spectral.IsExact [Spectral ℝ] : Prop where
  isLeast_minEigenvalue (K : Stiffness ℝ) : IsLeast (spectrum ℝ K.toMatrix) K.minEigenvalue

namespace Stiffness

/-- The spectrum lies above a number exactly if the quadratic form does. -/
theorem forall_mem_spectrum_iff (K : Stiffness ℝ) (c : ℝ) :
    (∀ x ∈ spectrum ℝ K.toMatrix, c ≤ x)
      ↔ ∀ v : Fin 6 → ℝ, c * (v ⬝ᵥ v) ≤ v ⬝ᵥ K.toMatrix *ᵥ v := by
  -- both say that the matrix less the number on its diagonal is positive semi-definite
  set A := K.toMatrix - algebraMap ℝ (Matrix (Fin 6) (Fin 6) ℝ) c with hA
  have hherm : A.IsHermitian :=
    K.isHermitian_toMatrix.sub (Matrix.isHermitian_diagonal _)
  have hspectrum : A.PosSemidef ↔ ∀ x ∈ spectrum ℝ K.toMatrix, c ≤ x := by
    rw [Matrix.posSemidef_iff_isHermitian_and_spectrum_nonneg, and_iff_right hherm, hA,
      ← spectrum.sub_singleton_eq]
    simp [Set.subset_def]
  have hform : A.PosSemidef ↔ ∀ v : Fin 6 → ℝ, c * (v ⬝ᵥ v) ≤ v ⬝ᵥ K.toMatrix *ᵥ v := by
    rw [Matrix.posSemidef_iff_dotProduct_mulVec, and_iff_right hherm]
    refine forall_congr' fun v => ?_
    rw [hA, Matrix.sub_mulVec, dotProduct_sub, star_trivial, Algebra.algebraMap_eq_smul_one,
      Matrix.smul_mulVec, Matrix.one_mulVec, dotProduct_smul, smul_eq_mul, sub_nonneg]
  exact hspectrum.symm.trans hform

/-- **The least eigenvalue bounds the quadratic form**, and nothing larger does. -/
theorem le_minEigenvalue_iff [Spectral ℝ] [Spectral.IsExact] (K : Stiffness ℝ) (c : ℝ) :
    c ≤ K.minEigenvalue ↔ ∀ v : Fin 6 → ℝ, c * (v ⬝ᵥ v) ≤ v ⬝ᵥ K.toMatrix *ᵥ v := by
  have hleast := Spectral.IsExact.isLeast_minEigenvalue K
  rw [← K.forall_mem_spectrum_iff]
  exact ⟨fun h x hx => h.trans (hleast.2 hx), fun h => h _ hleast.1⟩

/-- A stiffness under which no strain has negative energy has no negative eigenvalue. -/
theorem minEigenvalue_nonneg [Spectral ℝ] [Spectral.IsExact] {K : Stiffness ℝ}
    (h : ∀ e : Voigt ℝ, 0 ≤ e.get ⬝ᵥ K.toMatrix *ᵥ e.get) : 0 ≤ K.minEigenvalue := by
  refine (K.le_minEigenvalue_iff 0).mpr fun v => ?_
  have henergy := h (Vector.ofFn v)
  rw [show (Vector.ofFn v).get = v from funext fun i => Vector.getElem_ofFn _] at henergy
  rwa [zero_mul]

end Stiffness

/-- The least number in the spectrum. -/
@[reducible] noncomputable def Spectral.exact : Spectral ℝ :=
  ⟨fun K => sInf (spectrum ℝ K.toMatrix)⟩

/-- There is a way to find the least eigenvalue. -/
theorem Spectral.isExact_exact : @Spectral.IsExact Spectral.exact := by
  let _ := Spectral.exact
  refine ⟨fun K => ?_⟩
  have hrange : spectrum ℝ K.toMatrix = Set.range K.isHermitian_toMatrix.eigenvalues :=
    K.isHermitian_toMatrix.spectrum_real_eq_range_eigenvalues
  have hfinite : (spectrum ℝ K.toMatrix).Finite := hrange ▸ Set.finite_range _
  have hne : (spectrum ℝ K.toMatrix).Nonempty := hrange ▸ Set.range_nonempty _
  exact ⟨hne.csInf_mem hfinite, fun x hx => csInf_le hfinite.bddBelow hx⟩

end WeakForm
