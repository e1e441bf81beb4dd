import WeakForm.Proofs.FailureGradient
import WeakForm.Proofs.PartialNumbers

/-!
# The failure index as a seminorm

The equivalent stress is a Euclidean norm: that of the three differences of the normal stresses and
of the three shear stresses, each with its weight (`Material.shape`). The shape is linear in the
stress, so **the failure index is a seminorm**, and it is zero on the hydrostatic stresses, which
have no shape, rather than at zero alone.

The gradient is the direction of the shape, pulled back. By the Cauchy–Schwarz inequality **no stress
has a larger product with it than its own failure index** (`Material.sum_failureGradient_mul_le`),
and the stress that it belongs to has just that product: the gradient is a subgradient, and so is
the zero that stands for it where the index is zero.
-/

namespace WeakForm

namespace Voigt

/-- The stress that is the same in all directions. -/
def hydrostatic (p : ℝ) : Voigt ℝ := #v[p, p, p, 0, 0, 0]

/-- **A hydrostatic stress**: the normal components are equal and the others zero. -/
def IsHydrostatic (s : Voigt ℝ) : Prop :=
  s.xx = s.yy ∧ s.yy = s.zz ∧ s.yz = 0 ∧ s.xz = 0 ∧ s.xy = 0

theorem isHydrostatic_hydrostatic (p : ℝ) : (hydrostatic p).IsHydrostatic :=
  ⟨rfl, rfl, rfl, rfl, rfl⟩

theorem get_add (s d : Voigt ℝ) (i : Fin 6) : (s + d).get i = s.get i + d.get i :=
  Vector.getElem_add ..

theorem get_smul (c : ℝ) (s : Voigt ℝ) (i : Fin 6) : (c • s).get i = c * s.get i :=
  Vector.getElem_smul ..

end Voigt

namespace Material

/-! ## The shape of a stress -/

/-- The differences of the normal stresses and the shear stresses, weighted. -/
noncomputable def shape (s : Voigt ℝ) : EuclideanSpace ℝ (Fin 6) :=
  (EuclideanSpace.equiv (Fin 6) ℝ).symm
    ![(√(2 : ℕ))⁻¹ * (s.xx - s.yy), (√(2 : ℕ))⁻¹ * (s.xx - s.zz),
      (√(2 : ℕ))⁻¹ * (s.yy - s.zz), √(3 : ℕ) * s.yz, √(3 : ℕ) * s.xz, √(3 : ℕ) * s.xy]

/-- The shape, by the entries of the stress. -/
theorem shape_eq (s : Voigt ℝ) :
    shape s = !₂[(√2)⁻¹ * (s.get 0 - s.get 1), (√2)⁻¹ * (s.get 0 - s.get 2),
      (√2)⁻¹ * (s.get 1 - s.get 2), √3 * s.get 3, √3 * s.get 4, √3 * s.get 5] := rfl

theorem shape_add (s d : Voigt ℝ) : shape (s + d) = shape s + shape d := by
  ext i
  fin_cases i <;> simp [shape_eq, Voigt.get_add] <;> ring

theorem shape_smul (c : ℝ) (s : Voigt ℝ) : shape (c • s) = c • shape s := by
  ext i
  fin_cases i <;> simp [shape_eq, Voigt.get_smul] <;> ring

/-- **Only hydrostatic stresses have no shape.** -/
theorem shape_eq_zero_iff (s : Voigt ℝ) : shape s = 0 ↔ s.IsHydrostatic := by
  have hentries : shape s = 0 ↔ s.get 0 = s.get 1 ∧ s.get 0 = s.get 2 ∧ s.get 1 = s.get 2
      ∧ s.get 3 = 0 ∧ s.get 4 = 0 ∧ s.get 5 = 0 := by
    simp [shape_eq, sub_eq_zero]
  rw [hentries]
  constructor
  · rintro ⟨hxy, -, hyz, hshear⟩
    exact ⟨hxy, hyz, hshear⟩
  · rintro ⟨hxy, hyz, hshear⟩
    exact ⟨hxy, hxy.trans hyz, hyz, hshear⟩

/-- **The product of two shapes** is that of a stress with a derivative of the square. -/
theorem inner_shape (s d : Voigt ℝ) :
    2 * inner ℝ (shape s) (shape d) = ∑ i : Fin 6, (equivalentStressSlope s).get i * d.get i := by
  have hhalf : 2 * ((√2)⁻¹ * (√2)⁻¹) = (1 : ℝ) := by
    rw [← mul_inv, Real.mul_self_sqrt zero_le_two, mul_inv_cancel₀ two_ne_zero]
  have hthree : √3 * √3 = (3 : ℝ) := Real.mul_self_sqrt zero_le_three
  rw [PiLp.inner_apply, Fin.sum_univ_six, Fin.sum_univ_six, get_equivalentStressSlope]
  simp only [shape_eq, RCLike.inner_apply, conj_trivial, PiLp.toLp_apply, Matrix.cons_val]
  linear_combination ((s.get 0 - s.get 1) * (d.get 0 - d.get 1)
    + (s.get 0 - s.get 2) * (d.get 0 - d.get 2) + (s.get 1 - s.get 2) * (d.get 1 - d.get 2)) * hhalf
    + 2 * (s.get 3 * d.get 3 + s.get 4 * d.get 4 + s.get 5 * d.get 5) * hthree

variable [Waves]

/-- **The equivalent stress is the norm of the shape.** -/
theorem equivalentStressSquared_eq_norm (s : Voigt ℝ) :
    equivalentStressSquared s = ‖shape s‖ ^ 2 := by
  rw [← real_inner_self_eq_norm_sq]
  have hpolar := inner_shape s s
  rw [get_equivalentStressSlope, Fin.sum_univ_six] at hpolar
  rw [equivalentStressSquared_eq]
  simp only [Matrix.cons_val] at hpolar
  linear_combination -hpolar / 2

/-! ## The index -/

variable (m : Material ℝ)

/-- The failure index is the norm of the shape over the yield stress. -/
theorem failure_eq (s : Voigt ℝ) : m.failure s = ‖shape s‖ / m.yieldStress := by
  unfold failure
  rw [equivalentStressSquared_eq_norm, Scalar.sqrt_real, Real.sqrt_sq (norm_nonneg _)]

theorem failure_smul (c : ℝ) (s : Voigt ℝ) : m.failure (c • s) = |c| * m.failure s := by
  rw [failure_eq, failure_eq, shape_smul, norm_smul, Real.norm_eq_abs, mul_div_assoc]

/-- A hydrostatic stress adds no shape. -/
theorem failure_add_hydrostatic (s : Voigt ℝ) (p : ℝ) :
    m.failure (s + .hydrostatic p) = m.failure s := by
  rw [failure_eq, failure_eq, shape_add,
    (shape_eq_zero_iff _).mpr (Voigt.isHydrostatic_hydrostatic p), add_zero]

section Positive

variable {m} (hyield : 0 < m.yieldStress)

include hyield

theorem failure_nonneg (s : Voigt ℝ) : 0 ≤ m.failure s := by
  rw [failure_eq]
  exact div_nonneg (norm_nonneg _) hyield.le

theorem failure_add_le (s d : Voigt ℝ) : m.failure (s + d) ≤ m.failure s + m.failure d := by
  rw [failure_eq, failure_eq, failure_eq, shape_add, ← add_div]
  exact div_le_div_of_nonneg_right (norm_add_le _ _) hyield.le

theorem failure_eq_zero_iff (s : Voigt ℝ) : m.failure s = 0 ↔ s.IsHydrostatic := by
  rw [failure_eq, div_eq_zero_iff, or_iff_left hyield.ne', norm_eq_zero, shape_eq_zero_iff]

end Positive

/-! ## The gradient -/

variable {m} in
theorem failureGradient_eq_zero {s : Voigt ℝ} (h : m.failure s = 0) :
    m.failureGradient s = Vector.replicate 6 0 := by
  unfold failureGradient
  rw [if_pos (by simpa using h)]

/-- Nothing of the gradient is left where the index is zero. -/
theorem sum_failureGradient_mul_eq_zero {s : Voigt ℝ} (h : m.failure s = 0) (d : Voigt ℝ) :
    ∑ i : Fin 6, (m.failureGradient s).get i * d.get i = 0 := by
  refine Finset.sum_eq_zero fun i _ => ?_
  rw [failureGradient_eq_zero h, Vector.get_replicate, zero_mul]

/-- **The gradient is the direction of the shape**, pulled back. -/
theorem failure_mul_sum_failureGradient_mul (s d : Voigt ℝ) :
    m.failure s * ∑ i : Fin 6, (m.failureGradient s).get i * d.get i
      = inner ℝ (shape s) (shape d) / m.yieldStress ^ 2 := by
  refine mul_left_cancel₀ two_ne_zero ?_
  rw [← mul_div_assoc, inner_shape, ← mul_assoc, Finset.mul_sum, Finset.sum_div]
  refine Finset.sum_congr rfl fun i _ => ?_
  rw [← mul_assoc, m.two_mul_failure_mul_get, div_mul_eq_mul_div]

/-- **Each stress has its own index as its product with the gradient.** -/
theorem sum_failureGradient_mul_self (s : Voigt ℝ) :
    ∑ i : Fin 6, (m.failureGradient s).get i * s.get i = m.failure s := by
  by_cases hzero : m.failure s = 0
  · rw [m.sum_failureGradient_mul_eq_zero hzero, hzero]
  · refine mul_left_cancel₀ hzero ?_
    rw [failure_mul_sum_failureGradient_mul, real_inner_self_eq_norm_sq, ← div_pow, ← failure_eq,
      pow_two]

variable {m}

/-- **No stress has a larger product with a gradient than its own index.** -/
theorem sum_failureGradient_mul_le (hyield : 0 < m.yieldStress) (s d : Voigt ℝ) :
    ∑ i : Fin 6, (m.failureGradient s).get i * d.get i ≤ m.failure d := by
  by_cases hzero : m.failure s = 0
  · rw [m.sum_failureGradient_mul_eq_zero hzero]
    exact failure_nonneg hyield d
  · have hpos : 0 < m.failure s := lt_of_le_of_ne (failure_nonneg hyield s) (Ne.symm hzero)
    refine le_of_mul_le_mul_left ?_ hpos
    calc m.failure s * ∑ i : Fin 6, (m.failureGradient s).get i * d.get i
        = inner ℝ (shape s) (shape d) / m.yieldStress ^ 2 :=
          m.failure_mul_sum_failureGradient_mul s d
      _ ≤ ‖shape s‖ * ‖shape d‖ / m.yieldStress ^ 2 :=
          div_le_div_of_nonneg_right (real_inner_le_norm _ _) (sq_nonneg _)
      _ = m.failure s * m.failure d := by
          rw [failure_eq, failure_eq, div_mul_div_comm, pow_two]

/-- **The gradient is a subgradient**: no stress is below the tangent. -/
theorem failure_add_sum_le (hyield : 0 < m.yieldStress) (s d : Voigt ℝ) :
    m.failure s + ∑ i : Fin 6, (m.failureGradient s).get i * (d.get i - s.get i)
      ≤ m.failure d := by
  have hsplit : ∑ i : Fin 6, (m.failureGradient s).get i * (d.get i - s.get i)
      = ∑ i : Fin 6, (m.failureGradient s).get i * d.get i - m.failure s := by
    rw [← m.sum_failureGradient_mul_self s, ← Finset.sum_sub_distrib]
    exact Finset.sum_congr rfl fun i _ => mul_sub ..
  have hle := sum_failureGradient_mul_le hyield s d
  linarith

/-- The value and the gradient are returned together. -/
theorem failureWithGradient_eq (s : Voigt ℝ) :
    m.failureWithGradient s = (m.failure s, m.failureGradient s) := by
  unfold failureWithGradient
  by_cases hzero : m.failure s = 0
  · rw [failureGradient_eq_zero hzero, hzero]
    exact if_pos (beq_self_eq_true _)
  · exact if_neg (by simpa using hzero)

/-! ## Divisions -/

theorem equivalentStressSquared_map (s : Voigt ℝ) :
    equivalentStressSquared (s.map Partial.of) = .of (equivalentStressSquared s) := by
  simp only [equivalentStressSquared, Voigt.xx, Voigt.yy, Voigt.zz, Voigt.yz, Voigt.xz, Voigt.xy,
    Vector.getElem_map]
  rfl

/-- The index divides by the yield stress. -/
theorem failure_map (hyield : m.yieldStress ≠ 0) (s : Voigt ℝ) :
    (m.map Partial.of).failure (s.map Partial.of) = .of (m.failure s) := by
  unfold failure
  rw [equivalentStressSquared_map, Partial.sqrt_of (equivalentStressSquared_nonneg s)]
  exact Partial.of_div hyield

/-- **The gradient divides by an index that is not zero.** -/
theorem failureGradient_map (hyield : m.yieldStress ≠ 0) (s : Voigt ℝ) :
    (m.map Partial.of).failureGradient (s.map Partial.of) = (m.failureGradient s).map .of := by
  unfold failureGradient
  rw [failure_map hyield]
  dsimp only
  by_cases hzero : m.failure s = 0
  · rw [if_pos ((Partial.of_beq_zero_iff _).mpr hzero), if_pos (beq_iff_eq.mpr hzero),
      Vector.map_replicate]
    rfl
  · have hfactor : 1 / (((2 : ℕ) : Partial) * (m.map Partial.of).yieldStress
        * (m.map Partial.of).yieldStress * .of (m.failure s))
        = .of (1 / ((2 : ℕ) * m.yieldStress * m.yieldStress * m.failure s)) :=
      Partial.of_div (mul_ne_zero (mul_ne_zero (mul_ne_zero (by norm_num) hyield) hyield) hzero)
    rw [if_neg (hzero ∘ (Partial.of_beq_zero_iff _).mp), if_neg (hzero ∘ beq_iff_eq.mp), hfactor]
    simp only [Voigt.xx, Voigt.yy, Voigt.zz, Voigt.yz, Voigt.xz, Voigt.xy, Vector.getElem_map,
      Vector.map_mk, List.map_toArray, List.map_cons, List.map_nil, Partial.natCast_eq,
      Partial.of_mul, Partial.of_sub]

/-- **No division is by zero.** -/
theorem failureWithGradient_map (hyield : m.yieldStress ≠ 0) (s : Voigt ℝ) :
    (m.map Partial.of).failureWithGradient (s.map Partial.of)
      = (.of (m.failureWithGradient s).1, (m.failureWithGradient s).2.map .of) := by
  unfold failureWithGradient
  rw [failure_map hyield, failureGradient_map hyield]
  dsimp only
  by_cases hzero : m.failure s = 0
  · rw [if_pos ((Partial.of_beq_zero_iff _).mpr hzero), if_pos (beq_iff_eq.mpr hzero),
      Vector.map_replicate]
    rfl
  · rw [if_neg (hzero ∘ (Partial.of_beq_zero_iff _).mp), if_neg (hzero ∘ beq_iff_eq.mp)]

/-! ## The laws of the index -/

/-- **The failure index is a seminorm and its gradient a subgradient.** -/
structure HasConvexFailure (m : Material ℝ) : Prop where
  failure_add_le : ∀ s d : Voigt ℝ, m.failure (s + d) ≤ m.failure s + m.failure d
  failure_smul : ∀ (c : ℝ) (s : Voigt ℝ), m.failure (c • s) = |c| * m.failure s
  failure_eq_zero_iff : ∀ s : Voigt ℝ, m.failure s = 0 ↔ s.IsHydrostatic
  failure_add_hydrostatic : ∀ (s : Voigt ℝ) (p : ℝ),
    m.failure (s + .hydrostatic p) = m.failure s
  /-- The value that is returned with the gradient is the index. -/
  fst_failureWithGradient : ∀ s : Voigt ℝ, (m.failureWithGradient s).1 = m.failure s
  sum_gradient_mul : ∀ s : Voigt ℝ,
    ∑ i : Fin 6, (m.failureWithGradient s).2.get i * s.get i = m.failure s
  /-- No index is below the tangent at another stress. -/
  tangent_le : ∀ s d : Voigt ℝ,
    m.failure s + ∑ i : Fin 6, (m.failureWithGradient s).2.get i * (d.get i - s.get i)
      ≤ m.failure d
  /-- No division is by zero, so there is a value where such a division has none. -/
  failureWithGradient_map : ∀ s : Voigt ℝ,
    (m.map Partial.of).failureWithGradient (s.map Partial.of)
      = (.of (m.failureWithGradient s).1, (m.failureWithGradient s).2.map .of)

variable (m) in
/-- **A positive yield stress is enough.** -/
theorem hasConvexFailure (hyield : 0 < m.yieldStress) : m.HasConvexFailure where
  failure_add_le := Material.failure_add_le hyield
  failure_smul := m.failure_smul
  failure_eq_zero_iff := Material.failure_eq_zero_iff hyield
  failure_add_hydrostatic := m.failure_add_hydrostatic
  fst_failureWithGradient s := by rw [failureWithGradient_eq]
  sum_gradient_mul s := by rw [failureWithGradient_eq, sum_failureGradient_mul_self]
  tangent_le s d := by
    rw [failureWithGradient_eq]
    exact failure_add_sum_le hyield s d
  failureWithGradient_map := Material.failureWithGradient_map hyield.ne'

end Material

/-- A material of unit yield stress fails at a unit stress along an axis. -/
theorem Material.hasConvexFailure_void :
    void.HasConvexFailure ∧ void.failure #v[1, 0, 0, 0, 0, 0] = 1 := by
  refine ⟨hasConvexFailure void one_pos, ?_⟩
  have hsquare : equivalentStressSquared (#v[1, 0, 0, 0, 0, 0] : Voigt ℝ) = 1 := by
    rw [equivalentStressSquared_eq]
    norm_num [Vector.get]
  unfold failure
  rw [hsquare, Scalar.sqrt_real, Real.sqrt_one]
  exact div_one 1

end WeakForm
