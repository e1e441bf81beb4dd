import WeakForm.Proofs.ElasticQuantities

/-!
# The gradient of the failure index

The failure index is the square root of a quadratic, so a central difference of it is no multiple of
a derivative. Its square is the quadratic, whose central difference is exact, and **twice the index
times its gradient is the gradient of the square** (`two_mul_failure_mul_get`). This holds where the
index is zero, too: either there is no yield stress, and the square is zero everywhere, or there is
no equivalent stress, and then its derivative is zero.

By strain, the gradient is pulled back by the stiffness, which is symmetric.
-/

namespace WeakForm

open Dims ElementModel

variable [Waves]

namespace Material

/-! ## Equivalent stress -/

/-- The derivative of the square of the equivalent stress. -/
noncomputable def equivalentStressSlope (s : Voigt ℝ) : Voigt ℝ :=
  #v[(s.xx - s.yy) + (s.xx - s.zz), (s.yy - s.xx) + (s.yy - s.zz),
    (s.zz - s.xx) + (s.zz - s.yy), 6 * s.yz, 6 * s.xz, 6 * s.xy]

/-- The square of the equivalent stress, as a number. -/
theorem equivalentStressSquared_eq (s : Voigt ℝ) :
    equivalentStressSquared s
      = ((s.get 0 - s.get 1) ^ 2 + (s.get 0 - s.get 2) ^ 2 + (s.get 1 - s.get 2) ^ 2) / 2
        + 3 * (s.get 3 ^ 2 + s.get 4 ^ 2 + s.get 5 ^ 2) := by
  simp [equivalentStressSquared, Vector.get_eq_getElem, Voigt.xx, Voigt.yy, Voigt.zz, Voigt.yz,
    Voigt.xz, Voigt.xy]
  ring

theorem equivalentStressSquared_nonneg (s : Voigt ℝ) : 0 ≤ equivalentStressSquared s := by
  rw [equivalentStressSquared_eq]
  positivity

omit [Waves] in
/-- The derivative, by entry. -/
theorem get_equivalentStressSlope (s : Voigt ℝ) :
    (equivalentStressSlope s).get
      = ![(s.get 0 - s.get 1) + (s.get 0 - s.get 2), (s.get 1 - s.get 0) + (s.get 1 - s.get 2),
        (s.get 2 - s.get 0) + (s.get 2 - s.get 1), 6 * s.get 3, 6 * s.get 4, 6 * s.get 5] := by
  funext i
  fin_cases i <;>
    simp [equivalentStressSlope, Vector.get_eq_getElem, Voigt.xx, Voigt.yy, Voigt.zz, Voigt.yz,
      Voigt.xz, Voigt.xy]

/-- **The central difference of a quadratic is its derivative.** -/
theorem equivalentStressSquared_sub {s w plus minus : Voigt ℝ} {t : ℝ}
    (hplus : ∀ i : Fin 6, plus.get i = s.get i + t * w.get i)
    (hminus : ∀ i : Fin 6, minus.get i = s.get i + (-t) * w.get i) :
    equivalentStressSquared plus - equivalentStressSquared minus
      = 2 * t * ∑ i : Fin 6, (equivalentStressSlope s).get i * w.get i := by
  rw [equivalentStressSquared_eq, equivalentStressSquared_eq, get_equivalentStressSlope,
    Fin.sum_univ_six]
  simp only [hplus, hminus, Matrix.cons_val]
  ring

/-- **The derivative of the square is bounded by the square**, so it is zero where that is zero. -/
theorem sq_get_equivalentStressSlope_le (s : Voigt ℝ) (i : Fin 6) :
    (equivalentStressSlope s).get i ^ 2 ≤ 12 * equivalentStressSquared s := by
  have hxy := sq_nonneg (s.get 0 - s.get 1)
  have hxz := sq_nonneg (s.get 0 - s.get 2)
  have hyz := sq_nonneg (s.get 1 - s.get 2)
  have h3 := sq_nonneg (s.get 3)
  have h4 := sq_nonneg (s.get 4)
  have h5 := sq_nonneg (s.get 5)
  rw [equivalentStressSquared_eq, get_equivalentStressSlope]
  fin_cases i <;> simp <;> linarith only [hxy, hxz, hyz, h3, h4, h5]

/-! ## Failure -/

variable (m : Material ℝ)

/-- The square of the failure index is quadratic in the stress. -/
theorem failure_sq (s : Voigt ℝ) :
    m.failure s ^ 2 = equivalentStressSquared s / m.yieldStress ^ 2 := by
  unfold failure
  rw [div_pow, Scalar.sqrt_real, Real.sq_sqrt (equivalentStressSquared_nonneg s)]

/-- **Twice the index times its gradient is the gradient of its square.** -/
theorem two_mul_failure_mul_get (s : Voigt ℝ) (i : Fin 6) :
    2 * m.failure s * (m.failureGradient s).get i
      = (equivalentStressSlope s).get i / m.yieldStress ^ 2 := by
  by_cases hzero : m.failure s = 0
  · -- then nothing is left of the quadratic or there is no yield stress to divide by
    have hsquare : equivalentStressSquared s / m.yieldStress ^ 2 = 0 := by
      rw [← m.failure_sq, hzero, zero_pow two_ne_zero]
    rw [hzero, mul_zero, zero_mul]
    rcases div_eq_zero_iff.mp hsquare with hstress | hyield
    · have hslope : (equivalentStressSlope s).get i ^ 2 ≤ 0 := by
        have hbound := sq_get_equivalentStressSlope_le s i
        rwa [hstress, mul_zero] at hbound
      rw [pow_eq_zero_iff two_ne_zero |>.mp (le_antisymm hslope (sq_nonneg _)), zero_div]
    · rw [hyield, div_zero]
  · have hyield : m.yieldStress ≠ 0 := by
      intro h
      refine hzero ?_
      unfold failure
      rw [h, div_zero]
    have hget : (m.failureGradient s).get i
        = 1 / (2 * m.yieldStress * m.yieldStress * m.failure s)
          * (equivalentStressSlope s).get i := by
      unfold failureGradient
      rw [if_neg (by simpa using hzero)]
      fin_cases i <;> simp [equivalentStressSlope, Vector.get_eq_getElem, mul_assoc]
      -- the entries along the axes are left
      all_goals exact Or.inl (Or.inl (by ring))
    rw [hget]
    field_simp

/-- **The central difference of the square of the index**, for every step. -/
theorem failure_sq_sub {s w plus minus : Voigt ℝ} {t : ℝ}
    (hplus : ∀ i : Fin 6, plus.get i = s.get i + t * w.get i)
    (hminus : ∀ i : Fin 6, minus.get i = s.get i + (-t) * w.get i) :
    m.failure plus ^ 2 - m.failure minus ^ 2
      = 2 * t * (2 * m.failure s * ∑ i : Fin 6, (m.failureGradient s).get i * w.get i) := by
  have hsum : 2 * m.failure s * ∑ i : Fin 6, (m.failureGradient s).get i * w.get i
      = (∑ i : Fin 6, (equivalentStressSlope s).get i * w.get i) / m.yieldStress ^ 2 := by
    rw [Finset.mul_sum, Finset.sum_div]
    refine Finset.sum_congr rfl fun i _ => ?_
    rw [← mul_assoc, m.two_mul_failure_mul_get, div_mul_eq_mul_div]
  rw [m.failure_sq, m.failure_sq, div_sub_div_same, equivalentStressSquared_sub hplus hminus, hsum,
    mul_div_assoc]

end Material

/-! ## By the state -/

namespace Elasticity

variable {thermalLoad : ℝ}

/-- **The gradient of the square of the failure index**, pulled back from stress to strain and
scattered over the displacement gradients. -/
theorem hasGradient_failure_sq (m : Material ℝ) (u : dims.Values) :
    HasGradient (fun u => m.failure (m.stiffness.mulVec (strainOf m thermalLoad u)) ^ 2) u
      ((2 * m.failure (m.stiffness.mulVec (strainOf m thermalLoad u)))
        • gradientOf (some (m.stiffness.mulVec
          (m.failureGradient (m.stiffness.mulVec (strainOf m thermalLoad u)))))) := by
  intro du t
  dsimp only
  rw [m.failure_sq_sub (m.stiffness.get_mulVec_add (get_strainOf_add u du t))
    (m.stiffness.get_mulVec_add (get_strainOf_add u du (-t))), m.stiffness.sum_mul_mulVec,
    ← sum_gradientOf_mul]
  simp only [Prod.smul_fst, Prod.smul_snd, Pi.smul_apply, smul_eq_mul, mul_assoc, ← Finset.mul_sum,
    ← mul_add]

end Elasticity

end WeakForm
