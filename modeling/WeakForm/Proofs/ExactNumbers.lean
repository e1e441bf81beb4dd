import Mathlib
import WeakForm.Check.Difference
import WeakForm.Check.Result
import WeakForm.Stiffness

/-!
# The exact reading of the formulas

Every formula of this library is written over a type with the operations of `Scalar`. Read over the
real numbers it is exact: sums may be taken in any order, a difference quotient of an affine
function is its derivative, and nothing is undefined.

Two operations are left open. **The sine and the cosine are any two functions** (`Waves`): they only
spread out the data at which an element is verified, and no statement may depend on where that data
lies. All other operations are those of the real numbers, so each of them unfolds to the one that
Mathlib knows, and the lemmas of this module say so for the functions that are built on them.
-/

namespace WeakForm

/-- Two functions in the places of sine and cosine. -/
class Waves where
  sin : ℝ → ℝ
  cos : ℝ → ℝ

/-- Sine and cosine themselves. -/
noncomputable instance Waves.circular : Waves := ⟨Real.sin, Real.cos⟩

/-- **The exact reading**: the operations of the real numbers. -/
noncomputable instance realScalar [Waves] : Scalar ℝ where
  decLt := inferInstance
  decLe := inferInstance
  abs x := |x|
  sqrt := Real.sqrt
  sin := Waves.sin
  cos := Waves.cos

namespace Scalar

variable [Waves]

/-- No real number is undefined. -/
@[simp] theorem isUndefined_real (x : ℝ) : isUndefined x = false := by
  simp [isUndefined]

@[simp] theorem abs_real (x : ℝ) : Scalar.abs x = |x| := rfl

@[simp] theorem sqrt_real (x : ℝ) : Scalar.sqrt x = Real.sqrt x := rfl

@[simp] theorem square_real (x : ℝ) : square x = x ^ 2 := (pow_two x).symm

@[simp] theorem maximum_real (x y : ℝ) : maximum x y = max x y := by
  unfold maximum
  rw [isUndefined_real]
  by_cases h : x < y
  · rw [if_pos (Or.inr h), max_eq_right h.le]
  · rw [if_neg (by simpa using h), max_eq_left (not_lt.mp h)]

/-- What bounds the largest magnitude, and the number that the search for it starts from. -/
theorem foldl_maximum_abs_le_iff (xs : List ℝ) (a b : ℝ) :
    xs.foldl (fun largest x => maximum largest (Scalar.abs x)) a ≤ b
      ↔ a ≤ b ∧ ∀ x ∈ xs, |x| ≤ b := by
  induction xs generalizing a with
  | nil => simp
  | cons x xs ih =>
    rw [List.foldl_cons, ih, maximum_real, abs_real, max_le_iff, List.forall_mem_cons, and_assoc]

/-- The sum from left to right is the sum. -/
@[simp] theorem sum_real (xs : List ℝ) : sum xs = xs.sum := by
  unfold sum
  rw [List.sum_eq_foldl]

/-- A sum over indices. -/
theorem sum_finRange {n : ℕ} (f : Fin n → ℝ) : sum ((List.finRange n).map f) = ∑ i, f i := by
  rw [sum_real, Fin.sum_univ_def]

/-- The inner product of two vectors of one length, as a sum over their entries. -/
theorem dot_toList {n : ℕ} (v w : Vector ℝ n) :
    dot v.toList w.toList = ∑ i : Fin n, v.get i * w.get i := by
  unfold dot
  rw [sum_real, ← List.sum_ofFn]
  congr 1
  refine List.ext_getElem (by simp) (fun i _ _ => ?_)
  simp [Vector.get_eq_getElem]

end Scalar

@[simp] theorem differenceQuotient_real [Waves] (step plus minus : ℝ) :
    differenceQuotient step plus minus = (plus - minus) / (2 * step) := by
  unfold differenceQuotient
  norm_num

end WeakForm
