import WeakForm.Proofs.FloatOrder
import WeakForm.Stiffness.Spectrum

/-!
# What is computed from an undefined number

An undefined number is contagious (`Scalar.IsContagious`): **no comparison with it holds, and every
operation on it is undefined.** So a result that is defined has been computed from defined numbers
alone, and that is how these laws are used: from the result back to what it was computed from.

A test, in turn, does not hold of an undefined number, whichever way round it is written. Replacing
numbers by undefined ones (`Scalar.Blurs`) therefore makes no test hold that has failed before.

Floating-point numbers have these laws, and so has the search for the least eigenvalue over them.
-/

namespace WeakForm

namespace Scalar

variable {α : Type} [Scalar α]

/-- A number that is not undefined. -/
def IsDefined (x : α) : Prop := isUndefined x = false

theorem not_isDefined {x : α} : ¬ IsDefined x ↔ isUndefined x = true := by
  rw [IsDefined, Bool.not_eq_false]

/-- **Numbers of which the undefined ones are contagious.** -/
class IsContagious (α : Type) [Scalar α] : Prop where
  not_lt : ∀ x y : α, isUndefined x = true ∨ isUndefined y = true → ¬ x < y
  not_le : ∀ x y : α, isUndefined x = true ∨ isUndefined y = true → ¬ x ≤ y
  beq_eq_false : ∀ x y : α, isUndefined x = true ∨ isUndefined y = true → (x == y) = false
  isUndefined_add : ∀ x y : α, isUndefined x = true ∨ isUndefined y = true →
    isUndefined (x + y) = true
  isUndefined_sub : ∀ x y : α, isUndefined x = true ∨ isUndefined y = true →
    isUndefined (x - y) = true
  isUndefined_mul : ∀ x y : α, isUndefined x = true ∨ isUndefined y = true →
    isUndefined (x * y) = true
  isUndefined_div : ∀ x y : α, isUndefined x = true ∨ isUndefined y = true →
    isUndefined (x / y) = true
  isUndefined_neg : ∀ x : α, isUndefined x = true → isUndefined (-x) = true

namespace IsDefined

/-- An operation that is undefined on undefined numbers has defined operands where it is defined. -/
theorem of_isUndefined {x y z : α}
    (hz : isUndefined x = true ∨ isUndefined y = true → isUndefined z = true)
    (h : IsDefined z) : IsDefined x ∧ IsDefined y := by
  constructor
  · by_contra hx
    exact not_isDefined.mpr (hz (Or.inl (not_isDefined.mp hx))) h
  · by_contra hy
    exact not_isDefined.mpr (hz (Or.inr (not_isDefined.mp hy))) h

variable [IsContagious α] {x y : α}

theorem of_add (h : IsDefined (x + y)) : IsDefined x ∧ IsDefined y :=
  of_isUndefined (IsContagious.isUndefined_add x y) h

theorem of_sub (h : IsDefined (x - y)) : IsDefined x ∧ IsDefined y :=
  of_isUndefined (IsContagious.isUndefined_sub x y) h

theorem of_mul (h : IsDefined (x * y)) : IsDefined x ∧ IsDefined y :=
  of_isUndefined (IsContagious.isUndefined_mul x y) h

theorem of_div (h : IsDefined (x / y)) : IsDefined x ∧ IsDefined y :=
  of_isUndefined (IsContagious.isUndefined_div x y) h

theorem of_neg (h : IsDefined (-x)) : IsDefined x := by
  by_contra hx
  exact not_isDefined.mpr (IsContagious.isUndefined_neg x (not_isDefined.mp hx)) h

end IsDefined

/-! ## Blurring -/

/-- **A number is blurred** if an undefined one may have been put in its place. -/
def Blurs (x y : α) : Prop := y = x ∨ isUndefined y = true

/-- What is defined has not been replaced. -/
theorem Blurs.eq_of_isDefined {x y : α} (h : Blurs x y) (hy : IsDefined y) : y = x :=
  h.resolve_right fun hundefined => not_isDefined.mpr hundefined hy

variable [IsContagious α] {x y : α}

theorem Blurs.not_lt (h : Blurs x y) {b : α} (hx : ¬ x < b) : ¬ y < b := by
  rcases h with rfl | hy
  · exact hx
  · exact IsContagious.not_lt y b (Or.inl hy)

theorem Blurs.not_le (h : Blurs x y) {b : α} (hx : ¬ x ≤ b) : ¬ y ≤ b := by
  rcases h with rfl | hy
  · exact hx
  · exact IsContagious.not_le y b (Or.inl hy)

theorem Blurs.not_ge (h : Blurs x y) {b : α} (hx : ¬ b ≤ x) : ¬ b ≤ y := by
  rcases h with rfl | hy
  · exact hx
  · exact IsContagious.not_le b y (Or.inr hy)

end Scalar

/-- **The least eigenvalue of a stiffness with an undefined entry is undefined.** -/
class Spectral.IsContagious (α : Type) [Scalar α] [Spectral α] : Prop where
  isUndefined_minEigenvalue : ∀ (K : Stiffness α) (s : Fin 21),
    Scalar.isUndefined (K.packed.get s) = true → Scalar.isUndefined K.minEigenvalue = true

/-- A stiffness with a least eigenvalue has no undefined entry. -/
theorem Stiffness.isDefined_of_minEigenvalue {α : Type} [Scalar α] [Spectral α]
    [Spectral.IsContagious α] {K : Stiffness α} (h : Scalar.IsDefined K.minEigenvalue)
    (s : Fin 21) : Scalar.IsDefined (K.packed.get s) := by
  by_contra hs
  exact Scalar.not_isDefined.mpr
    (Spectral.IsContagious.isUndefined_minEigenvalue K s (Scalar.not_isDefined.mp hs)) h

/-! ## Floating-point numbers -/

open Float.Model

/-- The undefined number is the one that is not a number. -/
theorem isUndefined_float (x : Float) : Scalar.isUndefined x = x.isNaN := by
  rw [Bool.eq_iff_iff, Scalar.LinearlyOrdered.isUndefined_iff, le_self_iff, Bool.not_eq_false]

theorem eq_notANumber {a : UnpackedFloat} (h : a.isNaN = true) : a = .notANumber := by
  cases a with
  | notANumber => rfl
  | _ => cases h

/-- **An operation that passes on what is not a number** does so between unpacking and packing. -/
theorem isUndefined_pack (op : UnpackedFloat → UnpackedFloat → UnpackedFloat)
    (hleft : ∀ b, op .notANumber b = .notANumber) (hright : ∀ a, op a .notANumber = .notANumber)
    {x y : Float} (h : Scalar.isUndefined x = true ∨ Scalar.isUndefined y = true) :
    Scalar.isUndefined (Float.ofModel (pack (op x.toModel.unpack y.toModel.unpack))) = true := by
  rw [isUndefined_float, isUndefined_float] at h
  have hop : op x.toModel.unpack y.toModel.unpack = .notANumber := by
    rcases h with hx | hy
    · rw [eq_notANumber hx, hleft]
    · rw [eq_notANumber hy, hright]
  rw [isUndefined_float, hop]
  rfl

/-- **What is not a number is contagious.** -/
instance Scalar.IsContagious.float : Scalar.IsContagious Float where
  not_lt x y h hlt := by
    obtain ⟨hx, hy, -⟩ := lt_iff_rank.mp hlt
    rw [isUndefined_float, isUndefined_float, hx, hy] at h
    exact h.elim Bool.noConfusion Bool.noConfusion
  not_le x y h hle := by
    obtain ⟨hx, hy, -⟩ := le_iff_rank.mp hle
    rw [isUndefined_float, isUndefined_float, hx, hy] at h
    exact h.elim Bool.noConfusion Bool.noConfusion
  beq_eq_false x y h := by
    rw [isUndefined_float, isUndefined_float] at h
    show (x.toModel.unpack.compare y.toModel.unpack == some .eq) = false
    rw [compare_eq_none h]
    rfl
  isUndefined_add _ _ h := isUndefined_pack (UnpackedFloat.add .binary64) (fun _ => rfl)
    (fun a => by cases a <;> rfl) h
  isUndefined_sub _ _ h := isUndefined_pack (UnpackedFloat.sub .binary64) (fun _ => rfl)
    (fun a => by cases a <;> rfl) h
  isUndefined_mul _ _ h := isUndefined_pack (UnpackedFloat.mul .binary64) (fun _ => rfl)
    (fun a => by cases a <;> rfl) h
  isUndefined_div _ _ h := isUndefined_pack (UnpackedFloat.div .binary64) (fun _ => rfl)
    (fun a => by cases a <;> rfl) h
  isUndefined_neg x h := by
    rw [isUndefined_float] at h
    show Scalar.isUndefined (Float.ofModel (pack x.toModel.unpack.neg)) = true
    rw [isUndefined_float, eq_notANumber h]
    rfl

/-- The search for the least eigenvalue gives up where an entry is not finite. -/
instance Spectral.IsContagious.float : Spectral.IsContagious Float where
  isUndefined_minEigenvalue K s h := by
    have hfinite : K.isFinite = false := by
      rw [Stiffness.isFinite, List.all_eq_false]
      refine ⟨K.packed.get s, Vector.mem_toList_iff.mpr (Vector.getElem_mem s.isLt), ?_⟩
      rw [Bool.not_eq_true]
      exact Scalar.IsContagious.beq_eq_false _ _
        (Or.inl (Scalar.IsContagious.isUndefined_sub _ _ (Or.inl h)))
    show Scalar.isUndefined K.jacobiEigenvalue = true
    rw [Stiffness.jacobiEigenvalue, hfinite, if_pos Bool.not_false]
    decide +kernel

end WeakForm
