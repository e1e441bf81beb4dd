import Mathlib
import WeakForm.Proofs.AdmittedMaterials
import WeakForm.Proofs.UndefinedNumbers

/-!
# Partial arithmetic

Over the real numbers every quotient is a number, that by zero included, so a formula that divides
by zero does not show it. In partial arithmetic it does: **a quotient by zero and the root of a
negative number have no value**, and neither has what is computed from them (`Partial`). So a
formula that has a value there has taken no such step, and its value is the exact one.

The numbers of partial arithmetic are the real numbers and one without a value, which is as
contagious as any undefined number (`Partial.isContagious`).
-/

namespace WeakForm

/-- A real number, or none. -/
inductive Partial where
  | undefined
  | of (x : ℝ)

namespace Partial

/-- An operation on values, where they exist. -/
def bind (f : ℝ → Partial) : Partial → Partial
  | undefined => undefined
  | of x => f x

/-- An operation on two values, where both exist. -/
def bind₂ (f : ℝ → ℝ → Partial) (a b : Partial) : Partial := a.bind fun x => b.bind (f x)

/-- A relation between two values that exist. -/
def Both (r : ℝ → ℝ → Prop) : Partial → Partial → Prop
  | of x, of y => r x y
  | _, _ => False

/-- Equality of two values that exist. -/
noncomputable def beq : Partial → Partial → Bool
  | of x, of y => x == y
  | _, _ => false

open Classical in
/-- **Partial arithmetic**: division by zero and the roots of negative numbers have no value. -/
noncomputable instance scalar [Waves] : Scalar Partial where
  zero := of 0
  one := of 1
  add := bind₂ fun x y => of (x + y)
  sub := bind₂ fun x y => of (x - y)
  mul := bind₂ fun x y => of (x * y)
  div := bind₂ fun x y => if y = 0 then undefined else of (x / y)
  neg := bind fun x => of (-x)
  natCast n := of n
  ofScientific m s e := of (OfScientific.ofScientific m s e)
  lt := Both (· < ·)
  le := Both (· ≤ ·)
  beq := Partial.beq
  decLt := Classical.decRel _
  decLe := Classical.decRel _
  abs := bind fun x => of |x|
  sqrt := bind fun x => if x < 0 then undefined else of (Real.sqrt x)
  sin := bind fun x => of (Waves.sin x)
  cos := bind fun x => of (Waves.cos x)

section Operations

variable [Waves] {x y : ℝ}

theorem zero_eq : (0 : Partial) = of 0 := rfl

theorem one_eq : (1 : Partial) = of 1 := rfl

theorem natCast_eq (n : ℕ) : (n : Partial) = of n := rfl

@[simp] theorem of_add (x y : ℝ) : of x + of y = of (x + y) := rfl

@[simp] theorem of_sub (x y : ℝ) : of x - of y = of (x - y) := rfl

@[simp] theorem of_mul (x y : ℝ) : of x * of y = of (x * y) := rfl

@[simp] theorem of_neg (x : ℝ) : -of x = of (-x) := rfl

/-- A quotient has a value if its divisor is not zero. -/
theorem of_div (h : y ≠ 0) : of x / of y = of (x / y) := if_neg h

/-- A number that is not negative has a root. -/
theorem sqrt_of (h : 0 ≤ x) : Scalar.sqrt (of x) = of (Real.sqrt x) := if_neg h.not_gt

@[simp] theorem abs_of (x : ℝ) : Scalar.abs (of x) = of |x| := rfl

@[simp] theorem of_lt (x y : ℝ) : of x < of y ↔ x < y := Iff.rfl

@[simp] theorem of_le (x y : ℝ) : of x ≤ of y ↔ x ≤ y := Iff.rfl

@[simp] theorem of_beq (x y : ℝ) : (of x == of y) = (x == y) := rfl

/-- A value is tested for zero as the number is. -/
theorem of_beq_zero_iff (x : ℝ) : (of x == 0) = true ↔ x = 0 := by
  rw [zero_eq, of_beq, beq_iff_eq]

theorem isUndefined_of (x : ℝ) : Scalar.isUndefined (of x) = false := by
  rw [Scalar.isUndefined, of_beq, beq_self_eq_true, Bool.not_true]

theorem isUndefined_undefined : Scalar.isUndefined undefined = true := rfl

@[simp] theorem maximum_of (x y : ℝ) :
    Scalar.maximum (of x) (of y) = of (Scalar.maximum x y) := by
  unfold Scalar.maximum
  rw [isUndefined_of, Scalar.isUndefined_real]
  by_cases h : x < y
  · rw [if_pos (Or.inr ((of_lt x y).mpr h)), if_pos (Or.inr h)]
  · rw [if_neg (by simpa using h), if_neg (by simpa using h)]

/-- Only what has no value is undefined. -/
theorem eq_undefined {a : Partial} (h : Scalar.isUndefined a = true) : a = undefined := by
  cases a with
  | undefined => rfl
  | of x =>
    rw [isUndefined_of] at h
    cases h

theorem bind₂_undefined (f : ℝ → ℝ → Partial) {a b : Partial}
    (h : Scalar.isUndefined a = true ∨ Scalar.isUndefined b = true) :
    bind₂ f a b = undefined := by
  rcases h with h | h
  · rw [eq_undefined h]
    rfl
  · rw [eq_undefined h]
    cases a <;> rfl

theorem not_both (r : ℝ → ℝ → Prop) {a b : Partial}
    (h : Scalar.isUndefined a = true ∨ Scalar.isUndefined b = true) : ¬ Both r a b := by
  rcases h with h | h
  · rw [eq_undefined h]
    exact id
  · rw [eq_undefined h]
    cases a <;> exact id

/-- **What has no value is contagious.** -/
instance isContagious : Scalar.IsContagious Partial where
  not_lt _ _ h := not_both (· < ·) h
  not_le _ _ h := not_both (· ≤ ·) h
  beq_eq_false a b h := by
    rcases h with h | h
    · rw [eq_undefined h]
      rfl
    · rw [eq_undefined h]
      cases a <;> rfl
  isUndefined_add _ _ h := (congrArg _ (bind₂_undefined _ h)).trans isUndefined_undefined
  isUndefined_sub _ _ h := (congrArg _ (bind₂_undefined _ h)).trans isUndefined_undefined
  isUndefined_mul _ _ h := (congrArg _ (bind₂_undefined _ h)).trans isUndefined_undefined
  isUndefined_div _ _ h := (congrArg _ (bind₂_undefined _ h)).trans isUndefined_undefined
  isUndefined_neg _ h := by
    rw [eq_undefined h]
    exact isUndefined_undefined

end Operations

end Partial

/-! ## Materials -/

/-- A function on all entries. -/
def Stiffness.map {α β : Type} (f : α → β) (K : Stiffness α) : Stiffness β := ⟨K.packed.map f⟩

/-- A function on all numbers of a material. -/
def Material.map {α β : Type} (f : α → β) (m : Material α) : Material β where
  name := m.name
  symmetry := m.symmetry
  density := f m.density
  specificHeat := f m.specificHeat
  yieldStress := f m.yieldStress
  stiffness := m.stiffness.map f
  thermalStrain := m.thermalStrain.map f
  conduction := ⟨f m.conduction.k11, f m.conduction.k12, f m.conduction.k22⟩

namespace Partial

/-- The value, or zero if there is none. -/
noncomputable def value : Partial → ℝ
  | undefined => 0
  | of x => x

open Classical in
/-- The least eigenvalue of a matrix all of whose entries have values. -/
noncomputable instance spectral [Spectral ℝ] : Spectral Partial where
  minEigenvalue K :=
    if ∀ s, K.packed.get s ≠ undefined then of (K.map value).minEigenvalue else undefined

variable [Waves]

theorem magnitude_map (K : Stiffness ℝ) : (K.map of).magnitude = of K.magnitude := by
  unfold Stiffness.magnitude Stiffness.map
  rw [Vector.foldl_map, ← Vector.foldl_toList, ← Vector.foldl_toList]
  refine List.foldl_hom of fun largest entry => ?_
  rw [abs_of, maximum_of, Scalar.abs_real]

variable [Spectral ℝ]

omit [Waves] in
theorem minEigenvalue_map (K : Stiffness ℝ) : (K.map of).minEigenvalue = of K.minEigenvalue := by
  have hvalues : ∀ s, (K.map of).packed.get s ≠ undefined := by
    intro s
    show (K.packed.map of)[s] ≠ undefined
    rw [Fin.getElem_fin, Vector.getElem_map]
    exact Partial.noConfusion
  have hmap : (K.map of).map value = K := by
    show (⟨(K.packed.map of).map value⟩ : Stiffness ℝ) = K
    rw [Vector.map_map]
    exact congrArg Stiffness.mk (Vector.map_id K.packed)
  exact (if_pos hvalues).trans (congrArg (fun K' : Stiffness ℝ => of K'.minEigenvalue) hmap)

/-- **The tests of all materials judge the same** in partial arithmetic. -/
theorem ofStiffness?_map {name : String} {symmetry : Symmetry} {density yieldStress : ℝ}
    {K : Stiffness ℝ} {m : Material Partial} :
    Material.ofStiffness? name symmetry (of density) (of yieldStress) (K.map of) = .ok m
      ↔ ∃ m', Material.ofStiffness? name symmetry density yieldStress K = .ok m'
        ∧ m = m'.map of := by
  have htolerance : -1e-12 * (K.map of).magnitude = of (-1e-12 * K.magnitude) := by
    rw [magnitude_map]
    rfl
  have hmap : (⟨name, symmetry, density, 0, yieldStress, K, Vector.replicate 6 0, .zero⟩ :
      Material ℝ).map of = ⟨name, symmetry, of density, 0, of yieldStress, K.map of,
        Vector.replicate 6 0, .zero⟩ := by
    unfold Material.map
    rw [Vector.map_replicate]
    rfl
  rw [Material.ofStiffness?_eq_ok, htolerance, minEigenvalue_map, ← hmap]
  constructor
  · rintro ⟨hdensity, hyield, hK, rfl⟩
    exact ⟨_, Material.ofStiffness?_eq_ok.mpr ⟨hdensity, hyield, hK, rfl⟩, rfl⟩
  · rintro ⟨m', hm', rfl⟩
    obtain ⟨hdensity, hyield, hK, rfl⟩ := Material.ofStiffness?_eq_ok.mp hm'
    exact ⟨hdensity, hyield, hK, rfl⟩

end Partial

end WeakForm
