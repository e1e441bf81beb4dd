import Mathlib
import WeakForm.Scalar

/-!
# Numbers with an undefined one

Comparisons of an undefined number are all false, so numbers with an undefined one are not ordered,
but **the others are, linearly** (`Scalar.LinearlyOrdered`). Floating-point numbers are such numbers.
Unpacked, a number has a sign, an exponent and a mantissa, and two numbers are compared in this
order, so each of them has a rank in a lexicographic order (`rank`), and what is to be shown of
comparisons is known of ranks.

Subtraction spreads what is not finite: **a difference is undefined or infinite if one of its sides
is** (`unpack_abs_sub`).
-/

namespace WeakForm

/-- **Numbers that are ordered linearly but for an undefined one**, which is not even less than or
equal to itself. -/
class Scalar.LinearlyOrdered (α : Type) [Scalar α] : Prop where
  isUndefined_iff : ∀ x : α, isUndefined x = true ↔ ¬ x ≤ x
  le_self_left : ∀ x y : α, x ≤ y → x ≤ x
  le_self_right : ∀ x y : α, x ≤ y → y ≤ y
  le_trans : ∀ x y z : α, x ≤ y → y ≤ z → x ≤ z
  le_total : ∀ x y : α, x ≤ x → y ≤ y → x ≤ y ∨ y ≤ x
  lt_iff : ∀ x y : α, x < y ↔ x ≤ y ∧ ¬ y ≤ x
  zero_le_zero : (0 : α) ≤ 0

namespace Scalar.LinearlyOrdered

variable {α : Type} [Scalar α] [LinearlyOrdered α] {x y z : α}

theorem le_of_lt (h : x < y) : x ≤ y := ((lt_iff x y).mp h).1

theorem lt_of_lt_of_le (h : x < y) (h' : y ≤ z) : x < z :=
  (lt_iff x z).mpr ⟨le_trans x y z (le_of_lt h) h',
    fun hzx => ((lt_iff x y).mp h).2 (le_trans y z x h' hzx)⟩

/-- Between numbers that are not undefined, one of two comparisons holds. -/
theorem le_of_not_lt (hx : x ≤ x) (hy : y ≤ y) (h : ¬ x < y) : y ≤ x := by
  rcases le_total x y hx hy with hle | hle
  · by_contra hnot
    exact h ((lt_iff x y).mpr ⟨hle, hnot⟩)
  · exact hle

end Scalar.LinearlyOrdered

/-! ## Ranks -/

open Float.Model

/-- The rank of an unpacked number: from the negative infinity through negative numbers, of which
those with larger exponents come first, zero, and positive numbers to the positive infinity. -/
def rank : UnpackedFloat → ℤ ×ₗ ℤ ×ₗ ℤ
  | .infinity .negative => toLex (-2, toLex (0, 0))
  | .finite .negative m e _ => toLex (-1, toLex (-e, -m))
  | .notANumber | .zero _ => toLex (0, toLex (0, 0))
  | .finite .positive m e _ => toLex (1, toLex (e, m))
  | .infinity .positive => toLex (2, toLex (0, 0))

theorem compare_neg (x y : ℤ) : compare (-x) (-y) = (compare x y).swap := by
  rw [Int.compare_eq_ite_lt, Std.OrientedOrd.eq_swap (a := x), Int.compare_eq_ite_lt y x]
  simp only [neg_lt_neg_iff, Ordering.swap_swap]

theorem compare_natCast (m n : ℕ) : compare (m : ℤ) (n : ℤ) = compare m n := by
  rw [Int.compare_eq_ite_lt, Nat.compare_eq_ite_lt]
  simp only [Nat.cast_lt]

/-- **Numbers are compared by their ranks.** -/
theorem compare_eq_some {a b : UnpackedFloat} (ha : a.isNaN = false) (hb : b.isNaN = false) :
    a.compare b = some (compare (rank a) (rank b)) := by
  cases a with
  | notANumber => cases ha
  | infinity s =>
    cases b with
    | notANumber => cases hb
    | infinity s' => cases s <;> cases s' <;> rfl
    | zero s' => cases s <;> rfl
    | finite s' m' e' h' => cases s <;> cases s' <;> rfl
  | zero s =>
    cases b with
    | notANumber => cases hb
    | infinity s' => cases s' <;> rfl
    | zero s' => rfl
    | finite s' m' e' h' => cases s' <;> rfl
  | finite s m e h =>
    cases b with
    | notANumber => cases hb
    | infinity s' => cases s <;> cases s' <;> rfl
    | zero s' => cases s <;> rfl
    | finite s' m' e' h' =>
      have hpos : compare (toLex (e, (m : ℤ))) (toLex (e', (m' : ℤ)))
          = (compare e e').then (compare m m') := by
        rw [← compare_natCast]
        rfl
      -- below zero the larger exponent and the larger mantissa come first
      have hneg : compare (toLex (-e, -(m : ℤ))) (toLex (-e', -(m' : ℤ)))
          = ((compare e e').then (compare m m')).swap := by
        rw [Ordering.swap_then, ← compare_natCast, ← compare_neg, ← compare_neg]
        rfl
      cases s <;> cases s'
      · exact congrArg some hneg.symm
      · rfl
      · rfl
      · exact congrArg some hpos.symm

theorem compare_eq_none {a b : UnpackedFloat} (h : a.isNaN = true ∨ b.isNaN = true) :
    a.compare b = none := by
  rcases h with h | h
  · cases a with
    | notANumber => rfl
    | _ => cases h
  · cases b with
    | notANumber => cases a <;> rfl
    | _ => cases h

/-- A comparison that holds is one of numbers. -/
theorem lt_iff_rank {x y : Float} :
    x < y ↔ x.isNaN = false ∧ y.isNaN = false
      ∧ rank x.toModel.unpack < rank y.toModel.unpack := by
  show decide (x.toModel.unpack.lt y.toModel.unpack = true) = true ↔ x.toModel.unpack.isNaN = false
    ∧ y.toModel.unpack.isNaN = false ∧ _
  rw [decide_eq_true_iff]
  unfold UnpackedFloat.lt
  cases hx : x.toModel.unpack.isNaN with
  | true => simp [compare_eq_none (.inl hx)]
  | false =>
    cases hy : y.toModel.unpack.isNaN with
    | true => simp [compare_eq_none (.inr hy)]
    | false => simp [compare_eq_some hx hy, compare_lt_iff_lt]

theorem le_iff_rank {x y : Float} :
    x ≤ y ↔ x.isNaN = false ∧ y.isNaN = false
      ∧ rank x.toModel.unpack ≤ rank y.toModel.unpack := by
  show decide (x.toModel.unpack.le y.toModel.unpack = true) = true ↔ x.toModel.unpack.isNaN = false
    ∧ y.toModel.unpack.isNaN = false ∧ _
  rw [decide_eq_true_iff]
  unfold UnpackedFloat.le
  cases hx : x.toModel.unpack.isNaN with
  | true => simp [compare_eq_none (.inl hx)]
  | false =>
    cases hy : y.toModel.unpack.isNaN with
    | true => simp [compare_eq_none (.inr hy)]
    | false => simp [compare_eq_some hx hy, Ordering.isLE_iff_ne_gt, compare_gt_iff_gt]

theorem le_self_iff {x : Float} : x ≤ x ↔ x.isNaN = false := by
  rw [le_iff_rank]
  exact ⟨fun h => h.1, fun h => ⟨h, h, le_refl _⟩⟩

/-- **Floating-point numbers are ordered linearly**, but for the undefined one. -/
instance : Scalar.LinearlyOrdered Float where
  isUndefined_iff := by
    intro x
    rw [le_self_iff]
    show (!(x.toModel.unpack.compare x.toModel.unpack == some .eq)) = true
      ↔ ¬ x.toModel.unpack.isNaN = false
    cases hx : x.toModel.unpack.isNaN with
    | true => simp [compare_eq_none (.inl hx)]
    | false => simp [compare_eq_some hx hx]
  le_self_left := fun x y h => le_self_iff.mpr (le_iff_rank.mp h).1
  le_self_right := fun x y h => le_self_iff.mpr (le_iff_rank.mp h).2.1
  le_trans := by
    intro x y z hxy hyz
    obtain ⟨hx, -, hxy⟩ := le_iff_rank.mp hxy
    obtain ⟨-, hz, hyz⟩ := le_iff_rank.mp hyz
    exact le_iff_rank.mpr ⟨hx, hz, hxy.trans hyz⟩
  le_total := by
    intro x y hx hy
    rw [le_self_iff] at hx hy
    rcases le_total (rank x.toModel.unpack) (rank y.toModel.unpack) with h | h
    · exact Or.inl (le_iff_rank.mpr ⟨hx, hy, h⟩)
    · exact Or.inr (le_iff_rank.mpr ⟨hy, hx, h⟩)
  lt_iff := by
    intro x y
    rw [lt_iff_rank, le_iff_rank, le_iff_rank]
    constructor
    · rintro ⟨hx, hy, h⟩
      exact ⟨⟨hx, hy, h.le⟩, fun h' => absurd h'.2.2 (not_le.mpr h)⟩
    · rintro ⟨⟨hx, hy, -⟩, h⟩
      exact ⟨hx, hy, not_le.mp fun h' => h ⟨hy, hx, h'⟩⟩
  zero_le_zero := by decide

/-! ## Differences -/

theorem unpack_pack_notANumber : (pack .notANumber).unpack = .notANumber := rfl

theorem unpack_pack_infinity (s : UnpackedFloat.Sign) :
    (pack (.infinity s)).unpack = .infinity s := by
  cases s <;> rfl

/-- **What is not finite spreads**: the magnitude of a difference with a side that is not finite is
undefined or the positive infinity. -/
theorem unpack_abs_sub {x y : Float} (h : x.isFinite = false ∨ y.isFinite = false) :
    (Scalar.abs (x - y)).toModel.unpack = .notANumber
      ∨ (Scalar.abs (x - y)).toModel.unpack = .infinity .positive := by
  -- each operation unpacks its operands and packs its result
  show (pack (pack (UnpackedFloat.sub Format.binary64 x.toModel.unpack
      y.toModel.unpack)).unpack.abs).unpack = .notANumber
    ∨ (pack (pack (UnpackedFloat.sub Format.binary64 x.toModel.unpack
      y.toModel.unpack)).unpack.abs).unpack = .infinity .positive
  have hsub : UnpackedFloat.sub Format.binary64 x.toModel.unpack y.toModel.unpack = .notANumber
      ∨ ∃ s, UnpackedFloat.sub Format.binary64 x.toModel.unpack y.toModel.unpack
        = .infinity s := by
    have h' : x.toModel.unpack.isFinite = false ∨ y.toModel.unpack.isFinite = false := h
    generalize x.toModel.unpack = a at h' ⊢
    generalize y.toModel.unpack = b at h' ⊢
    cases a with
    | notANumber => exact Or.inl rfl
    | infinity s =>
      cases b with
      | notANumber => exact Or.inl rfl
      | infinity s' =>
        cases s <;> cases s'
        · exact Or.inl rfl
        · exact Or.inr ⟨.negative, rfl⟩
        · exact Or.inr ⟨.positive, rfl⟩
        · exact Or.inl rfl
      | zero s' => exact Or.inr ⟨s, rfl⟩
      | finite s' m' e' h' => exact Or.inr ⟨s, rfl⟩
    | zero s =>
      cases b with
      | notANumber => exact Or.inl rfl
      | infinity s' => exact Or.inr ⟨-s', rfl⟩
      | _ => simp [UnpackedFloat.isFinite] at h'
    | finite s m e hm =>
      cases b with
      | notANumber => exact Or.inl rfl
      | infinity s' => exact Or.inr ⟨-s', rfl⟩
      | _ => simp [UnpackedFloat.isFinite] at h'
  obtain hnan | ⟨s, hinf⟩ := hsub
  · rw [hnan, unpack_pack_notANumber]
    exact Or.inl unpack_pack_notANumber
  · rw [hinf, unpack_pack_infinity]
    exact Or.inr (unpack_pack_infinity .positive)

/-- Only the positive infinity is as large as itself. -/
theorem isInf_of_le {x y : Float} (hx : x.toModel.unpack = .infinity .positive) (h : x ≤ y) :
    y.isInf = true := by
  obtain ⟨-, hy, hrank⟩ := le_iff_rank.mp h
  rw [hx] at hrank
  show y.toModel.unpack.isInf = true
  change y.toModel.unpack.isNaN = false at hy
  generalize y.toModel.unpack = b at hy hrank ⊢
  cases b with
  | notANumber => cases hy
  | infinity s => rfl
  | zero s => simp [rank, Prod.Lex.toLex_le_toLex] at hrank
  | finite s m e hm =>
    cases s <;> simp [rank, Prod.Lex.toLex_le_toLex] at hrank

end WeakForm
