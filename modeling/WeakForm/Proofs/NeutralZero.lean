import WeakForm.Proofs.UndefinedNumbers

/-!
# Zero adds nothing

A sum starts at zero, so the sum of one number is that number with zero in front. It is the same
number (`Scalar.Same`): an equal one, where zero equals its negative, or an undefined one if that
one was. **This is all that is asked of zero** (`Scalar.HasNeutralZero`).

Floating-point numbers have this law. The sum of zero and a number that is neither zero nor
undefined is the number itself, unpacked and packed again, and packing gives back what was unpacked
(`pack_unpack`).
-/

namespace WeakForm

open Float.Model

/-! ## Packing what was unpacked -/

/-- A word is made of its sign, its exponent and its mantissa. -/
theorem eq_packComponents (b : BitVec 64) :
    b = UnpackedFloat.packComponents .binary64
      (UnpackedFloat.Sign.ofBitVec (@UnpackedFloat.unpackSign .binary64 b))
      (@UnpackedFloat.unpackExponent .binary64 b) (@UnpackedFloat.unpackMantissa .binary64 b) := by
  have hsign : ∀ s : BitVec 1, (UnpackedFloat.Sign.ofBitVec s).toBitVec = s := by decide
  unfold UnpackedFloat.packComponents
  rw [hsign]
  unfold UnpackedFloat.unpackSign UnpackedFloat.unpackExponent UnpackedFloat.unpackMantissa
  refine BitVec.eq_of_getLsbD_eq fun i hi => ?_
  simp only [BitVec.getLsbD_append, BitVec.extractLsb]
  grind

/-- A number with the least exponent has no leading bit to hide. -/
theorem pack_subnormal (s : UnpackedFloat.Sign) (m : BitVec 52) (hm : 0 < m.toNat) :
    UnpackedFloat.pack .binary64 (.finite s m.toNat (-1074) hm)
      = UnpackedFloat.packComponents .binary64 s 0 m := by
  have hlog : m.toNat.log2 + 1 ≠ Format.binary64.mantissaBits := by
    have hlt : m.toNat.log2 < 52 := (Nat.log2_lt hm.ne').mpr m.isLt
    have hbits : Format.binary64.mantissaBits = 53 := rfl
    omega
  unfold UnpackedFloat.pack
  dsimp only
  rw [if_neg (by decide), if_neg hlog, BitVec.ofNat_toNat, BitVec.setWidth_eq]
  rfl

/-- **A normal number hides the leading bit of its mantissa.** -/
theorem pack_normal (s : UnpackedFloat.Sign) (e : BitVec 11) (m : BitVec 52) (he : e ≠ -1#11)
    (hm : 0 < (1#1 ++ m).toNat) :
    UnpackedFloat.pack .binary64 (.finite s (1#1 ++ m).toNat (e.toNat - (1023 + 52)) hm)
      = UnpackedFloat.packComponents .binary64 s e m := by
  have happend : (1#1 ++ m).toNat = 2 ^ 52 + m.toNat := by
    rw [BitVec.toNat_append, ← Nat.shiftLeft_add_eq_or_of_lt m.isLt]
    rfl
  have hlt : m.toNat < 2 ^ 52 := m.isLt
  have hlog : (1#1 ++ m).toNat.log2 + 1 = Format.binary64.mantissaBits := by
    have hvalue : (1#1 ++ m).toNat.log2 = 52 :=
      (Nat.log2_eq_iff hm.ne').mpr ⟨by omega, by omega⟩
    rw [hvalue]
    rfl
  have hexponent : ((e.toNat : ℤ) - (1023 + 52) + (Format.binary64.exponentBias : ℕ)
      + (Format.binary64.mantissaBitsWithoutImplicit : ℕ)).toNat = e.toNat := by
    show ((e.toNat : ℤ) - (1023 + 52) + (1023 : ℕ) + (52 : ℕ)).toNat = e.toNat
    omega
  have hfinite : e.toNat + 1 < 2 ^ 11 := by
    have hbound : e.toNat < 2 ^ 11 := e.isLt
    have hne : e.toNat ≠ 2 ^ 11 - 1 := fun h => he (BitVec.eq_of_toNat_eq h)
    omega
  unfold UnpackedFloat.pack
  dsimp only
  rw [hexponent, if_neg (not_le.mpr hfinite), if_pos hlog]
  congr 1
  · rw [BitVec.ofNat_toNat, BitVec.setWidth_eq]
  · refine BitVec.eq_of_toNat_eq ?_
    rw [BitVec.toNat_ofNat, happend]
    exact (Nat.add_mod_left _ _).trans (Nat.mod_eq_of_lt m.isLt)

/-- **Packing gives back what was unpacked**, since there is one way only to spell what is not a
number. -/
theorem pack_unpack (x : Float.Model) : pack x.unpack = x := by
  obtain ⟨⟨b⟩, hvalid⟩ := x
  have hpack : UnpackedFloat.pack .binary64 (UnpackedFloat.unpack .binary64 b) = b := by
    refine Eq.trans ?_ (eq_packComponents b).symm
    unfold UnpackedFloat.unpack
    dsimp only
    split
    · next hexponent =>
      split
      · next hmantissa =>
        rw [hexponent, hmantissa]
        rfl
      · next hmantissa =>
        exact (hvalid.eq_packedNaN hexponent hmantissa).symm.trans (eq_packComponents b)
    · next hspecial =>
      split
      · next hexponent =>
        rw [hexponent]
        split
        · next hmantissa =>
          rw [hmantissa]
          rfl
        · exact pack_subnormal _ _ _
      · exact pack_normal _ _ _ hspecial _
  unfold pack Float.Model.unpack
  congr 1
  exact congrArg UInt64.ofBitVec hpack

/-! ## The same number -/

namespace Scalar

variable {α : Type} [Scalar α]

/-- **The same number, up to the sign of zero**: an equal one, or both are undefined. -/
def Same (x y : α) : Prop := (x == y) = true ∨ isUndefined x = true ∧ isUndefined y = true

instance (x y : α) : Decidable (Same x y) := inferInstanceAs (Decidable (_ ∨ _))

theorem Same.refl (x : α) : Same x x := by
  unfold Same isUndefined
  cases x == x with
  | false => exact Or.inr ⟨rfl, rfl⟩
  | true => exact Or.inl rfl

/-- **Numbers to which zero adds nothing.** -/
class HasNeutralZero (α : Type) [Scalar α] : Prop where
  same_zero_add : ∀ x : α, Same (0 + x) x

instance HasNeutralZero.float : HasNeutralZero Float where
  same_zero_add x := by
    have hadd : (0 : Float) + x
        = .ofModel (pack (UnpackedFloat.add .binary64 (.zero .positive) x.toModel.unpack)) := rfl
    -- what is neither zero nor undefined is packed again
    have hself (h : UnpackedFloat.add .binary64 (.zero .positive) x.toModel.unpack
        = x.toModel.unpack) : Same (0 + x) x := by
      rw [hadd, h, pack_unpack]
      exact Same.refl x
    cases hx : x.toModel.unpack with
    | notANumber =>
      have hundefined : isUndefined x = true := by
        rw [isUndefined_float]
        show x.toModel.unpack.isNaN = true
        rw [hx]
        rfl
      exact Or.inr ⟨IsContagious.isUndefined_add 0 x (Or.inr hundefined), hundefined⟩
    | zero s =>
      left
      rw [hadd]
      show ((pack (UnpackedFloat.add .binary64 (.zero .positive) x.toModel.unpack)).unpack.compare
        x.toModel.unpack == some Ordering.eq) = true
      rw [hx]
      cases s <;> rfl
    | infinity s => exact hself (by rw [hx]; rfl)
    | finite s m e hm => exact hself (by rw [hx]; rfl)

end Scalar

end WeakForm
