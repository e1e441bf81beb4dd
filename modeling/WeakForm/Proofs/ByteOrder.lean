import WeakForm.Proofs.PrintedJson

/-!
# The order of bytes

Texts are compared character by character. In UTF-8 they may as well be compared byte by byte
(`toUTF8_lt_toUTF8`): the first byte of a character tells how many there are, and grows with
their number, and the bytes of a character are its digits to the base of 64, the highest first. So
two characters differ in their bytes **before either of them ends**, and in the same direction.
-/

namespace WeakForm

/-! ## Digits -/

/-- Bytes in order: the first ones are, or they are the same and the rest is in order. -/
theorem ofNat_cons_lt {a b : ℕ} {xs ys : List UInt8} (hb : b < 256)
    (h : a < b ∨ a = b ∧ xs < ys) : UInt8.ofNat a :: xs < UInt8.ofNat b :: ys := by
  rw [List.cons_lt_cons_iff]
  refine h.imp (fun hlt => ?_) fun ⟨heq, hrest⟩ => ⟨congrArg UInt8.ofNat heq, hrest⟩
  exact (UInt8.ofNat_lt_iff_lt (hlt.trans hb) hb).mpr hlt

section Digits

variable {v w : ℕ} {xs ys : List UInt8}

/-- The last digit decides if the others are the same. -/
theorem last_digit_lt (h : v < w) (hsame : v / 64 = w / 64) :
    UInt8.ofNat (v % 64 + 128) :: xs < UInt8.ofNat (w % 64 + 128) :: ys :=
  ofNat_cons_lt (by omega) (Or.inl (by omega))

theorem last_two_digits_lt (h : v < w) (hsame : v / 4096 = w / 4096) :
    UInt8.ofNat (v / 64 % 64 + 128) :: UInt8.ofNat (v % 64 + 128) :: xs
      < UInt8.ofNat (w / 64 % 64 + 128) :: UInt8.ofNat (w % 64 + 128) :: ys := by
  refine ofNat_cons_lt (by omega) ?_
  obtain hlt | heq : v / 64 < w / 64 ∨ v / 64 = w / 64 := by omega
  · exact Or.inl (by omega)
  · exact Or.inr ⟨by rw [heq], last_digit_lt h heq⟩

theorem last_three_digits_lt (h : v < w) (hsame : v / 262144 = w / 262144) :
    UInt8.ofNat (v / 4096 % 64 + 128) :: UInt8.ofNat (v / 64 % 64 + 128)
        :: UInt8.ofNat (v % 64 + 128) :: xs
      < UInt8.ofNat (w / 4096 % 64 + 128) :: UInt8.ofNat (w / 64 % 64 + 128)
        :: UInt8.ofNat (w % 64 + 128) :: ys := by
  refine ofNat_cons_lt (by omega) ?_
  obtain hlt | heq : v / 4096 < w / 4096 ∨ v / 4096 = w / 4096 := by omega
  · exact Or.inl (by omega)
  · exact Or.inr ⟨by rw [heq], last_two_digits_lt h heq⟩

end Digits

/-! ## Characters -/

/-- **The bytes of two characters are in the order of the characters**, whatever follows them. -/
theorem utf8EncodeChar_append_lt {c d : Char} (h : c < d) (xs ys : List UInt8) :
    String.utf8EncodeChar c ++ xs < String.utf8EncodeChar d ++ ys := by
  have hlt : c.val.toNat < d.val.toNat := h
  have hmax : d.val.toNat < 1114112 := by
    have hvalid := d.valid
    unfold UInt32.isValidChar Nat.isValidChar at hvalid
    omega
  unfold String.utf8EncodeChar
  generalize c.val.toNat = v at hlt ⊢
  generalize d.val.toNat = w at hlt hmax ⊢
  dsimp only
  -- with different numbers of bytes, the first ones lie in different ranges
  by_cases hv1 : v ≤ 127
  · rw [if_pos hv1]
    split_ifs <;> exact ofNat_cons_lt (by omega) (Or.inl (by omega))
  have hw1 : ¬ w ≤ 127 := by omega
  rw [if_neg hv1, if_neg hw1]
  by_cases hv2 : v ≤ 2047
  · rw [if_pos hv2]
    by_cases hw2 : w ≤ 2047
    · rw [if_pos hw2]
      refine ofNat_cons_lt (by omega) ?_
      obtain hlow | heq : v / 64 < w / 64 ∨ v / 64 = w / 64 := by omega
      · exact Or.inl (by omega)
      · exact Or.inr ⟨by rw [heq], last_digit_lt hlt heq⟩
    · rw [if_neg hw2]
      split_ifs <;> exact ofNat_cons_lt (by omega) (Or.inl (by omega))
  have hw2 : ¬ w ≤ 2047 := by omega
  rw [if_neg hv2, if_neg hw2]
  by_cases hv3 : v ≤ 65535
  · rw [if_pos hv3]
    by_cases hw3 : w ≤ 65535
    · rw [if_pos hw3]
      refine ofNat_cons_lt (by omega) ?_
      obtain hlow | heq : v / 4096 < w / 4096 ∨ v / 4096 = w / 4096 := by omega
      · exact Or.inl (by omega)
      · exact Or.inr ⟨by rw [heq], last_two_digits_lt hlt heq⟩
    · rw [if_neg hw3]
      exact ofNat_cons_lt (by omega) (Or.inl (by omega))
  have hw3 : ¬ w ≤ 65535 := by omega
  rw [if_neg hv3, if_neg hw3]
  refine ofNat_cons_lt (by omega) ?_
  obtain hlow | heq : v / 262144 < w / 262144 ∨ v / 262144 = w / 262144 := by omega
  · exact Or.inl (by omega)
  · exact Or.inr ⟨by rw [heq], last_three_digits_lt hlt heq⟩

/-! ## Texts -/

/-- Characters in order have their bytes in order. -/
theorem flatMap_utf8EncodeChar_lt {cs ds : List Char} (h : cs < ds) :
    cs.flatMap String.utf8EncodeChar < ds.flatMap String.utf8EncodeChar := by
  induction cs generalizing ds with
  | nil =>
    cases ds with
    | nil => exact absurd h (List.not_lt_nil [])
    | cons d ds =>
      have hlength : 0 < (String.utf8EncodeChar d).length := by
        rw [String.length_utf8EncodeChar]
        exact d.utf8Size_pos
      obtain ⟨byte, bytes, hbytes⟩ := List.exists_cons_of_length_pos hlength
      rw [List.flatMap_cons, hbytes]
      exact List.nil_lt_cons _ _
  | cons c cs ih =>
    cases ds with
    | nil => exact absurd h (List.not_lt_nil _)
    | cons d ds =>
      rw [List.flatMap_cons, List.flatMap_cons]
      obtain hlt | ⟨rfl, hlt⟩ := List.cons_lt_cons_iff.mp h
      · exact utf8EncodeChar_append_lt hlt _ _
      · exact List.append_left_lt (ih hlt)

/-- **Texts in order have their bytes in order.** -/
theorem toUTF8_lt_toUTF8 {s t : String} (h : s < t) : s.toUTF8.toList < t.toUTF8.toList := by
  rw [Json.toList_toUTF8, Json.toList_toUTF8]
  exact flatMap_utf8EncodeChar_lt (String.lt_iff_toList_lt.mp h)

end WeakForm
