import Mathlib
import WeakForm.Json.Parser
import WeakForm.Json.Printer

/-!
# Number literals

A number literal is printed digit by digit and read back as the same literal, with every digit of
its fraction and with its exponent (`readNumber_print`). What is read is the *longest* literal at
the start of the input, so this needs a rest that does not go on with a number (`EndsNumber`).
-/

namespace WeakForm

namespace Digit

/-! ## Digits of natural numbers -/

theorem foldl_ofNatAux {fuel n : ℕ} (h : n < fuel) (rest : List Digit) :
    (ofNatAux fuel n rest).foldl (fun n d => 10 * n + d.val) 0
      = rest.foldl (fun n d => 10 * n + d.val) n := by
  induction fuel generalizing n rest with
  | zero => omega
  | succ fuel ih =>
    have hlast : (Fin.ofNat 10 n).val = n % 10 := rfl
    unfold ofNatAux
    dsimp only
    split
    · rw [List.foldl_cons, hlast]
      congr 1
      omega
    · rw [ih (by omega), List.foldl_cons, hlast, Nat.div_add_mod]

/-- The digits of a number spell it. -/
@[simp] theorem toNat_ofNat (n : ℕ) : toNat (ofNat n) = n :=
  foldl_ofNatAux (Nat.lt_succ_self n) []

/-- The first digit of a number is a zero only if the number is. -/
theorem exists_ofNatAux_eq_cons {fuel n : ℕ} (h : n < fuel) (rest : List Digit) :
    ∃ d digits, ofNatAux fuel n rest = d :: digits ∧ (d = 0 → n = 0) := by
  induction fuel generalizing n rest with
  | zero => omega
  | succ fuel ih =>
    unfold ofNatAux
    dsimp only
    split
    · refine ⟨_, rest, rfl, fun hd => ?_⟩
      have hmod : n % 10 = 0 := congrArg Fin.val hd
      omega
    · obtain ⟨d, digits, heq, hd⟩ := ih (n := n / 10) (by omega) (Fin.ofNat 10 n :: rest)
      exact ⟨d, digits, heq, fun hzero => by have := hd hzero; omega⟩

/-- **No leading zeros**: a number whose digits start with a zero has no other digit. -/
theorem exists_ofNat_eq_cons (n : ℕ) :
    ∃ d digits, ofNat n = d :: digits ∧ (d = 0 → digits = []) := by
  obtain ⟨d, digits, heq, hd⟩ := exists_ofNatAux_eq_cons (Nat.lt_succ_self n) []
  refine ⟨d, digits, heq, fun hzero => ?_⟩
  obtain rfl := hd hzero
  exact (List.cons.inj heq).2.symm

theorem toChar_ne_minus (d : Digit) : d.toChar ≠ '-' := by
  revert d
  decide

end Digit

namespace Json

/-! ## Digits in the input -/

/-- A rest that does not start with a digit. -/
def EndsDigits : List Symbol → Prop
  | some ch :: _ => Digit.ofChar? ch = none
  | _ => True

/-- **A rest that does not go on with a number.** -/
def EndsNumber : List Symbol → Prop
  | some ch :: _ => Digit.ofChar? ch = none ∧ ch ≠ '.' ∧ ch ≠ 'e' ∧ ch ≠ 'E'
  | _ => True

theorem EndsNumber.endsDigits {rest : List Symbol} (h : EndsNumber rest) : EndsDigits rest := by
  unfold EndsNumber at h
  split at h
  · exact h.1
  · unfold EndsDigits
    split
    · next hne => exact absurd rfl (hne _ _)
    · trivial

theorem spanDigits_text (digits : List Digit) {rest : List Symbol} (h : EndsDigits rest) :
    spanDigits ((Digit.text digits).map some ++ rest) = (digits, rest) := by
  induction digits with
  | nil =>
    show spanDigits rest = _
    unfold spanDigits
    split
    · next ch rest =>
      have hch : Digit.ofChar? ch = none := h
      rw [hch]
    · rfl
  | cons d digits ih =>
    show spanDigits (some d.toChar :: ((Digit.text digits).map some ++ rest)) = _
    rw [spanDigits, Digit.ofChar?_toChar]
    dsimp only
    rw [ih]

theorem readWhole_text (n : ℕ) {rest : List Symbol} (h : EndsDigits rest) :
    readWhole ((Digit.text (Digit.ofNat n)).map some ++ rest) = some (n, rest) := by
  obtain ⟨d, digits, heq, hzero⟩ := Digit.exists_ofNat_eq_cons n
  unfold readWhole
  rw [spanDigits_text _ h, heq]
  split
  · next hnil => cases hnil
  · next hcons =>
    -- a zero in front of other digits
    cases hcons
    cases hzero rfl
  · next digits' rest' _ _ hdigits =>
    obtain ⟨rfl, rfl⟩ := Prod.mk.inj hdigits
    rw [← heq, Digit.toNat_ofNat]

/-! ## The parts of a literal -/

namespace Number

variable (n : Number)

/-- The text of the fraction with its point. -/
def fractionText : List Char := if n.fraction = [] then [] else '.' :: Digit.text n.fraction

/-- The text of the exponent with its letter and its sign. -/
def exponentText : List Char :=
  match n.exponent with
  | none => []
  | some e => 'e' :: (if e < 0 then '-' else '+') :: Digit.text (Digit.ofNat e.natAbs)

theorem print_eq : n.print = (if n.negative then ['-'] else [])
    ++ Digit.text (Digit.ofNat n.whole) ++ n.fractionText ++ n.exponentText := rfl

theorem readExponent_exponentText {rest : List Symbol} (h : EndsNumber rest) :
    readExponent (n.exponentText.map some ++ rest) = some (n.exponent, rest) := by
  unfold exponentText
  cases n.exponent with
  | none =>
    show readExponent rest = _
    unfold readExponent
    split
    · exact absurd rfl h.2.2.1
    · exact absurd rfl h.2.2.2
    · rfl
  | some e =>
    obtain ⟨d, digits, heq, -⟩ := Digit.exists_ofNat_eq_cons e.natAbs
    have hdigits (negative : Bool) :
        readExponentDigits negative ((Digit.text (Digit.ofNat e.natAbs)).map some ++ rest)
          = some (some (if negative then -(e.natAbs : ℤ) else e.natAbs), rest) := by
      unfold readExponentDigits
      rw [spanDigits_text _ h.endsDigits]
      split
      · next hnil => cases heq.symm.trans (Prod.mk.inj hnil).1
      · next digits' rest' _ hspan =>
        obtain ⟨rfl, rfl⟩ := Prod.mk.inj hspan
        rw [Digit.toNat_ofNat]
    by_cases he : e < 0
    · simp only [if_pos he, List.map_cons, List.cons_append]
      show readExponentDigits true _ = _
      rw [hdigits true, if_pos rfl]
      congr 3
      omega
    · simp only [if_neg he, List.map_cons, List.cons_append]
      show readExponentDigits false _ = _
      rw [hdigits false, if_neg Bool.false_ne_true]
      congr 3
      omega

theorem endsDigits_exponentText {rest : List Symbol} (h : EndsDigits rest) :
    EndsDigits (n.exponentText.map some ++ rest) := by
  unfold exponentText
  cases n.exponent with
  | none => exact h
  | some e => exact (by decide : Digit.ofChar? 'e' = none)

theorem readFraction_fractionText {rest : List Symbol} (h : EndsNumber rest) :
    readFraction (n.fractionText.map some ++ (n.exponentText.map some ++ rest))
      = some (n.fraction, n.exponentText.map some ++ rest) := by
  have hrest := n.endsDigits_exponentText h.endsDigits
  unfold fractionText
  by_cases hfraction : n.fraction = []
  · rw [if_pos hfraction, hfraction]
    show readFraction _ = _
    unfold exponentText
    cases n.exponent with
    | some e => rfl
    | none =>
      show readFraction rest = some ([], rest)
      unfold readFraction
      split
      · exact absurd rfl h.2.1
      · rfl
  · rw [if_neg hfraction, List.map_cons, List.cons_append, readFraction, spanDigits_text _ hrest]
    split
    · next hnil => exact absurd (Prod.mk.inj hnil).1 hfraction
    · next hspan =>
      obtain ⟨rfl, rfl⟩ := Prod.mk.inj hspan
      rfl

theorem endsDigits_fractionText {rest : List Symbol} (h : EndsDigits rest) :
    EndsDigits (n.fractionText.map some ++ (n.exponentText.map some ++ rest)) := by
  unfold fractionText
  split
  · exact n.endsDigits_exponentText h
  · exact (by decide : Digit.ofChar? '.' = none)

theorem readUnsigned_text {rest : List Symbol} (h : EndsNumber rest) :
    readUnsigned n.negative ((Digit.text (Digit.ofNat n.whole)).map some
        ++ (n.fractionText.map some ++ (n.exponentText.map some ++ rest))) = some (n, rest) := by
  unfold readUnsigned
  rw [readWhole_text _ (n.endsDigits_fractionText h.endsDigits)]
  dsimp only [Option.bind_eq_bind, Option.bind_some]
  rw [n.readFraction_fractionText h]
  dsimp only [Option.bind_some]
  rw [n.readExponent_exponentText h]
  rfl

end Number

/-- **A printed number literal reads back as itself.** -/
theorem readNumber_print (n : Number) {rest : List Symbol} (h : EndsNumber rest) :
    readNumber (n.print.map some ++ rest) = some (n, rest) := by
  have hunsigned := n.readUnsigned_text h
  rw [n.print_eq]
  simp only [List.map_append, List.append_assoc]
  cases hnegative : n.negative with
  | true =>
    rw [hnegative] at hunsigned
    exact hunsigned
  | false =>
    rw [hnegative] at hunsigned
    obtain ⟨d, digits, heq, -⟩ := Digit.exists_ofNat_eq_cons n.whole
    rw [heq] at hunsigned ⊢
    show readNumber (some d.toChar :: _) = _
    unfold readNumber
    split
    · next hcons => exact absurd (Option.some.inj (List.cons.inj hcons).1) (d.toChar_ne_minus)
    · exact hunsigned

end Json

end WeakForm
