/-!
# Decimal numerals and their layouts

A `Decimal` is what is left of a number once it has been cut into decimal digits: a sign, the
digits, and the place of the first one. How many digits there are is decided where the number is
known (`DecimalScalar`); how they are laid out is decided here, by functions on digit lists that
know nothing of the number's origin. There are two layouts: positional, which never has an
exponent, and scientific, which always has one.
-/

namespace WeakForm

/-- A decimal digit. -/
abbrev Digit := Fin 10

namespace Digit

/-- Zero. -/
def zero : Digit := 0

/-- The character of a digit. -/
def toChar (d : Digit) : Char := Char.ofNat ('0'.toNat + d.val)

/-- The digit that a character stands for. -/
def ofChar? (ch : Char) : Option Digit :=
  if h : '0'.toNat ≤ ch.toNat ∧ ch.toNat - '0'.toNat < 10 then some ⟨ch.toNat - '0'.toNat, h.2⟩
  else none

@[simp] theorem ofChar?_toChar (d : Digit) : ofChar? d.toChar = some d := by
  revert d; decide

/-- The number that a list of digits spells. -/
def toNat (digits : List Digit) : Nat := digits.foldl (fun n d => 10 * n + d.val) 0

/-- The digits of a number, most significant first, with those of `rest` after them. -/
def ofNatAux : Nat → Nat → List Digit → List Digit
  | 0, _, rest => rest
  | fuel + 1, n, rest =>
    let d : Digit := Fin.ofNat 10 n
    if n < 10 then d :: rest else ofNatAux fuel (n / 10) (d :: rest)

/-- The digits of a number, most significant first; zero has one digit. -/
def ofNat (n : Nat) : List Digit := ofNatAux (n + 1) n []

/-- The text of a list of digits. -/
def text (digits : List Digit) : List Char := digits.map toChar

end Digit

/-- The number `± d₁.d₂d₃… · 10 ^ place`. -/
structure Decimal where
  negative : Bool
  /-- The digits, of which the first is not zero unless the number is zero. -/
  digits : List Digit
  /-- The power of ten that the first digit counts. -/
  place : Int
  deriving DecidableEq, Repr

namespace Decimal

/-- The whole number spelled by all the digits. -/
def coefficient (d : Decimal) : Nat := Digit.toNat d.digits

/-- The power of ten that the last digit counts. -/
def exponent (d : Decimal) : Int := d.place + 1 - d.digits.length

/-- The digits before the decimal point, filled up with zeros; none for a number below one. -/
def wholeDigits (d : Decimal) : List Digit :=
  let n := (d.place + 1).toNat
  d.digits.take n ++ List.replicate (n - d.digits.length) 0

/-- The digits after the decimal point. -/
def fractionDigits (d : Decimal) : List Digit :=
  List.replicate (-d.place - 1).toNat 0 ++ d.digits.drop (d.place + 1).toNat

/-- A minus sign in front of a negative number, also of a negative zero. -/
def signed (d : Decimal) (text : List Char) : String :=
  String.ofList (if d.negative then '-' :: text else text)

/-- The digits around a decimal point, which is left out when nothing follows it. -/
def positional (d : Decimal) : String :=
  let whole := if d.wholeDigits = [] then ['0'] else Digit.text d.wholeDigits
  let fraction := d.fractionDigits
  d.signed (if fraction = [] then whole else whole ++ '.' :: Digit.text fraction)

/-- One digit, the others after a decimal point, and the place of the first one. -/
def scientific (d : Decimal) : String :=
  let mantissa := match Digit.text d.digits with
    | [] => ['0']
    | [c] => [c]
    | c :: rest => c :: '.' :: rest
  d.signed (mantissa ++ 'e' :: (toString d.place).toList)

end Decimal

/-- Where a number goes that is halfway between two decimal candidates. -/
inductive Tie where
  /-- To the candidate with the even last digit. -/
  | toEven
  /-- To the candidate of larger magnitude. -/
  | away
  deriving DecidableEq, Repr

namespace Tie

/-- Whether a tie between a whole number and its successor goes to the successor. -/
def goesUp (tie : Tie) (low : Nat) : Bool :=
  match tie with
  | .toEven => low % 2 = 1
  | .away => true

/-- The whole number nearest to a quotient. -/
def nearest (tie : Tie) (num den : Nat) : Nat :=
  let low := num / den
  let twice := 2 * (num % den)
  if den < twice ∨ (twice = den ∧ tie.goesUp low) then low + 1 else low

end Tie

/-- What is left of a number when it is to be written: it may have no decimal digits at all. -/
inductive Numeral where
  | undefined
  | infinite (negative : Bool)
  | finite (d : Decimal)
  deriving DecidableEq, Repr

namespace Numeral

/-- The text of a numeral, by the layout of its finite part. -/
def render (layout : Decimal → String) : Numeral → String
  | .undefined => "NaN"
  | .infinite negative => if negative then "-inf" else "inf"
  | .finite d => layout d

end Numeral

/-- Numbers that can be written in decimal and read back from it. -/
class DecimalScalar (α : Type) where
  /-- The fewest digits that read back as the number; where two numerals of that length do and are
  equally near, the tie decides. -/
  shortest : Tie → α → Numeral
  /-- The number rounded to the given count of significant digits, a tie going to the even one. -/
  rounded : Nat → α → Numeral
  /-- The number nearest to `± coefficient · 10 ^ exponent`, unless it is too large for one. -/
  ofDecimal? : Bool → Nat → Int → Option α

namespace DecimalScalar

variable {α : Type} [DecimalScalar α]

/-- A number inside a sentence: its fewest digits, the larger ones of two that are equally near,
never with an exponent. -/
def plain (x : α) : String := (shortest .away x).render Decimal.positional

/-- A number inside a sentence: its fewest digits, chosen in the same way, always with an
exponent. -/
def withExponent (x : α) : String := (shortest .away x).render Decimal.scientific

/-- A number in a table: four significant digits and an exponent. -/
def tabular (x : α) : String := (rounded 4 x).render Decimal.scientific

end DecimalScalar

end WeakForm
