import WeakForm.Decimal.Basic

/-!
# Decimal digits of binary floating-point numbers

A finite double is `m · 2 ^ q` with whole `m` and `q`. The reals that round to it form an interval
around it, which contains its ends exactly when `m` is even. **The shortest numeral is the point of
the coarsest decimal grid that has a point in that interval**, the nearer one of two, and of two
that are equally near the one that a tie goes to. If any point of a grid lies in the interval then
one of the two grid points next to the number does, so two tests for each of at most seventeen grids
decide; every test compares whole numbers and is exact.
-/

namespace WeakForm

/-- A positive finite double: `significand · 2 ^ exponent`. -/
structure Binary where
  significand : Nat
  exponent : Int
  /-- The next smaller double is only half as far away as the next larger one. -/
  atBoundary : Bool

namespace Binary

/-- The number `significand · 2 ^ exponent · 10 ^ -place` as a quotient of whole numbers. -/
def scaled (b : Binary) (place : Int) : Nat × Nat :=
  (b.significand * Nat.pow 2 b.exponent.toNat * Nat.pow 10 (-place).toNat,
    Nat.pow 2 (-b.exponent).toNat * Nat.pow 10 place.toNat)

/-- The power of ten that the first decimal digit counts. The least positive double is above
`10 ^ -340`, so the number of digits of the scaled whole part gives it. -/
def place (b : Binary) : Int :=
  let (num, den) := b.scaled (-340)
  (Digit.ofNat (num / den)).length - 341

/-- Whether `c · 10 ^ place` rounds to the number: four times the distance is compared with twice
the spacing of the doubles above the number, or with half of it below a boundary. -/
def readsBack (b : Binary) (place : Int) (c : Nat) : Bool :=
  let (num, den) := b.scaled place
  let (unit, _) := { b with significand := 1 }.scaled place
  let closed := b.significand % 2 = 0
  if num ≤ c * den then
    let gap := 2 * (c * den - num)
    if closed then gap ≤ unit else gap < unit
  else
    let gap := (if b.atBoundary then 4 else 2) * (num - c * den)
    if closed then gap ≤ unit else gap < unit

/-- The point of the grid of step `10 ^ place` that reads back as the number and is nearest to it,
if there is one. -/
def onGrid? (tie : Tie) (b : Binary) (place : Int) : Option Nat :=
  let (num, den) := b.scaled place
  let low := num / den
  match b.readsBack place low, b.readsBack place (low + 1) with
  | true, true => some (tie.nearest num den)
  | true, false => some low
  | false, true => some (low + 1)
  | false, false => none

/-- Digits without the zeros at their end. -/
def trimmed (digits : List Digit) : List Digit :=
  (digits.reverse.dropWhile (· == Digit.zero)).reverse

/-- Tries the grids from the one that shows `count` digits on, each ten times finer. -/
def shortestFrom (tie : Tie) (b : Binary) (first : Int) : Nat → Nat → List Digit × Int
  | 0, _ => ([], first)
  | fuel + 1, count =>
    let step := first - (count - 1)
    match b.onGrid? tie step with
    | some c =>
      let digits := Digit.ofNat c
      (trimmed digits, step + digits.length - 1)
    | none => shortestFrom tie b first fuel (count + 1)

/-- The fewest digits that read back, and the place of the first one. Seventeen always do. -/
def shortest (tie : Tie) (b : Binary) : List Digit × Int := b.shortestFrom tie b.place 17 1

/-- The number rounded to `count` significant digits, a tie going to the even neighbour. -/
def rounded (b : Binary) (count : Nat) : List Digit × Int :=
  let step := b.place - (count - 1)
  let (num, den) := b.scaled step
  let digits := Digit.ofNat (Tie.toEven.nearest num den)
  (digits.take count, step + digits.length - 1)

end Binary

/-- A double, taken apart. -/
inductive Double where
  | undefined
  | infinite (negative : Bool)
  | zero (negative : Bool)
  | finite (negative : Bool) (b : Binary)

namespace Double

/-- Takes the 64 bits of a double apart: a sign bit, eleven bits of exponent, 52 of significand. -/
def ofBits (bits : Nat) : Double :=
  let hidden : Nat := Nat.pow 2 52
  let sign : Bool := decide (Nat.pow 2 63 ≤ bits)
  let biased : Nat := bits / hidden % Nat.pow 2 11
  let fraction : Nat := bits % hidden
  if biased = 2047 then
    if fraction = 0 then .infinite sign else .undefined
  else if biased = 0 then
    if fraction = 0 then .zero sign else .finite sign ⟨fraction, -1074, false⟩
  else
    .finite sign ⟨hidden + fraction, biased - 1075, decide (fraction = 0 ∧ 1 < biased)⟩

/-- The numeral of a double, the digits of a positive one being given. -/
def numeral (digits : Binary → List Digit × Int) (zero : List Digit) : Double → Numeral
  | .undefined => .undefined
  | .infinite sign => .infinite sign
  | .zero sign => .finite ⟨sign, zero, 0⟩
  | .finite sign b => let (ds, place) := digits b; .finite ⟨sign, ds, place⟩

/-- The double nearest to `± coefficient · 10 ^ exponent`, unless that overflows. A nonzero literal
whose first digit counts `10 ^ 310` or more is no double, and one below `10 ^ -400` is zero, however
long its exponent is. -/
def ofDecimal? (negative : Bool) (coefficient : Nat) (exponent : Int) : Option Float :=
  let magnitude : Option Float :=
    if coefficient = 0 then some 0
    else
      let top := exponent + (Digit.ofNat coefficient).length
      if 310 < top then none
      else if top < -400 then some 0
      else
        let x := Float.ofScientific coefficient (decide (exponent < 0)) exponent.natAbs
        if x.isInf then none else some x
  magnitude.map fun x => if negative then -x else x

end Double

instance : DecimalScalar Float where
  shortest tie x := (Double.ofBits x.toBits.toNat).numeral (Binary.shortest tie) [.zero]
  rounded n x := (Double.ofBits x.toBits.toNat).numeral (·.rounded n) (List.replicate n .zero)
  ofDecimal? := Double.ofDecimal?

end WeakForm
