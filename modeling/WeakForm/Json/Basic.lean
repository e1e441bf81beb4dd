import WeakForm.Decimal.Basic

/-!
# JSON values

A value keeps what a reader may still have to ask of a literal: **whether a number was written as an
integer**, since an index accepts nothing else, and **whether a string literal denotes a text at
all**, since an escape may name half of a surrogate pair and a file may hold bytes that are no
character. Such a literal is well formed, and harmless where nobody reads it.

Objects are lists of members in the order of the text, repeated names included; what a repetition
means is decided by whoever reads the object (`Json.Record`).
-/

namespace WeakForm

namespace Json

/-- A number literal: `± whole.fraction e exponent`. -/
structure Number where
  negative : Bool
  whole : Nat
  /-- The digits after the point; none if there is no point. -/
  fraction : List Digit
  exponent : Option Int
  deriving DecidableEq, Repr

namespace Number

/-- A natural number as a literal. -/
def ofNat (n : Nat) : Number := ⟨false, n, [], none⟩

/-- The natural number that an unsigned integer literal spells. -/
def natural? (n : Number) : Option Nat :=
  if n.negative = false ∧ n.fraction = [] ∧ n.exponent = none then some n.whole else none

@[simp] theorem natural?_ofNat (n : Nat) : (ofNat n).natural? = some n := by
  simp [ofNat, natural?]

/-- The number that a literal denotes, unless it is too large for one. -/
def value? (α : Type) [DecimalScalar α] (n : Number) : Option α :=
  DecimalScalar.ofDecimal? n.negative (Digit.toNat (Digit.ofNat n.whole ++ n.fraction))
    (n.exponent.getD 0 - n.fraction.length)

/-- **The layout of numbers in files**: positional from `10 ^ -5` up to `10 ^ 16`, always with a
digit after the point, and with one digit before the point and an exponent outside of that range. -/
def ofDecimal (d : Decimal) : Number :=
  if -5 ≤ d.place ∧ d.place < 16 then
    let fraction := d.fractionDigits
    ⟨d.negative, Digit.toNat d.wholeDigits, if fraction = [] then [.zero] else fraction, none⟩
  else
    ⟨d.negative, Digit.toNat (d.digits.take 1), d.digits.drop 1, some d.place⟩

end Number

end Json

/-- A JSON value. -/
inductive Json where
  | null
  | bool (b : Bool)
  | number (n : Json.Number)
  /-- A string literal with the text that it denotes, if it denotes one. -/
  | text (s : Option String)
  | array (items : List Json)
  | object (members : List (Option String × Json))

namespace Json

/-- A text. -/
def ofString (s : String) : Json := .text (some s)

/-- A natural number. -/
def ofNat (n : Nat) : Json := .number (.ofNat n)

/-- A number in its fewest digits, the even ones of two that are equally near. A number without
decimal digits has no literal and is written as `null`. -/
def ofScalar {α : Type} [DecimalScalar α] (x : α) : Json :=
  match DecimalScalar.shortest .toEven x with
  | .finite d => .number (.ofDecimal d)
  | _ => .null

/-- A list, item by item. -/
def ofList {β : Type} (item : β → Json) (xs : List β) : Json := .array (xs.map item)

/-- A list of numbers. -/
def ofScalars {α : Type} [DecimalScalar α] (xs : List α) : Json := ofList ofScalar xs

/-- A value that may be absent, written as `null` then. -/
def ofOption {β : Type} (item : β → Json) : Option β → Json
  | none => .null
  | some x => item x

/-- A member of an object, left out if it has no value. -/
def memberIf {β : Type} (name : String) (item : β → Json) : Option β → List (String × Json)
  | none => []
  | some x => [(name, item x)]

/-- An object with the given members in order. -/
def record (members : List (String × Json)) : Json :=
  .object (members.map fun (name, value) => (some name, value))

end Json

end WeakForm
