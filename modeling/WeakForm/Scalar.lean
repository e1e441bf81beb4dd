/-!
# The numbers of a model

Every formula of this library is written once, in one fixed order of operations, over a type `α`
with the operations of `Scalar`. At `Float` it is the computation that runs; at an ordered field it
is the formula that the computation approximates, and at a type with an undefined value it shows
how undefined values spread. Nothing here assumes a law: a law is a hypothesis on `α`, never a
reason why a definition is accepted.

Whole constants are written `((3 : Nat) : α)`, decimal ones as literals such as `0.5`; both mean
the number they spell, rounded once.
-/

namespace WeakForm

/-- The operations that the formulas of this library use. Comparisons are decidable and may all be
false for an undefined number; `==` is the numbers' own equality, under which zero equals its
negative. -/
class Scalar (α : Type) extends Zero α, One α, Add α, Sub α, Mul α, Div α, Neg α, NatCast α,
    OfScientific α, LT α, LE α, BEq α where
  decLt : DecidableLT α
  decLe : DecidableLE α
  /-- Magnitude. -/
  abs : α → α
  /-- Square root, undefined below zero. -/
  sqrt : α → α
  /-- Sine of an angle in radians. -/
  sin : α → α
  /-- Cosine of an angle in radians. -/
  cos : α → α

namespace Scalar

variable {α : Type} [Scalar α]

instance : DecidableLT α := Scalar.decLt

instance : DecidableLE α := Scalar.decLe

/-- **Only an undefined number differs from itself.** -/
def isUndefined (x : α) : Bool := !(x == x)

/-- The larger of two numbers, an undefined one giving way to the other. -/
def maximum (x y : α) : α := if isUndefined x ∨ x < y then y else x

/-- The square of a number. -/
def square (x : α) : α := x * x

/-- The sum of a list from left to right. -/
def sum (xs : List α) : α := xs.foldl (· + ·) 0

/-- The products of two lists entry by entry, summed from left to right over the shorter length. -/
def dot (xs ys : List α) : α := sum (List.zipWith (· * ·) xs ys)

end Scalar

instance natCastFloat : NatCast Float := ⟨Float.ofNat⟩

/-- Binary floating point: 64 bits, each operation rounded to nearest, ties to even. -/
instance : Scalar Float where
  decLt := inferInstance
  decLe := inferInstance
  abs := Float.abs
  sqrt := Float.sqrt
  sin := Float.sin
  cos := Float.cos

end WeakForm
