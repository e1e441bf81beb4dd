import WeakForm.Stiffness

/-!
# The least eigenvalue of a stiffness

A stiffness is admissible only if it is positive semi-definite, which its least eigenvalue shows.
How an eigenvalue is found depends on the numbers: an exact field has the least root of the
characteristic polynomial, floating point an approximation of it. So **the least eigenvalue is an
operation of the scalar type** (`Spectral`), and what is built on it holds for any way to find it.

For floating point the way is the cyclic Jacobi method. A rotation in the plane of two coordinates
clears one off-diagonal entry; sweeps over all pairs make the matrix diagonal. A matrix that is
diagonal from the start is left as it is, so its least eigenvalue is exact.
-/

namespace WeakForm

/-- Numbers for which the least eigenvalue of a symmetric 6×6 matrix is known. -/
class Spectral (α : Type) where
  minEigenvalue : Stiffness α → α

namespace Stiffness

/-- The least eigenvalue of the full symmetric matrix. -/
abbrev minEigenvalue {α : Type} [Spectral α] (k : Stiffness α) : α := Spectral.minEigenvalue k

section Jacobi

variable {α : Type} [Scalar α]

/-- The tangent of the angle that turns the off-diagonal entry `b` between the diagonal entries `a`
and `d` to zero, the one of smaller magnitude. -/
def rotationTangent (a b d : α) : α :=
  let cot := (d - a) / (((2 : Nat) : α) * b)
  let root := Scalar.abs cot + Scalar.sqrt (cot * cot + 1)
  if cot < 0 then -(1 / root) else 1 / root

/-- The matrix in coordinates turned in the plane of `p` and `q`, so that its entry at `p` and `q`
vanishes. -/
def rotate (k : Stiffness α) (p q : Fin 6) : Stiffness α :=
  let b := k.get p q
  if b == 0 then k
  else
    let t := rotationTangent (k.get p p) b (k.get q q)
    let cosine := 1 / Scalar.sqrt (t * t + 1)
    let sine := t * cosine
    ofMatrix fun i j =>
      if i = p ∧ j = p then k.get p p - t * b
      else if i = q ∧ j = q then k.get q q + t * b
      else if (i = p ∧ j = q) ∨ (i = q ∧ j = p) then 0
      else if i = p then cosine * k.get p j - sine * k.get q j
      else if j = p then cosine * k.get i p - sine * k.get i q
      else if i = q then sine * k.get p j + cosine * k.get q j
      else if j = q then sine * k.get i p + cosine * k.get i q
      else k.get i j

/-- The pairs of different coordinates. -/
def planes : List (Fin 6 × Fin 6) :=
  (List.finRange 6).flatMap fun p => ((List.finRange 6).filter (p < ·)).map fun q => (p, q)

/-- One rotation in each plane. -/
def sweep (k : Stiffness α) : Stiffness α := planes.foldl (fun k (p, q) => k.rotate p q) k

/-- The given number of sweeps. -/
def sweeps : Nat → Stiffness α → Stiffness α
  | 0, k => k
  | n + 1, k => sweeps n k.sweep

/-- The least diagonal entry. -/
def leastDiagonal (k : Stiffness α) : α :=
  k.diagonal.foldl (fun least entry => if entry < least then entry else least) k.diagonal.xx

/-- Whether every off-diagonal entry is zero. -/
def isDiagonal (k : Stiffness α) : Bool := planes.all fun (p, q) => k.get p q == 0

/-- Whether every entry is a number and finite. -/
def isFinite (k : Stiffness α) : Bool := k.packed.toList.all fun entry => entry - entry == 0

/-- The least eigenvalue, found by rotations of the matrix divided by its largest magnitude. It is
undefined as soon as an entry is not finite. -/
def jacobiEigenvalue (k : Stiffness α) : α :=
  if !k.isFinite then 0 / 0
  else if k.isDiagonal then k.leastDiagonal
  else
    let unit := k.magnitude
    (sweeps 40 ⟨k.packed.map (· / unit)⟩).leastDiagonal * unit

end Jacobi

end Stiffness

instance : Spectral Float := ⟨Stiffness.jacobiEigenvalue⟩

end WeakForm
