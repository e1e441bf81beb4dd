import WeakForm.Scalar

/-!
# Inverse of a 3×3 matrix

The inverse is the matrix of cofactors divided by the determinant, entry by entry, so a matrix with
a determinant that equals zero has none and any other one has. **No entry is assumed to be
symmetric**, and an undefined determinant is not zero.
-/

namespace WeakForm

/-- A 3×3 matrix, its entries named by row and column. -/
structure Matrix3 (α : Type) where
  m11 : α
  m12 : α
  m13 : α
  m21 : α
  m22 : α
  m23 : α
  m31 : α
  m32 : α
  m33 : α
  deriving DecidableEq, Repr

namespace Matrix3

variable {α : Type} [Scalar α]

/-- The minors of the first row. -/
def firstMinors (m : Matrix3 α) : α × α × α :=
  (m.m22 * m.m33 - m.m32 * m.m23, m.m21 * m.m33 - m.m31 * m.m23, m.m21 * m.m32 - m.m31 * m.m22)

/-- The determinant, expanded along the first row. -/
def det (m : Matrix3 α) : α :=
  m.m11 * m.firstMinors.1 - m.m12 * m.firstMinors.2.1 + m.m13 * m.firstMinors.2.2

/-- The inverse, unless the determinant equals zero. -/
def inverse? (m : Matrix3 α) : Option (Matrix3 α) :=
  let det := m.det
  if det == 0 then none
  else some {
    m11 := m.firstMinors.1 / det
    m12 := (m.m13 * m.m32 - m.m33 * m.m12) / det
    m13 := (m.m12 * m.m23 - m.m22 * m.m13) / det
    m21 := -m.firstMinors.2.1 / det
    m22 := (m.m11 * m.m33 - m.m31 * m.m13) / det
    m23 := (m.m13 * m.m21 - m.m23 * m.m11) / det
    m31 := m.firstMinors.2.2 / det
    m32 := (m.m12 * m.m31 - m.m32 * m.m11) / det
    m33 := (m.m11 * m.m22 - m.m21 * m.m12) / det }

end Matrix3

end WeakForm
