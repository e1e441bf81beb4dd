import WeakForm.Scalar

/-!
# Formats of matrices

Whoever fills a matrix value by value need not know how it is stored. All that is asked of a format
is a matrix of zeros, and the addition of a value at a place, which **there is only inside of the
matrix**. In a dense matrix the values of a place are added up; in coordinate format each value is
kept with its place.
-/

namespace WeakForm

/-- A format `M` of matrices with entries in `α`. -/
class MatrixFormat (M : Type) (α : outParam Type) where
  /-- The matrix of zeros with the given numbers of rows and columns. -/
  zeros (rows cols : Nat) : M
  /-- Adds a value at a row and column, if the matrix has them. -/
  add? (matrix : M) (row col : Nat) (value : α) : Option M

/-- A matrix with all of its entries, row by row. -/
structure DenseMatrix (α : Type) where
  rows : Nat
  cols : Nat
  cells : Array α
  deriving Repr

/-- A matrix as a list of values with their places, in the order in which they were added. -/
structure CoordinateMatrix (α : Type) where
  rows : Nat
  cols : Nat
  triplets : Array (Nat × Nat × α)
  deriving Repr

namespace DenseMatrix

variable {α : Type}

/-- The entry at a row and column. -/
def value? (m : DenseMatrix α) (row col : Nat) : Option α :=
  if row < m.rows ∧ col < m.cols then m.cells[row * m.cols + col]? else none

instance [Scalar α] : MatrixFormat (DenseMatrix α) α where
  zeros rows cols := ⟨rows, cols, Array.replicate (rows * cols) 0⟩
  add? m row col value :=
    if row < m.rows ∧ col < m.cols then
      some { m with cells := m.cells.modify (row * m.cols + col) (· + value) }
    else none

end DenseMatrix

namespace CoordinateMatrix

variable {α : Type}

/-- The numbers of rows and of columns. -/
def shape (m : CoordinateMatrix α) : Nat × Nat := (m.rows, m.cols)

instance : MatrixFormat (CoordinateMatrix α) α where
  zeros rows cols := ⟨rows, cols, #[]⟩
  add? m row col value :=
    if row < m.rows ∧ col < m.cols then
      some { m with triplets := m.triplets.push (row, col, value) }
    else none

end CoordinateMatrix

end WeakForm
