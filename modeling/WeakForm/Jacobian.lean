import WeakForm.Error
import WeakForm.Index
import WeakForm.MatrixFormat

/-!
# Element Jacobians

A model reports its Jacobian as a run of values and a pattern that says where they belong:
everywhere, row by row, or at listed pairs of row and column, **among which a pair may come up more
than once**. A view puts the two together. It can only be built if every pair lies inside the
matrix and there are enough values, so its entries can be listed, added up into a dense matrix, or
handed on as they are, without a further test.
-/

namespace WeakForm

/-- Where the values of a Jacobian belong. -/
inductive JacobianPattern where
  /-- Every entry, row by row. -/
  | dense
  /-- The listed pairs of row and column. -/
  | sparse (pairs : List (Nat × Nat))
  deriving DecidableEq, Repr

namespace JacobianPattern

/-- Whether every entry has a value. -/
def isDense : JacobianPattern → Bool
  | .dense => true
  | .sparse _ => false

/-- The number of values of a matrix of the given size. -/
def nnz (size : Nat) : JacobianPattern → Nat
  | .dense => size * size
  | .sparse pairs => pairs.length

/-- The number of values, if it can be the length of anything. -/
def nnz? (size : Nat) (pattern : JacobianPattern) : Option Nat := asIndex? (pattern.nnz size)

/-- Row and column of the value at a position. A matrix without rows has no values to divide up. -/
def cell? (size k : Nat) : JacobianPattern → Option (Nat × Nat)
  | .dense => if size = 0 then none else some (k / size, k % size)
  | .sparse pairs => pairs[k]?

/-- Row and column of each value of a matrix of the given size. -/
def cells (size : Nat) : JacobianPattern → List (Nat × Nat)
  | .dense => (List.range (size * size)).map fun k => (k / size, k % size)
  | .sparse pairs => pairs

/-- Whether a pair lies outside of a matrix. -/
def outside (size : Nat) (cell : Nat × Nat) : Bool := size ≤ cell.1 ∨ size ≤ cell.2

/-- Fails with the first pair that lies outside of a matrix of the given size. -/
def validate {α : Type} (size : Nat) : JacobianPattern → Except (ModelError α) Unit
  | .dense => .ok ()
  | .sparse pairs =>
    match pairs.find? (outside size) with
    | some (row, col) => .error (.jacobianIndexOutOfRange row col size)
    | none => .ok ()

@[simp] theorem length_cells (size : Nat) (pattern : JacobianPattern) :
    (pattern.cells size).length = pattern.nnz size := by
  cases pattern <;> simp [cells, nnz]

end JacobianPattern

/-- A Jacobian: the pattern together with one value for each of its pairs. -/
structure JacobianView (α : Type) where
  size : Nat
  pattern : JacobianPattern
  values : Array α
  deriving Repr

namespace JacobianView

variable {α : Type}

/-- The view of a pattern and the first values of an array, as many as the pattern has. -/
def of? (size : Nat) (pattern : JacobianPattern) (values : Array α) :
    Except (ModelError α) (JacobianView α) := do
  pattern.validate size
  let nnz := pattern.nnz size
  if values.size < nnz then .error (.jacobianMismatch nnz values.size)
  else return ⟨size, pattern, values.take nnz⟩

/-- The number of values. -/
def nnz (v : JacobianView α) : Nat := v.values.size

/-- Row, column and value, in the order of the pattern. -/
def entries (v : JacobianView α) : List (Nat × Nat × α) :=
  List.zipWith (fun (row, col) value => (row, col, value)) (v.pattern.cells v.size) v.values.toList

/-- Row, column and value, each place being looked up in the pattern. -/
def entries? (v : JacobianView α) : Option (List (Nat × Nat × α)) :=
  v.values.toList.zipIdx.mapM fun item => do
    let cell ← v.pattern.cell? v.size item.2
    return (cell.1, cell.2, item.1)

/-- The matrix in a format: zeros, to which the entries are added one after the other. -/
def toMatrix? (M : Type) [MatrixFormat M α] (v : JacobianView α) : Option M := do
  let entries ← v.entries?
  entries.foldlM (fun m entry => MatrixFormat.add? m entry.1 entry.2.1 entry.2.2)
    (MatrixFormat.zeros v.size v.size)

variable [Scalar α]

/-- The value at a row and column, if reading it does not panic. A dense view reads the value at
that place of the run without looking at the column, and panics if there is none. So it does if the
place is no index (`asIndex?`), since indices are computed with a check for overflow; such a place
is behind the last value of any buffer, so there is none in either case. A sparse view adds up the
values of the pair from the first to the last, which is zero if the pair is not listed. -/
def get? (v : JacobianView α) (row col : Nat) : Option α :=
  match v.pattern with
  | .dense => v.values[row * v.size + col]?
  | .sparse _ =>
    some (Scalar.sum ((v.entries.filter fun (r, c, _) => r = row ∧ c = col).map (·.2.2)))

/-- The matrix, row by row: zeros, to which the entries are added one after the other. -/
def toDense (v : JacobianView α) : Array α :=
  v.entries.foldl (fun cells (row, col, value) => cells.modify (row * v.size + col) (· + value))
    (Array.replicate (v.size * v.size) 0)

/-- The rows of the matrix. -/
def denseRows (v : JacobianView α) : List (List α) :=
  let cells := v.toDense.toList
  (List.range v.size).map fun row => (cells.drop (row * v.size)).take v.size

/-- The rows of the matrix, if there can be a buffer for all of its entries. -/
def denseRows? (v : JacobianView α) : Option (List (List α)) :=
  if fitsBuffer (v.size * v.size) then some v.denseRows else none

end JacobianView

end WeakForm
