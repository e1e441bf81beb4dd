import WeakForm.Index
import WeakForm.Scalar

/-!
# Packed symmetric stiffness

A symmetric 6×6 matrix is stored as its upper triangle, row by row:

     0  1  2  3  4  5
        6  7  8  9 10
          11 12 13 14
             15 16 17
                18 19
                   20

so both `(i, j)` and `(j, i)` are read from the slot of the pair in ascending order, and a matrix
can only be stored if nobody asks for its lower triangle back. Rows and columns are the six strain
components in the order xx, yy, zz, yz, xz, xy.
-/

namespace WeakForm

/-- A strain, a stress, or any other vector of six components. -/
abbrev Voigt (α : Type) := Vector α 6

namespace Voigt

variable {α : Type} (v : Voigt α)

/-- The normal component along the first axis. -/
def xx : α := v[0]

/-- The normal component along the second axis. -/
def yy : α := v[1]

/-- The normal component along the third axis. -/
def zz : α := v[2]

/-- The shear component between the second and the third axis. -/
def yz : α := v[3]

/-- The shear component between the first and the third axis. -/
def xz : α := v[4]

/-- The shear component between the first and the second axis. -/
def xy : α := v[5]

end Voigt

/-- A symmetric 6×6 matrix, packed. -/
structure Stiffness (α : Type) where
  packed : Vector α 21
  deriving BEq, Repr

namespace Stiffness

/-- The slot of a pair of indices of the matrix. -/
def slot (i j : Fin 6) : Fin 21 :=
  let lo := min i.val j.val
  let hi := max i.val j.val
  ⟨6 * lo - lo * (lo - 1) / 2 + (hi - lo), by revert i j; decide⟩

theorem slot_comm (i j : Fin 6) : slot i j = slot j i := by revert i j; decide

/-- The place of a pair of indices of any size. Rows of packed storage get shorter towards the
bottom, and the place of a pair runs on by that rule below and beside the matrix, until a row would
begin below zero or the place would be no index. -/
def place? (i j : Nat) : Option Nat :=
  let lo := min i j
  let hi := max i j
  let lost := lo * (lo - 1) / 2
  if lost ≤ 6 * lo then asIndex? (6 * lo - lost + (hi - lo)) else none

/-- Within the matrix, the place of a pair is its slot. -/
theorem place?_eq_slot (i j : Fin 6) : place? i j = some (slot i j).val := by
  revert i j; decide

variable {α : Type}

/-- The entry of a pair of indices. -/
def get (k : Stiffness α) (i j : Fin 6) : α := k.packed[slot i j]

theorem get_comm (k : Stiffness α) (i j : Fin 6) : k.get i j = k.get j i := by
  simp only [get, slot_comm i j]

/-- The diagonal. -/
def diagonal (k : Stiffness α) : Voigt α := Vector.ofFn fun i => k.get i i

/-- The entry at the place of a pair of indices of any size, if packed storage reaches so far. -/
def getAt? (k : Stiffness α) (i j : Nat) : Option α := (place? i j).bind (k.packed[·]?)

/-- Writes to the place of a pair of indices of any size, if packed storage reaches so far. -/
def setAt? (k : Stiffness α) (i j : Nat) (value : α) : Option (Stiffness α) :=
  (place? i j).bind fun place =>
    if h : place < 21 then some ⟨k.packed.set place value h⟩ else none

/-- The row of each slot. -/
def slotRow (s : Fin 21) : Fin 6 :=
  #v[0, 0, 0, 0, 0, 0, 1, 1, 1, 1, 1, 2, 2, 2, 2, 3, 3, 3, 4, 4, 5][s]

/-- The column of each slot. -/
def slotCol (s : Fin 21) : Fin 6 :=
  #v[0, 1, 2, 3, 4, 5, 1, 2, 3, 4, 5, 2, 3, 4, 5, 3, 4, 5, 4, 5, 5][s]

/-- The slots are the pairs with `i ≤ j`, each once. -/
theorem slot_slotRow_slotCol (s : Fin 21) : slot (slotRow s) (slotCol s) = s := by
  revert s; decide

theorem slotRow_le_slotCol (s : Fin 21) : slotRow s ≤ slotCol s := by revert s; decide

/-- A pair in ascending order is the row and the column of its slot. -/
theorem slotRow_slot_of_le : ∀ {i j : Fin 6}, i ≤ j → slotRow (slot i j) = i := by decide

theorem slotCol_slot_of_le : ∀ {i j : Fin 6}, i ≤ j → slotCol (slot i j) = j := by decide

/-- Packs the upper triangle of a matrix and ignores the lower one. -/
def ofMatrix (m : Fin 6 → Fin 6 → α) : Stiffness α :=
  ⟨Vector.ofFn fun s => m (slotRow s) (slotCol s)⟩

/-- **What is read from a packed matrix is its upper triangle**; by symmetry this says what is read
from either side of the diagonal. -/
theorem get_ofMatrix_of_le (m : Fin 6 → Fin 6 → α) {i j : Fin 6} (h : i ≤ j) :
    (ofMatrix m).get i j = m i j := by
  simp [get, ofMatrix, slotRow_slot_of_le h, slotCol_slot_of_le h]

variable [Scalar α]

/-- No stiffness. -/
def zero : Stiffness α := ⟨Vector.replicate 21 0⟩

/-- Every entry times a factor. -/
def scale (k : Stiffness α) (factor : α) : Stiffness α := ⟨k.packed.map (· * factor)⟩

/-- The matrix times a vector. Each component starts with the product of the first column, and the
products of the other columns are added one after the other, each in front of the sum so far. -/
def mulVec (k : Stiffness α) (v : Voigt α) : Voigt α :=
  Vector.ofFn fun i =>
    k.get i 5 * v.xy + (k.get i 4 * v.xz + (k.get i 3 * v.yz + (k.get i 2 * v.zz
      + (k.get i 1 * v.yy + k.get i 0 * v.xx))))

/-- The largest magnitude of an entry, an undefined entry being passed over. -/
def magnitude (k : Stiffness α) : α :=
  k.packed.foldl (fun largest entry => Scalar.maximum largest (Scalar.abs entry)) 0

end Stiffness

end WeakForm
