import WeakForm.Evaluation
import WeakForm.Index
import WeakForm.Point

/-!
# The shape of a model

A model has `n` variables in `d` space dimensions, and three layouts of the data that belong to
them:

* by time, three slots a variable: the value and its first two time derivatives;
* by space, `d + 1` slots a variable: the value and its spatial derivatives;
* in the Jacobian, `3 + d` slots a variable, its *block*: the three time slots and the `d` spatial
  derivatives. The two values of a variable share the first slot of its block.

A row of the Jacobian is taken apart into a variable and a slot by division (`var`, `slot`), and
put together by `timeIndex` and `spatialIndex`. Everything else in this module says that the
indices stay where they belong.
-/

namespace WeakForm

/-- The length of a physical position. -/
def numCoords : Nat := 3

/-- Space dimension and number of variables of a model. -/
structure Dims where
  spatialDim : Nat
  varsPerNode : Nat
  one_le_spatialDim : 1 ≤ spatialDim
  spatialDim_le_three : spatialDim ≤ 3
  one_le_varsPerNode : 1 ≤ varsPerNode
  deriving DecidableEq, Repr

namespace Dims

/-- The dimensions with the given numbers, if there are such dimensions. -/
def of? {α : Type} (spatialDim varsPerNode : Nat) : Except (ModelError α) Dims :=
  if h : (1 ≤ spatialDim ∧ spatialDim ≤ 3) ∧ 0 < varsPerNode then
    .ok ⟨spatialDim, varsPerNode, h.1.1, h.1.2, h.2⟩
  else .error (.invalidDimensions spatialDim varsPerNode)

variable (d : Dims)

/-- The number of values by time. -/
def utLen : Nat := 3 * d.varsPerNode

/-- The number of values by space. -/
def uxLen : Nat := (d.spatialDim + 1) * d.varsPerNode

/-- The number of slots of a variable in the Jacobian. -/
def blockSize : Nat := 3 + d.spatialDim

/-- The number of rows, and of columns, of the Jacobian. -/
def jacobianSize : Nat := d.blockSize * d.varsPerNode

/-- The row of a time slot of a variable. -/
def timeIndex (var slot : Nat) : Nat := var * d.blockSize + slot

/-- The row of a spatial derivative of a variable. -/
def spatialIndex (var dir : Nat) : Nat := var * d.blockSize + 3 + dir

/-- The place of a spatial derivative of a variable among the values by space. -/
def uxIndex (var dir : Nat) : Nat := var * (d.spatialDim + 1) + 1 + dir

/-- The place of the value of a variable among the values by space. -/
def uxValueIndex (var : Nat) : Nat := var * (d.spatialDim + 1)

/-- Whether there can be buffers for the data of a point. -/
def fits : Bool := fitsBuffer d.utLen && fitsBuffer d.uxLen

/-- The rows of a time slot and of a spatial derivative of a variable, and the place of the
derivative among the values by space, if they are indices; `k` is the slot and the derivative. -/
def indices? (var k : Nat) : Option (List Nat) :=
  [d.timeIndex var k, d.spatialIndex var k, d.uxIndex var k].mapM asIndex?

/-- The variable that a row belongs to. -/
def var (row : Nat) : Nat := row / d.blockSize

/-- The slot of a row in the block of its variable. -/
def slot (row : Nat) : Nat := row % d.blockSize

theorem blockSize_pos : 0 < d.blockSize := by unfold blockSize; omega

theorem slot_lt (row : Nat) : d.slot row < d.blockSize := Nat.mod_lt _ d.blockSize_pos

theorem var_lt {row : Nat} (h : row < d.jacobianSize) : d.var row < d.varsPerNode :=
  Nat.div_lt_of_lt_mul h

/-- A time slot is a place among the values by time. -/
theorem utIndex_lt {var slot : Nat} (hv : var < d.varsPerNode) (hs : slot < 3) :
    3 * var + slot < d.utLen := by
  simp only [utLen]; omega

/-- A spatial derivative is a place among the values by space. -/
theorem uxIndex_lt {var dir : Nat} (hv : var < d.varsPerNode) (hd : dir < d.spatialDim) :
    d.uxIndex var dir < d.uxLen := by
  have : (var + 1) * (d.spatialDim + 1) ≤ d.varsPerNode * (d.spatialDim + 1) :=
    Nat.mul_le_mul_right _ hv
  simp only [uxIndex, uxLen, Nat.mul_comm (d.spatialDim + 1), Nat.add_mul, Nat.one_mul] at *
  omega

/-- The value of a variable is a place among the values by space. -/
theorem uxValueIndex_lt {var : Nat} (hv : var < d.varsPerNode) : d.uxValueIndex var < d.uxLen := by
  have : (var + 1) * (d.spatialDim + 1) ≤ d.varsPerNode * (d.spatialDim + 1) :=
    Nat.mul_le_mul_right _ hv
  simp only [uxValueIndex, uxLen, Nat.mul_comm (d.spatialDim + 1), Nat.add_mul, Nat.one_mul] at *
  omega

/-- A direction of a variable is a place among the adjoint gradients. -/
theorem psixIndex_lt {var dir : Nat} (hv : var < d.varsPerNode) (hd : dir < d.spatialDim) :
    var * d.spatialDim + dir < d.varsPerNode * d.spatialDim := by
  have : (var + 1) * d.spatialDim ≤ d.varsPerNode * d.spatialDim := Nat.mul_le_mul_right _ hv
  simp only [Nat.add_mul, Nat.one_mul] at this
  omega

end Dims

/-! ## Data of the right shape -/

/-- The data of a point, of the lengths that dimensions ask for. -/
structure PointData (d : Dims) (α : Type) where
  x : Vector α 3
  ut : Vector α d.utLen
  ux : Vector α d.uxLen

/-- Adjoint values and adjoint gradients, of the lengths that dimensions ask for. -/
structure AdjointData (d : Dims) (α : Type) where
  psi : Vector α d.varsPerNode
  psix : Vector α (d.varsPerNode * d.spatialDim)

namespace Dims

variable {α : Type} (d : Dims)

/-- The data of a point, unless a length is wrong. -/
def checkPoint (p : Point α) : Except LengthFault (PointData d α) := do
  let x ← sized "x" numCoords p.x
  let ut ← sized "ut" d.utLen p.ut
  let ux ← sized "ux" d.uxLen p.ux
  return ⟨x, ut, ux⟩

/-- Fails unless the buffers of the coefficients have the right lengths. -/
def checkCoefficients (n m : Nat) : Except LengthFault (PLift (n = d.utLen ∧ m = d.uxLen)) := do
  let ⟨hn⟩ ← lengthIs "dut" n d.utLen
  let ⟨hm⟩ ← lengthIs "dux" m d.uxLen
  return ⟨hn, hm⟩

/-- The adjoint data, unless a length is wrong. -/
def checkAdjoint (psi psix : Array α) : Except LengthFault (AdjointData d α) := do
  let psi ← sized "psi" d.varsPerNode psi
  let psix ← sized "psix" (d.varsPerNode * d.spatialDim) psix
  return ⟨psi, psix⟩

end Dims

end WeakForm
