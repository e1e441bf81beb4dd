import WeakForm.Check.Difference
import WeakForm.Element.Basic

/-!
# Checks of element models

The derivatives that a model reports are compared with difference quotients of its coefficients and
quantities. The Jacobian is checked column by column: a column shifts the data behind it, and each
row is gathered from the coefficients by the same layout (`jacobianRow`, `shiftColumn`). **A column
is shifted up, down by two steps and up again**, and the next column starts from what rounding has
left of the data.

The checks along design variables work on the model and leave it as it was.
-/

namespace WeakForm

variable {α : Type} [Scalar α]

/-! ## The layout of the Jacobian -/

namespace Dims

variable (d : Dims)

/-- The entry of the residual that belongs to a row of the Jacobian. -/
def jacobianRow (values : Coefficients α d.utLen d.uxLen) (row : Fin d.jacobianSize) : α :=
  let var := d.var row
  have hv : var < d.varsPerNode := d.var_lt row.isLt
  have hs : d.slot row < 3 + d.spatialDim := d.slot_lt row
  have := d.utIndex_lt hv (by decide : 0 < 3)
  if h : d.slot row = 0 then
    values.dut[3 * var] + values.dux.get ⟨d.uxValueIndex var, d.uxValueIndex_lt hv⟩
  else if h : d.slot row < 3 then
    values.dut.get ⟨3 * var + d.slot row, d.utIndex_lt hv h⟩
  else
    values.dux.get ⟨d.uxIndex var (d.slot row - 3), d.uxIndex_lt hv (by omega)⟩

/-- The data of a point with the entries behind a column of the Jacobian shifted by an amount. The
first column of a variable moves both of its values. -/
def shiftColumn (data : PointData d α) (col : Fin d.jacobianSize) (delta : α) : PointData d α :=
  let var := d.var col
  have hv : var < d.varsPerNode := d.var_lt col.isLt
  have hs : d.slot col < 3 + d.spatialDim := d.slot_lt col
  let shift {n : Nat} (v : Vector α n) (i : Fin n) : Vector α n := v.set i (v[i] + delta)
  if h : d.slot col = 0 then
    { data with
      ut := shift data.ut ⟨3 * var, d.utIndex_lt hv (by decide : 0 < 3)⟩
      ux := shift data.ux ⟨d.uxValueIndex var, d.uxValueIndex_lt hv⟩ }
  else if h : d.slot col < 3 then
    { data with ut := shift data.ut ⟨3 * var + d.slot col, d.utIndex_lt hv h⟩ }
  else
    { data with ux := shift data.ux ⟨d.uxIndex var (d.slot col - 3), d.uxIndex_lt hv (by omega)⟩ }

end Dims

/-- A point with other data. -/
def Point.withData {d : Dims} (p : Point α) (data : PointData d α) : Point α :=
  { p with ut := data.ut.toArray, ux := data.ux.toArray }

variable {M : Type} [ElementModel M α]

namespace ElementModel

/-- The coefficients of the weak form at a point. -/
def coefficients (model : M) (p : Point α) :
    Except (ModelError α) (Coefficients α (dims model).utLen (dims model).uxLen) :=
  Evaluation.fill (.zero _ _) (weakIntegrand model p)

/-- The number of design variables of an element. -/
def designVarCount (model : M) (elem : Nat) : Except (ModelError α) Nat := do
  let nums : Option (Vector Nat 0) := none
  return (← Evaluation.answer nums (designVarNums model elem)).1

/-- The design variables of an element. -/
def designVarValues (model : M) (elem : Nat) : Except (ModelError α) (Array α) := do
  let n ← designVarCount model elem
  return (← Evaluation.fill (Vector.replicate n 0) (designVars model elem)).toArray

/-- The global numbers of the design variables of an element. -/
def designVarNumbers (model : M) (elem : Nat) : Except (ModelError α) (List Nat) := do
  let n ← designVarCount model elem
  let nums : Option (Vector Nat n) := some (Vector.replicate n 0)
  let (_, filled) ← Evaluation.answer nums (designVarNums model elem)
  return (filled.map Vector.toList).getD []

/-- The lower and the upper bounds of the design variables of an element. -/
def designVarBounds (model : M) (elem : Nat) : Except (ModelError α) (Array α × Array α) := do
  let n ← designVarCount model elem
  let zeros : Vector α n := Vector.replicate n 0
  let (lower, upper) ← Evaluation.fill (zeros, zeros) (designVarRange model elem)
  return (lower.toArray, upper.toArray)

/-- The values of a quantity at a point. -/
def quantityValues (model : M) (tag : QuantityTag) (p : Point α) (xd : Array α) :
    Except (ModelError α) (List α) := do
  let buffer : Vector α QuantityTag.maxLength := Vector.replicate _ 0
  let (n, values) ← Evaluation.answer buffer (quantity model tag p xd)
  return values.toList.take n

/-- **The residual of an adjoint**: each adjoint value times the coefficients of its variable that
no derivative belongs to, and each adjoint gradient times its coefficient, summed variable by
variable. -/
def adjointResidual (model : M) (p : Point α) (psi psix : Array α) : Except (ModelError α) α := do
  let d := dims model
  let adjoint ← d.checkAdjoint psi psix
  let values ← coefficients model p
  return Scalar.sum <| (List.finRange d.varsPerNode).flatMap fun k : Fin d.varsPerNode =>
    adjoint.psi[k]
        * (values.dut.get ⟨3 * k.val, d.utIndex_lt k.isLt (by decide : 0 < 3)⟩
          + values.dut.get ⟨3 * k.val + 1, d.utIndex_lt k.isLt (by decide : 1 < 3)⟩
          + values.dut.get ⟨3 * k.val + 2, d.utIndex_lt k.isLt (by decide : 2 < 3)⟩
          + values.dux.get ⟨d.uxValueIndex k, d.uxValueIndex_lt k.isLt⟩)
      :: (List.finRange d.spatialDim).map fun j : Fin d.spatialDim =>
        adjoint.psix.get ⟨k.val * d.spatialDim + j.val, d.psixIndex_lt k.isLt j.isLt⟩
          * values.dux.get ⟨d.uxIndex k j, d.uxIndex_lt k.isLt j.isLt⟩

end ElementModel

open ElementModel

/-! ## The Jacobian -/

/-- The quotients of a column of the Jacobian, and the data that the shifts leave behind. -/
def jacobianColumn (model : M) (p : Point α) (step : α) (data : PointData (dims model) α)
    (col : Fin (dims model).jacobianSize) :
    Except (ModelError α) (List α × PointData (dims model) α) := do
  let d := dims model
  let up := d.shiftColumn data col step
  let plus ← coefficients model (p.withData up)
  let down := d.shiftColumn up col (-((2 : Nat) : α) * step)
  let minus ← coefficients model (p.withData down)
  let column := (List.finRange d.jacobianSize).map fun row : Fin d.jacobianSize =>
    differenceQuotient step (d.jacobianRow plus row) (d.jacobianRow minus row)
  return (column, d.shiftColumn down col step)

/-- The quotients of columns one after the other, each starting from the data that the one before it
leaves behind. -/
def jacobianColumns (model : M) (p : Point α) (step : α) :
    PointData (dims model) α → List (Fin (dims model).jacobianSize) →
      Except (ModelError α) (List (List α))
  | _, [] => return []
  | data, col :: cols => do
    let (column, rest) ← jacobianColumn model p step data col
    let columns ← jacobianColumns model p step rest cols
    return column :: columns

/-- Compares the Jacobian of the weak form with the quotients of its coefficients. -/
def checkWeakJacobian (model : M) (p : Point α) (config : CheckConfig α) :
    Except (ModelError α) (CheckResult α) := do
  let d := dims model
  let size := d.jacobianSize
  let buffers : Linearization α d.utLen d.uxLen (size * size) :=
    ⟨.zero _ _, Vector.replicate _ 0⟩
  let (pattern, filled) ← Evaluation.answer buffers (weakJacobian model p)
  let view ← JacobianView.of? size pattern filled.jac.toArray
  let data ← d.checkPoint p
  let columns ← jacobianColumns model p config.stepSize data (List.finRange size)
  return .compare "weak jacobian" view.toDense.toList (rowMajor size columns) config

/-! ## Design variables -/

/-- Compares the adjoint product with the quotients of the residual along each design variable. -/
def checkWeakAdjoint (p : Point α) (psi psix : Array α) (config : CheckConfig α) :
    Work (ModelError α) M α (CheckResult α) := do
  let model ← Work.subject
  let base ← designVarValues model p.elem
  let analytic ← Evaluation.fill (Vector.replicate base.size 0)
    (addWeakAdjoint model p psi psix 1)
  let differences ← Work.designDifferences (setDesignVars p.elem) base config.stepSize
    fun model : M => adjointResidual model p psi psix
  Work.reported (.compare "weak adjoint product" analytic.toList differences config)

/-! ## Quantities -/

/-- The weights `1, 1/2, 1/3, …` of the values of a quantity. -/
def quantityWeights (n : Nat) : Array α :=
  ((List.range n).map fun i => 1 / ((i + 1 : Nat) : α)).toArray

/-- The weighted sum of the values of a quantity. -/
def weightedQuantity (model : M) (tag : QuantityTag) (xd weights : Array α) (p : Point α) :
    Except (ModelError α) α := do
  return Scalar.dot (← quantityValues model tag p xd) weights.toList

/-- Compares the derivatives of a quantity with its quotients along position, values by time and
values by space. -/
def checkQuantitySens (model : M) (tag : QuantityTag) (p : Point α) (xd : Array α)
    (config : CheckConfig α) : Except (ModelError α) (CheckResult α) := do
  let d := dims model
  let weights := quantityWeights (← quantityValues model tag p xd).length
  let buffers : QuantitySens α numCoords (numCoords * numCoords) d.utLen d.uxLen := .zero _ _ _ _
  let sens ← Evaluation.fill buffers (quantitySens model tag p xd weights)
  let ask := weightedQuantity model tag xd weights
  let byPosition ← differencesAlong config.stepSize p.x fun x => ask { p with x }
  let byTime ← differencesAlong config.stepSize p.ut fun ut => ask { p with ut }
  let bySpace ← differencesAlong config.stepSize p.ux fun ux => ask { p with ux }
  return .compare s!"point quantity {tag.label} state sensitivity"
    (sens.dfdx.toList ++ sens.dfdut.toList ++ sens.dfdux.toList)
    (byPosition ++ byTime ++ bySpace) config

/-- Compares the design derivatives of a quantity with its quotients along each design variable. -/
def checkQuantityDesignSens (tag : QuantityTag) (p : Point α) (xd : Array α)
    (config : CheckConfig α) : Work (ModelError α) M α (CheckResult α) := do
  let model ← Work.subject
  let weights := quantityWeights (← quantityValues model tag p xd).length
  let base ← designVarValues model p.elem
  let analytic ← Evaluation.fill (Vector.replicate base.size 0)
    (addQuantityDesignSens model tag 1 p xd weights)
  let differences ← Work.designDifferences (setDesignVars p.elem) base config.stepSize
    fun model : M => weightedQuantity model tag xd weights p
  Work.reported (.compare s!"point quantity {tag.label} design sensitivity" analytic.toList
    differences config)

end WeakForm
