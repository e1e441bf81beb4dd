import WeakForm.Element.Conduction
import WeakForm.Element.Elasticity

/-!
# Elements of a solid

The two kinds of physics that a case may ask for, over the same constitutive law. **A model of this
type answers exactly as the model inside it**, and working on it works on the model inside it.
-/

namespace WeakForm

/-- An element model over a linear solid. -/
inductive SolidModel (α : Type) where
  | elasticity (model : Elasticity (Solid α) α)
  | conduction (model : Conductor (Solid α))
  deriving Repr

namespace SolidModel

variable {α : Type} [Scalar α]

/-- The solid inside. -/
def solid : SolidModel α → Solid α
  | .elasticity model => model.law
  | .conduction model => model.law

/-- Sets the design variables of the model inside. -/
def setDesignVars (elem : Nat) (values : Array α) : Work (ModelError α) (SolidModel α) α Unit := do
  match ← Work.subject with
  | .elasticity model =>
    Work.onPart (fun _ => model) (fun model _ => .elasticity model)
      (ElementModel.setDesignVars elem values)
  | .conduction model =>
    Work.onPart (fun _ => model) (fun model _ => .conduction model)
      (ElementModel.setDesignVars elem values)

instance : ElementModel (SolidModel α) α where
  dims
    | .elasticity model => ElementModel.dims model
    | .conduction model => ElementModel.dims model
  elementType
    | .elasticity model => ElementModel.elementType model
    | .conduction model => ElementModel.elementType model
  designVarNums
    | .elasticity model, elem => ElementModel.designVarNums model elem
    | .conduction model, elem => ElementModel.designVarNums model elem
  setDesignVars := setDesignVars
  designVars
    | .elasticity model, elem => ElementModel.designVars model elem
    | .conduction model, elem => ElementModel.designVars model elem
  designVarRange
    | .elasticity model, elem => ElementModel.designVarRange model elem
    | .conduction model, elem => ElementModel.designVarRange model elem
  weakIntegrand
    | .elasticity model, p => ElementModel.weakIntegrand model p
    | .conduction model, p => ElementModel.weakIntegrand model p
  weakJacobian
    | .elasticity model, p => ElementModel.weakJacobian model p
    | .conduction model, p => ElementModel.weakJacobian model p
  addWeakAdjoint
    | .elasticity model, p, psi, psix, scale =>
      ElementModel.addWeakAdjoint model p psi psix scale
    | .conduction model, p, psi, psix, scale =>
      ElementModel.addWeakAdjoint model p psi psix scale
  quantity
    | .elasticity model, tag, p, xd => ElementModel.quantity model tag p xd
    | .conduction model, tag, p, xd => ElementModel.quantity model tag p xd
  addQuantityDesignSens
    | .elasticity model, tag, scale, p, xd, dfdq =>
      ElementModel.addQuantityDesignSens model tag scale p xd dfdq
    | .conduction model, tag, scale, p, xd, dfdq =>
      ElementModel.addQuantityDesignSens model tag scale p xd dfdq
  quantitySens
    | .elasticity model, tag, p, xd, dfdq => ElementModel.quantitySens model tag p xd dfdq
    | .conduction model, tag, p, xd, dfdq => ElementModel.quantitySens model tag p xd dfdq
  output
    | .elasticity model, p, etype, flags, stride =>
      ElementModel.output model p etype flags stride
    | .conduction model, p, etype, flags, stride =>
      ElementModel.output model p etype flags stride

end SolidModel

end WeakForm
