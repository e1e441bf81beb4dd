import WeakForm.Check.Element
import WeakForm.Quantity.Registry
import WeakForm.Report.Basic
import WeakForm.Sample

/-!
# Verifying an element

The checks of an element are run at its sample point: the Jacobian and the adjoint product first,
then, for each quantity in turn, the derivatives by state and by design. **A quantity that the
element does not know is passed over**; any other error ends the verification. A report shows
quantities by their registered names.
-/

namespace WeakForm

variable {α M : Type} [Scalar α] [ElementModel M α]

open ElementModel

/-- Whether a model evaluates a quantity at a point. -/
def supports (model : M) (tag : QuantityTag) (p : Point α) : Except (ModelError α) Bool :=
  match quantityValues model tag p #[] with
  | .ok _ => .ok true
  | .error (.unsupportedQuantity _) => .ok false
  | .error e => .error e

namespace Registry

/-- How a report shows a quantity. -/
def label (r : Registry) (tag : QuantityTag) : String := (r.name? tag).getD tag.label

end Registry

/-- The two checks of a quantity, or none if the element does not know it. -/
def verifyQuantity (element : String) (p : Point α) (registry : Registry) (config : CheckConfig α)
    (tag : QuantityTag) : Work (ModelError α) M α (List (CheckResult α)) := do
  let model ← Work.subject
  if ← supports model tag p then
    let state ← Work.reported (← checkQuantitySens model tag p #[] config)
    let design ← checkQuantityDesignSens tag p #[] config
    let label := registry.label tag
    return [{ state with name := label ++ " state sensitivity" },
      { design with name := label ++ " design sensitivity" }]
  else
    Work.note (.quantitySkipped element ((registry.name? tag).getD "?"))
    return []

/-- All checks of an element. -/
def verifyElement (name kind : String) (elem : Nat) (tags : List QuantityTag) (registry : Registry)
    (config : CheckConfig α) : Work (ModelError α) M α (ElementReport α) := do
  let model ← Work.subject
  let data := AdjointSample.ofDims (dims model) elem
  let p := data.sample.point
  let jacobian ← Work.reported (← checkWeakJacobian model p config)
  let adjoint ← checkWeakAdjoint p data.psi data.psix config
  let quantities ← tags.mapM (verifyQuantity name p registry config)
  return ⟨name, kind, jacobian :: adjoint :: quantities.flatten⟩

end WeakForm
