import WeakForm.Case.Build
import WeakForm.Case.Validation
import WeakForm.Verification

/-!
# Verifying a case

The stages of a verification are validation, the look-up of the quantities, the materials, the
elements, and then the checks of each element in turn. **The first stage that fails decides the
error**, and a quantity that an element does not know is no failure.
-/

namespace WeakForm

variable {α : Type} [Scalar α]

/-- Runs the checks of a built element. -/
def BuiltElement.verify (element : BuiltElement α) (position : Nat) (tags : List QuantityTag)
    (registry : Registry) (config : CheckConfig α) :
    Work (CaseError α) Unit α (ElementReport α) := do
  Work.note (.elementStarted element.name element.kind)
  Work.onPart (fun _ => element.model) (fun _ whole => whole)
    (Work.mapError .model
      (verifyElement element.name element.kind position tags registry config))

namespace Case

/-- Verifies a case and gives its report. -/
def verify [Spectral α] (c : Case α) : Work (CaseError α) Unit α (Report α) := do
  c.validate
  let tags ← c.resolveQuantities .builtin
  let library ← c.buildLibrary
  let elements ← c.buildElements library
  let reports ← elements.zipIdx.mapM fun (element, position) =>
    element.verify position tags .builtin c.verification
  let report : Report α := ⟨c.name, none, reports⟩
  Work.note (.caseFinished c.name report.numFailed report.numChecks)
  return report

end Case

end WeakForm
