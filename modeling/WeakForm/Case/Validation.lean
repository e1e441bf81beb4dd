import WeakForm.Case.Basic
import WeakForm.Case.Error

/-!
# Validating a case

The tests that a case can be given on its own, before anything is built: its version, the names of
its materials, the thickness of each element, and the step and tolerances of the checks, in this
order. A thickness has to be positive and inside of its bounds, **written so that an undefined
number fails**; the tolerances are only refused below zero.
-/

namespace WeakForm

/-- The first item that has come up before. -/
def firstRepeated {β : Type} [DecidableEq β] : List β → Option β
  | items => go [] items
where
  /-- The same, with the items that have come up so far. -/
  go (seen : List β) : List β → Option β
    | [] => none
    | item :: rest => if item ∈ seen then some item else go (item :: seen) rest

variable {α : Type} [Scalar α]

/-- Tests the thickness of an element. -/
def SolidEntry.validate (s : SolidEntry α) (element : Nat) : Except (CaseError α) Unit :=
  let lower := s.lowerBound
  let upper := s.upperBound
  if ¬ 0 < s.thickness then .error (.invalid (.thicknessNotPositive element s.thickness))
  else if upper < lower then .error (.invalid (.boundsReversed element lower upper))
  else if ¬ (lower ≤ s.thickness ∧ s.thickness ≤ upper) then
    .error (.invalid (.thicknessOutsideBounds element s.thickness lower upper))
  else .ok ()

/-- Tests the step and the tolerances. -/
def CheckConfig.validate (config : CheckConfig α) : Except (CaseError α) Unit :=
  if ¬ 0 < config.stepSize ∨ config.rtol < 0 ∨ config.atol < 0 then
    .error (.invalid .configNotPositive)
  else .ok ()

namespace Case

/-- Tests a case. -/
def validate (c : Case α) : Except (CaseError α) Unit := do
  if c.schemaVersion ≠ supportedVersion then
    throw (.invalid (.unsupportedVersion c.schemaVersion supportedVersion))
  match firstRepeated (c.materials.map (·.name)) with
  | some name => throw (.invalid (.duplicateMaterial name))
  | none => pure ()
  c.elements.zipIdx.forM fun (element, i) => element.solid.validate i
  c.verification.validate

end Case

end WeakForm
