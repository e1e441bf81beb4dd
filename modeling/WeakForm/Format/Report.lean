import WeakForm.Format.Check
import WeakForm.Report.Basic

/-!
# File forms of reports

A report without a date leaves the date out.
-/

namespace WeakForm

open Json

variable {α : Type} [DecimalScalar α]

namespace ElementReport

/-- The written form of the checks of an element. -/
def toJson (e : ElementReport α) : Json :=
  .record [
    ("name", .ofString e.name),
    ("kind", .ofString e.kind),
    ("checks", .ofList CheckResult.toJson e.checks)]

/-- Reads the checks of an element. -/
def ofJson? (value : Json) : Option (ElementReport α) := do
  match ← slots? ["name", "kind", "checks"] value with
  | [name, kind, checks] =>
    return ⟨← required text? name, ← required text? kind,
      ← required (list? CheckResult.ofJson?) checks⟩
  | _ => none

end ElementReport

namespace Report

/-- The written form of a report. -/
def toJson (r : Report α) : Json :=
  .record (("case_name", .ofString r.caseName)
    :: memberIf "generated_at" .ofString r.generatedAt
    ++ [("elements", .ofList ElementReport.toJson r.elements)])

/-- Reads a report. -/
def ofJson? (value : Json) : Option (Report α) := do
  match ← slots? ["case_name", "generated_at", "elements"] value with
  | [caseName, generatedAt, elements] =>
    return ⟨← required text? caseName, ← optional text? generatedAt,
      ← required (list? ElementReport.ofJson?) elements⟩
  | _ => none

end Report

end WeakForm
