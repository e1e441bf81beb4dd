import WeakForm.Check.Result
import WeakForm.Json.Reader

/-!
# File forms of checks

Step and tolerances may each be left out, and are the standard ones then. In the result of a check
only the place of the worst error may be missing, but not its other fields.
-/

namespace WeakForm

open Json

variable {α : Type} [DecimalScalar α]

namespace CheckConfig

/-- The written form of step and tolerances. -/
def toJson (config : CheckConfig α) : Json :=
  .record [
    ("step_size", .ofScalar config.stepSize),
    ("rtol", .ofScalar config.rtol),
    ("atol", .ofScalar config.atol)]

/-- Reads step and tolerances. -/
def ofJson? [Scalar α] (value : Json) : Option (CheckConfig α) := do
  let default : CheckConfig α := .standard
  match ← slots? ["step_size", "rtol", "atol"] value with
  | [stepSize, rtol, atol] =>
    return {
      stepSize := ← orElse scalar? default.stepSize stepSize
      rtol := ← orElse scalar? default.rtol rtol
      atol := ← orElse scalar? default.atol atol }
  | _ => none

end CheckConfig

namespace CheckResult

/-- The written form of the result of a check. -/
def toJson (r : CheckResult α) : Json :=
  .record [
    ("name", .ofString r.name),
    ("entries", .ofNat r.entries),
    ("max_abs_err", .ofScalar r.maxAbsError),
    ("max_rel_err", .ofScalar r.maxRelError),
    ("worst_index", .ofOption .ofNat r.worstIndex),
    ("passed", .bool r.passed)]

/-- Reads the result of a check. -/
def ofJson? (value : Json) : Option (CheckResult α) := do
  let fields := ["name", "entries", "max_abs_err", "max_rel_err", "worst_index", "passed"]
  match ← slots? fields value with
  | [name, entries, maxAbsError, maxRelError, worstIndex, passed] =>
    return {
      name := ← required text? name
      entries := ← required index? entries
      maxAbsError := ← required scalar? maxAbsError
      maxRelError := ← required scalar? maxRelError
      worstIndex := ← optional index? worstIndex
      passed := ← required bool? passed }
  | _ => none

end CheckResult

end WeakForm
