import WeakForm.Case.Validation
import WeakForm.Format.Case
import WeakForm.Format.Report
import WeakForm.Json.Parser
import WeakForm.Json.Printer

/-!
# Files of cases and reports

A file holds one value over several lines. A case that is loaded is validated at once, so **a
loaded case is a valid one**; a case or a report that is written is not tested.
-/

namespace WeakForm

variable {α : Type} [Scalar α] [DecimalScalar α]

namespace Case

/-- The case that the bytes of a file spell, valid or not. -/
def decode (bytes : ByteArray) : Except (CaseError α) (Case α) :=
  match (Json.ofBytes? bytes).bind ofJson? with
  | some c => .ok c
  | none => .error (.content "the file does not hold a case")

/-- The valid case that the bytes of a file spell. -/
def load (bytes : ByteArray) : Except (CaseError α) (Case α) := do
  let c ← decode bytes
  c.validate
  return c

omit [Scalar α] in
/-- The content of the file of a case. -/
def fileText (c : Case α) : String := c.toJson.pretty

end Case

namespace Report

omit [Scalar α]

/-- The report that the bytes of a file spell. -/
def decode (bytes : ByteArray) : Except (CaseError α) (Report α) :=
  match (Json.ofBytes? bytes).bind ofJson? with
  | some r => .ok r
  | none => .error (.content "the file does not hold a report")

/-- The content of the file of a report. -/
def fileText (r : Report α) : String := r.toJson.pretty

end Report

end WeakForm
