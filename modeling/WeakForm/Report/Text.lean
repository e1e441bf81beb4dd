import WeakForm.Report.Basic

/-!
# Reports as text

A report is a list of lines: a head, and for each element a blank line, its name and a table of its
checks. **The cells of a table are padded by characters, not cut**: a long name pushes the rest of
its row to the right.
-/

namespace WeakForm

namespace Text

/-- The spaces that a text lacks to be `width` characters wide. -/
def padding (width : Nat) (s : String) : String :=
  String.ofList (List.replicate (width - s.length) ' ')

/-- A text at the left of a cell. -/
def padRight (width : Nat) (s : String) : String := s ++ padding width s

/-- A text at the right of a cell. -/
def padLeft (width : Nat) (s : String) : String := padding width s ++ s

/-- Lines of text, each ended by a line break. -/
def unlines (lines : List String) : String := String.join (lines.map (· ++ "\n"))

end Text

open Text

/-- A row of the table of checks. -/
def checkRow (name entries absError relError result : String) : String :=
  "  " ++ padRight 48 name ++ " " ++ padLeft 7 entries ++ " " ++ padLeft 12 absError ++ " "
    ++ padLeft 12 relError ++ "  " ++ result

variable {α : Type} [DecimalScalar α]

/-- The row of a check. -/
def CheckResult.row (r : CheckResult α) : String :=
  checkRow r.name (toString r.entries) (DecimalScalar.tabular r.maxAbsError)
    (DecimalScalar.tabular r.maxRelError) (if r.passed then "PASS" else "FAIL")

/-- The lines of an element. -/
def ElementReport.lines (e : ElementReport α) : List String :=
  "" :: s!"ELEMENT {e.name} ({e.kind})" :: checkRow "CHECK" "ENTRIES" "ABS ERR" "REL ERR" "RESULT"
    :: e.checks.map CheckResult.row

namespace Report

omit [DecimalScalar α] in
/-- The line that tells the verdict. -/
def statusLine (r : Report α) : String :=
  let verdict := if r.passed then "PASSED" else "FAILED"
  s!"STATUS: {verdict} ({r.numFailed} of {r.numChecks} checks failed)"

/-- The lines of a report. -/
def lines (r : Report α) : List String :=
  ["*ADJFEM VERIFICATION REPORT", s!"CASE: {r.caseName}"]
    ++ (r.generatedAt.toList.map fun stamp => s!"GENERATED: {stamp}")
    ++ r.statusLine :: r.elements.flatMap ElementReport.lines

/-- The text of a report. -/
def toText (r : Report α) : String := unlines r.lines

end Report

end WeakForm
