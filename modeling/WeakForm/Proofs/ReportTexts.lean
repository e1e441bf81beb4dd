import Mathlib
import WeakForm.Report.Text

/-!
# What the text of a report tells

A report is summed up three times, each time in another way: the verdict asks every element whether
all of its checks passed, the counts run over the checks of all elements, and the table has a row
for each check. **They tell the same** (`Report.TellsVerdict`).

The text is written for people, but it can be read: the lines that begin like a row and end like one
are the rows, so the results of the checks are read off in order. A name with a line break in it can
look like anything, so this needs that no line of the text is broken.
-/

namespace WeakForm

open Text

/-! ## Lines -/

theorem Text.toList_unlines (lines : List String) :
    (unlines lines).toList = ['\n'].intercalate (lines.map String.toList ++ [[]]) := by
  induction lines with
  | nil => rfl
  | cons line lines ih =>
    have hcons : (unlines (line :: lines)).toList
        = line.toList ++ '\n' :: (unlines lines).toList := by
      simp [unlines]
    rw [hcons, ih]
    cases lines <;> simp [List.intercalate]

/-- Lines that are not broken are read back. -/
theorem Text.splitOn_unlines {lines : List String} (h : ∀ line ∈ lines, '\n' ∉ line.toList) :
    (unlines lines).toList.splitOn '\n' = lines.map String.toList ++ [[]] := by
  rw [toList_unlines]
  refine List.splitOn_intercalate _ (fun line hline => ?_) (by simp)
  rcases List.mem_append.mp hline with hline | hline
  · obtain ⟨line, hmem, rfl⟩ := List.mem_map.mp hline
    exact h line hmem
  · rw [List.mem_singleton.mp hline]
    exact List.not_mem_nil

/-! ## Reading -/

/-- The result in a row of the table of checks. -/
def readResult? (line : List Char) : Option Bool :=
  if !"  ".toList.isPrefixOf line then none
  else if "  PASS".toList.isSuffixOf line then some true
  else if "  FAIL".toList.isSuffixOf line then some false
  else none

/-- The results in the rows of a text. -/
def readResults (text : String) : List Bool :=
  (text.toList.splitOn '\n').filterMap readResult?

/-- The verdict in a line of status. -/
def readVerdict? (line : List Char) : Option Bool :=
  if "STATUS: PASSED".toList.isPrefixOf line then some true
  else if "STATUS: FAILED".toList.isPrefixOf line then some false
  else none

/-- The verdict in the first line of status of a text. -/
def readVerdict (text : String) : Option Bool :=
  (text.toList.splitOn '\n').findSome? readVerdict?

/-- A row begins with two spaces, and before its last cell there are two more. -/
theorem exists_checkRow_eq (name entries absError relError result : String) :
    ∃ cells, checkRow name entries absError relError result = "  " ++ cells ++ ("  " ++ result) :=
  ⟨padRight 48 name ++ " " ++ padLeft 7 entries ++ " " ++ padLeft 12 absError ++ " "
    ++ padLeft 12 relError, by simp only [checkRow, String.append_assoc]⟩

/-- What ends a line that begins like a row decides what is read. -/
theorem readResult?_append (cells : String) {ending : String}
    (hending : ending.toList.length = 6) :
    readResult? ("  " ++ cells ++ ending).toList
      = if ending = "  PASS" then some true
        else if ending = "  FAIL" then some false else none := by
  have hbegins : "  ".toList.isPrefixOf ("  " ++ cells ++ ending).toList = true := by
    rw [List.isPrefixOf_iff_prefix, String.toList_append, String.toList_append, List.append_assoc]
    exact List.prefix_append _ _
  have hends_iff : ∀ other : String, other.toList.length = 6 →
      (other.toList.isSuffixOf ("  " ++ cells ++ ending).toList = true ↔ ending = other) := by
    intro other hother
    rw [List.isSuffixOf_iff_suffix, String.toList_append]
    constructor
    · intro h
      have hends := List.suffix_of_suffix_length_le h (List.suffix_append _ ending.toList)
        (hother.trans hending.symm).le
      exact (String.toList_injective (hends.eq_of_length (hother.trans hending.symm))).symm
    · rintro rfl
      exact List.suffix_append _ _
  unfold readResult?
  simp only [hbegins, hends_iff _ (show "  PASS".toList.length = 6 from rfl),
    hends_iff _ (show "  FAIL".toList.length = 6 from rfl)]
  rfl

/-- What begins with another character does not begin alike. -/
theorem isPrefixOf_eq_false {start line : List Char} {ch : Char} (hstart : start.head? = some ch)
    (hline : line.head? ≠ some ch) : start.isPrefixOf line = false := by
  rw [Bool.eq_false_iff, ne_eq, List.isPrefixOf_iff_prefix]
  rintro ⟨rest, rfl⟩
  exact hline (List.head?_append_of_ne_nil _ (by rintro rfl; cases hstart) |>.trans hstart)

theorem readResult?_eq_none {line : List Char} (h : line.head? ≠ some ' ') :
    readResult? line = none := by
  unfold readResult?
  rw [isPrefixOf_eq_false rfl h]
  rfl

theorem readVerdict?_eq_none {line : List Char} (h : line.head? ≠ some 'S') :
    readVerdict? line = none := by
  unfold readVerdict?
  rw [isPrefixOf_eq_false rfl h, isPrefixOf_eq_false rfl h]
  rfl

section Report

variable {α : Type} [DecimalScalar α]

/-- **The result of a check is read off its row.** -/
theorem readResult?_row (r : CheckResult α) : readResult? r.row.toList = some r.passed := by
  obtain ⟨cells, hrow⟩ := exists_checkRow_eq r.name (toString r.entries)
    (DecimalScalar.tabular r.maxAbsError) (DecimalScalar.tabular r.maxRelError)
    (if r.passed then "PASS" else "FAIL")
  unfold CheckResult.row
  rw [hrow]
  cases r.passed with
  | true => exact readResult?_append cells rfl
  | false => exact readResult?_append cells rfl

/-- Of the lines of an element only its rows are read. -/
theorem ElementReport.filterMap_lines (e : ElementReport α) :
    (e.lines.map String.toList).filterMap readResult? = e.checks.map (·.passed) := by
  have hname : readResult? s!"ELEMENT {e.name} ({e.kind})".toList = none := by
    refine readResult?_eq_none ?_
    simp only [String.toList_append]
    exact show some 'E' ≠ some ' ' by decide
  have hhead : readResult?
      (checkRow "CHECK" "ENTRIES" "ABS ERR" "REL ERR" "RESULT").toList = none := by
    decide +kernel
  have hrows : ((e.checks.map CheckResult.row).map String.toList).filterMap readResult?
      = e.checks.map (·.passed) := by
    have hrow : (readResult? ∘ String.toList ∘ CheckResult.row)
        = some ∘ fun r : CheckResult α => r.passed :=
      funext fun r => by simp only [Function.comp_apply, readResult?_row]
    rw [List.map_map, List.filterMap_map, hrow, List.filterMap_eq_map]
  unfold ElementReport.lines
  rw [List.map_cons, List.map_cons, List.map_cons, List.filterMap_cons_none rfl,
    List.filterMap_cons_none hname, List.filterMap_cons_none hhead, hrows]

namespace Report

omit [DecimalScalar α] in
/-- **The verdict is read off the line of status.** -/
theorem readVerdict?_statusLine (r : Report α) :
    readVerdict? r.statusLine.toList = some r.passed := by
  unfold statusLine
  simp only [String.toList_append]
  cases r.passed with
  | true => rfl
  | false => rfl

/-- The lines before the verdict. -/
def titleLines (r : Report α) : List String :=
  ["*ADJFEM VERIFICATION REPORT", s!"CASE: {r.caseName}"]
    ++ r.generatedAt.toList.map fun stamp => s!"GENERATED: {stamp}"

omit [DecimalScalar α] in
/-- They neither look like rows nor like verdicts. -/
theorem head?_of_mem_titleLines {r : Report α} {line : String} (h : line ∈ r.titleLines) :
    line.toList.head? ≠ some ' ' ∧ line.toList.head? ≠ some 'S' := by
  have hhead : line.toList.head? ∈ [some '*', some 'C', some 'G'] := by
    rcases List.mem_append.mp h with h | h
    · rcases List.mem_pair.mp h with rfl | rfl
      · exact List.mem_cons_self
      · rw [String.toList_append]
        exact List.mem_cons_of_mem _ List.mem_cons_self
    · obtain ⟨stamp, -, rfl⟩ := List.mem_map.mp h
      rw [String.toList_append]
      exact List.mem_cons_of_mem _ (List.mem_cons_of_mem _ List.mem_cons_self)
  constructor <;>
  · intro heq
    rw [heq] at hhead
    exact absurd hhead (by decide)

/-- Whether no line of the text is broken by a name in it. -/
def IsUnbroken (r : Report α) : Prop := ∀ line ∈ r.lines, '\n' ∉ line.toList

theorem IsUnbroken.splitOn_toText {r : Report α} (h : r.IsUnbroken) :
    r.toText.toList.splitOn '\n' = r.titleLines.map String.toList
      ++ r.statusLine.toList
        :: ((r.elements.flatMap ElementReport.lines).map String.toList ++ [[]]) := by
  have hlines : r.lines = r.titleLines ++ r.statusLine :: r.elements.flatMap ElementReport.lines :=
    rfl
  unfold toText
  rw [splitOn_unlines h, hlines, List.map_append, List.map_cons, List.append_assoc,
    List.cons_append]

/-- **The results of the checks are read off the text**, in order. -/
theorem IsUnbroken.readResults_toText {r : Report α} (h : r.IsUnbroken) :
    readResults r.toText = r.checks.map (·.passed) := by
  have htitle : (r.titleLines.map String.toList).filterMap readResult? = [] := by
    rw [List.filterMap_eq_nil_iff]
    intro _ hline
    obtain ⟨line, hmem, rfl⟩ := List.mem_map.mp hline
    exact readResult?_eq_none (head?_of_mem_titleLines hmem).1
  have hstatus : readResult? r.statusLine.toList = none := by
    refine readResult?_eq_none ?_
    simp only [statusLine, String.toList_append]
    exact show some 'S' ≠ some ' ' by decide
  have helements : ((r.elements.flatMap ElementReport.lines).map String.toList).filterMap
      readResult? = r.checks.map (·.passed) := by
    rw [List.map_flatMap, List.filterMap_flatMap, checks, List.map_flatMap]
    exact List.flatMap_congr fun e _ => e.filterMap_lines
  unfold readResults
  rw [h.splitOn_toText, List.filterMap_append, htitle, List.filterMap_cons_none hstatus,
    List.filterMap_append, helements, List.filterMap_cons_none rfl]
  simp

/-- **The verdict is read off the text.** -/
theorem IsUnbroken.readVerdict_toText {r : Report α} (h : r.IsUnbroken) :
    readVerdict r.toText = some r.passed := by
  have htitle : (r.titleLines.map String.toList).findSome? readVerdict? = none := by
    rw [List.findSome?_eq_none_iff]
    intro _ hline
    obtain ⟨line, hmem, rfl⟩ := List.mem_map.mp hline
    exact readVerdict?_eq_none (head?_of_mem_titleLines hmem).2
  unfold readVerdict
  rw [h.splitOn_toText, List.findSome?_append, htitle, List.findSome?_cons,
    readVerdict?_statusLine]
  rfl

/-- **A report tells one verdict**, by its counts and by its text. -/
structure TellsVerdict (r : Report α) : Prop where
  passed_iff : r.passed = true ↔ r.numFailed = 0
  numFailed_le_numChecks : r.numFailed ≤ r.numChecks
  numChecks_eq : r.numChecks = (r.elements.map fun e => e.checks.length).sum
  numFailed_eq : r.numFailed = (r.elements.map fun e => e.checks.countP (!·.passed)).sum
  /-- The text has a line with the verdict and the counts, and for each element three lines and then
  a row for each check. -/
  exists_toText_eq : ∃ (title : List String) (heading : ElementReport α → List String),
    r.toText = unlines (title
      ++ ("STATUS: " ++ (if r.numFailed = 0 then "PASSED" else "FAILED")
        ++ s!" ({r.numFailed} of {r.numChecks} checks failed)")
      :: r.elements.flatMap fun e => heading e ++ e.checks.map CheckResult.row)
    ∧ ∀ e, (heading e).length = 3
  /-- A row ends with the result of its check. -/
  exists_row_eq : ∀ check : CheckResult α, ∃ cells,
    check.row = cells ++ (if check.passed then "  PASS" else "  FAIL")
  /-- The verdict and the results can be read off the text. -/
  reads_toText : r.IsUnbroken →
    readVerdict r.toText = some r.passed ∧ readResults r.toText = r.checks.map (·.passed)

theorem tellsVerdict (r : Report α) : r.TellsVerdict where
  passed_iff := r.passed_iff_numFailed_eq_zero
  numFailed_le_numChecks := r.numFailed_le_numChecks
  numChecks_eq := by
    unfold numChecks checks
    rw [List.length_flatMap]
  numFailed_eq := by
    unfold numFailed checks
    rw [List.countP_flatMap]
    rfl
  exists_toText_eq := by
    refine ⟨r.titleLines, fun e => ["", s!"ELEMENT {e.name} ({e.kind})",
      checkRow "CHECK" "ENTRIES" "ABS ERR" "REL ERR" "RESULT"], ?_, fun _ => rfl⟩
    have hstatus : r.statusLine = "STATUS: " ++ (if r.numFailed = 0 then "PASSED" else "FAILED")
        ++ s!" ({r.numFailed} of {r.numChecks} checks failed)" := by
      simp only [statusLine, r.passed_iff_numFailed_eq_zero, String.append_assoc]
      rfl
    rw [← hstatus]
    rfl
  exists_row_eq := by
    intro check
    obtain ⟨cells, hrow⟩ := exists_checkRow_eq check.name (toString check.entries)
      (DecimalScalar.tabular check.maxAbsError) (DecimalScalar.tabular check.maxRelError)
      (if check.passed then "PASS" else "FAIL")
    refine ⟨"  " ++ cells, hrow.trans ?_⟩
    cases check.passed <;> rfl
  reads_toText := fun h => ⟨h.readVerdict_toText, h.readResults_toText⟩

end Report

end Report

end WeakForm
