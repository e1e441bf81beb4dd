import WeakForm.Check.Result

/-!
# Verification reports

A report lists the checks of each element. Its verdict and its two counts are read off the same
lists.
-/

namespace WeakForm

/-- The checks of an element. -/
structure ElementReport (α : Type) where
  name : String
  kind : String
  checks : List (CheckResult α)
  deriving BEq, Repr

/-- The checks of a case. -/
structure Report (α : Type) where
  caseName : String
  /-- When the report was made, if that is known. -/
  generatedAt : Option String
  elements : List (ElementReport α)
  deriving BEq, Repr

variable {α : Type}

/-- Whether every check of an element passed. -/
def ElementReport.passed (e : ElementReport α) : Bool := e.checks.all (·.passed)

namespace Report

/-- Whether every check passed. -/
def passed (r : Report α) : Bool := r.elements.all (·.passed)

/-- The checks of all elements in order. -/
def checks (r : Report α) : List (CheckResult α) := r.elements.flatMap (·.checks)

/-- The number of checks. -/
def numChecks (r : Report α) : Nat := r.checks.length

/-- The number of checks that failed. -/
def numFailed (r : Report α) : Nat := r.checks.countP (!·.passed)

theorem passed_iff_forall (r : Report α) : r.passed = true ↔ ∀ check ∈ r.checks, check.passed := by
  simp only [passed, checks, ElementReport.passed, List.all_eq_true, List.mem_flatMap]
  exact ⟨fun h check ⟨e, he, hc⟩ => h e he check hc, fun h e he check hc => h check ⟨e, he, hc⟩⟩

/-- **A report passes exactly if no check failed.** -/
theorem passed_iff_numFailed_eq_zero (r : Report α) : r.passed = true ↔ r.numFailed = 0 := by
  simp [passed_iff_forall, numFailed, List.countP_eq_zero]

theorem numFailed_le_numChecks (r : Report α) : r.numFailed ≤ r.numChecks := List.countP_le_length

end Report

end WeakForm
