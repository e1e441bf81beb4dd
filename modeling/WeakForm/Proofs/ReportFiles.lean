import WeakForm.Decimal.Binary64
import WeakForm.Proofs.CaseFiles

/-!
# Files of reports

Nothing in a report may be absent that is a number, so a report is read from its file or not at all:
an error that is not finite is written as `null`, and no reader takes that for a number. **What is
read is the report with each number as its literal denotes it** (`Report.givesIf_reread`), which is
the report itself if decimal printing and reading are inverse at its numbers.
-/

namespace WeakForm

open Json

variable {α : Type} [DecimalScalar α]

/-! ## Numbers -/

namespace Json

/-- Whether a number is read from what is written for it. -/
def IsReadable (x : α) : Prop := ((scalar? (ofScalar x) : Option α)).isSome = true

/-- What is read from what is written for a number. -/
def reread (x : α) : α := (scalar? (ofScalar x)).getD x

theorem givesIf_reread (x : α) : GivesIf (IsReadable x) (reread x) (scalar? (ofScalar x)) := by
  unfold IsReadable reread
  cases (scalar? (ofScalar x) : Option α) with
  | none => exact ⟨Bool.noConfusion, fun _ => rfl⟩
  | some y => exact (GivesIf.of_eq rfl).congr (by simp)

/-- What is written for a number that is not finite is not read. -/
theorem IsReadable.isFinite {x : α} (h : IsReadable x) : isFinite x = true := by
  unfold IsReadable at h
  rw [ofScalar_eq] at h
  unfold Json.isFinite
  cases hx : digits? x with
  | some d => rfl
  | none =>
    rw [hx] at h
    exact Bool.noConfusion h

namespace ReadsBack

variable {x : α}

theorem isReadable_iff (h : ReadsBack x) : IsReadable x ↔ isFinite x = true := by
  refine ⟨IsReadable.isFinite, fun hfinite => ?_⟩
  unfold IsReadable
  rw [(givesIf_scalar h).1 hfinite]
  rfl

theorem reread_eq (h : ReadsBack x) : reread x = x := by
  unfold reread
  by_cases hfinite : isFinite x = true
  · rw [(givesIf_scalar h).1 hfinite]
    rfl
  · rw [(givesIf_scalar h).2 hfinite]
    rfl

end ReadsBack

end Json

namespace CheckResult

/-- The numbers in the result of a check. -/
def numbers (r : CheckResult α) : List α := [r.maxAbsError, r.maxRelError]

/-- The counts in the result of a check fit into the words that hold them. -/
structure FitsWords (r : CheckResult α) : Prop where
  entries : r.entries < UInt64.size
  worstIndex : ∀ i ∈ r.worstIndex, i < UInt64.size

/-- The result with its numbers as they are read. -/
def reread (r : CheckResult α) : CheckResult α :=
  { r with maxAbsError := Json.reread r.maxAbsError, maxRelError := Json.reread r.maxRelError }

theorem givesIf_reread {r : CheckResult α} (hword : r.FitsWords) :
    GivesIf (∀ x ∈ r.numbers, IsReadable x) r.reread (ofJson? r.toJson) := by
  have hslots : slots? ["name", "entries", "max_abs_err", "max_rel_err", "worst_index", "passed"]
        r.toJson
      = some [some (ofString r.name), some (ofNat r.entries), some (ofScalar r.maxAbsError),
          some (ofScalar r.maxRelError), some (ofOption ofNat r.worstIndex),
          some (.bool r.passed)] := rfl
  have hworst : optional index? (some (ofOption ofNat r.worstIndex)) = some r.worstIndex := by
    cases hindex : r.worstIndex with
    | none => rfl
    | some i => exact congrArg (Option.map some) (natBelow?_ofNat (hword.worstIndex i hindex))
  unfold ofJson?
  dsimp only
  rw [hslots]
  simp only [Option.bind_eq_bind, Option.bind_some, Option.pure_def]
  refine .congr (.bind (.of_eq rfl) (.bind (.of_eq (natBelow?_ofNat hword.entries))
    (.bind (Json.givesIf_reread _) (.bind (Json.givesIf_reread _) (.bind (.of_eq hworst)
      (.bind (.of_eq rfl) (.pure _))))))) ?_
  simp [numbers]

theorem reread_eq {r : CheckResult α} (h : ∀ x ∈ r.numbers, ReadsBack x) : r.reread = r := by
  simp only [numbers, List.forall_mem_cons] at h
  unfold reread
  rw [h.1.reread_eq, h.2.1.reread_eq]

end CheckResult

namespace ElementReport

/-- The checks of an element with their numbers as they are read. -/
def reread (e : ElementReport α) : ElementReport α :=
  { e with checks := e.checks.map CheckResult.reread }

theorem givesIf_reread {e : ElementReport α} (hword : ∀ r ∈ e.checks, r.FitsWords) :
    GivesIf (∀ r ∈ e.checks, ∀ x ∈ r.numbers, IsReadable x) e.reread (ofJson? e.toJson) := by
  have hchecks := givesIf_list e.checks fun r hr => CheckResult.givesIf_reread (hword r hr)
  have hslots : slots? ["name", "kind", "checks"] e.toJson
      = some [some (ofString e.name), some (ofString e.kind),
          some (ofList CheckResult.toJson e.checks)] := rfl
  unfold ofJson?
  rw [hslots]
  simp only [Option.bind_eq_bind, Option.bind_some, Option.pure_def]
  refine .congr (.bind (.of_eq rfl) (.bind (.of_eq rfl) (.bind hchecks (.pure _)))) ?_
  rw [true_and, true_and, and_true]

theorem reread_eq {e : ElementReport α} (h : ∀ r ∈ e.checks, ∀ x ∈ r.numbers, ReadsBack x) :
    e.reread = e := by
  have hchecks : e.checks.map CheckResult.reread = e.checks :=
    (List.map_congr_left fun r hr => CheckResult.reread_eq (h r hr)).trans (List.map_id _)
  unfold reread
  rw [hchecks]

end ElementReport

namespace Report

/-- The numbers of a report. -/
def numbers (r : Report α) : List α := r.checks.flatMap CheckResult.numbers

/-- The counts of a report fit into the words that hold them. -/
def FitsWords (r : Report α) : Prop := ∀ check ∈ r.checks, check.FitsWords

/-- A report with its numbers as they are read. -/
def reread (r : Report α) : Report α :=
  { r with elements := r.elements.map ElementReport.reread }

/-- One slot for each member. -/
def slots (r : Report α) : List (String × Option Json) :=
  [("case_name", some (.ofString r.caseName)), ("generated_at", r.generatedAt.map .ofString),
    ("elements", some (.ofList ElementReport.toJson r.elements))]

theorem toJson_eq (r : Report α) : r.toJson = record (present r.slots) := by
  unfold toJson slots
  simp only [present_cons, memberIf_eq_present, List.append_assoc, List.cons_append]
  rfl

/-- **What is read from a stored report** is the report with its numbers as they are read, if all of
them are, and nothing otherwise. -/
theorem givesIf_reread {r : Report α} (hword : r.FitsWords) :
    GivesIf (∀ x ∈ r.numbers, IsReadable x) r.reread (ofJson? r.toJson) := by
  simp only [FitsWords, checks, List.forall_mem_flatMap] at hword
  have helements := givesIf_list r.elements fun e he => ElementReport.givesIf_reread (hword e he)
  have hdate : GivesIf True r.generatedAt (optional text? (r.generatedAt.map ofString)) :=
    (givesIf_optional r.generatedAt fun _ _ => ⟨Json.noConfusion, .of_eq rfl⟩).congr (by simp)
  have hslots : slots? ["case_name", "generated_at", "elements"] r.toJson
      = some (r.slots.map Prod.snd) := by
    rw [r.toJson_eq]
    exact slots?_present (by simp [slots]) (by simp [slots])
  unfold ofJson?
  rw [hslots]
  simp only [slots, List.map_cons, List.map_nil, Option.bind_eq_bind, Option.bind_some,
    Option.pure_def]
  refine .congr (.bind (.of_eq rfl) (.bind hdate (.bind helements (.pure _)))) ?_
  simp only [numbers, checks, List.forall_mem_flatMap, true_and, and_true]

theorem reread_eq {r : Report α} (h : ∀ x ∈ r.numbers, ReadsBack x) : r.reread = r := by
  simp only [numbers, checks, List.forall_mem_flatMap] at h
  have helements : r.elements.map ElementReport.reread = r.elements :=
    (List.map_congr_left fun e he => ElementReport.reread_eq (h e he)).trans (List.map_id _)
  unfold reread
  rw [helements]

/-- Where decimal printing and reading are inverse, a report is read as it was if its numbers are
finite. -/
theorem givesIf_ofJson? {r : Report α} (hword : r.FitsWords) (h : ∀ x ∈ r.numbers, ReadsBack x) :
    GivesIf (∀ x ∈ r.numbers, isFinite x = true) r (ofJson? r.toJson) := by
  have hread := givesIf_reread hword
  rw [reread_eq h] at hread
  exact hread.congr (forall₂_congr fun x hx => (h x hx).isReadable_iff)

/-- A report is read from its file if it is read from its stored value. -/
theorem decode_fileText (r : Report α) {d : Report α} :
    decode r.fileText.toUTF8 = .ok d ↔ ofJson? r.toJson = some d := by
  unfold decode fileText
  rw [ofBytes?_pretty, Option.bind_some]
  split
  · next heq => rw [heq, Except.ok.injEq, Option.some.injEq]
  · next heq => rw [heq]; exact ⟨nofun, nofun⟩

end Report

/-! ## Files are read as they were written -/

/-- **Files of cases and of reports are read as they were written.** If decimal printing and reading
are inverse at the numbers of a case, and all of them are finite, the case is read from its file,
and loading the file gives the case or the error of its validation; and likewise a report is read
from its file. -/
theorem decode_fileText_eq_ok [Scalar α] :
    (∀ c : Case α, c.FitsWords → (∀ x ∈ c.numbers, ReadsBack x) →
        (∀ x ∈ c.numbers, isFinite x = true) →
        Case.decode c.fileText.toUTF8 = .ok c
          ∧ (c.validate = .ok () → Case.load c.fileText.toUTF8 = .ok c)
          ∧ ∀ e, c.validate = .error e → Case.load c.fileText.toUTF8 = .error e)
      ∧ ∀ r : Report α, r.FitsWords → (∀ x ∈ r.numbers, ReadsBack x) →
        (∀ x ∈ r.numbers, isFinite x = true) → Report.decode r.fileText.toUTF8 = .ok r := by
  refine ⟨fun c hword hreads hfinite => ?_, fun r hword hreads hfinite => ?_⟩
  · have hdecode := Case.decode_fileText_of_finite hword hreads hfinite
    have hload := Case.load_of_decode hdecode
    refine ⟨hdecode, fun hvalid => ?_, fun e hinvalid => ?_⟩
    · rw [hload, hvalid]
      rfl
    · rw [hload, hinvalid]
      rfl
  · exact r.decode_fileText.mpr ((Report.givesIf_ofJson? hword hreads).1 hfinite)

/-- A report with one check, which failed. -/
def Report.sample : Report Float :=
  ⟨"block", some "2024-01-01", [⟨"block", "linear_elasticity_3d",
    [⟨"weak_jacobian", 144, 1.5e-3, 0.25, some 7, false⟩]⟩]⟩

/-- The template of a case and the report are read from their files. -/
theorem decode_fileText_eq_ok_sample :
    (Case.load (Case.template : Case Float).fileText.toUTF8 : Except (CaseError Float) (Case Float))
        = .ok Case.template
      ∧ (Report.decode Report.sample.fileText.toUTF8 : Except (CaseError Float) (Report Float))
        = .ok Report.sample := by
  obtain ⟨hcase, hreport⟩ := @decode_fileText_eq_ok Float _ _
  have hword : (Case.template : Case Float).FitsWords := ⟨by decide, by decide +kernel⟩
  have hreads : ∀ x ∈ (Case.template : Case Float).numbers, ReadsBack x := by decide +kernel
  have hfinite : ∀ x ∈ (Case.template : Case Float).numbers, isFinite x = true := by decide +kernel
  have hvalid : (Case.template : Case Float).validate = .ok () := by rfl
  have hword' : Report.sample.FitsWords := fun check hcheck => by
    obtain rfl := List.mem_singleton.mp hcheck
    exact ⟨by decide, by decide⟩
  refine ⟨(hcase Case.template hword hreads hfinite).2.1 hvalid, hreport Report.sample hword' ?_ ?_⟩
  · decide +kernel
  · decide +kernel

end WeakForm
