import WeakForm.Proofs.ReportFiles
import WeakForm.Proofs.UndefinedErrors

/-!
# Reports of comparisons

The result of a comparison holds two errors and, beside them, what a reader acts on: a name, the
number of entries, the place of the worst one and whether the check passed. All of this is written,
and it is read as it was (`Report.verdicts`), **but only with the errors**: an error that is not
finite is written as `null`, and then the whole report is not read. So the reports that are lost are
those of the checks that went wrong most (`Report.not_forall_exists_decode`). An entry that is not
finite costs the report unless the comparison has passed over it (`CheckResult.isMasked_of_isFinite`).

Finite vectors are no safeguard, since an error is divided by a magnitude that may be as small as
any number.
-/

namespace WeakForm

open Json

variable {α : Type}

/-! ## Counts -/

section Counts

variable [Scalar α]

/-- The place of a deviation is that of an error. -/
theorem Deviation.index_ofErrors_lt (errors : List α) :
    ∀ i ∈ (ofErrors errors).index, i < errors.length := by
  induction errors using List.reverseRecOn with
  | nil => exact fun i hi => absurd hi (Option.not_mem_none i)
  | append_singleton errors error ih =>
    rw [ofErrors_append_singleton, List.length_append]
    intro i hi
    unfold meet at hi
    split at hi
    · obtain rfl := Option.mem_some.mp hi
      exact Nat.lt_succ_self _
    · exact (ih i hi).trans (Nat.lt_succ_self _)

/-- The counts of a comparison of vectors whose entries can be counted. -/
theorem CheckResult.fitsWords_compare {name : String} {analytic differences : List α}
    {config : CheckConfig α} (h : analytic.length < UInt64.size) :
    (compare name analytic differences config).FitsWords where
  entries := h
  worstIndex := by
    intro i hi
    refine (Deviation.index_ofErrors_lt _ i hi).trans_le ((?_ : _ ≤ analytic.length).trans h.le)
    rw [errors, List.length_zipWith]
    exact Nat.min_le_left _ _

end Counts

/-! ## Entries that are not finite -/

theorem isNaN_and_isInf_of_isFinite {x : Float} (h : x.isFinite = true) :
    x.isNaN = false ∧ x.isInf = false := by
  change x.toModel.unpack.isFinite = true at h
  show x.toModel.unpack.isNaN = false ∧ x.toModel.unpack.isInf = false
  generalize x.toModel.unpack = u at h ⊢
  cases u with
  | notANumber => cases h
  | infinity s => cases h
  | zero s => exact ⟨rfl, rfl⟩
  | finite s m e hm => exact ⟨rfl, rfl⟩

namespace CheckResult

open Deviation

/-- **A comparison with an entry that is not finite has a finite error only if it has passed over
the entry.** -/
theorem isMasked_of_isFinite (name : String) {a f : List Float} {config : CheckConfig Float}
    {i : ℕ} {x y : Float} (hx : a[i]? = some x) (hy : f[i]? = some y)
    (hxy : x.isFinite = false ∨ y.isFinite = false)
    (hfinite : (compare name a f config).maxAbsError.isFinite = true) :
    (Scalar.abs (x - y)).isNaN = true ∧ IsMasked (errors a f) i := by
  obtain ⟨hnan, hinf⟩ := isNaN_and_isInf_of_isFinite hfinite
  -- a finite error bounds every error that is not passed over
  have hself : (ofErrors (errors a f)).error ≤ (ofErrors (errors a f)).error :=
    le_self_iff.mpr hnan
  obtain ⟨-, hwithin⟩ := ((records_ofErrors (errors a f)).error_le_iff _).mp hself
  obtain h | h := isInf_or_isMasked_of_isWithin hx hy hxy hwithin
  · exact absurd (h.symm.trans hinf) Bool.noConfusion
  · exact h

end CheckResult

/-! ## Verdicts -/

/-- The result of a check without its errors. -/
def CheckResult.verdict (r : CheckResult α) : String × ℕ × Option ℕ × Bool :=
  (r.name, r.entries, r.worstIndex, r.passed)

/-- **What a report says about its checks**, without their errors. -/
def Report.verdicts (r : Report α) :
    List (String × String × List (String × ℕ × Option ℕ × Bool)) :=
  r.elements.map fun e => (e.name, e.kind, e.checks.map CheckResult.verdict)

namespace Report

variable [DecimalScalar α]

/-- Verdicts are read as they were. -/
theorem verdicts_reread (r : Report α) : r.reread.verdicts = r.verdicts := by
  unfold reread verdicts
  dsimp only
  rw [List.map_map]
  refine List.map_congr_left fun e _ => ?_
  simp only [Function.comp_apply, ElementReport.reread, List.map_map]
  rfl

/-- **When a report is read from its file**, and what is read then. -/
structure IsReadWithErrors (r : Report α) : Prop where
  /-- A report is read if each of its errors is, and not otherwise. -/
  exists_decode_iff : (∃ d : Report α, decode r.fileText.toUTF8 = .ok d)
    ↔ ∀ x ∈ r.numbers, IsReadable x
  /-- No error that is not finite is read. -/
  exists_error : (∃ x ∈ r.numbers, isFinite x = false) →
    ∃ e, (decode r.fileText.toUTF8 : Except (CaseError α) (Report α)) = .error e
  /-- Whatever is read has the same verdicts. -/
  of_decode : ∀ d : Report α, decode r.fileText.toUTF8 = .ok d →
    d.caseName = r.caseName ∧ d.generatedAt = r.generatedAt ∧ d.verdicts = r.verdicts
  /-- Where decimal printing and reading are inverse, a report is read as it was if its errors are
  finite. -/
  decode_eq_ok : (∀ x ∈ r.numbers, ReadsBack x) → (∀ x ∈ r.numbers, isFinite x = true) →
    decode r.fileText.toUTF8 = .ok r

theorem isReadWithErrors_of_fitsWords {r : Report α} (h : r.FitsWords) :
    r.IsReadWithErrors := by
  have hread := givesIf_reread h
  have hexists : (∃ d : Report α, decode r.fileText.toUTF8 = .ok d)
      ↔ ∀ x ∈ r.numbers, IsReadable x := by
    simp only [decode_fileText]
    exact ⟨fun ⟨d, hd⟩ => (hread.of_eq_some hd).1, fun hall => ⟨_, hread.1 hall⟩⟩
  exact {
    exists_decode_iff := hexists
    exists_error := by
      rintro ⟨x, hx, hfinite⟩
      cases hdecode : (decode r.fileText.toUTF8 : Except (CaseError α) (Report α)) with
      | error e => exact ⟨e, rfl⟩
      | ok d =>
        have hx := (hexists.mp ⟨d, hdecode⟩ x hx).isFinite
        rw [hfinite] at hx
        cases hx
    of_decode := by
      intro d hd
      obtain ⟨-, rfl⟩ := hread.of_eq_some (r.decode_fileText.mp hd)
      exact ⟨rfl, rfl, r.verdicts_reread⟩
    decode_eq_ok := fun hreads hfinite =>
      r.decode_fileText.mpr ((givesIf_ofJson? h hreads).1 hfinite) }

/-! ## Comparisons -/

variable [Scalar α]

/-- Whether the results of a report come from comparisons, of vectors whose entries can be
counted. -/
def IsCompared (r : Report α) : Prop :=
  ∀ check ∈ r.checks, ∃ (name : String) (analytic differences : List α) (config : CheckConfig α),
    analytic.length < UInt64.size ∧ check = .compare name analytic differences config

omit [DecimalScalar α] in
theorem IsCompared.fitsWords {r : Report α} (h : r.IsCompared) : r.FitsWords := by
  intro check hcheck
  obtain ⟨name, analytic, differences, config, hlength, rfl⟩ := h check hcheck
  exact CheckResult.fitsWords_compare hlength

/-- **Which reports of comparisons are lost.** -/
structure IsLostUnlessFinite (r : Report Float) : Prop where
  isReadWithErrors : r.IsReadWithErrors
  /-- A report is only read if its errors are finite. -/
  isFinite_of_decode : ∀ d : Report Float, decode r.fileText.toUTF8 = .ok d →
    ∀ x ∈ r.numbers, x.isFinite = true
  /-- A report with an entry that is not finite is only read if the comparison has passed over the
  entry: its error is undefined, and there was an error before. -/
  isMasked_of_decode : ∀ d : Report Float, decode r.fileText.toUTF8 = .ok d →
    ∀ (name : String) (a f : List Float) (config : CheckConfig Float),
      CheckResult.compare name a f config ∈ r.checks →
      ∀ (i : ℕ) (x y : Float), a[i]? = some x → f[i]? = some y →
        x.isFinite = false ∨ y.isFinite = false →
        (Scalar.abs (x - y)).isNaN = true ∧ Deviation.IsMasked (CheckResult.errors a f) i

/-- **A report of comparisons is read with its errors or not at all.** -/
theorem IsCompared.isLostUnlessFinite {r : Report Float} (h : r.IsCompared) :
    r.IsLostUnlessFinite := by
  have hread := isReadWithErrors_of_fitsWords h.fitsWords
  have hfinite : ∀ d : Report Float, decode r.fileText.toUTF8 = .ok d →
      ∀ x ∈ r.numbers, x.isFinite = true := by
    intro d hd x hx
    rw [← isFinite_float]
    exact (hread.exists_decode_iff.mp ⟨d, hd⟩ x hx).isFinite
  refine ⟨hread, hfinite, fun d hd name a f config hcheck i x y hx hy hxy => ?_⟩
  have hmem : (CheckResult.compare name a f config).maxAbsError ∈ r.numbers :=
    List.mem_flatMap.mpr ⟨_, hcheck, List.mem_cons_self⟩
  exact CheckResult.isMasked_of_isFinite name hx hy hxy (hfinite d hd _ hmem)

/-! ## Infinite errors -/

/-- A report of one comparison, which fails because an entry is infinite. -/
def infinite : Report Float :=
  ⟨"c", none, [⟨"e", "k", [.compare "c" [1 / 0] [1] .standard]⟩]⟩

theorem isCompared_infinite : infinite.IsCompared := by
  intro check hcheck
  obtain rfl := List.mem_singleton.mp hcheck
  exact ⟨"c", [1 / 0], [1], .standard, by decide, rfl⟩

theorem exists_isFinite_eq_false_infinite : ∃ x ∈ infinite.numbers, isFinite x = false :=
  ⟨_, List.mem_cons_self, by decide +kernel⟩

/-- The report is lost. -/
theorem isLostUnlessFinite_infinite : infinite.IsCompared ∧ infinite.IsLostUnlessFinite
    ∧ ∃ e, (decode infinite.fileText.toUTF8 : Except (CaseError Float) (Report Float))
      = .error e :=
  have hlost := isCompared_infinite.isLostUnlessFinite
  ⟨isCompared_infinite, hlost,
    hlost.isReadWithErrors.exists_error exists_isFinite_eq_false_infinite⟩

/-- **Not every report of comparisons is read from its file.** -/
theorem not_forall_exists_decode :
    ¬ ∀ r : Report Float, r.IsCompared →
      ∃ d : Report Float, decode r.fileText.toUTF8 = .ok d ∧ d.verdicts = r.verdicts := by
  intro h
  obtain ⟨d, hd, -⟩ := h infinite isCompared_infinite
  obtain ⟨e, he⟩ := (isReadWithErrors_of_fitsWords isCompared_infinite.fitsWords).exists_error
    exists_isFinite_eq_false_infinite
  rw [hd] at he
  cases he

/-- An infinite error of finite vectors. -/
example : isFinite (CheckResult.compare "" [1] [(1e-320 : Float)] .standard).maxRelError = false :=
  by decide +kernel

end Report

end WeakForm
