import WeakForm.Proofs.ExactNumbers

/-!
# What a comparison finds

A comparison keeps the largest error so far together with the place where it was met. Read exactly,
this is an argmax: `Deviation.IsWorst` says that no error of the list is larger, that the place is
the **first** one with that error, and that there is no place only if there is nothing to find. One
more error preserves this (`IsWorst.meet`), so it holds of every list (`isWorst_ofErrors`), and all
else here is read off it: a comparison without tolerance passes exactly if the largest error is
zero, and the comparison of a vector with itself finds nothing under any tolerance.
-/

namespace WeakForm

variable [Waves]

namespace Deviation

/-- **A deviation is the worst of a list of errors**: no error exceeds it, it was met first where it
says, and it says nowhere only if it is zero. -/
structure IsWorst (errors : List ℝ) (d : Deviation ℝ) : Prop where
  le_error : ∀ e ∈ errors, e ≤ d.error
  error_nonneg : 0 ≤ d.error
  error_of_none : d.index = none → d.error = 0
  getElem?_of_some : ∀ i, d.index = some i → errors[i]? = some d.error
  pos_of_some : ∀ i, d.index = some i → 0 < d.error
  lt_of_lt : ∀ i, d.index = some i → ∀ j < i, ∀ e, errors[j]? = some e → e < d.error

theorem isWorst_zero : IsWorst [] (zero : Deviation ℝ) where
  le_error := by simp
  error_nonneg := le_refl _
  error_of_none := fun _ => rfl
  getElem?_of_some := fun i h => by cases h
  pos_of_some := fun i h => by cases h
  lt_of_lt := fun i h => by cases h

/-- Meeting one more error at the end of the list. -/
theorem IsWorst.meet {errors : List ℝ} {d : Deviation ℝ} (h : IsWorst errors d) (e : ℝ) :
    IsWorst (errors ++ [e]) (d.meet e errors.length) := by
  have hmeet : d.meet e errors.length
      = if d.error < e then ⟨e, some errors.length⟩ else d := by
    simp [Deviation.meet]
  rw [hmeet]
  by_cases hlt : d.error < e
  · rw [if_pos hlt]
    refine ⟨?_, (h.error_nonneg.trans_lt hlt).le, (fun hn => by cases hn), ?_, ?_, ?_⟩
    · intro x hx
      rcases List.mem_append.mp hx with hx | hx
      · exact (h.le_error x hx).trans hlt.le
      · exact (List.mem_singleton.mp hx).le
    · rintro i ⟨⟩
      simp
    · rintro i ⟨⟩
      exact h.error_nonneg.trans_lt hlt
    · rintro i ⟨⟩ j hj x hx
      rw [List.getElem?_append_left hj] at hx
      exact (h.le_error x (List.mem_of_getElem? hx)).trans_lt hlt
  · rw [if_neg hlt]
    refine ⟨?_, h.error_nonneg, h.error_of_none, ?_, h.pos_of_some, ?_⟩
    · intro x hx
      rcases List.mem_append.mp hx with hx | hx
      · exact h.le_error x hx
      · exact (List.mem_singleton.mp hx).le.trans (not_lt.mp hlt)
    · intro i hi
      have hx := h.getElem?_of_some i hi
      rw [List.getElem?_append_left (List.getElem?_eq_some_iff.mp hx).1]
      exact hx
    · intro i hi j hj x hx
      have hlen : i < errors.length :=
        (List.getElem?_eq_some_iff.mp (h.getElem?_of_some i hi)).1
      rw [List.getElem?_append_left (hj.trans hlen)] at hx
      exact h.lt_of_lt i hi j hj x hx

/-- **The deviation of a list of errors is the worst of them.** -/
theorem isWorst_ofErrors (errors : List ℝ) : IsWorst errors (ofErrors errors) := by
  -- errors are met from the first to the last, so the induction adds them at the end
  induction errors using List.reverseRecOn with
  | nil => exact isWorst_zero
  | append_singleton errors e ih =>
    rw [ofErrors_append_singleton]
    exact ih.meet e

/-- Errors that are all zero leave nothing to find. -/
theorem ofErrors_eq_zero {errors : List ℝ} (h : ∀ e ∈ errors, e = 0) :
    ofErrors errors = zero := by
  have hw := isWorst_ofErrors errors
  have hnone : (ofErrors errors).index = none := by
    cases hi : (ofErrors errors).index with
    | none => rfl
    | some i =>
      have hmem := List.mem_of_getElem? (hw.getElem?_of_some i hi)
      exact absurd (h _ hmem) (hw.pos_of_some i hi).ne'
  cases hd : ofErrors errors with
  | mk error index =>
    rw [hd] at hw hnone
    cases hnone
    rw [show error = 0 from hw.error_of_none rfl]
    rfl

end Deviation

namespace CheckResult

/-- **A check that finds no error at all.** -/
structure IsExact (r : CheckResult ℝ) : Prop where
  maxAbsError : r.maxAbsError = 0
  maxRelError : r.maxRelError = 0
  worstIndex : r.worstIndex = none
  passed : r.passed = true

/-- The errors of a vector against itself. -/
theorem errors_self (v : List ℝ) : ∀ e ∈ errors v v, e = 0 := by
  intro e he
  unfold errors at he
  rw [List.zipWith_self] at he
  obtain ⟨x, -, rfl⟩ := List.mem_map.mp he
  simp

theorem magnitude_nonneg (values : List ℝ) : 0 ≤ magnitude values := by
  unfold magnitude
  induction values using List.reverseRecOn with
  | nil => exact le_refl _
  | append_singleton values v ih =>
    rw [List.foldl_append, List.foldl_cons, List.foldl_nil, Scalar.maximum_real]
    exact ih.trans (le_max_left _ _)

/-- **A vector compared with itself is exact**, whatever the tolerances. -/
theorem isExact_compare_self (name : String) (v : List ℝ) {config : CheckConfig ℝ}
    (hr : 0 ≤ config.rtol) (ha : 0 ≤ config.atol) : (compare name v v config).IsExact := by
  have hworst : Deviation.ofErrors (errors v v) = Deviation.zero :=
    Deviation.ofErrors_eq_zero (errors_self v)
  have htol : 0 ≤ config.atol + config.rtol * magnitude v :=
    add_nonneg ha (mul_nonneg hr (magnitude_nonneg v))
  unfold compare
  rw [hworst]
  exact ⟨rfl, by simp [Deviation.zero], rfl, by simpa [Deviation.zero] using htol⟩

/-- Without tolerance a comparison passes exactly if the largest error is zero. -/
theorem passed_compare_iff (name : String) (step : ℝ) {a f : List ℝ} (hlen : a.length = f.length) :
    (compare name a f ⟨step, 0, 0⟩).passed = true
      ↔ (Deviation.ofErrors (errors a f)).error = 0 := by
  have h0 := (Deviation.isWorst_ofErrors (errors a f)).error_nonneg
  unfold compare
  simp only [hlen, true_and, zero_mul, add_zero, decide_eq_true_eq]
  exact ⟨fun h => le_antisymm h h0, fun h => h.le⟩

/-- **Without tolerance a comparison passes exactly if the two vectors are the same**, lengths
included. -/
theorem passed_compare_iff_eq (name : String) (step : ℝ) {a f : List ℝ} :
    (compare name a f ⟨step, 0, 0⟩).passed = true ↔ a = f := by
  constructor
  · intro h
    have hlen : a.length = f.length := (of_decide_eq_true h).1
    have hzero := (passed_compare_iff name step hlen).mp h
    have hworst := Deviation.isWorst_ofErrors (errors a f)
    refine List.ext_getElem hlen fun i hi hi' => ?_
    have hmem : |a[i] - f[i]| ∈ errors a f := by
      refine List.mem_of_getElem? (i := i) ?_
      unfold errors
      rw [List.getElem?_zipWith, List.getElem?_eq_getElem hi, List.getElem?_eq_getElem hi']
      rfl
    have hle := hworst.le_error _ hmem
    rw [hzero] at hle
    exact sub_eq_zero.mp (abs_nonpos_iff.mp hle)
  · rintro rfl
    exact (isExact_compare_self name a le_rfl le_rfl).passed

end CheckResult

end WeakForm
