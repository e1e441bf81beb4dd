import WeakForm.Proofs.Comparison

/-!
# A comparison is its tolerance test

A comparison goes through two vectors once and keeps one number and one index. Read exactly, all
that it says can be said of the vectors themselves: the largest deviation between them, the first
place where it is met, the largest magnitude of the second vector, and whether **every deviation is
within the tolerance** (`CheckResult.IsToleranceTest`). The magnitude is taken over the whole of the
second vector and the deviations over the common length, so vectors of different lengths are
compared as well; they never pass.

Nothing in the test depends on where a deviation stands, so the verdict is that of the pairs of
entries in any order.
-/

namespace WeakForm

/-- **The largest of a list of numbers**, zero if there is none. -/
noncomputable def largest (xs : List ℝ) : ℝ := xs.maximum.unbotD 0

theorem largest_le_iff {xs : List ℝ} (h : ∀ x ∈ xs, 0 ≤ x) {b : ℝ} :
    largest xs ≤ b ↔ 0 ≤ b ∧ ∀ x ∈ xs, x ≤ b := by
  unfold largest
  cases hmax : xs.maximum with
  | bot =>
    rw [List.maximum_eq_bot.mp hmax]
    simp
  | coe m =>
    obtain ⟨hmem, hle⟩ := List.maximum_eq_coe_iff.mp hmax
    exact ⟨fun hb => ⟨(h m hmem).trans hb, fun x hx => (hle x hx).trans hb⟩, fun hb => hb.2 m hmem⟩

/-- The magnitude of the largest entry of a vector. -/
noncomputable def peak (f : List ℝ) : ℝ := largest (f.map abs)

/-- **How far two vectors are apart**, at each place that both of them have. -/
def deviations (a f : List ℝ) : List ℝ := (a.zip f).map fun pair => |pair.1 - pair.2|

theorem deviations_nonneg {a f : List ℝ} : ∀ e ∈ deviations a f, 0 ≤ e := by
  intro e he
  obtain ⟨pair, -, rfl⟩ := List.mem_map.mp he
  exact abs_nonneg _

/-- The pairs of entries in another order, in front of what is left of each vector. -/
theorem deviations_perm {pairs pairs' : List (ℝ × ℝ)} (h : pairs.Perm pairs') (u v : List ℝ) :
    (deviations (pairs.map Prod.fst ++ u) (pairs.map Prod.snd ++ v)).Perm
      (deviations (pairs'.map Prod.fst ++ u) (pairs'.map Prod.snd ++ v)) := by
  have hzip : ∀ items : List (ℝ × ℝ),
      (items.map Prod.fst ++ u).zip (items.map Prod.snd ++ v) = items ++ u.zip v := fun items => by
    have hitems : items = (items.map Prod.fst).zip (items.map Prod.snd) := List.zip_of_prod rfl rfl
    rw [List.zip_append (by rw [List.length_map, List.length_map]), ← hitems]
  unfold deviations
  rw [hzip, hzip]
  exact (h.append_right _).map _

theorem peak_perm {f f' : List ℝ} (h : f.Perm f') : peak f = peak f' := by
  unfold peak largest
  rw [(h.map abs).maximum_eq]

namespace Deviation

variable {errors : List ℝ} {d : Deviation ℝ}

/-- The worst error is the largest. -/
theorem IsWorst.error_eq (h : IsWorst errors d) (hnonneg : ∀ e ∈ errors, 0 ≤ e) :
    d.error = largest errors := by
  have hmem : d.error = 0 ∨ d.error ∈ errors := by
    cases hi : d.index with
    | none => exact Or.inl (h.error_of_none hi)
    | some i => exact Or.inr (List.mem_of_getElem? (h.getElem?_of_some i hi))
  obtain ⟨hzero, hle⟩ := (largest_le_iff hnonneg).mp (le_refl (largest errors))
  refine le_antisymm ?_ ((largest_le_iff hnonneg).mpr ⟨h.error_nonneg, h.le_error⟩)
  rcases hmem with hd | hd
  · rw [hd]
    exact hzero
  · exact hle _ hd

/-- There is no place exactly if there is no error. -/
theorem IsWorst.index_eq_none_iff (h : IsWorst errors d) (hnonneg : ∀ e ∈ errors, 0 ≤ e) :
    d.index = none ↔ ∀ e ∈ errors, e = 0 := by
  constructor
  · intro hnone e he
    have hle := h.le_error e he
    rw [h.error_of_none hnone] at hle
    exact le_antisymm hle (hnonneg e he)
  · intro hzero
    cases hi : d.index with
    | none => rfl
    | some i =>
      have hmem := List.mem_of_getElem? (h.getElem?_of_some i hi)
      exact absurd (hzero _ hmem) (h.pos_of_some i hi).ne'

/-- **The place is the first one with the largest error.** -/
theorem IsWorst.isLeast (h : IsWorst errors d) {i : ℕ} (hi : d.index = some i) :
    IsLeast {j | errors[j]? = some d.error} i := by
  refine ⟨h.getElem?_of_some i hi, fun j hj => ?_⟩
  by_contra hlt
  exact lt_irrefl _ (h.lt_of_lt i hi j (not_le.mp hlt) d.error hj)

end Deviation

namespace CheckResult

section Waves

variable [Waves]

theorem errors_eq_deviations (a f : List ℝ) : errors a f = deviations a f := by
  unfold errors deviations
  rw [List.zip, List.map_zipWith]
  rfl

theorem magnitude_eq_peak (f : List ℝ) : magnitude f = peak f := by
  refine eq_of_forall_ge_iff fun b => ?_
  have hnonneg : ∀ x ∈ f.map abs, 0 ≤ x := by
    intro x hx
    obtain ⟨y, -, rfl⟩ := List.mem_map.mp hx
    exact abs_nonneg y
  unfold magnitude peak
  rw [Scalar.foldl_maximum_abs_le_iff, largest_le_iff hnonneg, List.forall_mem_map]

/-- **The result of a comparison, told by its two vectors.** -/
structure IsToleranceTest (r : CheckResult ℝ) (a f : List ℝ) (config : CheckConfig ℝ) : Prop where
  entries : r.entries = a.length
  maxAbsError : r.maxAbsError = largest (deviations a f)
  /-- The place is the first one with the largest deviation, unless the vectors agree. -/
  worstIndex_eq_some_iff : ∀ i, r.worstIndex = some i
    ↔ (∃ e ∈ deviations a f, e ≠ 0)
      ∧ IsLeast {j | (deviations a f)[j]? = some (largest (deviations a f))} i
  worstIndex_eq_none_iff : r.worstIndex = none ↔ ∀ e ∈ deviations a f, e = 0
  maxRelError_of_pos : 0 < peak f → r.maxRelError = r.maxAbsError / peak f
  maxRelError_of_not_pos : ¬ 0 < peak f → r.maxRelError = r.maxAbsError
  passed_iff : r.passed = true
    ↔ a.length = f.length ∧ ∀ e ∈ deviations a f, e ≤ config.atol + config.rtol * peak f

variable {config : CheckConfig ℝ}

/-- Each field of a result is read off the worst of the deviations. -/
theorem isToleranceTest (name : String) (a f : List ℝ) (hr : 0 ≤ config.rtol)
    (ha : 0 ≤ config.atol) : (compare name a f config).IsToleranceTest a f config := by
  have hworst := Deviation.isWorst_ofErrors (deviations a f)
  have herror := hworst.error_eq deviations_nonneg
  have hnone := hworst.index_eq_none_iff deviations_nonneg
  have htolerance : 0 ≤ config.atol + config.rtol * peak f := by
    rw [← magnitude_eq_peak]
    exact add_nonneg ha (mul_nonneg hr (magnitude_nonneg f))
  unfold compare
  rw [errors_eq_deviations, magnitude_eq_peak]
  refine ⟨rfl, herror, fun i => ?_, hnone, fun hpos => if_pos hpos, fun hpos => if_neg hpos, ?_⟩
  · rw [← herror]
    constructor
    · intro hi
      exact ⟨⟨_, List.mem_of_getElem? (hworst.getElem?_of_some i hi), (hworst.pos_of_some i hi).ne'⟩,
        hworst.isLeast hi⟩
    · rintro ⟨⟨e, he, hne⟩, hleast⟩
      cases hindex : (Deviation.ofErrors (deviations a f)).index with
      | none => exact absurd (hnone.mp hindex e he) hne
      | some j =>
        obtain rfl := (hworst.isLeast hindex).unique hleast
        exact hindex
  · dsimp only
    rw [decide_eq_true_iff, herror, largest_le_iff deviations_nonneg, and_iff_right htolerance]

/-- **The verdict is that of the pairs of entries in any order.** -/
theorem passed_compare_perm {pairs pairs' : List (ℝ × ℝ)} (h : pairs.Perm pairs') (name : String)
    (u v : List ℝ) (hr : 0 ≤ config.rtol) (ha : 0 ≤ config.atol) :
    (compare name (pairs.map Prod.fst ++ u) (pairs.map Prod.snd ++ v) config).passed
      = (compare name (pairs'.map Prod.fst ++ u) (pairs'.map Prod.snd ++ v) config).passed := by
  rw [Bool.eq_iff_iff, (isToleranceTest name _ _ hr ha).passed_iff,
    (isToleranceTest name _ _ hr ha).passed_iff]
  simp only [List.length_append, List.length_map, h.length_eq, (deviations_perm h u v).mem_iff,
    peak_perm ((h.map Prod.snd).append_right v)]

/-- **A comparison is its tolerance test**, and its verdict does not depend on the order in which
the pairs of entries are listed. -/
theorem isToleranceTest_compare (name : String) (a f : List ℝ) (config : CheckConfig ℝ)
    (hr : 0 ≤ config.rtol) (ha : 0 ≤ config.atol) :
    (compare name a f config).IsToleranceTest a f config
      ∧ ∀ (pairs pairs' : List (ℝ × ℝ)) (u v : List ℝ), pairs.Perm pairs' →
        (compare name (pairs.map Prod.fst ++ u) (pairs.map Prod.snd ++ v) config).passed
          = (compare name (pairs'.map Prod.fst ++ u) (pairs'.map Prod.snd ++ v) config).passed :=
  ⟨isToleranceTest name a f hr ha,
    fun _ _ u v h => passed_compare_perm h name u v hr ha⟩

end Waves

/-- Two deviations of the same size, and the pairs of entries in two orders. -/
theorem isToleranceTest_compare_sample :
    (0 : ℝ) ≤ 1 / 2 ∧ (0 : ℝ) ≤ 0
      ∧ (compare "" [1, 5, 3] [1, 3, (5 : ℝ)] ⟨1, 1 / 2, 0⟩).IsToleranceTest [1, 5, 3] [1, 3, 5]
          ⟨1, 1 / 2, 0⟩
      ∧ (compare "" [1, 5, 3] [1, 3, (5 : ℝ)] ⟨1, 1 / 2, 0⟩).passed
          = (compare "" [5, 1, 3] [3, 1, (5 : ℝ)] ⟨1, 1 / 2, 0⟩).passed := by
  have hr : (0 : ℝ) ≤ 1 / 2 := by norm_num
  obtain ⟨htest, hperm⟩ := isToleranceTest_compare "" [1, 5, 3] [1, 3, (5 : ℝ)]
    ⟨1, 1 / 2, 0⟩ hr le_rfl
  exact ⟨hr, le_rfl, htest, hperm [(1, 1), (5, 3), (3, 5)] [(5, 3), (1, 1), (3, 5)] [] []
    (.swap _ _ _)⟩

end CheckResult

end WeakForm
