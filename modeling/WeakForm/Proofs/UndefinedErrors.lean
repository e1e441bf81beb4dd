import WeakForm.Check.Result
import WeakForm.Proofs.FloatOrder

/-!
# Undefined errors

What a comparison does with an error that is undefined depends on what it has met before. If no
error was positive, the undefined one is kept, nothing exceeds it, and the comparison fails. **After
a positive error it is passed over** (`Deviation.IsMasked`), and the comparison is decided by the
other errors (`passed_compare_iff_isWithin`). So a comparison may pass where a vector is undefined.

It may also pass where a vector is infinite, since the difference quotients have a say in the
tolerance: an infinite quotient makes an infinite error, and an infinite tolerance that admits it.
There is no third way (`isInf_or_isMasked_of_passed`).
-/

namespace WeakForm

open Scalar.LinearlyOrdered

namespace Deviation

variable {α : Type} [Scalar α]

/-- **An error is masked** if a positive one stands before it. -/
def IsMasked (errors : List α) (k : ℕ) : Prop := ∃ j < k, ∃ e, errors[j]? = some e ∧ 0 < e

/-- **Errors are within a bound** if each of them is, or is undefined and masked. -/
def IsWithin (errors : List α) (bound : α) : Prop :=
  ∀ k e, errors[k]? = some e → e ≤ bound ∨ (¬ e ≤ e ∧ IsMasked errors k)

/-- **What a deviation records of a list of errors.** -/
inductive Records (errors : List α) : Deviation α → Prop
  /-- Nothing, if no error is positive or undefined. -/
  | nothing : (∀ e ∈ errors, e ≤ 0) → Records errors zero
  /-- An undefined error, if no error before it is positive or undefined. -/
  | undefined {i : ℕ} {e : α} : errors[i]? = some e → ¬ e ≤ e →
    (∀ j < i, ∀ e', errors[j]? = some e' → e' ≤ 0) → Records errors ⟨e, some i⟩
  /-- A positive error that no other exceeds. An undefined one is then masked. -/
  | largest {i : ℕ} {e : α} : errors[i]? = some e → 0 < e → IsWithin errors e →
    Records errors ⟨e, some i⟩

/-- An error that is kept. -/
theorem meet_of_kept {d : Deviation α} {x : α}
    (h : d.error < x ∨ Scalar.isUndefined x = true ∧ d.index = none) (n : ℕ) :
    d.meet x n = ⟨x, some n⟩ :=
  if_pos h

/-- An error that is passed over. -/
theorem meet_of_passed {d : Deviation α} {x : α} (hlt : ¬ d.error < x)
    (hundefined : Scalar.isUndefined x = true → d.index ≠ none) (n : ℕ) : d.meet x n = d :=
  if_neg fun h => h.elim hlt fun h => hundefined h.1 h.2

omit [Scalar α] in
/-- An error of a list is one of a longer list. -/
theorem getElem?_append_of_eq_some {errors : List α} {i : ℕ} {e : α} (h : errors[i]? = some e)
    (tail : List α) : (errors ++ tail)[i]? = some e := by
  rw [List.getElem?_append_left (List.getElem?_eq_some_iff.mp h).1, h]

omit [Scalar α] in
/-- The errors of a list with one more are those of the list and the one. -/
theorem getElem?_concat {errors : List α} {x e : α} {k : ℕ}
    (h : (errors ++ [x])[k]? = some e) :
    errors[k]? = some e ∨ k = errors.length ∧ x = e := by
  rw [List.getElem?_append] at h
  split at h
  · exact Or.inl h
  · rename_i hk
    obtain ⟨hlt, he⟩ := List.getElem?_eq_some_iff.mp h
    have hzero : k - errors.length = 0 := Nat.lt_one_iff.mp hlt
    exact Or.inr ⟨by omega, by simpa [hzero] using he⟩

theorem IsMasked.append {errors : List α} {k : ℕ} (h : IsMasked errors k) (tail : List α) :
    IsMasked (errors ++ tail) k := by
  obtain ⟨j, hj, e, he, hpos⟩ := h
  exact ⟨j, hj, e, getElem?_append_of_eq_some he tail, hpos⟩

/-- The bound holds of every error that is not undefined. -/
theorem IsWithin.le_of_le_self {errors : List α} {bound e : α} {i : ℕ} (h : IsWithin errors bound)
    (he : errors[i]? = some e) (hself : e ≤ e) : e ≤ bound :=
  (h i e he).resolve_right fun hmasked => hmasked.1 hself

/-- Errors and one more. -/
theorem IsWithin.concat {errors : List α} {bound x : α} (h : IsWithin errors bound)
    (hx : x ≤ bound ∨ (¬ x ≤ x ∧ IsMasked (errors ++ [x]) errors.length)) :
    IsWithin (errors ++ [x]) bound := by
  intro k e he
  obtain he | ⟨rfl, rfl⟩ := getElem?_concat he
  · exact (h k e he).imp_right fun hmasked => ⟨hmasked.1, hmasked.2.append [x]⟩
  · exact hx

variable [Scalar.LinearlyOrdered α]

theorem IsWithin.trans {errors : List α} {bound bound' : α} (h : IsWithin errors bound)
    (hle : bound ≤ bound') : IsWithin errors bound' :=
  fun k e he => (h k e he).imp_left fun h => le_trans _ _ _ h hle

/-- Errors that are not positive are within every bound from zero on. -/
theorem isWithin_of_forall_le {errors : List α} (h : ∀ e ∈ errors, e ≤ 0) {bound : α}
    (hbound : 0 ≤ bound) : IsWithin errors bound :=
  fun _ e he => Or.inl (le_trans _ _ _ (h e (List.mem_of_getElem? he)) hbound)

/-- **Meeting one more error** at the end of the list keeps the record. -/
theorem Records.meet {errors : List α} {d : Deviation α} (h : Records errors d) (x : α) :
    Records (errors ++ [x]) (d.meet x errors.length) := by
  have hlast : (errors ++ [x])[errors.length]? = some x := List.getElem?_concat_length
  cases h with
  | nothing hall =>
    by_cases hpos : 0 < x
    · rw [meet_of_kept (d := zero) (Or.inl hpos)]
      have hwithin : IsWithin errors x := isWithin_of_forall_le hall (le_of_lt hpos)
      exact .largest hlast hpos (hwithin.concat (Or.inl (le_self_right _ _ (le_of_lt hpos))))
    by_cases hx : x ≤ x
    · rw [meet_of_passed (d := zero) hpos fun h => absurd hx ((isUndefined_iff x).mp h)]
      refine .nothing fun e he => ?_
      rcases List.mem_append.mp he with he | he
      · exact hall e he
      · rw [List.mem_singleton.mp he]
        exact le_of_not_lt zero_le_zero hx hpos
    · rw [meet_of_kept (d := zero) (Or.inr ⟨(isUndefined_iff x).mpr hx, rfl⟩)]
      refine .undefined hlast hx fun j hj e he => ?_
      obtain he | ⟨rfl, -⟩ := getElem?_concat he
      · exact hall e (List.mem_of_getElem? he)
      · exact absurd hj (Nat.lt_irrefl _)
  | @undefined i e he hundefined hbefore =>
    have hnot : ¬ e < x := fun h => hundefined (le_self_left _ _ (le_of_lt h))
    rw [meet_of_passed hnot fun _ => Option.some_ne_none i]
    refine .undefined (getElem?_append_of_eq_some he [x]) hundefined fun j hj e' he' => ?_
    obtain he' | ⟨rfl, -⟩ := getElem?_concat he'
    · exact hbefore j hj e' he'
    · exact absurd hj (Nat.lt_asymm (List.getElem?_eq_some_iff.mp he).1)
  | @largest i e he hpos hwithin =>
    have he' : (errors ++ [x])[i]? = some e := getElem?_append_of_eq_some he [x]
    by_cases hlt : e < x
    · rw [meet_of_kept (Or.inl hlt)]
      have hle : e ≤ x := le_of_lt hlt
      exact .largest hlast (lt_of_lt_of_le hpos hle)
        ((hwithin.trans hle).concat (Or.inl (le_self_right _ _ hle)))
    · rw [meet_of_passed hlt fun _ => Option.some_ne_none i]
      refine .largest he' hpos (hwithin.concat ?_)
      by_cases hx : x ≤ x
      · exact Or.inl (le_of_not_lt (le_self_right _ _ (le_of_lt hpos)) hx hlt)
      · exact Or.inr ⟨hx, i, (List.getElem?_eq_some_iff.mp he).1, e, he', hpos⟩

/-- **The deviation of a list records it.** -/
theorem records_ofErrors (errors : List α) : Records errors (ofErrors errors) := by
  -- errors are met from the first to the last, so the induction adds them at the end
  induction errors using List.reverseRecOn with
  | nil => exact .nothing fun e he => absurd he List.not_mem_nil
  | append_singleton errors x ih =>
    rw [ofErrors_append_singleton]
    exact ih.meet x

/-- What is recorded is within a bound exactly if zero and the errors are. -/
theorem Records.error_le_iff {errors : List α} {d : Deviation α} (h : Records errors d)
    (bound : α) : d.error ≤ bound ↔ 0 ≤ bound ∧ IsWithin errors bound := by
  cases h with
  | nothing hall => exact ⟨fun h => ⟨h, isWithin_of_forall_le hall h⟩, fun h => h.1⟩
  | @undefined i e he hundefined hbefore =>
    refine ⟨fun h => absurd (le_self_left _ _ h) hundefined, fun h => ?_⟩
    rcases h.2 i e he with hle | ⟨-, j, hj, e', he', hpos⟩
    · exact absurd (le_self_left _ _ hle) hundefined
    · exact absurd (hbefore j hj e' he') ((lt_iff _ _).mp hpos).2
  | @largest i e he hpos hwithin =>
    have hle : 0 ≤ e := le_of_lt hpos
    exact ⟨fun h => ⟨le_trans _ _ _ hle h, hwithin.trans h⟩,
      fun h => h.2.le_of_le_self he (le_self_right _ _ hle)⟩

end Deviation

/-! ## Comparisons -/

/-- The error that a comparison with difference quotients admits. -/
def CheckConfig.tolerance {α : Type} [Scalar α] (config : CheckConfig α) (differences : List α) :
    α :=
  config.atol + config.rtol * CheckResult.magnitude differences

namespace CheckResult

open Deviation

/-- **When a comparison passes**: every error is within the tolerance, or it is undefined and
masked. -/
theorem passed_compare_iff_isWithin {α : Type} [Scalar α] [Scalar.LinearlyOrdered α]
    (name : String) (a f : List α) (config : CheckConfig α) :
    (compare name a f config).passed = true ↔ a.length = f.length ∧ 0 ≤ config.tolerance f
      ∧ IsWithin (errors a f) (config.tolerance f) := by
  rw [← (records_ofErrors (errors a f)).error_le_iff]
  exact decide_eq_true_iff

/-- **An entry that is not finite is within a bound in two ways only**: the bound is infinite, or the
error at the entry is undefined, and masked. -/
theorem isInf_or_isMasked_of_isWithin {a f : List Float} {bound : Float} {i : ℕ} {x y : Float}
    (hx : a[i]? = some x) (hy : f[i]? = some y) (hxy : x.isFinite = false ∨ y.isFinite = false)
    (hwithin : IsWithin (errors a f) bound) :
    bound.isInf = true ∨ ((Scalar.abs (x - y)).isNaN = true ∧ IsMasked (errors a f) i) := by
  have herror : (errors a f)[i]? = some (Scalar.abs (x - y)) := by
    unfold errors
    rw [List.getElem?_zipWith, hx, hy]
  rcases hwithin i _ herror with hle | ⟨hundefined, hmasked⟩
  · obtain hnan | hinf := unpack_abs_sub hxy
    · have hself := le_self_iff.mp (le_self_left _ _ hle)
      unfold Float.isNaN Float.Model.isNaN at hself
      rw [hnan] at hself
      cases hself
    · exact Or.inl (isInf_of_le hinf hle)
  · rw [le_self_iff, Bool.not_eq_false] at hundefined
    exact Or.inr ⟨hundefined, hmasked⟩

/-- **A comparison passes over an entry that is not finite in two ways only**: the tolerance is
infinite, or the error at the entry is undefined, and masked. -/
theorem isInf_or_isMasked_of_passed (name : String) {a f : List Float} {config : CheckConfig Float}
    {i : ℕ} {x y : Float} (hx : a[i]? = some x) (hy : f[i]? = some y)
    (hxy : x.isFinite = false ∨ y.isFinite = false)
    (hpassed : (compare name a f config).passed = true) :
    (config.tolerance f).isInf = true
      ∨ ((Scalar.abs (x - y)).isNaN = true ∧ IsMasked (errors a f) i) := by
  obtain ⟨-, -, hwithin⟩ := (passed_compare_iff_isWithin name a f config).mp hpassed
  exact isInf_or_isMasked_of_isWithin hx hy hxy hwithin

/-- An undefined entry behind a rounding error, and an infinite difference quotient: both pass. -/
theorem isInf_or_isMasked_of_passed_sample :
    ((compare "" [1.000001, 0 / 0] [(1 : Float), 1] .standard).passed = true
        ∧ ((CheckConfig.standard.tolerance [(1 : Float), 1]).isInf = true
          ∨ (Scalar.abs ((0 : Float) / 0 - 1)).isNaN = true
            ∧ IsMasked (errors [1.000001, 0 / 0] [(1 : Float), 1]) 1))
      ∧ (compare "" [1] [(1 : Float) / 0] .standard).passed = true
        ∧ ((CheckConfig.standard.tolerance [(1 : Float) / 0]).isInf = true
          ∨ (Scalar.abs ((1 : Float) - 1 / 0)).isNaN = true
            ∧ IsMasked (errors [1] [(1 : Float) / 0]) 0) := by
  have hmasked : (compare "" [1.000001, 0 / 0] [(1 : Float), 1] .standard).passed = true := by
    decide +kernel
  have hinfinite : (compare "" [1] [(1 : Float) / 0] .standard).passed = true := by
    decide +kernel
  exact ⟨⟨hmasked, isInf_or_isMasked_of_passed "" (i := 1) rfl rfl (Or.inl (by decide +kernel))
      hmasked⟩,
    hinfinite, isInf_or_isMasked_of_passed "" (i := 0) rfl rfl (Or.inr (by decide +kernel))
      hinfinite⟩

/-- **Not every comparison fails whose vectors are not finite**, though its tolerances are. -/
theorem not_forall_passed_eq_false :
    ¬ ∀ (name : String) (a f : List Float) (config : CheckConfig Float),
      config.rtol.isFinite = true → 0 ≤ config.rtol → config.atol.isFinite = true →
        0 ≤ config.atol → ∀ (i : ℕ) (x y : Float), a[i]? = some x → f[i]? = some y →
          x.isFinite = false ∨ y.isFinite = false → (compare name a f config).passed = false := by
  intro h
  have hpassed : (compare "" [1.000001, 0 / 0] [(1 : Float), 1] .standard).passed = true := by
    decide +kernel
  have hfailed := h "" [1.000001, 0 / 0] [1, 1] .standard (by decide +kernel) (by decide +kernel)
    (by decide +kernel) (by decide +kernel) 1 (0 / 0) 1 rfl rfl (Or.inl (by decide +kernel))
  rw [hpassed] at hfailed
  cases hfailed

end CheckResult

end WeakForm
