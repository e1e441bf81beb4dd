import WeakForm.Batch
import WeakForm.Proofs.AdjointProduct

/-!
# Sums of adjoint products

The adjoint products of many samples are summed in pieces. Pieces are worked on side by side, and
when one fails, others need not be finished: so there is no telling which error comes out, and all
that may come out is collected in a relation (`Split.Outcome`). **Whatever comes out, a sum is the
one in the order of the samples, and an error is that of a sample** (`HasAdjointSum`).

This rests on what one step of a sum does: a sample adds an amount to the sensitivity of the
thickness that does not depend on what is there already, or it fails, and whether it does and with
which error does not depend on it either (`AddsToThickness`).
-/

namespace WeakForm

open ElementModel

/-! ## Outcomes -/

section Outcomes

variable {α M : Type} [Scalar α] [ElementModel M α]

/-- **What may come out of a split.** A piece is summed from zeros, in order and up to its first
error. If one side of a join fails, the other does not matter. -/
inductive Split.Outcome (n : ℕ) (model : M) (scale : α) :
    Split (AdjointSample α) → Except (ModelError α) (Vector α n) → Prop
  | idle : Outcome n model scale .idle (.ok (Vector.replicate n 0))
  | piece (samples : List (AdjointSample α)) :
    Outcome n model scale (.piece samples) (sumAdjoint n model scale samples)
  | join {left right : Split (AdjointSample α)} {a b : Vector α n} :
    Outcome n model scale left (.ok a) → Outcome n model scale right (.ok b) →
      Outcome n model scale (.join left right) (.ok (Vector.zipWith (· + ·) a b))
  | left {left right : Split (AdjointSample α)} {e : ModelError α} :
    Outcome n model scale left (.error e) → Outcome n model scale (.join left right) (.error e)
  | right {left right : Split (AdjointSample α)} {e : ModelError α} :
    Outcome n model scale right (.error e) → Outcome n model scale (.join left right) (.error e)

/-- The same for sensitivities of as many design variables as the samples share. -/
inductive Split.SumOutcome (model : M) (split : Split (AdjointSample α)) (scale : α) :
    Except (ModelError α) (List α) → Prop
  | unknown {e : ModelError α} : sharedDesignVarCount model split.items = .error e →
    SumOutcome model split scale (.error e)
  | known {n : ℕ} {outcome : Except (ModelError α) (Vector α n)} :
    sharedDesignVarCount model split.items = .ok n → split.Outcome n model scale outcome →
      SumOutcome model split scale (outcome.map Vector.toList)

/-- Summing the pieces from left to right is one way to come out. -/
theorem Split.outcome_sumAdjointBy (n : ℕ) (model : M) (scale : α)
    (split : Split (AdjointSample α)) :
    split.Outcome n model scale (sumAdjointBy n model scale split) := by
  induction split with
  | idle => exact .idle
  | piece samples => exact .piece samples
  | join left right ihl ihr =>
    unfold sumAdjointBy
    cases hl : sumAdjointBy n model scale left with
    | error e =>
      rw [hl] at ihl
      exact .left ihl
    | ok a =>
      rw [hl] at ihl
      cases hr : sumAdjointBy n model scale right with
      | error e =>
        rw [hr] at ihr
        exact .right ihr
      | ok b =>
        rw [hr] at ihr
        exact .join ihl ihr

theorem Split.sumOutcome_weakAdjointSumBy (model : M) (split : Split (AdjointSample α))
    (scale : α) : split.SumOutcome model scale (weakAdjointSumBy model split scale) := by
  unfold weakAdjointSumBy
  cases hn : sharedDesignVarCount model split.items with
  | error e => exact .unknown hn
  | ok n =>
    have h := SumOutcome.known hn (split.outcome_sumAdjointBy n model scale)
    cases hsum : sumAdjointBy n model scale split with
    | error e =>
      rw [hsum] at h
      rw [except_ok_bind, hsum]
      exact h
    | ok sum =>
      rw [hsum] at h
      rw [except_ok_bind, hsum]
      exact h

end Outcomes

/-! ## Loops -/

section Loops

variable {ε β γ : Type} {f : β → Except ε γ}

/-- The results of a loop are those of its items, each in its place. -/
theorem mapM_eq_ok_iff {items : List β} {results : List γ} :
    items.mapM f = .ok results ↔ List.Forall₂ (fun item r => f item = .ok r) items results := by
  induction items generalizing results with
  | nil =>
    rw [List.forall₂_nil_left_iff]
    exact ⟨fun h => (Except.ok.inj h).symm, fun h => congrArg Except.ok h.symm⟩
  | cons item items ih =>
    rw [List.mapM_cons]
    constructor
    · intro h
      obtain ⟨r, hr, h⟩ := exists_of_except_bind_ok h
      obtain ⟨rs, hrs, h⟩ := exists_of_except_bind_ok h
      cases h
      exact .cons hr (ih.mp hrs)
    · intro h
      obtain ⟨r, rs, hr, hrs, rfl⟩ := List.forall₂_cons_left_iff.mp h
      rw [hr, except_ok_bind, ih.mpr hrs]
      rfl

/-- A loop over items in another order has the same results in another order. -/
theorem exists_mapM_of_perm {items items' : List β} {results : List γ} (h : items'.Perm items)
    (hresults : items.mapM f = .ok results) :
    ∃ results', items'.mapM f = .ok results' ∧ results'.Perm results := by
  obtain ⟨results', hresults', hperm⟩ :=
    List.perm_comp_forall₂ h (mapM_eq_ok_iff.mp hresults)
  exact ⟨results', mapM_eq_ok_iff.mpr hresults', hperm⟩

/-- A loop over items in sequence. -/
theorem mapM_append_of_ok {items items' : List β} {results results' : List γ}
    (h : items.mapM f = .ok results) (h' : items'.mapM f = .ok results') :
    (items ++ items').mapM f = .ok (results ++ results') :=
  mapM_eq_ok_iff.mpr (List.rel_append (mapM_eq_ok_iff.mp h) (mapM_eq_ok_iff.mp h'))

/-- The error of a loop is that of an item. -/
theorem exists_of_mapM_error {items : List β} {e : ε} (h : items.mapM f = .error e) :
    ∃ item ∈ items, f item = .error e := by
  induction items with
  | nil => cases h
  | cons item items ih =>
    rw [List.mapM_cons] at h
    cases hitem : f item with
    | error e' =>
      rw [hitem] at h
      cases h
      exact ⟨item, List.mem_cons_self, hitem⟩
    | ok r =>
      rw [hitem, except_ok_bind] at h
      cases hitems : items.mapM f with
      | ok rs =>
        rw [hitems] at h
        cases h
      | error e' =>
        rw [hitems] at h
        cases h
        obtain ⟨i, hi, hf⟩ := ih hitems
        exact ⟨i, List.mem_cons_of_mem _ hi, hf⟩

/-- No item of a loop that succeeds fails. -/
theorem ne_error_of_mapM_ok {items : List β} {results : List γ} (h : items.mapM f = .ok results)
    {item : β} (hitem : item ∈ items) (e : ε) : f item ≠ .error e := by
  have hall := mapM_eq_ok_iff.mp h
  clear h
  induction hall with
  | nil => cases hitem
  | cons hf _ ih =>
    rcases List.mem_cons.mp hitem with rfl | hitem
    · rw [hf]
      exact fun h => nomatch h
    · exact ih hitem

end Loops

/-! ## One sample -/

section Sample

variable [Waves] {M : Type} [ElementModel M ℝ]

/-- **The adjoint product of a sample on its own**: what it adds to a single sensitivity, at unit
scale and weight. -/
noncomputable def AdjointSample.product (model : M) (a : AdjointSample ℝ) :
    Except (ModelError ℝ) ℝ := do
  let sens ← Evaluation.fill (Vector.replicate 1 (0 : ℝ))
    (addWeakAdjoint model a.sample.point a.psi a.psix 1)
  return sens.get (Fin.last 0)

/-- What a sample contributes to a sum. -/
noncomputable def AdjointSample.contribution (model : M) (scale : ℝ) (a : AdjointSample ℝ) :
    Except (ModelError ℝ) ℝ :=
  (a.product model).map (scale * a.sample.weight * ·)

/-- **A model that adds to the thickness of a solid**: it has as many design variables as the solid,
and what it does with a sample does not depend on the buffer. -/
structure ElementModel.AddsToThickness (model : M) (s : Solid ℝ) : Prop where
  designVarCount_eq : ∀ elem,
    designVarCount model elem = .ok (if s.designVar.isSome then 1 else 0)
  addWeakAdjoint_cases : ∀ p psi psix,
    (∃ e, ∀ scale n (b : Vector ℝ n), addWeakAdjoint model p psi psix scale b = .error e b)
      ∨ ∃ amount, ∀ scale n (b : Vector ℝ n), s.HasPlace n →
        addWeakAdjoint model p psi psix scale b = .ok () (s.accumulate (scale * amount) b)

variable {model : M} {s : Solid ℝ} {n : ℕ}

/-- **A step of a sum** adds the contribution of a sample, whatever has been summed before, or fails
with the error that the sample has on its own. -/
theorem ElementModel.AddsToThickness.addSampleAdjoint_eq (h : AddsToThickness model s)
    (hn : s.HasPlace n) (scale : ℝ) (b : Vector ℝ n) (a : AdjointSample ℝ) :
    addSampleAdjoint model scale b a
      = (a.contribution model scale).map fun amount => s.accumulate amount b := by
  unfold addSampleAdjoint AdjointSample.contribution AdjointSample.product
  obtain ⟨e, he⟩ | ⟨amount, hamount⟩ :=
    h.addWeakAdjoint_cases a.sample.point a.psi a.psix
  · rw [fill_of_error (he _ n b), fill_of_error (he _ 1 _)]
    rfl
  · rw [fill_of_ok (hamount _ n b hn), fill_of_ok (hamount _ 1 _ fun _ => le_rfl)]
    cases hs : s.designVar with
    | none =>
      rw [Solid.accumulate_of_none hs]
      refine congrArg Except.ok ?_
      exact (Solid.accumulate_of_none hs _ b).symm
    | some index =>
      rw [Solid.accumulate_of_some hs, Solid.addFirst_zero, one_mul]
      rfl

/-- **A sum in order** accumulates the contributions. -/
theorem ElementModel.AddsToThickness.foldlM_addSampleAdjoint (h : AddsToThickness model s)
    (scale : ℝ) (samples : List (AdjointSample ℝ)) (hn : samples ≠ [] → s.HasPlace n)
    (b : Vector ℝ n) :
    samples.foldlM (addSampleAdjoint model scale) b
      = (samples.mapM (AdjointSample.contribution model scale)).map
        fun amounts => s.accumulate amounts.sum b := by
  induction samples generalizing b with
  | nil => exact congrArg Except.ok (Solid.accumulate_zero b).symm
  | cons a samples ih =>
    have hplace : s.HasPlace n := hn (List.cons_ne_nil a samples)
    rw [List.foldlM_cons, List.mapM_cons, h.addSampleAdjoint_eq hplace]
    cases a.contribution model scale with
    | error e => rfl
    | ok amount =>
      simp only [Except.map, except_ok_bind]
      rw [ih fun _ => hplace]
      cases samples.mapM (AdjointSample.contribution model scale) with
      | error e => rfl
      | ok amounts =>
        refine congrArg Except.ok ((Solid.accumulate_accumulate amount amounts.sum b).trans ?_)
        rw [List.sum_cons]

end Sample

/-! ## All samples -/

section Samples

variable [Waves] {M : Type} [ElementModel M ℝ] {model : M} {s : Solid ℝ} {n : ℕ} {scale : ℝ}
  {split : Split (AdjointSample ℝ)}

omit [Waves] in
/-- A contribution fails with the error of the product. -/
theorem AdjointSample.product_of_contribution {a : AdjointSample ℝ} {e : ModelError ℝ}
    (h : a.contribution model scale = .error e) : a.product model = .error e := by
  unfold contribution at h
  cases hproduct : a.product model with
  | ok amount =>
    rw [hproduct] at h
    cases h
  | error e' =>
    rw [hproduct] at h
    exact h

omit [Waves] in
/-- Sums of pieces add up, entry by entry. -/
theorem Solid.zipWith_accumulate (s : Solid ℝ) (first second : ℝ) :
    Vector.zipWith (· + ·) (s.accumulate first (Vector.replicate n 0))
        (s.accumulate second (Vector.replicate n 0))
      = s.accumulate (first + second) (Vector.replicate n 0) := by
  cases hs : s.designVar with
  | none =>
    rw [accumulate_of_none hs, accumulate_of_none hs, accumulate_of_none hs]
    refine Vector.ext fun i hi => ?_
    simp
  | some index =>
    cases n with
    | zero => exact Vector.ext fun i hi => absurd hi (Nat.not_lt_zero i)
    | succ n =>
      rw [accumulate_of_some hs, accumulate_of_some hs, accumulate_of_some hs]
      refine Vector.ext fun i hi => ?_
      simp only [addFirst, Vector.getElem_zipWith, Vector.getElem_set]
      by_cases h0 : 0 = i
      · simp [h0]
      · simp [h0]

/-- What may come out for samples: the accumulated contributions of all of them, or the error of one
of them. -/
def ElementModel.Accounts (model : M) (s : Solid ℝ) (scale : ℝ)
    (samples : List (AdjointSample ℝ)) : Except (ModelError ℝ) (Vector ℝ n) → Prop
  | .ok sum => ∃ amounts, samples.mapM (AdjointSample.contribution model scale) = .ok amounts
      ∧ sum = s.accumulate amounts.sum (Vector.replicate n 0)
  | .error e => ∃ a ∈ samples, a.contribution model scale = .error e

/-- **All outcomes of a split account for its items.** -/
theorem Split.Outcome.accounts (h : AddsToThickness model s)
    {outcome : Except (ModelError ℝ) (Vector ℝ n)}
    (houtcome : split.Outcome n model scale outcome) (hn : split.items ≠ [] → s.HasPlace n) :
    Accounts model s scale split.items outcome := by
  induction houtcome with
  | idle => exact ⟨[], rfl, (Solid.accumulate_zero _).symm⟩
  | piece samples =>
    unfold sumAdjoint
    rw [h.foldlM_addSampleAdjoint scale samples hn]
    cases hsamples : samples.mapM (AdjointSample.contribution model scale) with
    | ok amounts => exact ⟨amounts, hsamples, rfl⟩
    | error e => exact exists_of_mapM_error hsamples
  | join _ _ ihl ihr =>
    obtain ⟨amounts, hamounts, rfl⟩ := ihl fun hne => hn (List.append_ne_nil_of_left_ne_nil hne _)
    obtain ⟨amounts', hamounts', rfl⟩ :=
      ihr fun hne => hn (List.append_ne_nil_of_right_ne_nil _ hne)
    refine ⟨amounts ++ amounts', mapM_append_of_ok hamounts hamounts', ?_⟩
    rw [Solid.zipWith_accumulate, List.sum_append]
  | left _ ih =>
    obtain ⟨a, ha, he⟩ := ih fun hne => hn (List.append_ne_nil_of_left_ne_nil hne _)
    exact ⟨a, List.mem_append_left _ ha, he⟩
  | right _ ih =>
    obtain ⟨a, ha, he⟩ := ih fun hne => hn (List.append_ne_nil_of_right_ne_nil _ hne)
    exact ⟨a, List.mem_append_right _ ha, he⟩

/-- The sensitivities that samples have in common: that of the thickness, if it is a design
variable and there is a sample at all. -/
def Solid.sensitivities {β : Type} (s : Solid ℝ) (samples : List β) (sum : ℝ) : List ℝ :=
  match samples, s.designVar with
  | _ :: _, some _ => [sum]
  | _, _ => []

omit [Waves] in
/-- The order of the samples does not matter. -/
theorem Solid.sensitivities_perm {β : Type} (s : Solid ℝ) {samples samples' : List β}
    (h : samples.Perm samples') (sum : ℝ) :
    s.sensitivities samples sum = s.sensitivities samples' sum := by
  cases samples with
  | nil => rw [List.nil_perm.mp h]
  | cons a samples =>
    cases samples' with
    | nil => cases List.perm_nil.mp h
    | cons a' samples' =>
      unfold sensitivities
      cases s.designVar <;> rfl

omit [Waves] in
/-- Samples have a place for the thickness in common, if it needs one. -/
theorem ElementModel.AddsToThickness.exists_sharedDesignVarCount (h : AddsToThickness model s)
    (samples : List (AdjointSample ℝ)) :
    ∃ n, sharedDesignVarCount model samples = .ok n ∧ (samples ≠ [] → s.HasPlace n)
      ∧ ∀ sum, (s.accumulate sum (Vector.replicate n 0)).toList = s.sensitivities samples sum := by
  cases samples with
  | nil => exact ⟨0, rfl, fun hne => absurd rfl hne, fun sum => rfl⟩
  | cons a samples =>
    refine ⟨_, h.designVarCount_eq _, fun _ hsome => ?_, fun sum => ?_⟩
    · rw [if_pos hsome]
    · cases hs : s.designVar with
      | none =>
        rw [Solid.accumulate_of_none hs]
        simp [Solid.sensitivities, hs]
      | some index =>
        show (s.accumulate sum (Vector.replicate 1 0)).toList = _
        rw [Solid.accumulate_of_some hs, Solid.addFirst_zero]
        simp [Solid.sensitivities, hs]

/-- **What comes out for sensitivities**: the sum of the contributions of all samples, or the error
of one of them. -/
theorem Split.SumOutcome.cases_of_addsToThickness (h : AddsToThickness model s)
    {result : Except (ModelError ℝ) (List ℝ)} (hresult : split.SumOutcome model scale result) :
    (∃ amounts, split.items.mapM (AdjointSample.contribution model scale) = .ok amounts
        ∧ result = .ok (s.sensitivities split.items amounts.sum))
      ∨ ∃ e, ∃ a ∈ split.items, a.contribution model scale = .error e ∧ result = .error e := by
  obtain ⟨n, hn, hplace, hlist⟩ := h.exists_sharedDesignVarCount split.items
  cases hresult with
  | unknown he =>
    rw [hn] at he
    cases he
  | @known m outcome hm houtcome =>
    obtain rfl : n = m := Except.ok.inj (hn.symm.trans hm)
    have haccounts := houtcome.accounts h hplace
    cases outcome with
    | ok sum =>
      obtain ⟨amounts, hamounts, rfl⟩ := haccounts
      exact Or.inl ⟨amounts, hamounts, congrArg Except.ok (hlist _)⟩
    | error e =>
      obtain ⟨a, ha, he⟩ := haccounts
      exact Or.inr ⟨e, a, ha, he, rfl⟩

/-- The sum in order of the samples. -/
theorem ElementModel.AddsToThickness.weakAdjointSum_eq (h : AddsToThickness model s)
    (samples : List (AdjointSample ℝ)) (scale : ℝ) :
    weakAdjointSum model samples scale
      = (samples.mapM (AdjointSample.contribution model scale)).map
        fun amounts => s.sensitivities samples amounts.sum := by
  obtain ⟨n, hn, hplace, hlist⟩ := h.exists_sharedDesignVarCount samples
  unfold weakAdjointSum sumAdjoint
  rw [hn, except_ok_bind, h.foldlM_addSampleAdjoint scale samples hplace]
  cases samples.mapM (AdjointSample.contribution model scale) with
  | error e => rfl
  | ok amounts => exact congrArg Except.ok (hlist _)

/-- **The sums of adjoint products of a model that is made of a solid.** -/
structure ElementModel.HasAdjointSum (model : M) (s : Solid ℝ) : Prop where
  /-- In the order of the samples, the contributions are summed; the first sample that fails stops
  the sum. -/
  weakAdjointSum_eq : ∀ (samples : List (AdjointSample ℝ)) (scale : ℝ),
    weakAdjointSum model samples scale
      = (samples.mapM (AdjointSample.contribution model scale)).map
        fun amounts => s.sensitivities samples amounts.sum
  /-- The order does not matter to the sum. -/
  perm : ∀ samples samples' : List (AdjointSample ℝ), samples.Perm samples' →
    ∀ (scale : ℝ) (sum : List ℝ),
      weakAdjointSum model samples scale = .ok sum ↔ weakAdjointSum model samples' scale = .ok sum
  /-- In pieces, there is a sum if there is one in order, and then it is the same. -/
  eq_ok_iff : ∀ (split : Split (AdjointSample ℝ)) (scale : ℝ)
    (result : Except (ModelError ℝ) (List ℝ)), split.SumOutcome model scale result →
      ∀ sum, result = .ok sum ↔ weakAdjointSum model split.items scale = .ok sum
  /-- An error is the one that some sample has on its own. -/
  exists_of_error : ∀ (split : Split (AdjointSample ℝ)) (scale : ℝ) (e : ModelError ℝ),
    split.SumOutcome model scale (.error e) → ∃ a ∈ split.items, a.product model = .error e
  /-- Summing the pieces from left to right is one way to come out. -/
  sumOutcome : ∀ (split : Split (AdjointSample ℝ)) (scale : ℝ),
    split.SumOutcome model scale (weakAdjointSumBy model split scale)

/-- **A model that adds to the thickness has such sums.** -/
theorem ElementModel.AddsToThickness.hasAdjointSum (h : AddsToThickness model s) :
    HasAdjointSum model s where
  weakAdjointSum_eq := h.weakAdjointSum_eq
  perm := by
    have himp : ∀ {samples samples' : List (AdjointSample ℝ)}, samples'.Perm samples →
        ∀ {scale : ℝ} {sum : List ℝ}, weakAdjointSum model samples scale = .ok sum →
          weakAdjointSum model samples' scale = .ok sum := by
      intro samples samples' hperm scale sum hsum
      rw [h.weakAdjointSum_eq] at hsum ⊢
      cases hamounts : samples.mapM (AdjointSample.contribution model scale) with
      | error e =>
        rw [hamounts] at hsum
        cases hsum
      | ok amounts =>
        obtain ⟨amounts', hamounts', hamount⟩ := exists_mapM_of_perm hperm hamounts
        rw [hamounts] at hsum
        rw [hamounts', ← hsum]
        refine congrArg Except.ok ?_
        show s.sensitivities samples' amounts'.sum = s.sensitivities samples amounts.sum
        rw [hamount.sum_eq, s.sensitivities_perm hperm]
    exact fun samples samples' hperm scale sum => ⟨himp hperm.symm, himp hperm⟩
  eq_ok_iff := by
    intro split scale result hresult sum
    rw [h.weakAdjointSum_eq]
    obtain ⟨amounts, hamounts, rfl⟩ | ⟨e, a, ha, he, rfl⟩ := hresult.cases_of_addsToThickness h
    · rw [hamounts]
      rfl
    · constructor
      · intro hsum
        cases hsum
      · intro hsum
        cases hamounts : split.items.mapM (AdjointSample.contribution model scale) with
        | ok amounts => exact absurd he (ne_error_of_mapM_ok hamounts ha e)
        | error e' =>
          rw [hamounts] at hsum
          cases hsum
  exists_of_error := by
    intro split scale e hresult
    obtain ⟨amounts, _, hsum⟩ | ⟨e', a, ha, he, herror⟩ := hresult.cases_of_addsToThickness h
    · cases hsum
    · cases herror
      exact ⟨a, ha, AdjointSample.product_of_contribution he⟩
  sumOutcome := fun split scale => split.sumOutcome_weakAdjointSumBy model scale

end Samples

/-! ## Solids -/

/-- **A model that looks at its arguments first** and then adds: what it reports, it reports whatever
the buffer. -/
theorem ElementModel.addWeakAdjoint_cases_of_checks {M : Type} [ElementModel M ℝ] {model : M}
    {s : Solid ℝ} {d : Dims}
    {add : Point ℝ → Array ℝ → PointData d ℝ → AdjointData d ℝ → ℝ → (n : ℕ) →
      Evaluation ℝ (Vector ℝ n) Unit}
    (hchecks : ∀ p psi psix scale n (b : Vector ℝ n),
      addWeakAdjoint model p psi psix scale b = (do
        let data ← d.checkPoint p
        let adjoint ← d.checkAdjoint psi psix
        add p psix data adjoint scale n : Evaluation ℝ (Vector ℝ n) Unit) b)
    (hadds : ∀ (place : Point ℝ) (data : PointData d ℝ) (a : AdjointData d ℝ),
      ∃ amount, ∀ scale n (b : Vector ℝ n), s.HasPlace n →
        addWeakAdjoint model (data.pointAt place) a.psi.toArray a.psix.toArray scale b
          = .ok () (s.accumulate (scale * amount) b))
    (p : Point ℝ) (psi psix : Array ℝ) :
    (∃ e, ∀ scale n (b : Vector ℝ n), addWeakAdjoint model p psi psix scale b = .error e b)
      ∨ ∃ amount, ∀ scale n (b : Vector ℝ n), s.HasPlace n →
        addWeakAdjoint model p psi psix scale b = .ok () (s.accumulate (scale * amount) b) := by
  obtain ⟨fault, hpoint⟩ | ⟨place, data, rfl⟩ := d.checkPoint_cases p
  · refine Or.inl ⟨.length fault, fun scale n b => ?_⟩
    simp only [hchecks, hpoint, liftM_length_error, throw_bind_apply]
  obtain ⟨fault, hadjoint⟩ | ⟨a, rfl, rfl⟩ := d.checkAdjoint_cases psi psix
  · refine Or.inl ⟨.length fault, fun scale n b => ?_⟩
    simp only [hchecks, PointData.checkPoint_pointAt, hadjoint, liftM_length_ok,
      liftM_length_error, pure_bind_apply, throw_bind_apply]
  · exact Or.inr (hadds place data a)

variable [Waves] (s : Solid ℝ)

/-- Elasticity adds to the thickness of its solid. -/
theorem Elasticity.addsToThickness (thermalLoad : ℝ) :
    AddsToThickness (⟨s, thermalLoad⟩ : Elasticity (Solid ℝ) ℝ) s where
  designVarCount_eq := by
    intro elem
    obtain ⟨material, t, designVar, lower, upper⟩ := s
    cases designVar <;> rfl
  addWeakAdjoint_cases := addWeakAdjoint_cases_of_checks (fun _ _ _ _ _ _ => rfl)
    fun place data a =>
      ⟨_, fun scale _ b hn => addWeakAdjoint_apply thermalLoad hn data place a scale b⟩

/-- Conduction adds to the thickness of its solid. -/
theorem Conductor.addsToThickness : AddsToThickness (⟨s⟩ : Conductor (Solid ℝ)) s where
  designVarCount_eq := by
    intro elem
    obtain ⟨material, t, designVar, lower, upper⟩ := s
    cases designVar <;> rfl
  addWeakAdjoint_cases := addWeakAdjoint_cases_of_checks (fun _ _ _ _ _ _ => rfl)
    fun place data a => ⟨_, fun scale _ b hn => addWeakAdjoint_apply hn data place a scale b⟩

/-- **Adjoint products can be summed in any pieces**, for both kinds of physics and every solid:
what comes out is the sum in order, or the error of a sample. -/
theorem hasAdjointSum_solid (s : Solid ℝ) :
    (∀ thermalLoad : ℝ, HasAdjointSum (⟨s, thermalLoad⟩ : Elasticity (Solid ℝ) ℝ) s)
      ∧ HasAdjointSum (⟨s⟩ : Conductor (Solid ℝ)) s :=
  ⟨fun thermalLoad => (Elasticity.addsToThickness s thermalLoad).hasAdjointSum,
    (Conductor.addsToThickness s).hasAdjointSum⟩

end WeakForm
