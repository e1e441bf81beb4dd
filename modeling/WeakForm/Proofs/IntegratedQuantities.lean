import WeakForm.Proofs.AdjointSums
import WeakForm.Proofs.ElementChecks

/-!
# Integrals of quantities

The integral of a quantity over samples is the sum of its values with the weights of the samples,
component by component. A sum has as many components as the first sample has values, and adding the
values of a sample to a sum stops where one of them ends: so **nothing is lost only because all
samples of a model have the same number of values**. That is what comes first here: whatever the
law, a model evaluates as many values of a quantity as the quantity has components
(`QuantityTag.numComponents`), or none of them, and what it evaluates depends on the point alone,
not on the buffer (`IsDefinite`).

So an integral is a sum of vectors, one for each sample (`integrateQuantity_eq_ok_iff`). Integrals
of samples in sequence add up, and the order of samples does not matter (`ElementModel.AddsUp`).
-/

namespace WeakForm

open ElementModel

/-- The number of values of a quantity. -/
def QuantityTag.numComponents (tag : QuantityTag) : ℕ := if tag = .heatFlux then 2 else 1

theorem QuantityTag.numComponents_le_maxLength (tag : QuantityTag) :
    tag.numComponents ≤ maxLength := by
  unfold numComponents
  split <;> decide

/-! ## What a point determines -/

section Definite

variable {α M : Type} [Scalar α] [ElementModel M α]

namespace ElementModel

/-- The coefficients that are written at a point, whatever the buffers hold. -/
def HasCoefficients (model : M) (p : Point α)
    (values : Coefficients α (dims model).utLen (dims model).uxLen) : Prop :=
  ∀ buffers, weakIntegrand model p buffers = .ok () values

/-- The error that comes in their place. -/
def RefusesCoefficients (model : M) (p : Point α) (e : ModelError α) : Prop :=
  ∀ buffers : Coefficients α (dims model).utLen (dims model).uxLen,
    ∃ after, weakIntegrand model p buffers = .error e after

/-- **The values of a quantity that are written at a point**, one for each component, into any
buffer that has room for them. -/
def HasValues (model : M) (tag : QuantityTag) (p : Point α) (values : List α) : Prop :=
  ∀ (xd : Array α) (n : ℕ) (buffer : Vector α n), tag.numComponents ≤ n →
    ∃ filled, quantity model tag p xd buffer = .ok tag.numComponents filled
      ∧ filled.toList.take tag.numComponents = values

/-- The error that comes in their place. -/
def RefusesValues (model : M) (tag : QuantityTag) (p : Point α) (e : ModelError α) : Prop :=
  ∀ (xd : Array α) (n : ℕ) (buffer : Vector α n), tag.numComponents ≤ n →
    ∃ after, quantity model tag p xd buffer = .error e after

/-- **A model whose answers depend on the point alone**, not on buffers: at a well-formed point it
has coefficients and the values of the quantities with the given tags, and nothing else is answered
anywhere. -/
structure IsDefinite (model : M) (tags : List QuantityTag) : Prop where
  hasCoefficients : ∀ (place : Point α) (data : PointData (dims model) α),
    ∃ values, HasCoefficients model (data.pointAt place) values
  refusesCoefficients : ∀ p fault, (dims model).checkPoint p = .error fault →
    RefusesCoefficients model p (.length fault)
  hasValues : ∀ tag ∈ tags, ∀ (place : Point α) (data : PointData (dims model) α),
    ∃ values, HasValues model tag (data.pointAt place) values
  refusesValues : ∀ tag p fault, (dims model).checkPoint p = .error fault →
    RefusesValues model tag p (.length fault)
  refusesUnknown : ∀ tag ∉ tags, ∀ (place : Point α) (data : PointData (dims model) α),
    RefusesValues model tag (data.pointAt place) (.unsupportedQuantity tag)

variable {model : M} {tag : QuantityTag} {p : Point α}

/-- There is one value for each component. -/
theorem HasValues.length_eq {values : List α} (h : HasValues model tag p values) :
    values.length = tag.numComponents := by
  obtain ⟨filled, -, rfl⟩ := h #[] _ (Vector.replicate _ 0) le_rfl
  simp

theorem HasValues.exists_ofFn {values : List α} (h : HasValues model tag p values) :
    ∃ v : Fin tag.numComponents → α, values = List.ofFn v := by
  have hlength := h.length_eq
  clear h
  generalize tag.numComponents = n at hlength ⊢
  subst hlength
  exact ⟨values.get, (List.ofFn_get values).symm⟩

theorem HasCoefficients.coefficients_eq
    {values : Coefficients α (dims model).utLen (dims model).uxLen}
    (h : HasCoefficients model p values) : coefficients model p = .ok values :=
  fill_of_ok (h _)

theorem RefusesCoefficients.coefficients_eq {e : ModelError α}
    (h : RefusesCoefficients model p e) : coefficients model p = .error e := by
  obtain ⟨after, h⟩ := h (.zero _ _)
  exact fill_of_error h

theorem HasValues.quantityValues_eq {values : List α} (h : HasValues model tag p values)
    (xd : Array α) : quantityValues model tag p xd = .ok values := by
  obtain ⟨filled, hrun, htake⟩ := h xd _ _ tag.numComponents_le_maxLength
  rw [quantityValues_of_written hrun, htake]

theorem RefusesValues.quantityValues_eq {e : ModelError α} (h : RefusesValues model tag p e)
    (xd : Array α) : quantityValues model tag p xd = .error e := by
  obtain ⟨after, hrun⟩ := h xd _ _ tag.numComponents_le_maxLength
  exact quantityValues_of_error hrun

variable {tags : List QuantityTag}

omit [Scalar α] in
theorem IsDefinite.coefficients_cases (h : IsDefinite model tags) (p : Point α) :
    (∃ values, HasCoefficients model p values) ∨ ∃ e, RefusesCoefficients model p e := by
  obtain ⟨fault, hpoint⟩ | ⟨place, data, rfl⟩ := (dims model).checkPoint_cases p
  · exact Or.inr ⟨_, h.refusesCoefficients p fault hpoint⟩
  · exact Or.inl (h.hasCoefficients place data)

omit [Scalar α] in
theorem IsDefinite.values_cases (h : IsDefinite model tags) (tag : QuantityTag) (p : Point α) :
    (∃ values, HasValues model tag p values) ∨ ∃ e, RefusesValues model tag p e := by
  obtain ⟨fault, hpoint⟩ | ⟨place, data, rfl⟩ := (dims model).checkPoint_cases p
  · exact Or.inr ⟨_, h.refusesValues tag p fault hpoint⟩
  by_cases htag : tag ∈ tags
  · exact Or.inl (h.hasValues tag htag place data)
  · exact Or.inr ⟨_, h.refusesUnknown tag htag place data⟩

end ElementModel

end Definite

/-! ## Elasticity and conduction -/

section Models

variable {α : Type} [Scalar α]

/-- The first value of a buffer that has been written to. -/
theorem take_one_set_zero {β : Type} {n : ℕ} (buffer : Vector β n) (value : β) (h : 0 < n) :
    (buffer.set 0 value h).toList.take 1 = [value] := by
  have hlength : 0 < buffer.toList.length := by simpa using h
  obtain ⟨old, rest, hbuffer⟩ := List.exists_cons_of_length_pos hlength
  rw [Vector.toList_set, hbuffer]
  rfl

/-- **Elasticity is definite**, with one value for each of its quantities. -/
theorem Elasticity.isDefinite (e : Elasticity (Solid α) α) : IsDefinite e tags where
  hasCoefficients := by
    intro place data
    obtain ⟨strain, hstrain⟩ := e.exists_mechanicalStrain (data.pointAt place).site data.ux
    obtain ⟨stress, hstress⟩ := e.exists_resultantStress (data.pointAt place).site strain
    obtain ⟨⟨⟩, values, hzero, -⟩ := e.succeeds_weakIntegrand place data (.zero _ _)
    refine ⟨values, fun (buffers : Coefficients α dims.utLen dims.uxLen) => ?_⟩
    rw [← hzero]
    show weakIntegrand e (data.pointAt place) buffers = _
    unfold weakIntegrand
    simp only [PointData.checkPoint_pointAt, Dims.checkCoefficients_self, liftM_length_ok,
      pure_bind_apply, modify_bind_apply, hstrain, hstress, liftM_ok]
    rfl
  refusesCoefficients := by
    intro p fault hpoint buffers
    refine ⟨buffers, ?_⟩
    show weakIntegrand e p buffers = _
    unfold weakIntegrand
    rw [show dims.checkPoint p = .error fault from hpoint]
    rfl
  hasValues := by
    intro tag htag place data
    obtain ⟨value, hvalue⟩ := e.exists_quantityValue data htag (data.pointAt place).site
    have hcount : tag.numComponents = 1 := by
      simp only [tags, List.mem_cons, List.not_mem_nil, or_false] at htag
      obtain rfl | rfl | rfl := htag <;> rfl
    refine ⟨[value], fun xd n buffer hn => ?_⟩
    rw [hcount] at hn ⊢
    refine ⟨buffer.set 0 value hn, ?_, take_one_set_zero buffer value hn⟩
    show quantity e tag (data.pointAt place) buffer = _
    unfold quantity
    simp only [PointData.checkPoint_pointAt, liftM_length_ok, pure_bind_apply, hvalue, liftM_ok,
      lengthAtLeast_of_le hn]
    rfl
  refusesValues := by
    intro tag p fault hpoint xd n buffer hn
    refine ⟨buffer, ?_⟩
    show quantity e tag p buffer = _
    unfold quantity
    rw [show dims.checkPoint p = .error fault from hpoint]
    rfl
  refusesUnknown := fun _ htag _ _ xd _ buffer _ => ⟨buffer, quantity_of_unknown xd htag buffer⟩

/-- **Conduction is definite.** The heat flux has two values. -/
theorem Conductor.isDefinite (c : Conductor (Solid α)) : IsDefinite c tags where
  hasCoefficients := by
    intro place data
    obtain ⟨flux, hflux⟩ := c.exists_flux (data.pointAt place).site (gradient data.ux)
    obtain ⟨⟨⟩, values, hzero, -⟩ := c.succeeds_weakIntegrand place data (.zero _ _)
    refine ⟨values, fun (buffers : Coefficients α dims.utLen dims.uxLen) => ?_⟩
    rw [← hzero]
    show weakIntegrand c (data.pointAt place) buffers = _
    unfold weakIntegrand
    simp only [PointData.checkPoint_pointAt, Dims.checkCoefficients_self, liftM_length_ok,
      pure_bind_apply, modify_bind_apply, hflux, liftM_ok]
    rfl
  refusesCoefficients := by
    intro p fault hpoint buffers
    refine ⟨buffers, ?_⟩
    show weakIntegrand c p buffers = _
    unfold weakIntegrand
    rw [show dims.checkPoint p = .error fault from hpoint]
    rfl
  hasValues := by
    intro tag htag place (data : PointData dims α)
    simp only [tags, List.mem_cons, List.not_mem_nil, or_false] at htag
    obtain rfl | rfl | rfl := htag
    · refine ⟨[Constitutive.density c.law (data.pointAt place).site], fun xd n buffer hn => ?_⟩
      have hn : 1 ≤ n := hn
      refine ⟨buffer.set 0 _ hn, ?_, take_one_set_zero buffer _ hn⟩
      show quantity c .density (data.pointAt place) buffer = _
      unfold quantity
      simp only [PointData.checkPoint_pointAt, liftM_length_ok, pure_bind_apply,
        lengthAtLeast_of_le hn]
      rfl
    · refine ⟨[data.ut[0]], fun xd n buffer hn => ?_⟩
      have hn : 1 ≤ n := hn
      refine ⟨buffer.set 0 _ hn, ?_, take_one_set_zero buffer _ hn⟩
      show quantity c .temperature (data.pointAt place) buffer = _
      unfold quantity
      simp only [PointData.checkPoint_pointAt, liftM_length_ok, pure_bind_apply,
        lengthAtLeast_of_le hn]
      rfl
    · obtain ⟨flux, hflux⟩ := c.exists_flux (data.pointAt place).site (gradient data.ux)
      refine ⟨flux.toList, fun xd n buffer hn => ?_⟩
      have hn : 2 ≤ n := hn
      refine ⟨overwrite buffer 0 flux.toArray, ?_, ?_⟩
      · show quantity c .heatFlux (data.pointAt place) buffer = _
        unfold quantity
        simp only [PointData.checkPoint_pointAt, liftM_length_ok, pure_bind_apply, hflux, liftM_ok,
          lengthAtLeast_of_le hn]
        rfl
      · have htake := take_overwrite buffer (show flux.toArray.size ≤ n by simpa using hn)
        have hlist := congrArg Array.toList htake
        rw [Array.take_eq_extract, Array.toList_extract, Vector.size_toArray] at hlist
        exact hlist
  refusesValues := by
    intro tag p fault hpoint xd n buffer hn
    refine ⟨buffer, ?_⟩
    show quantity c tag p buffer = _
    unfold quantity
    rw [show dims.checkPoint p = .error fault from hpoint]
    rfl
  refusesUnknown := fun _ htag _ _ xd _ buffer _ => ⟨buffer, quantity_of_unknown xd htag buffer⟩

end Models

/-! ## Answers for samples -/

section Samples

variable {α M β : Type}

/-- **What is answered for samples is what is answered at the point of each of them**, in their
order; an error is that at the point of a sample. -/
structure AnswersEach (batch : List (Sample α) → Except (ModelError α) (List β))
    (answers : Point α → β → Prop) (refuses : Point α → ModelError α → Prop) : Prop where
  eq_ok_iff : ∀ samples results,
    batch samples = .ok results ↔ List.Forall₂ (fun s r => answers s.point r) samples results
  exists_of_error : ∀ samples e, batch samples = .error e → ∃ s ∈ samples, refuses s.point e

/-- A loop over the samples answers each of them, if what it asks at a point is known. -/
theorem answersEach_mapM (ask : Point α → Except (ModelError α) β) {answers : Point α → β → Prop}
    {refuses : Point α → ModelError α → Prop} (hok : ∀ p r, answers p r → ask p = .ok r)
    (herror : ∀ p e, refuses p e → ask p = .error e)
    (hcases : ∀ p, (∃ r, answers p r) ∨ ∃ e, refuses p e) :
    AnswersEach (fun samples => samples.mapM fun s => ask s.point) answers refuses where
  eq_ok_iff := by
    have hiff : ∀ p r, ask p = .ok r ↔ answers p r := by
      refine fun p r => ⟨fun h => ?_, hok p r⟩
      obtain ⟨r', hr'⟩ | ⟨e, he⟩ := hcases p
      · rwa [Except.ok.inj (h.symm.trans (hok p r' hr'))]
      · exact nomatch h.symm.trans (herror p e he)
    intro samples results
    simp only [mapM_eq_ok_iff, hiff]
  exists_of_error := by
    intro samples e h
    obtain ⟨s, hs, hask⟩ := exists_of_mapM_error h
    refine ⟨s, hs, ?_⟩
    obtain ⟨r, hr⟩ | ⟨e', he'⟩ := hcases s.point
    · exact nomatch hask.symm.trans (hok _ r hr)
    · rwa [Except.error.inj (hask.symm.trans (herror _ e' he'))]

variable [Scalar α] [ElementModel M α] {model : M} {tags : List QuantityTag}

theorem ElementModel.IsDefinite.answersEach_coefficientsAt (h : IsDefinite model tags) :
    AnswersEach (coefficientsAt model) (HasCoefficients model) (RefusesCoefficients model) :=
  answersEach_mapM (coefficients model) (fun _ _ => HasCoefficients.coefficients_eq)
    (fun _ _ => RefusesCoefficients.coefficients_eq) h.coefficients_cases

theorem ElementModel.IsDefinite.answersEach_quantityAt (h : IsDefinite model tags)
    (tag : QuantityTag) :
    AnswersEach (quantityAt model tag) (HasValues model tag) (RefusesValues model tag) :=
  answersEach_mapM (quantityValues model tag · #[])
    (fun _ _ h => h.quantityValues_eq #[]) (fun _ _ h => h.quantityValues_eq #[])
    (h.values_cases tag)

end Samples

/-! ## Integrals -/

section Integrals

variable [Waves] {M : Type} [ElementModel M ℝ] {model : M} {tag : QuantityTag}
  {tags : List QuantityTag} {samples : List (Sample ℝ)}

/-- **What a sample contributes to an integral**: its values with its weight, as a vector with an
entry for each component. -/
def Sample.Contributes (model : M) (tag : QuantityTag) (s : Sample ℝ)
    (part : Fin tag.numComponents → ℝ) : Prop :=
  ∃ values : Fin tag.numComponents → ℝ,
    HasValues model tag s.point (List.ofFn values) ∧ part = s.weight • values

/-- Adding a multiple of as many values loses none of them. -/
theorem addMultiple_ofFn {n : ℕ} (weight : ℝ) (totals values : Fin n → ℝ) :
    addMultiple weight (List.ofFn totals) (List.ofFn values)
      = List.ofFn (totals + weight • values) := by
  induction n with
  | zero => rfl
  | succ n ih =>
    rw [List.ofFn_succ, List.ofFn_succ, addMultiple, ih, List.ofFn_succ]
    rfl

/-- **A run over the samples** adds the contributions, whatever has been summed before. -/
theorem exists_foldl_addMultiple {parts : List (Fin tag.numComponents → ℝ)}
    (h : List.Forall₂ (Sample.Contributes model tag) samples parts) :
    ∃ values, List.Forall₂ (fun s v => HasValues model tag s.point v) samples values
      ∧ ∀ totals : Fin tag.numComponents → ℝ,
        (samples.zip values).foldl (fun total item => addMultiple item.1.weight total item.2)
            (List.ofFn totals)
          = List.ofFn (totals + parts.sum) := by
  induction h with
  | nil => exact ⟨[], .nil, fun totals => congrArg List.ofFn (add_zero totals).symm⟩
  | @cons s part samples parts hs _ ih =>
    obtain ⟨value, hvalue, rfl⟩ := hs
    obtain ⟨values, hvalues, hfold⟩ := ih
    refine ⟨List.ofFn value :: values, .cons hvalue hvalues, fun totals => ?_⟩
    rw [List.zip_cons_cons, List.foldl_cons, List.sum_cons, ← add_assoc, ← hfold,
      ← addMultiple_ofFn]

/-- Values contribute. -/
theorem exists_contributes {values : List (List ℝ)}
    (h : List.Forall₂ (fun s v => HasValues model tag s.point v) samples values) :
    ∃ parts, List.Forall₂ (Sample.Contributes model tag) samples parts := by
  induction h with
  | nil => exact ⟨[], .nil⟩
  | @cons s value samples values hs _ ih =>
    obtain ⟨parts, hparts⟩ := ih
    obtain ⟨v, rfl⟩ := hs.exists_ofFn
    exact ⟨s.weight • v :: parts, .cons ⟨v, hs, rfl⟩ hparts⟩

/-- **The integral is the sum of the contributions.** -/
theorem integrateQuantity_of_contributes (h : IsDefinite model tags) (hne : samples ≠ [])
    {parts : List (Fin tag.numComponents → ℝ)}
    (hparts : List.Forall₂ (Sample.Contributes model tag) samples parts) :
    integrateQuantity model tag samples = .ok (List.ofFn parts.sum) := by
  obtain ⟨values, hvalues, hfold⟩ := exists_foldl_addMultiple hparts
  -- the sum starts with a zero for each value of the first sample
  have hzeros : (values.headD []).map (fun _ => (0 : ℝ))
      = List.ofFn (0 : Fin tag.numComponents → ℝ) := by
    cases hvalues with
    | nil => exact absurd rfl hne
    | cons hfirst _ =>
      obtain ⟨v, rfl⟩ := hfirst.exists_ofFn
      exact List.map_ofFn
  unfold integrateQuantity
  rw [((h.answersEach_quantityAt tag).eq_ok_iff samples values).mpr hvalues, except_ok_bind,
    hzeros]
  refine congrArg Except.ok ((hfold 0).trans ?_)
  rw [zero_add]

/-- **Integrals and contributions.** -/
theorem integrateQuantity_eq_ok_iff (h : IsDefinite model tags) (hne : samples ≠ [])
    (total : List ℝ) :
    integrateQuantity model tag samples = .ok total ↔
      ∃ parts, List.Forall₂ (Sample.Contributes model tag) samples parts
        ∧ total = List.ofFn parts.sum := by
  constructor
  · intro htotal
    obtain ⟨values, hvalues, -⟩ := exists_of_except_bind_ok htotal
    obtain ⟨parts, hparts⟩ := exists_contributes
      (((h.answersEach_quantityAt tag).eq_ok_iff samples values).mp hvalues)
    have hsum := integrateQuantity_of_contributes h hne hparts
    exact ⟨parts, hparts, Except.ok.inj (htotal.symm.trans hsum)⟩
  · rintro ⟨parts, hparts, rfl⟩
    exact integrateQuantity_of_contributes h hne hparts

/-- **Integrals of quantities that add up**: an integral is the sum of the contributions of all
samples, entry by entry, with an entry for each component. -/
structure ElementModel.AddsUp (model : M) (tag : QuantityTag) : Prop where
  eq_ok_iff : ∀ samples, samples ≠ [] → ∀ total,
    integrateQuantity model tag samples = .ok total ↔
      ∃ parts, List.Forall₂ (Sample.Contributes model tag) samples parts
        ∧ total = List.ofFn parts.sum
  length_eq : ∀ samples, samples ≠ [] → ∀ total, integrateQuantity model tag samples = .ok total →
    total.length = tag.numComponents
  /-- Of samples in sequence, there is an integral exactly if there are two, and it is their sum. -/
  append_eq_ok_iff : ∀ first second, first ≠ [] → second ≠ [] → ∀ total,
    integrateQuantity model tag (first ++ second) = .ok total ↔
      ∃ a b : Fin tag.numComponents → ℝ, integrateQuantity model tag first = .ok (List.ofFn a)
        ∧ integrateQuantity model tag second = .ok (List.ofFn b) ∧ total = List.ofFn (a + b)
  /-- The order of the samples does not matter. -/
  perm : ∀ samples samples', samples.Perm samples' → ∀ total,
    integrateQuantity model tag samples = .ok total ↔
      integrateQuantity model tag samples' = .ok total

theorem integrateQuantity_perm (h : IsDefinite model tags) {samples' : List (Sample ℝ)}
    (hperm : samples'.Perm samples) {total : List ℝ}
    (htotal : integrateQuantity model tag samples = .ok total) :
    integrateQuantity model tag samples' = .ok total := by
  by_cases hne : samples = []
  · subst hne
    rwa [List.perm_nil.mp hperm]
  have hne' : samples' ≠ [] := fun h => hne (by rwa [h, List.nil_perm] at hperm)
  obtain ⟨parts, hparts, rfl⟩ := (integrateQuantity_eq_ok_iff h hne total).mp htotal
  obtain ⟨parts', hparts', hsame⟩ := List.perm_comp_forall₂ hperm hparts
  rw [← hsame.sum_eq]
  exact integrateQuantity_of_contributes h hne' hparts'

theorem integrateQuantity_append_eq_ok_iff (h : IsDefinite model tags)
    {first second : List (Sample ℝ)} (hfirst : first ≠ []) (hsecond : second ≠ [])
    (total : List ℝ) :
    integrateQuantity model tag (first ++ second) = .ok total ↔
      ∃ a b : Fin tag.numComponents → ℝ, integrateQuantity model tag first = .ok (List.ofFn a)
        ∧ integrateQuantity model tag second = .ok (List.ofFn b) ∧ total = List.ofFn (a + b) := by
  have hne : first ++ second ≠ [] := List.append_ne_nil_of_left_ne_nil hfirst second
  constructor
  · intro htotal
    obtain ⟨parts, hparts, rfl⟩ := (integrateQuantity_eq_ok_iff h hne total).mp htotal
    have htake := List.forall₂_take_append parts first second hparts.flip
    have hdrop := List.forall₂_drop_append parts first second hparts.flip
    refine ⟨_, _, integrateQuantity_of_contributes h hfirst htake.flip,
      integrateQuantity_of_contributes h hsecond hdrop.flip, ?_⟩
    rw [← List.sum_append, List.take_append_drop]
  · rintro ⟨a, b, ha, hb, rfl⟩
    obtain ⟨parts, hparts, hsum⟩ := (integrateQuantity_eq_ok_iff h hfirst _).mp ha
    obtain ⟨parts', hparts', hsum'⟩ := (integrateQuantity_eq_ok_iff h hsecond _).mp hb
    rw [List.ofFn_injective hsum, List.ofFn_injective hsum', ← List.sum_append]
    exact integrateQuantity_of_contributes h hne (List.rel_append hparts hparts')

/-- **The integrals of a definite model add up.** -/
theorem ElementModel.IsDefinite.addsUp (h : IsDefinite model tags) (tag : QuantityTag) :
    AddsUp model tag where
  eq_ok_iff := fun _ hne => integrateQuantity_eq_ok_iff h hne
  length_eq := by
    intro samples hne total htotal
    obtain ⟨parts, -, rfl⟩ := (integrateQuantity_eq_ok_iff h hne total).mp htotal
    exact List.length_ofFn
  append_eq_ok_iff := fun _ _ => integrateQuantity_append_eq_ok_iff h
  perm := fun _ _ hperm _ => ⟨integrateQuantity_perm h hperm.symm, integrateQuantity_perm h hperm⟩

end Integrals

/-! ## Solids -/

/-- **A model that answers samples as it answers points.** Its integrals are sums over the samples,
with an entry for each component of a quantity. -/
structure ElementModel.AnswersSamples [Waves] {M : Type} [ElementModel M ℝ] (model : M)
    (tags : List QuantityTag) : Prop where
  isDefinite : IsDefinite model tags
  coefficients :
    AnswersEach (coefficientsAt model) (HasCoefficients model) (RefusesCoefficients model)
  quantities : ∀ tag,
    AnswersEach (quantityAt model tag) (HasValues model tag) (RefusesValues model tag)
  addsUp : ∀ tag, AddsUp model tag

theorem ElementModel.IsDefinite.answersSamples [Waves] {M : Type} [ElementModel M ℝ] {model : M}
    {tags : List QuantityTag} (h : IsDefinite model tags) : AnswersSamples model tags where
  isDefinite := h
  coefficients := h.answersEach_coefficientsAt
  quantities := h.answersEach_quantityAt
  addsUp := h.addsUp

/-- **Integrated quantities are additive**, for both kinds of physics and every solid, and what is
answered for many samples is what is answered for each of them. -/
theorem answersSamples_solid [Waves] (s : Solid ℝ) :
    (∀ thermalLoad : ℝ,
        AnswersSamples (⟨s, thermalLoad⟩ : Elasticity (Solid ℝ) ℝ) Elasticity.tags)
      ∧ AnswersSamples (⟨s⟩ : Conductor (Solid ℝ)) Conductor.tags :=
  ⟨fun _ => (Elasticity.isDefinite _).answersSamples, (Conductor.isDefinite _).answersSamples⟩

end WeakForm
