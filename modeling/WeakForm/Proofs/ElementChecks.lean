import WeakForm.Proofs.CleanModels
import WeakForm.Proofs.ElementVerdict

/-!
# The checks of an element cannot fail

An element is verified at a point whose arrays have the lengths of its dimensions, so there is
nothing to refuse: neither the coefficients and their Jacobian, nor the adjoint product, nor a
quantity that the model knows (`ElementModel.IsTotal`). **Nothing is said about the numbers here**:
they may be rounded, infinite or undefined, and the checks may pass or not. What is known of the
checks is that they have been made: a report of an element holds what the checks of its model find
at its sample, in their order and under their names (`ElementModel.Checks`,
`keeps_verifyElement_checks`).

The support of a quantity is probed by evaluating it. That the probe agrees with the two checks that
follow is a part of `ElementModel.HasQuantity`, whose evaluations all succeed.
-/

namespace WeakForm

open Dims ElementModel ElementEntry Work

variable {α : Type} [Scalar α]

/-! ## Models that refuse nothing -/

namespace Evaluation

variable {β γ σ : Type}

omit [Scalar α] in
/-- Evaluations that cannot fail, one after the other. -/
theorem Succeeds.andThen {x : Evaluation α σ β} {f : β → Evaluation α σ γ}
    (hx : Succeeds x fun _ _ _ => True) (hf : ∀ b, Succeeds (f b) fun _ _ _ => True) :
    Succeeds (x >>= f) fun _ _ _ => True :=
  hx.bind (fun _ _ _ _ _ => trivial) hf

omit [Scalar α] in
theorem Succeeds.exists_fill {x : Evaluation α σ Unit} {keeps : σ → Unit → σ → Prop}
    (h : Succeeds x keeps) (s : σ) : ∃ s', Evaluation.fill s x = .ok s' := by
  obtain ⟨⟨⟩, s', hs', -⟩ := h s
  exact ⟨s', fill_of_ok hs'⟩

end Evaluation

open Evaluation

namespace ElementModel

variable {M : Type} [ElementModel M α]

/-- **A quantity that a model knows**, with a number of values: it is evaluated at every well-formed
point, and so are its derivatives by the state and by `n` design variables, with the weights of the
checks. -/
structure HasQuantity (model : M) (tag : QuantityTag) (n count : ℕ) : Prop where
  quantity : ∀ (place : Point α) (data : PointData (dims model) α),
    Succeeds (quantity (n := QuantityTag.maxLength) model tag (data.pointAt place) #[])
      fun _ written _ => written = count
  count_le : count ≤ QuantityTag.maxLength
  quantitySens : ∀ (place : Point α) (data : PointData (dims model) α),
    Succeeds (quantitySens (a := numCoords) (b := numCoords * numCoords) (c := (dims model).utLen)
      (d := (dims model).uxLen) model tag (data.pointAt place) #[] (quantityWeights count))
      fun _ _ _ => True
  addDesignSens : ∀ (place : Point α) (data : PointData (dims model) α),
    Succeeds (addQuantityDesignSens (n := n) model tag 1 (data.pointAt place) #[]
      (quantityWeights count)) fun _ _ _ => True

/-- **A model that refuses nothing** at a well-formed point: it has the quantities with the given
tags and reports all others as unknown, and it has `n` design variables. -/
structure IsTotal (model : M) (tags : List QuantityTag) (n : ℕ) : Prop where
  weakIntegrand : ∀ (place : Point α) (data : PointData (dims model) α),
    Succeeds (weakIntegrand (n := (dims model).utLen) (m := (dims model).uxLen) model
      (data.pointAt place)) fun _ _ _ => True
  weakJacobian : ∀ (place : Point α) (data : PointData (dims model) α),
    Succeeds (weakJacobian (n := (dims model).utLen) (m := (dims model).uxLen)
        (k := (dims model).jacobianSize * (dims model).jacobianSize) model (data.pointAt place))
      fun _ pattern filled => ∃ view,
        JacobianView.of? (dims model).jacobianSize pattern filled.jac.toArray = .ok view
  addWeakAdjoint : ∀ (place : Point α) (data : PointData (dims model) α)
    (a : AdjointData (dims model) α), Succeeds (addWeakAdjoint (n := n) model (data.pointAt place)
      a.psi.toArray a.psix.toArray 1) fun _ _ _ => True
  hasQuantity : ∀ tag ∈ tags, ∃ count, HasQuantity model tag n count
  quantityValues_of_unknown : ∀ tag ∉ tags, ∀ (place : Point α) (data : PointData (dims model) α),
    quantityValues model tag (data.pointAt place) #[] = .error (.unsupportedQuantity tag)

variable {model : M} {tags : List QuantityTag} {n : ℕ}

/-! ## The checks along the state -/

/-- The columns of a Jacobian, each starting from whatever data the one before it leaves. -/
theorem IsTotal.exists_jacobianColumns (h : IsTotal model tags n) (step : α) (place : Point α)
    (origin data : PointData (dims model) α) (cols : List (Fin (dims model).jacobianSize)) :
    ∃ columns, jacobianColumns model (origin.pointAt place) step data cols = .ok columns := by
  induction cols generalizing data with
  | nil => exact ⟨_, rfl⟩
  | cons col cols ih =>
    unfold jacobianColumns jacobianColumn
    dsimp only
    -- shifted data keeps its lengths, so the coefficients are evaluated above and below
    set up := (dims model).shiftColumn data col step with hup
    set down := (dims model).shiftColumn up col (-((2 : ℕ) : α) * step) with hdown
    obtain ⟨plus, hplus⟩ :=
      (h.weakIntegrand place { up with x := origin.x }).exists_fill (.zero _ _)
    obtain ⟨minus, hminus⟩ :=
      (h.weakIntegrand place { down with x := origin.x }).exists_fill (.zero _ _)
    obtain ⟨columns, hcolumns⟩ := ih ((dims model).shiftColumn down col step)
    simp only [coefficients, PointData.withData_pointAt, hplus, hminus, hcolumns, except_ok_bind,
      except_pure]
    exact ⟨_, rfl⟩

theorem IsTotal.exists_checkWeakJacobian (h : IsTotal model tags n) (config : CheckConfig α)
    (place : Point α) (data : PointData (dims model) α) :
    ∃ result, checkWeakJacobian model (data.pointAt place) config = .ok result := by
  obtain ⟨pattern, filled, hjacobian, view, hview⟩ :=
    h.weakJacobian place data ⟨.zero _ _, Vector.replicate _ 0⟩
  obtain ⟨columns, hcolumns⟩ := h.exists_jacobianColumns config.stepSize place data data
    (List.finRange (dims model).jacobianSize)
  unfold checkWeakJacobian
  simp only [answer_of_ok hjacobian, hview, hcolumns, PointData.checkPoint_pointAt,
    liftM_except_ok, except_ok_bind, except_pure]
  exact ⟨_, rfl⟩

theorem IsTotal.exists_adjointResidual (h : IsTotal model tags n) (place : Point α)
    (data : PointData (dims model) α) (a : AdjointData (dims model) α) : ∃ residual,
      adjointResidual model (data.pointAt place) a.psi.toArray a.psix.toArray = .ok residual := by
  obtain ⟨c, hc⟩ := (h.weakIntegrand place data).exists_fill (.zero _ _)
  unfold adjointResidual
  simp only [coefficients, AdjointData.checkAdjoint_toArray, liftM_except_ok, except_ok_bind, hc,
    except_pure]
  exact ⟨_, rfl⟩

/-- Quotients along the entries of a vector, if there is an answer for every vector. -/
theorem exists_differencesAlong {ε : Type} {k : ℕ} (v : Vector α k) (step : α)
    {ask : Array α → Except ε α} (hask : ∀ w : Vector α k, ∃ answer, ask w.toArray = .ok answer) :
    ∃ differences, differencesAlong step v.toArray ask = .ok differences := by
  choose answer hanswer using hask
  -- the loop works on an array, whose length has to be that of the vector by definition
  obtain ⟨values, rfl⟩ := v
  unfold differencesAlong
  refine ⟨_, mapM_of_ok (g := fun i : Fin values.size => differenceQuotient step
    (answer ((Vector.mk values rfl).set i (values[i] + step)))
    (answer ((Vector.mk values rfl).set i (values[i] - step)))) fun i _ => ?_⟩
  have hplus := hanswer ((Vector.mk values rfl).set i (values[i] + step))
  have hminus := hanswer ((Vector.mk values rfl).set i (values[i] - step))
  dsimp only [Vector.set] at hplus hminus
  rw [hplus, hminus]
  rfl

theorem HasQuantity.exists_values {tag : QuantityTag} {count : ℕ}
    (h : HasQuantity model tag n count) (place : Point α) (data : PointData (dims model) α) :
    ∃ values, quantityValues model tag (data.pointAt place) #[] = .ok values
      ∧ values.length = count := by
  obtain ⟨_, written, hwritten, rfl⟩ := h.quantity place data (Vector.replicate _ 0)
  unfold quantityValues
  dsimp only
  rw [answer_of_ok hwritten]
  refine ⟨_, rfl, ?_⟩
  rw [List.length_take, Vector.length_toList, min_eq_left h.count_le]

theorem HasQuantity.exists_weightedQuantity {tag : QuantityTag} {count : ℕ}
    (h : HasQuantity model tag n count) (weights : Array α) (place : Point α)
    (data : PointData (dims model) α) :
    ∃ answer, weightedQuantity model tag #[] weights (data.pointAt place) = .ok answer := by
  obtain ⟨values, hvalues, -⟩ := h.exists_values place data
  unfold weightedQuantity
  rw [hvalues]
  exact ⟨_, rfl⟩

theorem HasQuantity.exists_checkQuantitySens {tag : QuantityTag} {count : ℕ}
    (h : HasQuantity model tag n count) (config : CheckConfig α) (place : Point α)
    (data : PointData (dims model) α) :
    ∃ result, checkQuantitySens model tag (data.pointAt place) #[] config = .ok result := by
  obtain ⟨values, hvalues, hcount⟩ := h.exists_values place data
  obtain ⟨sens, hsens⟩ := (h.quantitySens place data).exists_fill (.zero _ _ _ _)
  have hask : ∀ data : PointData (dims model) α, ∃ answer,
      weightedQuantity model tag #[] (quantityWeights count) (data.pointAt place) = .ok answer :=
    h.exists_weightedQuantity (quantityWeights count) place
  obtain ⟨byPosition, hposition⟩ : ∃ differences, differencesAlong config.stepSize
      (data.pointAt place).x (fun x => weightedQuantity model tag #[] (quantityWeights count)
        { data.pointAt place with x }) = .ok differences :=
    exists_differencesAlong data.x _ fun x => hask { data with x }
  obtain ⟨byTime, htime⟩ : ∃ differences, differencesAlong config.stepSize
      (data.pointAt place).ut (fun ut => weightedQuantity model tag #[] (quantityWeights count)
        { data.pointAt place with ut }) = .ok differences :=
    exists_differencesAlong data.ut _ fun ut => hask { data with ut }
  obtain ⟨bySpace, hspace⟩ : ∃ differences, differencesAlong config.stepSize
      (data.pointAt place).ux (fun ux => weightedQuantity model tag #[] (quantityWeights count)
        { data.pointAt place with ux }) = .ok differences :=
    exists_differencesAlong data.ux _ fun ux => hask { data with ux }
  unfold checkQuantitySens
  simp only [hvalues, hcount, hsens, hposition, htime, hspace, except_ok_bind, except_pure]
  exact ⟨_, rfl⟩

end ElementModel

omit [Scalar α] in
/-- A pattern inside of the matrix has a view of as many values. -/
theorem JacobianView.exists_of? {size : ℕ} {pairs : List (ℕ × ℕ)} {values : Array α}
    (hinside : pairs.find? (JacobianPattern.outside size) = none)
    (hvalues : pairs.length ≤ values.size) :
    ∃ view, of? size (.sparse pairs) values = .ok view := by
  unfold of? JacobianPattern.validate JacobianPattern.nnz
  simp only [hinside, except_ok_bind]
  rw [if_neg (not_lt.mpr hvalues)]
  exact ⟨_, rfl⟩

/-! ## Solids -/

namespace Solid

variable {s : Solid α} {n : ℕ}

/-- **An amount is added** if there is a place for the thickness. -/
theorem succeeds_addSens (hn : s.designVar.isSome = true → 1 ≤ n) (amount : Material α → α) :
    Succeeds (s.addSens amount : Evaluation α (Vector α n) Unit) fun _ _ _ => True := by
  intro b
  unfold addSens designSlot
  cases s.material with
  | none => exact ⟨(), b, rfl, trivial⟩
  | some material =>
    cases hs : s.designVar with
    | none => exact ⟨(), b, rfl, trivial⟩
    | some index =>
      simp only [lengthAtLeast_of_le (hn (by rw [hs]; rfl))]
      exact ⟨(), _, rfl, trivial⟩

theorem succeeds_addStressSens (hn : s.designVar.isSome = true → 1 ≤ n) (site : Site α) (scale : α)
    (strain psi : Voigt α) :
    Succeeds (Constitutive.addStressSens s site scale strain.toArray psi.toArray :
      Evaluation α (Vector α n) Unit) fun _ _ _ => True := by
  simp only [Constitutive.addStressSens, sized_toArray, liftM_length_ok, pure_bind]
  exact succeeds_addSens hn _

theorem succeeds_addHeatFluxSens (hn : s.designVar.isSome = true → 1 ≤ n) (site : Site α)
    (scale : α) (grad psi : Vector α 2) :
    Succeeds (Constitutive.addHeatFluxSens s site scale grad.toArray psi.toArray :
      Evaluation α (Vector α n) Unit) fun _ _ _ => True := by
  simp only [Constitutive.addHeatFluxSens, sized_toArray, liftM_length_ok, pure_bind]
  exact succeeds_addSens hn _

omit [Scalar α] in
/-- The design variables of a solid have a place for its thickness. -/
theorem one_le_size_designValues (h : s.designVar.isSome = true) : 1 ≤ s.designValues.size := by
  obtain ⟨index, hs⟩ := Option.isSome_iff_exists.mp h
  unfold designValues
  rw [hs]
  exact le_refl 1

end Solid

/-! ## Elasticity -/

namespace Elasticity

variable (e : Elasticity (Solid α) α) (place : Point α) (data : PointData dims α) {n : ℕ}

theorem exists_resultantStress (site : Site α) (strain : Voigt α) :
    ∃ stress, e.resultantStress site strain = .ok stress :=
  ⟨_, rfl⟩

theorem succeeds_weakIntegrand :
    Succeeds (e.weakIntegrand (n := dims.utLen) (m := dims.uxLen) (data.pointAt place))
      fun _ _ _ => True := by
  intro b
  obtain ⟨strain, hstrain⟩ := e.exists_mechanicalStrain (data.pointAt place).site data.ux
  obtain ⟨stress, hstress⟩ := e.exists_resultantStress (data.pointAt place).site strain
  unfold weakIntegrand
  simp only [PointData.checkPoint_pointAt, Dims.checkCoefficients_self, liftM_length_ok,
    pure_bind_apply, modify_bind_apply, hstrain, hstress, liftM_ok]
  exact ⟨(), _, rfl, trivial⟩

theorem succeeds_addWeakAdjoint (hn : e.law.designVar.isSome = true → 1 ≤ n)
    (a : AdjointData dims α) (scale : α) :
    Succeeds (e.addWeakAdjoint (n := n) (data.pointAt place) a.psi.toArray a.psix.toArray scale)
      fun _ _ _ => True := by
  obtain ⟨strain, hstrain⟩ := e.exists_mechanicalStrain (data.pointAt place).site data.ux
  unfold addWeakAdjoint
  simp only [PointData.checkPoint_pointAt, AdjointData.checkAdjoint_toArray, liftM_length_ok,
    pure_bind, hstrain, liftM_ok]
  exact (Solid.succeeds_addSens hn _).andThen fun _ => Solid.succeeds_addStressSens hn _ _ _ _

/-- A quantity that elasticity knows has a value. -/
theorem exists_quantityValue {tag : QuantityTag} (htag : tag ∈ tags) (site : Site α) :
    ∃ value, e.quantityValue tag site data = .ok value := by
  obtain ⟨strain, hstrain⟩ := e.exists_mechanicalStrain site data.ux
  simp only [tags, List.mem_cons, List.not_mem_nil, or_false] at htag
  unfold quantityValue
  obtain rfl | rfl | rfl := htag
  · simp only [hstrain, except_ok_bind, Constitutive.failure, sized_toArray, liftM_except_ok]
    exact ⟨_, rfl⟩
  · exact ⟨_, rfl⟩
  · simp only [hstrain, except_ok_bind]
    exact ⟨_, rfl⟩

/-- It has a derivative by strain, or none is needed. -/
theorem exists_quantityStrainGradient {tag : QuantityTag} (htag : tag ∈ tags) (site : Site α) :
    ∃ gradient, e.quantityStrainGradient tag site data = .ok gradient := by
  obtain ⟨strain, hstrain⟩ := e.exists_mechanicalStrain site data.ux
  simp only [tags, List.mem_cons, List.not_mem_nil, or_false] at htag
  unfold quantityStrainGradient
  obtain rfl | rfl | rfl := htag
  · simp only [hstrain, except_ok_bind, Constitutive.failureGradient, sized_toArray]
    exact ⟨_, rfl⟩
  · exact ⟨_, rfl⟩
  · simp only [hstrain, except_ok_bind]
    exact ⟨_, rfl⟩

theorem succeeds_quantitySens {tag : QuantityTag} (htag : tag ∈ tags) {dfdq : Array α}
    (hdfdq : 1 ≤ dfdq.size) :
    Succeeds (e.quantitySens (a := numCoords) (b := numCoords * numCoords) (c := dims.utLen)
      (d := dims.uxLen) tag (data.pointAt place) dfdq) fun _ _ _ => True := by
  intro b
  obtain ⟨gradient, hgradient⟩ :=
    e.exists_quantityStrainGradient data htag (data.pointAt place).site
  unfold quantitySens
  simp only [PointData.checkPoint_pointAt, QuantitySens.checkLengths_self, hgradient,
    lengthAtLeast_of_le hdfdq, liftM_length_ok, pure_bind_apply, liftM_ok]
  cases gradient <;> exact ⟨(), _, rfl, trivial⟩

theorem succeeds_addQuantityDesignSens {tag : QuantityTag} (htag : tag ∈ tags)
    (hn : e.law.designVar.isSome = true → 1 ≤ n) (scale : α) {dfdq : Array α}
    (hdfdq : 1 ≤ dfdq.size) :
    Succeeds (e.addQuantityDesignSens (n := n) tag scale (data.pointAt place) dfdq)
      fun _ _ _ => True := by
  obtain ⟨strain, hstrain⟩ := e.exists_mechanicalStrain (data.pointAt place).site data.ux
  simp only [tags, List.mem_cons, List.not_mem_nil, or_false] at htag
  unfold addQuantityDesignSens
  simp only [PointData.checkPoint_pointAt, lengthAtLeast_of_le hdfdq, liftM_length_ok, pure_bind,
    hstrain, liftM_ok]
  obtain rfl | rfl | rfl := htag
  · exact fun b => ⟨(), b, rfl, trivial⟩
  · exact Solid.succeeds_addSens hn _
  · exact Solid.succeeds_addStressSens hn _ _ _ _

/-- **Elasticity knows its quantities**, each of which has one value. -/
theorem hasQuantity {tag : QuantityTag} (htag : tag ∈ tags)
    (hn : e.law.designVar.isSome = true → 1 ≤ n) : HasQuantity e tag n 1 where
  quantity place data b := by
    obtain ⟨value, hvalue⟩ := e.exists_quantityValue data htag (data.pointAt place).site
    refine ⟨1, b.set 0 value, ?_, rfl⟩
    show e.quantity tag (data.pointAt place) b = _
    unfold quantity
    simp only [PointData.checkPoint_pointAt, liftM_length_ok, pure_bind_apply, hvalue, liftM_ok]
    rfl
  count_le := by decide
  quantitySens place data := e.succeeds_quantitySens place data htag (size_quantityWeights 1)
  addDesignSens place data :=
    e.succeeds_addQuantityDesignSens place data htag hn 1 (size_quantityWeights 1)

theorem succeeds_weakJacobian :
    Succeeds (e.weakJacobian (n := dims.utLen) (m := dims.uxLen)
        (k := dims.jacobianSize * dims.jacobianSize) (data.pointAt place))
      fun _ pattern filled => ∃ view,
        JacobianView.of? dims.jacobianSize pattern filled.jac.toArray = .ok view := by
  intro b
  obtain ⟨⟨⟩, c, hc, -⟩ := e.succeeds_weakIntegrand place data b.coefficients
  have hk : pattern.length ≤ dims.jacobianSize * dims.jacobianSize := by decide
  have hinside : pattern.find? (JacobianPattern.outside dims.jacobianSize) = none := by decide
  unfold weakJacobian
  rw [bind_of_ok (Linearization.onCoefficients_of_ok b hc), lengthAtLeast_of_le hk]
  refine ⟨.sparse pattern, _, rfl, JacobianView.exists_of? hinside ?_⟩
  rw [Vector.size_toArray]
  exact hk

/-- **Elasticity refuses nothing.** -/
theorem isTotal (hn : e.law.designVar.isSome = true → 1 ≤ n) : IsTotal e tags n where
  weakIntegrand place data := e.succeeds_weakIntegrand place data
  weakJacobian place data := e.succeeds_weakJacobian place data
  addWeakAdjoint place data a := e.succeeds_addWeakAdjoint place data hn a 1
  hasQuantity _ htag := ⟨1, e.hasQuantity htag hn⟩
  quantityValues_of_unknown _ htag _ _ := quantityValues_of_unknown #[] htag

end Elasticity

/-! ## Conduction -/

namespace Conductor

variable (c : Conductor (Solid α)) (place : Point α) (data : PointData dims α) {n : ℕ}

theorem exists_conduction (site : Site α) : ∃ k, c.conduction site = .ok k := ⟨_, rfl⟩

theorem exists_flux (site : Site α) (grad : Vector α 2) : ∃ flux, c.flux site grad = .ok flux :=
  ⟨_, rfl⟩

theorem succeeds_weakIntegrand :
    Succeeds (c.weakIntegrand (n := dims.utLen) (m := dims.uxLen) (data.pointAt place))
      fun _ _ _ => True := by
  intro b
  obtain ⟨flux, hflux⟩ := c.exists_flux (data.pointAt place).site (gradient data.ux)
  unfold weakIntegrand
  simp only [PointData.checkPoint_pointAt, Dims.checkCoefficients_self, liftM_length_ok,
    pure_bind_apply, modify_bind_apply, hflux, liftM_ok]
  exact ⟨(), _, rfl, trivial⟩

theorem succeeds_weakJacobian :
    Succeeds (c.weakJacobian (n := dims.utLen) (m := dims.uxLen)
        (k := dims.jacobianSize * dims.jacobianSize) (data.pointAt place))
      fun _ pattern filled => ∃ view,
        JacobianView.of? dims.jacobianSize pattern filled.jac.toArray = .ok view := by
  intro b
  obtain ⟨⟨⟩, coefficients, hc, -⟩ := c.succeeds_weakIntegrand place data b.coefficients
  have hk : pattern.length ≤ dims.jacobianSize * dims.jacobianSize := by decide
  have hinside : pattern.find? (JacobianPattern.outside dims.jacobianSize) = none := by decide
  unfold weakJacobian
  rw [bind_of_ok (Linearization.onCoefficients_of_ok b hc), lengthAtLeast_of_le hk]
  refine ⟨.sparse pattern, _, rfl, JacobianView.exists_of? hinside ?_⟩
  rw [Vector.size_toArray]
  exact hk

theorem succeeds_addWeakAdjoint (hn : c.law.designVar.isSome = true → 1 ≤ n)
    (a : AdjointData dims α) (scale : α) :
    Succeeds (c.addWeakAdjoint (n := n) (data.pointAt place) a.psi.toArray a.psix.toArray scale)
      fun _ _ _ => True := by
  unfold addWeakAdjoint
  simp only [PointData.checkPoint_pointAt, AdjointData.checkAdjoint_toArray, liftM_length_ok,
    pure_bind]
  exact (Solid.succeeds_addSens hn _).andThen fun _ => (Solid.succeeds_addSens hn _).andThen
    fun _ => Solid.succeeds_addHeatFluxSens hn _ _ _ a.psix

/-- The number of values of a quantity that conduction knows. -/
def count (tag : QuantityTag) : ℕ := if tag = .heatFlux then 2 else 1

theorem succeeds_quantity {tag : QuantityTag} (htag : tag ∈ tags) :
    Succeeds (c.quantity (n := QuantityTag.maxLength) tag (data.pointAt place))
      fun _ written _ => written = count tag := by
  intro b
  obtain ⟨flux, hflux⟩ := c.exists_flux (data.pointAt place).site (gradient data.ux)
  simp only [tags, List.mem_cons, List.not_mem_nil, or_false] at htag
  unfold quantity
  simp only [PointData.checkPoint_pointAt, liftM_length_ok, pure_bind_apply, hflux, liftM_ok]
  obtain rfl | rfl | rfl := htag <;> exact ⟨_, _, rfl, rfl⟩

theorem succeeds_quantitySens {tag : QuantityTag} (htag : tag ∈ tags) {dfdq : Array α}
    (hdfdq : count tag ≤ dfdq.size) :
    Succeeds (c.quantitySens (a := numCoords) (b := numCoords * numCoords) (c := dims.utLen)
      (d := dims.uxLen) tag (data.pointAt place) dfdq) fun _ _ _ => True := by
  intro b
  obtain ⟨k, hk⟩ := c.exists_conduction (data.pointAt place).site
  simp only [tags, List.mem_cons, List.not_mem_nil, or_false] at htag
  unfold quantitySens
  simp only [PointData.checkPoint_pointAt, QuantitySens.checkLengths_self, liftM_length_ok,
    pure_bind_apply, hk, liftM_ok]
  obtain rfl | rfl | rfl := htag
  · rw [lengthAtLeast_of_le (show 1 ≤ dfdq.size from hdfdq)]
    exact ⟨(), _, rfl, trivial⟩
  · rw [lengthAtLeast_of_le (show 1 ≤ dfdq.size from hdfdq)]
    exact ⟨(), _, rfl, trivial⟩
  · rw [lengthAtLeast_of_le (show 2 ≤ dfdq.size from hdfdq)]
    exact ⟨(), _, rfl, trivial⟩

theorem succeeds_addQuantityDesignSens {tag : QuantityTag} (htag : tag ∈ tags)
    (hn : c.law.designVar.isSome = true → 1 ≤ n) (scale : α) {dfdq : Array α}
    (hdfdq : count tag ≤ dfdq.size) :
    Succeeds (c.addQuantityDesignSens (n := n) tag scale (data.pointAt place) dfdq)
      fun _ _ _ => True := by
  simp only [tags, List.mem_cons, List.not_mem_nil, or_false] at htag
  unfold addQuantityDesignSens
  simp only [PointData.checkPoint_pointAt, liftM_length_ok, pure_bind]
  obtain rfl | rfl | rfl := htag
  · rw [lengthAtLeast_of_le (show 1 ≤ dfdq.size from hdfdq)]
    exact Solid.succeeds_addSens hn _
  · exact fun b => ⟨(), b, rfl, trivial⟩
  · have htwo : 2 ≤ dfdq.size := hdfdq
    rw [lengthAtLeast_of_le htwo]
    have hsize : (dfdq.take 2).size = 2 := by simpa using htwo
    exact Solid.succeeds_addHeatFluxSens hn (data.pointAt place).site scale (gradient data.ux)
      ⟨dfdq.take 2, hsize⟩

/-- **Conduction knows its quantities.** The heat flux has two values. -/
theorem hasQuantity {tag : QuantityTag} (htag : tag ∈ tags)
    (hn : c.law.designVar.isSome = true → 1 ≤ n) : HasQuantity c tag n (count tag) where
  quantity place data := c.succeeds_quantity place data htag
  count_le := by
    unfold count
    split <;> decide
  quantitySens place data := c.succeeds_quantitySens place data htag (size_quantityWeights _)
  addDesignSens place data :=
    c.succeeds_addQuantityDesignSens place data htag hn 1 (size_quantityWeights _)

/-- **Conduction refuses nothing.** -/
theorem isTotal (hn : c.law.designVar.isSome = true → 1 ≤ n) : IsTotal c tags n where
  weakIntegrand place data := c.succeeds_weakIntegrand place data
  weakJacobian place data := c.succeeds_weakJacobian place data
  addWeakAdjoint place data a := c.succeeds_addWeakAdjoint place data hn a 1
  hasQuantity tag htag := ⟨count tag, c.hasQuantity htag hn⟩
  quantityValues_of_unknown _ htag _ _ := quantityValues_of_unknown #[] htag

end Conductor

/-! ## Elements -/

/-- The quantities that a kind of physics knows, which are those that the probe finds
(`supports_modelOf`). -/
def Physics.tags : Physics α → List QuantityTag
  | .elasticity _ => Elasticity.tags
  | .conduction => Conductor.tags

/-- **The model of an element refuses nothing**, whatever its solid is. -/
theorem isTotal_modelOf (physics : Physics α) (s : Solid α) :
    IsTotal (modelOf physics s) physics.tags s.designValues.size := by
  cases physics with
  | elasticity thermalLoad =>
    have h := Elasticity.isTotal ⟨s, thermalLoad⟩ s.one_le_size_designValues
    -- the model of an element evaluates what its physics does, so each field is that of the physics
    refine ⟨h.weakIntegrand, h.weakJacobian, h.addWeakAdjoint, fun tag htag => ?_,
      h.quantityValues_of_unknown⟩
    obtain ⟨count, hquantity⟩ := h.hasQuantity tag htag
    exact ⟨count, hquantity.quantity, hquantity.count_le, hquantity.quantitySens,
      hquantity.addDesignSens⟩
  | conduction =>
    have h := Conductor.isTotal ⟨s⟩ s.one_le_size_designValues
    refine ⟨h.weakIntegrand, h.weakJacobian, h.addWeakAdjoint, fun tag htag => ?_,
      h.quantityValues_of_unknown⟩
    obtain ⟨count, hquantity⟩ := h.hasQuantity tag htag
    exact ⟨count, hquantity.quantity, hquantity.count_le, hquantity.quantitySens,
      hquantity.addDesignSens⟩

variable {physics : Physics α} {s : Solid α} {elem : ℕ} {config : CheckConfig α}

theorem designVarValues_modelOf :
    designVarValues (modelOf physics s) elem = .ok s.designValues := by
  obtain ⟨material, t, designVar, lower, upper⟩ := s
  cases designVar <;> cases physics <;> rfl

variable (elem) in
/-- The quotients along the thickness, if there is an answer for every thickness. -/
theorem exists_keeps_designDifferences {ask : SolidModel α → Except (ModelError α) α}
    (hask : ∀ t, ∃ answer, ask (modelOf physics { s with thickness := t }) = .ok answer)
    (step : α) : ∃ differences,
      Keeps (designDifferences (setDesignVars elem) s.designValues step ask) (modelOf physics s)
        (· = differences) := by
  obtain hs | ⟨index, hs⟩ := s.designVar.eq_none_or_eq_some
  · have hvalues : s.designValues = #[] := by
      unfold Solid.designValues
      rw [hs]
    rw [hvalues]
    exact ⟨[], keeps_pure rfl⟩
  · have hvalues : s.designValues = #[s.thickness] := by
      unfold Solid.designValues
      rw [hs]
    obtain ⟨plus, hplus⟩ := hask (s.thickness + step)
    obtain ⟨minus, hminus⟩ := hask (s.thickness + -step)
    rw [hvalues]
    exact ⟨_, (storesThickness_modelOf physics elem).keeps_designDifferences hs hplus hminus⟩

/-- **The comparison along the thickness cannot fail.** -/
theorem exists_keeps_comparison (add : (n : ℕ) → Evaluation α (Vector α n) Unit)
    (hadd : Succeeds (add s.designValues.size) fun _ _ _ => True)
    (ask : SolidModel α → Except (ModelError α) α)
    (hask : ∀ t, ∃ answer, ask (modelOf physics { s with thickness := t }) = .ok answer)
    (name : String) : ∃ result,
      Keeps (show Work (ModelError α) (SolidModel α) α (CheckResult α) from do
          let base ← designVarValues (modelOf physics s) elem
          let analytic ← Evaluation.fill (Vector.replicate base.size 0) (add base.size)
          let differences ← designDifferences (setDesignVars elem) base config.stepSize ask
          reported (.compare name analytic.toList differences config))
        (modelOf physics s) (· = result) := by
  obtain ⟨b, hb⟩ := hadd.exists_fill (Vector.replicate _ 0)
  obtain ⟨differences, hdifferences⟩ :=
    exists_keeps_designDifferences elem hask config.stepSize
  refine ⟨.compare name b.toList differences config, ?_⟩
  refine (keeps_liftM designVarValues_modelOf).bind ?_
  rintro _ rfl
  refine (keeps_liftM hb).bind ?_
  rintro _ rfl
  refine hdifferences.bind ?_
  rintro _ rfl
  exact keeps_reported rfl

section Checks

variable (config) (place : Point α) (data : PointData (dims (modelOf physics s)) α)

theorem exists_keeps_checkWeakAdjoint (a : AdjointData (dims (modelOf physics s)) α) :
    ∃ result, Keeps (checkWeakAdjoint (data.pointAt place) a.psi.toArray a.psix.toArray config)
      (modelOf physics s) (· = result) := by
  have hask : ∀ t, ∃ answer, adjointResidual (modelOf physics { s with thickness := t })
      (data.pointAt place) a.psi.toArray a.psix.toArray = .ok answer := by
    intro t
    have h := isTotal_modelOf physics { s with thickness := t }
    -- the dimensions are those of the physics, so the data fits the model of any thickness
    cases physics with
    | elasticity thermalLoad => exact h.exists_adjointResidual place data a
    | conduction => exact h.exists_adjointResidual place data a
  obtain ⟨result, hresult⟩ := exists_keeps_comparison
    (fun _ => addWeakAdjoint (modelOf physics s) _ _ _ 1)
    ((isTotal_modelOf physics s).addWeakAdjoint place data a)
    (fun model => adjointResidual model _ _ _) hask "weak adjoint product"
  refine ⟨result, keeps_subject.bind ?_⟩
  rintro _ rfl
  exact hresult

variable {tag : QuantityTag}

theorem exists_keeps_checkQuantityDesignSens (htag : tag ∈ physics.tags) :
    ∃ result, Keeps (checkQuantityDesignSens tag (data.pointAt place) #[] config)
      (modelOf physics s) (· = result) := by
  obtain ⟨count, hquantity⟩ := (isTotal_modelOf physics s).hasQuantity tag htag
  obtain ⟨values, hvalues, rfl⟩ := hquantity.exists_values place data
  have hask : ∀ t, ∃ answer, weightedQuantity (modelOf physics { s with thickness := t }) tag #[]
      (quantityWeights values.length) (data.pointAt place) = .ok answer := by
    intro t
    obtain ⟨_, h⟩ := (isTotal_modelOf physics { s with thickness := t }).hasQuantity tag htag
    cases physics with
    | elasticity thermalLoad => exact h.exists_weightedQuantity _ place data
    | conduction => exact h.exists_weightedQuantity _ place data
  obtain ⟨result, hresult⟩ := exists_keeps_comparison
    (fun _ => addQuantityDesignSens (modelOf physics s) tag 1 _ _ _)
    (hquantity.addDesignSens place data) (fun model => weightedQuantity model tag _ _ _) hask
    s!"point quantity {tag.label} design sensitivity"
  refine ⟨result, keeps_subject.bind ?_⟩
  rintro _ rfl
  refine (keeps_liftM hvalues).bind ?_
  rintro _ rfl
  exact hresult

/-- **The probe answers for every quantity**, and says whether the physics knows it. -/
theorem supports_modelOf (physics : Physics α) (s : Solid α) (tag : QuantityTag) (place : Point α)
    (data : PointData (dims (modelOf physics s)) α) :
    supports (modelOf physics s) tag (data.pointAt place) = .ok (decide (tag ∈ physics.tags)) := by
  have htotal := isTotal_modelOf physics s
  unfold supports
  by_cases htag : tag ∈ physics.tags
  · obtain ⟨count, hquantity⟩ := htotal.hasQuantity tag htag
    obtain ⟨values, hvalues, -⟩ := hquantity.exists_values place data
    rw [hvalues, decide_eq_true htag]
  · rw [htotal.quantityValues_of_unknown tag htag place data, decide_eq_false htag]

end Checks

/-! ## What is checked -/

section Results

variable {M : Type} [ElementModel M α]

/-- **The checks of a quantity**: what the checks along the state and along the design find, under
the name of the quantity, if the probe finds the quantity, and none otherwise. -/
inductive ElementModel.ChecksQuantity (model : M) (p : Point α) (registry : Registry)
    (config : CheckConfig α) (tag : QuantityTag) : List (CheckResult α) → Prop
  | supported {state design : CheckResult α} (hsupports : supports model tag p = .ok true)
    (hstate : checkQuantitySens model tag p #[] config = .ok state)
    (hdesign : Keeps (checkQuantityDesignSens tag p #[] config) model (· = design)) :
    ChecksQuantity model p registry config tag
      [{ state with name := registry.label tag ++ " state sensitivity" },
        { design with name := registry.label tag ++ " design sensitivity" }]
  | unsupported (hsupports : supports model tag p = .ok false) :
    ChecksQuantity model p registry config tag []

/-- **The checks of a model at a sample**: what the check of the Jacobian finds, then that of the
adjoint product, then those of each quantity in turn. -/
inductive ElementModel.Checks (model : M) (data : AdjointSample α) (registry : Registry)
    (config : CheckConfig α) (tags : List QuantityTag) : List (CheckResult α) → Prop
  | intro {jacobian adjoint : CheckResult α} {quantities : List (List (CheckResult α))}
    (hjacobian : checkWeakJacobian model data.sample.point config = .ok jacobian)
    (hadjoint : Keeps (checkWeakAdjoint data.sample.point data.psi data.psix config) model
      (· = adjoint))
    (hquantities : List.Forall₂ (ChecksQuantity model data.sample.point registry config) tags
      quantities) :
    Checks model data registry config tags (jacobian :: adjoint :: quantities.flatten)

/-- A comparison of the Jacobian has its name. -/
theorem name_of_checkWeakJacobian {model : M} {p : Point α} {config : CheckConfig α}
    {result : CheckResult α} (h : checkWeakJacobian model p config = .ok result) :
    result.name = "weak jacobian" := by
  unfold checkWeakJacobian at h
  obtain ⟨_, -, h⟩ := exists_of_except_bind_ok h
  obtain ⟨_, -, h⟩ := exists_of_except_bind_ok h
  obtain ⟨_, -, h⟩ := exists_of_except_bind_ok h
  obtain ⟨_, -, h⟩ := exists_of_except_bind_ok h
  cases h
  rfl

/-- A comparison of the adjoint product has its name. -/
theorem ensures_checkWeakAdjoint_name (p : Point α) (psi psix : Array α) (config : CheckConfig α) :
    Ensures (checkWeakAdjoint p psi psix config : Work (ModelError α) M α (CheckResult α))
      (·.name = "weak adjoint product") := by
  unfold checkWeakAdjoint
  refine (ensures_true _).bind fun _ _ => ?_
  refine (ensures_true _).bind fun _ _ => ?_
  refine (ensures_true _).bind fun _ _ => ?_
  refine (ensures_true _).bind fun _ _ => ?_
  exact (ensures_true _).bind fun _ _ => ensures_pure rfl

end Results

/-- The names of the checks of a quantity. -/
def Registry.checkNames (registry : Registry) (tag : QuantityTag) : List String :=
  [registry.label tag ++ " state sensitivity", registry.label tag ++ " design sensitivity"]

/-- The names of the checks of an element: the Jacobian, the adjoint product, and two for each
quantity that the physics knows, as often as it is listed. -/
def Physics.checkNames (physics : Physics α) (registry : Registry) (tags : List QuantityTag) :
    List String :=
  "weak jacobian" :: "weak adjoint product"
    :: tags.flatMap fun tag => if tag ∈ physics.tags then registry.checkNames tag else []

section Elements

variable (physics : Physics α) (s : Solid α) (elem : ℕ) (tags : List QuantityTag)
  (registry : Registry) (config : CheckConfig α)

/-- **A quantity has its checks.** -/
theorem keeps_verifyQuantity_checks (place : Point α)
    (data : PointData (dims (modelOf physics s)) α) (element : String) (tag : QuantityTag) :
    Keeps (verifyQuantity element (data.pointAt place) registry config tag) (modelOf physics s)
      (ChecksQuantity (modelOf physics s) (data.pointAt place) registry config tag) := by
  have htotal := isTotal_modelOf physics s
  have hsupports := supports_modelOf physics s tag place data
  by_cases htag : tag ∈ physics.tags
  · rw [decide_eq_true htag] at hsupports
    obtain ⟨count, hquantity⟩ := htotal.hasQuantity tag htag
    obtain ⟨state, hstate⟩ := hquantity.exists_checkQuantitySens config place data
    obtain ⟨design, hdesign⟩ := exists_keeps_checkQuantityDesignSens config place data htag
    refine (keeps_verifyQuantity_of_supported hsupports hstate hdesign element registry).imp ?_
    rintro _ ⟨_, rfl, rfl⟩
    exact .supported hsupports hstate hdesign
  · rw [decide_eq_false htag] at hsupports
    refine (keeps_verifyQuantity_of_unsupported
      (htotal.quantityValues_of_unknown tag htag place data) element registry).imp ?_
    rintro _ rfl
    exact .unsupported hsupports

/-- **Verifying an element cannot fail**, and its report has the checks of its model. -/
theorem keeps_verifyElement_checks (name kind : String) :
    Keeps (verifyElement name kind elem tags registry config) (modelOf physics s) fun report =>
      report.name = name ∧ report.kind = kind ∧ Checks (modelOf physics s)
        (.ofDims (dims (modelOf physics s)) elem) registry config tags report.checks := by
  obtain ⟨place, data, a, hpoint, hpsi, hpsix⟩ :=
    AdjointSample.exists_ofDims (α := α) (dims (modelOf physics s)) elem
  obtain ⟨jacobian, hjacobian⟩ :=
    (isTotal_modelOf physics s).exists_checkWeakJacobian config place data
  obtain ⟨adjoint, hadjoint⟩ := exists_keeps_checkWeakAdjoint config place data a
  set p := data.pointAt place
  have hquantities : Keeps (tags.mapM (verifyQuantity name p registry config)) (modelOf physics s)
      (List.Forall₂ (ChecksQuantity (modelOf physics s) p registry config) tags) :=
    keeps_mapM_forall₂ fun tag _ =>
      keeps_verifyQuantity_checks physics s registry config place data name tag
  rw [← hpoint] at hjacobian hadjoint hquantities
  rw [← hpsi, ← hpsix] at hadjoint
  unfold verifyElement
  refine keeps_subject.bind ?_
  rintro _ rfl
  refine (keeps_liftM hjacobian).bind ?_
  rintro _ rfl
  refine (keeps_reported (P := (· = _)) rfl).bind ?_
  rintro _ rfl
  refine hadjoint.bind ?_
  rintro _ rfl
  refine hquantities.bind fun quantities hquantities => ?_
  exact keeps_pure ⟨rfl, rfl, .intro hjacobian hadjoint hquantities⟩

variable {physics s elem tags registry config}

/-- A quantity has its names, or none if the physics does not know it. -/
theorem ElementModel.ChecksQuantity.map_name {place : Point α}
    {data : PointData (dims (modelOf physics s)) α} {tag : QuantityTag}
    {checks : List (CheckResult α)}
    (h : ChecksQuantity (modelOf physics s) (data.pointAt place) registry config tag checks) :
    checks.map (·.name) = if tag ∈ physics.tags then registry.checkNames tag else [] := by
  have hprobe := supports_modelOf physics s tag place data
  cases h with
  | supported hsupports =>
    rw [hsupports] at hprobe
    rw [if_pos (of_decide_eq_true (Except.ok.inj hprobe).symm)]
    rfl
  | unsupported hsupports =>
    rw [hsupports] at hprobe
    rw [if_neg (of_decide_eq_false (Except.ok.inj hprobe).symm)]
    rfl

/-- **The checks have the names of the physics**, in their order. -/
theorem ElementModel.Checks.map_name {checks : List (CheckResult α)}
    (h : Checks (modelOf physics s) (.ofDims (dims (modelOf physics s)) elem) registry config tags
      checks) : checks.map (·.name) = physics.checkNames registry tags := by
  obtain ⟨place, data, a, hpoint, -, -⟩ :=
    AdjointSample.exists_ofDims (α := α) (dims (modelOf physics s)) elem
  obtain @⟨jacobian, adjoint, quantities, hjacobian, hadjoint, hquantities⟩ := h
  obtain ⟨_, _, hrun, rfl⟩ := hadjoint []
  have hname := ensures_checkWeakAdjoint_name _ _ _ _ _ _ _ hrun
  rw [hpoint] at hquantities
  have hnames : quantities.map (List.map (·.name))
      = tags.map fun tag => if tag ∈ physics.tags then registry.checkNames tag else [] := by
    rw [← List.forall₂_eq_eq_eq, List.forall₂_map_left_iff, List.forall₂_map_right_iff]
    exact (hquantities.imp fun _ _ h => h.map_name).flip
  rw [List.map_cons, List.map_cons, name_of_checkWeakJacobian hjacobian, hname, List.map_flatten,
    hnames]
  rfl

end Elements

end WeakForm
