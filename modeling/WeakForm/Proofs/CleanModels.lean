import WeakForm.Element.Conduction
import WeakForm.Element.Elasticity
import WeakForm.Proofs.AdjointProduct
import WeakForm.Proofs.Refusals

/-!
# Clean element models

Elasticity and conduction ask their solid for what the material knows, with buffers of their own
that have the right length, and write to the buffers of their caller themselves. So a nested
evaluation is refused only where the caller's own sensitivities are handed on, and what a model has
written is never followed by a refusal, with **one exception**: the coefficients are stored before
the length of the Jacobian is tested (`Linearization.IsClean`).

Records are written section by section, each of them only if it fits. A record that has been started
fits as a whole, and nothing behind it is touched (`RecordCursor.Covers`), so it is enough that the
values of each section are known (`RecordCursor.Finishes`).
-/

namespace WeakForm

open Evaluation

variable {α : Type}

/-! ## Records -/

namespace RecordCursor

variable {n : ℕ}

/-- **A record that is being written**: it fits the buffer, and the buffer is untouched from the
cursor on. -/
structure Covers (cursor : RecordCursor) (before after : Vector α n) : Prop where
  position_le : cursor.position ≤ cursor.limit
  limit_le : cursor.limit ≤ n
  agree : AgreeFrom cursor.position before after

theorem covers_start {etype : ElementType} {flags : OutputFlags} {stride : ℕ}
    {cursor : RecordCursor} (h : start etype flags stride n = .ok cursor) (b : Vector α n) :
    cursor.Covers b b := by
  unfold start at h
  obtain ⟨⟨hroom⟩, -, h⟩ := exists_of_except_bind_ok h
  cases h
  exact ⟨Nat.zero_le _, hroom.trans (min_le_right _ _), .refl 0 b⟩

section Section

variable {flags part : OutputFlags} {values : Unit → Except (ModelError α) (Array α)}
  {array : Array α} {cursor : RecordCursor}

/-- A section that is not among the flags is left out. -/
theorem section?_of_not_contains (h : ¬ flags.contains part = true)
    (values : Unit → Except (ModelError α) (Array α)) (cursor : RecordCursor) (b : Vector α n) :
    cursor.section? flags part values b = .ok cursor b := by
  unfold section?
  rw [if_neg h]
  rfl

/-- A section that fits is written. -/
theorem section?_of_fits (hflag : flags.contains part = true) (hvalues : values () = .ok array)
    (hroom : cursor.position + array.size ≤ cursor.limit) (b : Vector α n) :
    cursor.section? flags part values b
      = .ok { cursor with position := cursor.position + array.size }
          (overwrite b cursor.position array) := by
  unfold section? write
  rw [if_pos hflag, hvalues, liftM_ok, pure_bind_apply, if_pos hroom]
  rfl

/-- A section that does not fit is dropped. -/
theorem section?_of_full (hflag : flags.contains part = true) (hvalues : values () = .ok array)
    (hroom : ¬ cursor.position + array.size ≤ cursor.limit) (b : Vector α n) :
    cursor.section? flags part values b = .ok cursor b := by
  unfold section? write
  rw [if_pos hflag, hvalues, liftM_ok, pure_bind_apply, if_neg hroom]
  rfl

end Section

/-- The rest of a record, which is written from a cursor on and cannot fail. -/
def Finishes (before : Vector α n) (rest : RecordCursor → Evaluation α (Vector α n) ℕ) : Prop :=
  ∀ cursor b, cursor.Covers before b →
    ∃ count b', rest cursor b = .ok count b' ∧ count ≤ n ∧ AgreeFrom count before b'

theorem finishes_position (before : Vector α n) :
    Finishes before fun cursor => return cursor.position :=
  fun cursor b h => ⟨cursor.position, b, rfl, h.position_le.trans h.limit_le, h.agree⟩

/-- **A section whose values are known goes before the rest**: it is written between two places of
the cursor, or not at all. -/
theorem Finishes.section {before : Vector α n} {rest : RecordCursor → Evaluation α (Vector α n) ℕ}
    (h : Finishes before rest) {flags part : OutputFlags}
    {values : Unit → Except (ModelError α) (Array α)} (hvalues : ∃ array, values () = .ok array) :
    Finishes before fun cursor => cursor.section? flags part values >>= rest := by
  obtain ⟨array, hvalues⟩ := hvalues
  intro cursor b hcovers
  dsimp only
  by_cases hflag : flags.contains part = true
  · by_cases hroom : cursor.position + array.size ≤ cursor.limit
    · have hagree := hcovers.agree.trans (agreeFrom_overwrite b cursor.position array)
        (Nat.le_add_right _ _)
      rw [bind_of_ok (section?_of_fits hflag hvalues hroom b)]
      exact h _ _ ⟨hroom, hcovers.limit_le, hagree⟩
    · rw [bind_of_ok (section?_of_full hflag hvalues hroom b)]
      exact h cursor b hcovers
  · rw [bind_of_ok (section?_of_not_contains hflag values cursor b)]
    exact h cursor b hcovers

end RecordCursor

/-! ## Models -/

section Models

variable [Scalar α]

open ElementModel

/-- A test of lengths passes, or some length is another one than expected. -/
def IsMatched {β : Type} (x : Except LengthFault β) : Prop :=
  (∃ b, x = .ok b) ∨ ∃ what expected actual, x = .error (.mismatch what expected actual)

/-- **A clean Jacobian** follows its integrand. It is refused as the integrand is, with every buffer
as it was; or the coefficients are stored, and then its own buffer either has room for the pattern,
and keeps what lies behind it, or is too short and keeps everything. -/
def Linearization.IsClean {n m k : ℕ} (integrand : Evaluation α (Coefficients α n m) Unit)
    (pattern : JacobianPattern) (size : ℕ)
    (jacobian : Evaluation α (Linearization α n m k) JacobianPattern) : Prop :=
  ∀ b,
    (∃ e, e.IsRefusal ∧ integrand b.coefficients = .error e b.coefficients
        ∧ jacobian b = .error e b)
      ∨ ∃ c, integrand b.coefficients = .ok () c ∧
        if pattern.nnz size ≤ k then
          ∃ jac, jacobian b = .ok pattern ⟨c, jac⟩ ∧ AgreeFrom (pattern.nnz size) b.jac jac
        else jacobian b = .error (.length (.tooShort "jac" (pattern.nnz size) k)) ⟨c, b.jac⟩

/-- **A clean element model**: its tests of lengths find the lengths or a mismatch, and each of its
evaluations is clean. The coefficients and the derivatives of a quantity have exactly the lengths
that the dimensions ask for; sensitivities and design variables are written at their first place
only, quantities and records up to the number of values that is returned, and a Jacobian up to the
length of its pattern. -/
structure ElementModel.IsClean (M : Type) [ElementModel M α] : Prop where
  checkPoint : ∀ (model : M) (p : Point α), IsMatched ((dims model).checkPoint p)
  checkCoefficients : ∀ (model : M) (n m : ℕ), IsMatched ((dims model).checkCoefficients n m)
  checkAdjoint : ∀ (model : M) (psi psix : Array α), IsMatched ((dims model).checkAdjoint psi psix)
  designVarNums : ∀ (model : M) (elem n : ℕ),
    Evaluation.IsClean (ElementModel.designVarNums model elem)
      fun (nums : Option (Vector ℕ n)) _ nums' => Option.Rel (AgreeFrom 1) nums nums'
  setDesignVars : ∀ (elem : ℕ) (values : Array α),
    Evaluation.IsClean (ElementModel.setDesignVars elem values : Work (ModelError α) M α Unit)
      fun _ _ _ => True
  designVars : ∀ (model : M) (elem n : ℕ),
    Evaluation.IsClean (ElementModel.designVars model elem)
      fun (b : Vector α n) _ b' => AgreeFrom 1 b b'
  designVarRange : ∀ (model : M) (elem n m : ℕ),
    Evaluation.IsClean (ElementModel.designVarRange model elem)
      fun (b : Vector α n × Vector α m) _ b' => AgreeFrom 1 b.1 b'.1 ∧ AgreeFrom 1 b.2 b'.2
  weakIntegrand : ∀ (model : M) (p : Point α) (n m : ℕ),
    Evaluation.IsClean (ElementModel.weakIntegrand model p)
      fun (_ : Coefficients α n m) _ _ => True
  weakJacobian : ∀ model : M, ∃ pattern, ∀ (p : Point α) (n m k : ℕ),
    Linearization.IsClean (n := n) (m := m) (k := k) (ElementModel.weakIntegrand model p) pattern
      (dims model).jacobianSize (ElementModel.weakJacobian model p)
  addWeakAdjoint : ∀ (model : M) (p : Point α) (psi psix : Array α) (scale : α) (n : ℕ),
    Evaluation.IsClean (ElementModel.addWeakAdjoint model p psi psix scale)
      fun (b : Vector α n) _ b' => AgreeFrom 1 b b'
  quantity : ∀ (model : M) (tag : QuantityTag) (p : Point α) (xd : Array α) (n : ℕ),
    Evaluation.IsClean (ElementModel.quantity model tag p xd)
      fun (b : Vector α n) count b' => count ≤ n ∧ AgreeFrom count b b'
  addQuantityDesignSens : ∀ (model : M) (tag : QuantityTag) (scale : α) (p : Point α)
    (xd dfdq : Array α) (n : ℕ),
    Evaluation.IsClean (ElementModel.addQuantityDesignSens model tag scale p xd dfdq)
      fun (b : Vector α n) _ b' => AgreeFrom 1 b b'
  quantitySens : ∀ (model : M) (tag : QuantityTag) (p : Point α) (xd dfdq : Array α)
    (a b c d : ℕ),
    Evaluation.IsClean (ElementModel.quantitySens model tag p xd dfdq)
      fun (_ : QuantitySens α a b c d) _ _ => True
  output : ∀ (model : M) (p : Point α) (etype : ElementType) (flags : OutputFlags) (stride n : ℕ),
    Evaluation.IsClean (ElementModel.output model p etype flags stride)
      fun (b : Vector α n) count b' => count ≤ n ∧ AgreeFrom count b b'

end Models

open ElementModel RecordCursor

/-! ## Lengths -/

theorem isMatched_sized {β : Type} (what : String) (n : ℕ) (values : Array β) :
    IsMatched (sized what n values) := by
  unfold sized
  split
  · exact Or.inl ⟨_, rfl⟩
  · exact Or.inr ⟨_, _, _, rfl⟩

theorem isMatched_lengthIs (what : String) (n m : ℕ) : IsMatched (lengthIs what n m) := by
  unfold lengthIs
  split
  · exact Or.inl ⟨_, rfl⟩
  · exact Or.inr ⟨_, _, _, rfl⟩

theorem IsMatched.bind {β γ : Type} {x : Except LengthFault β} {f : β → Except LengthFault γ}
    (h : IsMatched x) (hf : ∀ b, IsMatched (f b)) : IsMatched (x >>= f) := by
  obtain ⟨b, rfl⟩ | ⟨what, expected, actual, rfl⟩ := h
  · exact hf b
  · exact Or.inr ⟨what, expected, actual, rfl⟩

namespace Dims

variable (d : Dims)

theorem isMatched_checkPoint (p : Point α) : IsMatched (d.checkPoint p) :=
  (isMatched_sized _ _ _).bind fun _ => (isMatched_sized _ _ _).bind fun _ =>
    (isMatched_sized _ _ _).bind fun _ => Or.inl ⟨_, rfl⟩

theorem isMatched_checkCoefficients (n m : ℕ) : IsMatched (d.checkCoefficients n m) :=
  (isMatched_lengthIs _ _ _).bind fun _ => (isMatched_lengthIs _ _ _).bind fun _ => Or.inl ⟨_, rfl⟩

theorem isMatched_checkAdjoint (psi psix : Array α) : IsMatched (d.checkAdjoint psi psix) :=
  (isMatched_sized _ _ _).bind fun _ => (isMatched_sized _ _ _).bind fun _ => Or.inl ⟨_, rfl⟩

end Dims

/-! ## The Jacobian -/

/-- An evaluation of coefficients that is refused leaves the whole linearization as it was. -/
theorem Linearization.onCoefficients_of_error {β : Type} {n m k : ℕ}
    {evaluation : Evaluation α (Coefficients α n m) β} {b : Linearization α n m k}
    {e : ModelError α} (h : evaluation b.coefficients = .error e b.coefficients) :
    onCoefficients evaluation b = .error e b := by
  unfold onCoefficients
  rw [h]

/-- **A Jacobian is clean if it asks for its room after the coefficients** and cannot fail once it
has it. -/
theorem Linearization.isClean_after {n m k size : ℕ} {pattern : JacobianPattern}
    {integrand : Evaluation α (Coefficients α n m) Unit}
    (hintegrand : Evaluation.IsClean integrand fun _ _ _ => True)
    {rest : PLift (pattern.nnz size ≤ k) → Evaluation α (Linearization α n m k) JacobianPattern}
    (hrest : ∀ h b, ∃ jac, rest h b = .ok pattern ⟨b.coefficients, jac⟩
      ∧ AgreeFrom (pattern.nnz size) b.jac jac) :
    IsClean integrand pattern size
      (onCoefficients integrand >>= fun _ =>
        liftM (lengthAtLeast "jac" k (pattern.nnz size)) >>= rest) := by
  intro b
  obtain ⟨_, c, hc, -⟩ | ⟨e, he, hrefusal⟩ := hintegrand b.coefficients
  · rw [bind_of_ok (onCoefficients_of_ok b hc)]
    refine Or.inr ⟨c, hc, ?_⟩
    split
    · next hk =>
      rw [lengthAtLeast_of_le hk, liftM_length_ok, pure_bind_apply]
      exact hrest ⟨hk⟩ ⟨c, b.jac⟩
    · next hk =>
      rw [lengthAtLeast_of_lt (not_le.mp hk), liftM_length_error, throw_bind_apply]
  · rw [bind_of_error (onCoefficients_of_error he)]
    exact Or.inl ⟨e, hrefusal, he, rfl⟩

theorem agreeFrom_overwrite_zero {n : ℕ} (jac : Vector α n) {values : Array α} {k : ℕ}
    (h : values.size = k) : AgreeFrom k jac (overwrite jac 0 values) := by
  have hagree := agreeFrom_overwrite jac 0 values
  rwa [zero_add, h] at hagree

/-- What is done on a part is clean on the whole. -/
theorem Work.isClean_onPart {σ τ β : Type} {part : σ → τ} {replace : τ → σ → σ}
    {work : Work (ModelError α) τ α β} (hreplace : ∀ s, replace (part s) s = s)
    (h : IsClean work fun _ _ _ => True) :
    IsClean (Work.onPart part replace work : Work (ModelError α) σ α β) fun _ _ _ => True := by
  intro t
  unfold Work.onPart
  obtain ⟨b, t', hwork, -⟩ | ⟨e, hwork, he⟩ := h ⟨part t.subject, t.journal⟩
  · rw [hwork]
    exact Or.inl ⟨b, _, rfl, trivial⟩
  · rw [hwork]
    refine Or.inr ⟨e, ?_, he⟩
    dsimp only
    rw [hreplace]

variable [Scalar α]

/-! ## Elasticity -/

namespace Elasticity

variable (e : Elasticity (Solid α) α)

/-- A solid is asked for its thermal strain with a buffer of the right length, so it answers. -/
theorem exists_mechanicalStrain (site : Site α) (ux : Vector α 12) :
    ∃ strain, e.mechanicalStrain site ux = .ok strain := by
  unfold mechanicalStrain
  dsimp only
  split <;> exact ⟨_, rfl⟩

theorem isClean_weakIntegrand (p : Point α) (n m : ℕ) :
    IsClean (e.weakIntegrand p) fun (_ : Coefficients α n m) _ _ => True := by
  unfold weakIntegrand
  refine isClean_length_bind fun data _ => isClean_length_bind fun ⟨hn, hm⟩ _ => ?_
  refine Succeeds.isClean fun b => ?_
  obtain ⟨strain, hstrain⟩ := e.exists_mechanicalStrain p.site data.ux
  simp only [modify_bind_apply, hstrain, liftM_ok, pure_bind_apply]
  exact ⟨(), _, rfl, trivial⟩

theorem isClean_weakJacobian (p : Point α) (n m k : ℕ) :
    Linearization.IsClean (n := n) (m := m) (k := k) (e.weakIntegrand p) (.sparse pattern)
      dims.jacobianSize (e.weakJacobian p) := by
  refine Linearization.isClean_after (e.isClean_weakIntegrand p n m) fun _ b => ⟨_, rfl, ?_⟩
  exact agreeFrom_overwrite_zero b.jac rfl

theorem isClean_addWeakAdjoint (p : Point α) (psi psix : Array α) (scale : α) (n : ℕ) :
    IsClean (e.addWeakAdjoint p psi psix scale) fun (b : Vector α n) _ b' => AgreeFrom 1 b b' := by
  unfold addWeakAdjoint
  refine isClean_length_bind fun data _ => isClean_length_bind fun adjoint _ => ?_
  obtain ⟨strain, hstrain⟩ := e.exists_mechanicalStrain p.site data.ux
  simp only [hstrain, liftM_ok]
  obtain hadds | hrefuses := e.law.addSens_cases n
  · refine (Succeeds.bind (fun _ _ _ h h' => h.trans h' le_rfl) (hadds _) fun _ => ?_).isClean
    intro b
    simp only [pure_bind_apply, Constitutive.addStressSens, sized_toArray, liftM_length_ok]
    exact hadds _ b
  · exact fun b => Or.inr ⟨_, bind_of_error (hrefuses _ b), .length _⟩

/-- A quantity has a value, or elasticity does not know it. -/
theorem isAnswered_quantityValue (tag : QuantityTag) (site : Site α) (data : PointData dims α) :
    IsAnswered (e.quantityValue tag site data) := by
  obtain ⟨strain, hstrain⟩ := e.exists_mechanicalStrain site data.ux
  unfold quantityValue
  simp only [hstrain, except_ok_bind]
  split
  · exact Solid.isClean.failure e.law site strain.toArray
  · exact isAnswered_of_ok rfl
  · exact isAnswered_of_ok rfl
  · exact Or.inr ⟨_, rfl, .unsupportedQuantity tag⟩

theorem isClean_quantity (tag : QuantityTag) (p : Point α) (n : ℕ) :
    IsClean (e.quantity tag p)
      fun (b : Vector α n) count b' => count ≤ n ∧ AgreeFrom count b b' := by
  unfold quantity
  refine isClean_length_bind fun data _ => ?_
  refine isClean_liftM_bind (e.isAnswered_quantityValue tag p.site data) fun value _ => ?_
  refine isClean_length_bind fun ⟨h⟩ _ => Succeeds.isClean fun b => ?_
  exact ⟨1, _, rfl, h, agreeFrom_set_zero h b value⟩

theorem isClean_addQuantityDesignSens (tag : QuantityTag) (scale : α) (p : Point α)
    (dfdq : Array α) (n : ℕ) :
    IsClean (e.addQuantityDesignSens tag scale p dfdq)
      fun (b : Vector α n) _ b' => AgreeFrom 1 b b' := by
  unfold addQuantityDesignSens
  refine isClean_length_bind fun data _ => ?_
  obtain ⟨strain, hstrain⟩ := e.exists_mechanicalStrain p.site data.ux
  simp only [hstrain, liftM_ok, pure_bind]
  split
  · exact isClean_length_bind fun _ _ => Solid.isClean.addFailureSens e.law p.site _ _ n
  · exact isClean_length_bind fun _ _ => Solid.isClean.addDensitySens e.law p.site _ n
  · exact isClean_length_bind fun _ _ => Solid.isClean.addStressSens e.law p.site _ _ _ n
  · exact isClean_throw (.unsupportedQuantity tag)

theorem isAnswered_quantityStrainGradient (tag : QuantityTag) (site : Site α)
    (data : PointData dims α) : IsAnswered (e.quantityStrainGradient tag site data) := by
  obtain ⟨strain, hstrain⟩ := e.exists_mechanicalStrain site data.ux
  unfold quantityStrainGradient
  simp only [hstrain, except_ok_bind]
  split
  · simp only [Constitutive.failureGradient, sized_toArray]
    exact isAnswered_of_ok rfl
  · exact isAnswered_of_ok rfl
  · exact isAnswered_of_ok rfl
  · exact Or.inr ⟨_, rfl, .unsupportedQuantity tag⟩

theorem isClean_quantitySens (tag : QuantityTag) (p : Point α) (dfdq : Array α) (a b c d : ℕ) :
    IsClean (e.quantitySens tag p dfdq) fun (_ : QuantitySens α a b c d) _ _ => True := by
  unfold quantitySens
  refine isClean_length_bind fun data _ => isClean_length_bind fun ⟨_, _, hd⟩ _ => ?_
  refine isClean_liftM_bind (e.isAnswered_quantityStrainGradient tag p.site data)
    fun gradient _ => ?_
  refine isClean_length_bind fun ⟨h⟩ _ => Succeeds.isClean fun buffers => ?_
  cases gradient <;> exact ⟨(), _, rfl, trivial⟩

theorem isClean_output (p : Point α) (etype : ElementType) (flags : OutputFlags) (stride n : ℕ) :
    IsClean (e.output p etype flags stride)
      fun (b : Vector α n) count b' => count ≤ n ∧ AgreeFrom count b b' := by
  unfold output
  split
  · exact isClean_pure fun b => ⟨Nat.zero_le n, .refl 0 b⟩
  · refine isClean_length_bind fun data _ => isClean_length_bind fun cursor hcursor => ?_
    refine Succeeds.isClean fun b => ?_
    obtain ⟨strain, hstrain⟩ := e.exists_mechanicalStrain p.site data.ux
    refine (((((finishes_position b).section ?extras).section ?stresses).section ⟨_, rfl⟩).section
      ⟨_, rfl⟩).section ⟨_, rfl⟩ cursor b (covers_start hcursor b)
    case stresses =>
      simp only [hstrain, except_ok_bind, Constitutive.stress, sized_toArray]
      exact ⟨_, rfl⟩
    case extras =>
      simp only [hstrain, except_ok_bind, Constitutive.failure, sized_toArray]
      exact ⟨_, rfl⟩

end Elasticity

/-! ## Conduction -/

namespace Conductor

variable (c : Conductor (Solid α))

theorem isClean_weakIntegrand (p : Point α) (n m : ℕ) :
    IsClean (c.weakIntegrand p) fun (_ : Coefficients α n m) _ _ => True := by
  unfold weakIntegrand
  refine isClean_length_bind fun data _ => isClean_length_bind fun ⟨hn, hm⟩ _ => ?_
  exact Succeeds.isClean fun b => ⟨(), _, rfl, trivial⟩

theorem isClean_weakJacobian (p : Point α) (n m k : ℕ) :
    Linearization.IsClean (n := n) (m := m) (k := k) (c.weakIntegrand p) (.sparse pattern)
      dims.jacobianSize (c.weakJacobian p) := by
  refine Linearization.isClean_after (c.isClean_weakIntegrand p n m) fun _ b => ⟨_, rfl, ?_⟩
  exact agreeFrom_overwrite_zero b.jac rfl

theorem isClean_addWeakAdjoint (p : Point α) (psi psix : Array α) (scale : α) (n : ℕ) :
    IsClean (c.addWeakAdjoint p psi psix scale) fun (b : Vector α n) _ b' => AgreeFrom 1 b b' := by
  unfold addWeakAdjoint
  refine isClean_length_bind fun data _ => ?_
  obtain ⟨fault, hfault⟩ | ⟨adjoint, rfl, rfl⟩ := dims.checkAdjoint_cases psi psix
  · rw [hfault]
    exact isClean_throw (.length fault)
  · have hpsix : sized "psi" 2 adjoint.psix.toArray = .ok (adjoint.psix : Vector α 2) :=
      sized_toArray "psi" (n := 2) adjoint.psix
    refine isClean_length_bind fun _ _ => ?_
    obtain hadds | hrefuses := c.law.addSens_cases n
    · refine (Succeeds.bind (fun _ _ _ h h' => h.trans h' le_rfl) (hadds _) fun _ =>
        Succeeds.bind (fun _ _ _ h h' => h.trans h' le_rfl) (hadds _) fun _ b => ?_).isClean
      simp only [Constitutive.addHeatFluxSens, sized_toArray, hpsix, liftM_length_ok,
        pure_bind_apply]
      exact hadds _ b
    · exact fun b => Or.inr ⟨_, bind_of_error (hrefuses _ b), .length _⟩

theorem isClean_quantity (tag : QuantityTag) (p : Point α) (n : ℕ) :
    IsClean (c.quantity tag p)
      fun (b : Vector α n) count b' => count ≤ n ∧ AgreeFrom count b b' := by
  unfold quantity
  refine isClean_length_bind fun data _ => ?_
  split
  · refine isClean_length_bind fun ⟨h⟩ _ => Succeeds.isClean fun b => ?_
    exact ⟨1, _, rfl, h, agreeFrom_set_zero h b _⟩
  · refine isClean_length_bind fun ⟨h⟩ _ => Succeeds.isClean fun b => ?_
    exact ⟨1, _, rfl, h, agreeFrom_set_zero h b _⟩
  · refine isClean_length_bind fun ⟨h⟩ _ => Succeeds.isClean fun b => ?_
    exact ⟨2, _, rfl, h, agreeFrom_overwrite_zero b (Vector.size_toArray _)⟩
  · exact isClean_throw (.unsupportedQuantity tag)

theorem isClean_addQuantityDesignSens (tag : QuantityTag) (scale : α) (p : Point α)
    (dfdq : Array α) (n : ℕ) :
    IsClean (c.addQuantityDesignSens tag scale p dfdq)
      fun (b : Vector α n) _ b' => AgreeFrom 1 b b' := by
  unfold addQuantityDesignSens
  refine isClean_length_bind fun data _ => ?_
  split
  · exact isClean_length_bind fun _ _ => Solid.isClean.addDensitySens c.law p.site _ n
  · exact isClean_pure (.refl 1)
  · exact isClean_length_bind fun _ _ => Solid.isClean.addHeatFluxSens c.law p.site _ _ _ n
  · exact isClean_throw (.unsupportedQuantity tag)

theorem isClean_quantitySens (tag : QuantityTag) (p : Point α) (dfdq : Array α) (a b c' d : ℕ) :
    IsClean (c.quantitySens tag p dfdq) fun (_ : QuantitySens α a b c' d) _ _ => True := by
  unfold quantitySens
  refine isClean_length_bind fun data _ => isClean_length_bind fun ⟨_, _, _⟩ _ => ?_
  dsimp only
  split
  · exact isClean_length_bind fun _ _ => Succeeds.isClean fun _ => ⟨(), _, rfl, trivial⟩
  · exact isClean_length_bind fun _ _ => Succeeds.isClean fun _ => ⟨(), _, rfl, trivial⟩
  · exact isClean_length_bind fun _ _ => Succeeds.isClean fun _ => ⟨(), _, rfl, trivial⟩
  · exact isClean_throw (.unsupportedQuantity tag)

theorem isClean_output (p : Point α) (etype : ElementType) (flags : OutputFlags) (stride n : ℕ) :
    IsClean (c.output p etype flags stride)
      fun (b : Vector α n) count b' => count ≤ n ∧ AgreeFrom count b b' := by
  unfold output
  split
  · exact isClean_pure fun b => ⟨Nat.zero_le n, .refl 0 b⟩
  · refine isClean_length_bind fun data _ => isClean_length_bind fun cursor hcursor => ?_
    refine Succeeds.isClean fun b => ?_
    refine (((((finishes_position b).section ⟨_, rfl⟩).section ?stresses).section ⟨_, rfl⟩).section
      ⟨_, rfl⟩).section ⟨_, rfl⟩ cursor b (covers_start hcursor b)
    case stresses =>
      simp only [Constitutive.heatFlux, sized_toArray]
      exact ⟨_, rfl⟩

end Conductor

/-! ## Every evaluation is clean -/

theorem Elasticity.isClean : ElementModel.IsClean (Elasticity (Solid α) α) where
  checkPoint _ := dims.isMatched_checkPoint
  checkCoefficients _ := dims.isMatched_checkCoefficients
  checkAdjoint _ := dims.isMatched_checkAdjoint
  designVarNums e := Solid.isClean.designVarNums e.law
  setDesignVars elem values :=
    Work.isClean_onPart (fun _ => rfl) (Solid.isClean.setDesignVars elem values)
  designVars e := Solid.isClean.designVars e.law
  designVarRange e := Solid.isClean.designVarRange e.law
  weakIntegrand e := e.isClean_weakIntegrand
  weakJacobian e := ⟨.sparse pattern, e.isClean_weakJacobian⟩
  addWeakAdjoint e := e.isClean_addWeakAdjoint
  quantity e tag p _ n := e.isClean_quantity tag p n
  addQuantityDesignSens e tag scale p _ dfdq n := e.isClean_addQuantityDesignSens tag scale p dfdq n
  quantitySens e tag p _ dfdq := e.isClean_quantitySens tag p dfdq
  output e := e.isClean_output

theorem Conductor.isClean : ElementModel.IsClean (Conductor (Solid α)) where
  checkPoint _ := dims.isMatched_checkPoint
  checkCoefficients _ := dims.isMatched_checkCoefficients
  checkAdjoint _ := dims.isMatched_checkAdjoint
  designVarNums c := Solid.isClean.designVarNums c.law
  setDesignVars elem values :=
    Work.isClean_onPart (fun _ => rfl) (Solid.isClean.setDesignVars elem values)
  designVars c := Solid.isClean.designVars c.law
  designVarRange c := Solid.isClean.designVarRange c.law
  weakIntegrand c := c.isClean_weakIntegrand
  weakJacobian c := ⟨.sparse pattern, c.isClean_weakJacobian⟩
  addWeakAdjoint c := c.isClean_addWeakAdjoint
  quantity c tag p _ n := c.isClean_quantity tag p n
  addQuantityDesignSens c tag scale p _ dfdq n := c.isClean_addQuantityDesignSens tag scale p dfdq n
  quantitySens c tag p _ dfdq := c.isClean_quantitySens tag p dfdq
  output c := c.isClean_output

/-- **Evaluations of a solid, and of elasticity and conduction over it, are clean**: whatever the
lengths, the tag and the flags are, they succeed and keep what lies behind the places that they
write to, or they refuse their arguments and leave every buffer, and the model, as it was. Only a
Jacobian without room for its pattern has stored its coefficients. -/
theorem isClean_evaluations :
    Constitutive.IsClean (Solid α) ∧ ElementModel.IsClean (Elasticity (Solid α) α)
      ∧ ElementModel.IsClean (Conductor (Solid α)) :=
  ⟨Solid.isClean, Elasticity.isClean, Conductor.isClean⟩

end WeakForm
