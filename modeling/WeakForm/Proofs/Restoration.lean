import WeakForm.Check.Constitutive
import WeakForm.Element.Solid
import WeakForm.Proofs.Runs
import WeakForm.Verification

/-!
# Checks give back what they work on

A check along the design variables shifts them and sets them back, twice for each of them, and it
may fail between any two of these steps: a length may be wrong, a quantity may be unknown, an
evaluation may be refused. **Whichever way it ends, the model is the one that it was given**
(`Work.Restores`). What makes this true is small: setting the values that a model had takes back the
setting of any others (`Work.Undoes`), because a solid stores the very number that it is given. No
law of arithmetic is asked for, so it makes no difference how numbers are rounded or whether they
are numbers at all.
-/

namespace WeakForm

open ElementModel

namespace Work

variable {ε σ τ α β γ : Type} {s : σ}

/-! ## Work that gives its subject back -/

/-- The subject that a run leaves, whether it has succeeded or failed. -/
def subjectAfter (work : Work ε σ α β) (t : Tracked σ α) : σ :=
  match work t with
  | .ok _ t' => t'.subject
  | .error _ t' => t'.subject

/-- **Work that gives its subject back**, whether it succeeds or fails. -/
def Restores (work : Work ε σ α β) (s : σ) : Prop :=
  ∀ journal, subjectAfter work ⟨s, journal⟩ = s

/-- Work that has begun with a success goes on from there. -/
theorem subjectAfter_bind_of_ok {work : Work ε σ α β} {next : β → Work ε σ α γ}
    {t t' : Tracked σ α} {b : β} (h : work t = .ok b t') :
    subjectAfter (work >>= next) t = subjectAfter (next b) t' := by
  unfold subjectAfter
  rw [bind_of_ok h]

theorem Restores.bind {work : Work ε σ α β} {next : β → Work ε σ α γ} (h : Restores work s)
    (hnext : ∀ b, Restores (next b) s) : Restores (work >>= next) s := by
  intro journal
  have hwork := h journal
  unfold subjectAfter at hwork
  cases hrun : work ⟨s, journal⟩ with
  | ok b t =>
    obtain ⟨s', journal'⟩ := t
    rw [hrun] at hwork
    obtain rfl : s' = s := hwork
    rw [subjectAfter_bind_of_ok hrun]
    exact hnext b journal'
  | error e t =>
    rw [hrun] at hwork
    unfold subjectAfter
    rw [bind_of_error hrun]
    exact hwork

theorem restores_pure (b : β) : Restores (pure b : Work ε σ α β) s := fun _ => rfl

theorem restores_note (event : Event α) : Restores (note event : Work ε σ α Unit) s := fun _ => rfl

theorem restores_reported (result : CheckResult α) :
    Restores (reported result : Work ε σ α (CheckResult α)) s :=
  (restores_note _).bind fun _ => restores_pure _

/-- Work that asks for its subject. -/
theorem restores_subject_bind {next : σ → Work ε σ α β} (h : Restores (next s) s) :
    Restores (subject >>= next) s := h

/-- A computation without a subject either fails or hands its result on. -/
theorem restores_liftM_bind {x : Except ε β} {next : β → Work ε σ α γ}
    (h : ∀ b, x = .ok b → Restores (next b) s) :
    Restores ((liftM x : Work ε σ α β) >>= next) s := by
  cases x with
  | ok b => exact h b rfl
  | error e => exact fun _ => rfl

theorem restores_liftM (x : Except ε β) : Restores (liftM x : Work ε σ α β) s := by
  cases x <;> exact fun _ => rfl

/-- A length that is tested. -/
theorem restores_length_bind {x : Except LengthFault β} {next : β → Work (ModelError α) σ α γ}
    (h : ∀ b, Restores (next b) s) :
    Restores ((liftM x : Work (ModelError α) σ α β) >>= next) s := by
  cases x with
  | ok b => exact h b
  | error fault => exact fun _ => rfl

/-- Work on each item of a list. -/
theorem restores_mapM {work : β → Work ε σ α γ} (h : ∀ item, Restores (work item) s)
    (items : List β) : Restores (items.mapM work) s := by
  induction items with
  | nil => exact restores_pure []
  | cons item items ih =>
    rw [List.mapM_cons]
    exact (h item).bind fun _ => ih.bind fun _ => restores_pure _

/-! ## Shifting a design variable -/

/-- **Setting the old values takes back the setting of any others**: neither fails, and after both
the subject is what it was. -/
def Undoes (set : Array α → Work ε σ α Unit) (base : Array α) (s : σ) : Prop :=
  ∀ values : Array α, values.size = base.size → ∀ journal, ∃ s' journal',
    set values ⟨s, journal⟩ = .ok () ⟨s', journal'⟩
      ∧ ∀ journal, ∃ journal', set base ⟨s', journal⟩ = .ok () ⟨s, journal'⟩

section Shift

variable [Scalar α] {set : Array α → Work ε σ α Unit} {base : Array α}

/-- A shift gives its subject back before it looks at the answer. -/
theorem restores_shifted (h : Undoes set base s) (i : ℕ) (delta : α) (ask : σ → Except ε β) :
    Restores (shifted set base i delta ask) s := by
  intro journal
  obtain ⟨s', journal', hset, hback⟩ := h (base.modify i (· + delta)) (by simp) journal
  obtain ⟨journal'', hback⟩ := hback journal'
  have hsubject : (subject : Work ε σ α σ) ⟨s', journal'⟩ = .ok s' ⟨s', journal'⟩ := rfl
  unfold shifted
  rw [subjectAfter_bind_of_ok hset, subjectAfter_bind_of_ok hsubject,
    subjectAfter_bind_of_ok hback]
  exact restores_liftM (ask s') journal''

theorem restores_designDifferences (h : Undoes set base s) (step : α) (ask : σ → Except ε α) :
    Restores (designDifferences set base step ask) s :=
  restores_mapM (fun i => (restores_shifted h i step ask).bind fun _ =>
    (restores_shifted h i (-step) ask).bind fun _ => restores_pure _) _

end Shift

/-- Work on a part. -/
theorem onPart_of_ok (part : σ → τ) (replace : τ → σ → σ) (s : σ) {work : Work ε τ α β}
    {journal journal' : List (Event α)} {b : β} {t : τ}
    (h : work ⟨part s, journal⟩ = .ok b ⟨t, journal'⟩) :
    onPart part replace work ⟨s, journal⟩ = .ok b ⟨replace t s, journal'⟩ := by
  unfold onPart
  dsimp only
  rw [h]

/-- What can be undone on a part can be undone on the whole. -/
theorem Undoes.onPart {set : Array α → Work ε τ α Unit} {base : Array α} {part : σ → τ}
    {replace : τ → σ → σ} (hpart : ∀ t, part (replace t s) = t)
    (hreplace : ∀ t, replace (part s) (replace t s) = s) (h : Undoes set base (part s)) :
    Undoes (fun values => onPart part replace (set values)) base s := by
  intro values hsize journal
  obtain ⟨t, journal', hset, hback⟩ := h values hsize journal
  refine ⟨replace t s, journal', onPart_of_ok part replace s hset, fun journal => ?_⟩
  rw [← hpart t] at hback
  obtain ⟨journal', hback⟩ := hback journal
  have hwhole := onPart_of_ok part replace _ hback
  rw [hreplace] at hwhole
  exact ⟨journal', hwhole⟩

end Work

open Work

variable {α : Type} [Scalar α]

/-! ## The thickness of a solid -/

/-- Setting the thickness of a solid stores the value as it is. -/
theorem Solid.exists_setDesignVars {s : Solid α} {index : ℕ} (hs : s.designVar = some index) (t : α)
    (journal : List (Event α)) : ∃ journal', Solid.setDesignVars #[t] ⟨s, journal⟩
      = .ok () ⟨{ s with thickness := t }, journal'⟩ := by
  unfold Solid.setDesignVars
  have hsubject : (subject : Work (ModelError α) (Solid α) α (Solid α)) ⟨s, journal⟩
      = .ok s ⟨s, journal⟩ := rfl
  rw [bind_of_ok hsubject]
  simp only [hs, lengthAtLeast_of_le (show 1 ≤ (#[t] : Array α).size from le_refl 1),
    liftM_length_ok, pure_bind_apply, List.getElem_toArray, List.getElem_cons_zero]
  by_cases hout : t < s.lower ∨ s.upper < t
  · rw [if_pos hout]
    exact ⟨_, rfl⟩
  · rw [if_neg hout]
    exact ⟨_, rfl⟩

/-- Without a design variable there is nothing to set. -/
theorem Solid.setDesignVars_of_none {s : Solid α} (hs : s.designVar = none) (values : Array α)
    (journal : List (Event α)) :
    Solid.setDesignVars values ⟨s, journal⟩ = .ok () ⟨s, journal⟩ := by
  unfold Solid.setDesignVars
  have hsubject : (subject : Work (ModelError α) (Solid α) α (Solid α)) ⟨s, journal⟩
      = .ok s ⟨s, journal⟩ := rfl
  rw [bind_of_ok hsubject, hs]
  rfl

/-- The design variables that a solid has: its thickness, or none. -/
def Solid.designValues (s : Solid α) : Array α :=
  match s.designVar with
  | none => #[]
  | some _ => #[s.thickness]

/-- **The old thickness takes back any other.** -/
theorem Solid.undoes (s : Solid α) : Undoes Solid.setDesignVars s.designValues s := by
  intro values hsize journal
  unfold designValues at hsize ⊢
  cases hs : s.designVar with
  | none =>
    exact ⟨s, journal, setDesignVars_of_none hs values journal,
      fun journal => ⟨journal, setDesignVars_of_none hs #[] journal⟩⟩
  | some index =>
    rw [hs] at hsize
    obtain ⟨t, rfl⟩ : ∃ t, values = #[t] := Array.size_eq_one_iff.mp hsize
    obtain ⟨journal', hset⟩ := exists_setDesignVars hs t journal
    -- storing the old value in the changed solid gives the solid field by field
    exact ⟨_, journal', hset,
      fun journal => exists_setDesignVars (s := { s with thickness := t }) hs s.thickness journal⟩

/-- A check of the design derivative of the stress gives the solid back. -/
theorem Solid.restores_checkStressDesignSens (s : Solid α) (site : Site α) (strain psi : Array α)
    (config : CheckConfig α) : Restores (checkStressDesignSens site strain psi config) s := by
  unfold checkStressDesignSens
  refine restores_length_bind fun _ => restores_subject_bind ?_
  refine restores_liftM_bind fun ⟨n, nums⟩ hnums => ?_
  refine restores_liftM_bind fun base hbase => restores_liftM_bind fun analytic _ => ?_
  have hvalues : base.toArray = s.designValues := by
    obtain ⟨material, t, index, lower, upper⟩ := s
    cases index <;> cases hnums <;> cases hbase <;> rfl
  rw [hvalues]
  exact (restores_designDifferences s.undoes _ _).bind fun _ => restores_reported _

/-! ## Models -/

section Models

variable {M : Type} [ElementModel M α]

/-- **A model whose design variables can be set back.** -/
def ElementModel.IsResettable (model : M) : Prop :=
  ∀ elem base, designVarValues model elem = .ok base → Undoes (setDesignVars elem) base model

/-- **A model that its checks give back**: whatever they are asked, and whether they succeed or
fail. -/
structure ElementModel.IsRestored (model : M) : Prop where
  weakAdjoint : ∀ (p : Point α) (psi psix : Array α) (config : CheckConfig α),
    Restores (checkWeakAdjoint p psi psix config) model
  quantityDesignSens : ∀ (tag : QuantityTag) (p : Point α) (xd : Array α) (config : CheckConfig α),
    Restores (checkQuantityDesignSens tag p xd config) model
  verifyElement : ∀ (name kind : String) (elem : ℕ) (tags : List QuantityTag) (registry : Registry)
    (config : CheckConfig α), Restores (verifyElement name kind elem tags registry config) model

variable {model : M}

theorem ElementModel.IsResettable.restores_checkWeakAdjoint (h : IsResettable model) (p : Point α)
    (psi psix : Array α) (config : CheckConfig α) :
    Restores (checkWeakAdjoint p psi psix config) model := by
  unfold checkWeakAdjoint
  refine restores_subject_bind <| restores_liftM_bind fun base hbase => ?_
  refine restores_liftM_bind fun analytic _ => ?_
  exact (restores_designDifferences (h p.elem base hbase) _ _).bind fun _ => restores_reported _

theorem ElementModel.IsResettable.restores_checkQuantityDesignSens (h : IsResettable model)
    (tag : QuantityTag) (p : Point α) (xd : Array α) (config : CheckConfig α) :
    Restores (checkQuantityDesignSens tag p xd config) model := by
  unfold checkQuantityDesignSens
  refine restores_subject_bind <| restores_liftM_bind fun values _ => ?_
  refine restores_liftM_bind fun base hbase => restores_liftM_bind fun analytic _ => ?_
  exact (restores_designDifferences (h p.elem base hbase) _ _).bind fun _ => restores_reported _

/-- The two checks of a quantity. -/
theorem ElementModel.IsResettable.restores_verifyQuantity (h : IsResettable model)
    (element : String) (p : Point α) (registry : Registry) (config : CheckConfig α)
    (tag : QuantityTag) : Restores (verifyQuantity element p registry config tag) model := by
  unfold verifyQuantity
  refine restores_subject_bind <| restores_liftM_bind fun supported _ => ?_
  cases supported with
  | false => exact (restores_note _).bind fun _ => restores_pure _
  | true =>
    refine restores_liftM_bind fun state _ => (restores_reported state).bind fun _ => ?_
    exact (h.restores_checkQuantityDesignSens tag p #[] config).bind fun _ => restores_pure _

/-- **A model whose design variables can be set back is given back by every check.** -/
theorem ElementModel.IsResettable.isRestored (h : IsResettable model) : IsRestored model where
  weakAdjoint := h.restores_checkWeakAdjoint
  quantityDesignSens := h.restores_checkQuantityDesignSens
  verifyElement := by
    intro name kind elem tags registry config
    unfold WeakForm.verifyElement
    refine restores_subject_bind <| restores_liftM_bind fun jacobian _ => ?_
    refine (restores_reported jacobian).bind fun _ => ?_
    refine (h.restores_checkWeakAdjoint _ _ _ config).bind fun _ => ?_
    exact (restores_mapM (h.restores_verifyQuantity name _ registry config) tags).bind
      fun _ => restores_pure _

end Models

/-! ## Models of a solid -/

theorem Elasticity.isResettable (e : Elasticity (Solid α) α) : IsResettable e := by
  intro elem base hbase
  have hvalues : base = e.law.designValues := by
    obtain ⟨⟨material, t, index, lower, upper⟩, thermalLoad⟩ := e
    cases index <;> cases hbase <;> rfl
  rw [hvalues]
  exact e.law.undoes.onPart (fun _ => rfl) (fun _ => rfl)

theorem Conductor.isResettable (c : Conductor (Solid α)) : IsResettable c := by
  intro elem base hbase
  have hvalues : base = c.law.designValues := by
    obtain ⟨material, t, index, lower, upper⟩ := c
    cases index <;> cases hbase <;> rfl
  rw [hvalues]
  exact c.law.undoes.onPart (fun _ => rfl) (fun _ => rfl)

/-- Working on a model of a solid works on the model inside it. -/
theorem SolidModel.setDesignVars_elasticity {e e' : Elasticity (Solid α) α} {elem : ℕ}
    {values : Array α} {journal journal' : List (Event α)}
    (h : ElementModel.setDesignVars elem values ⟨e, journal⟩ = .ok () ⟨e', journal'⟩) :
    ElementModel.setDesignVars elem values ⟨SolidModel.elasticity e, journal⟩
      = .ok () ⟨SolidModel.elasticity e', journal'⟩ :=
  onPart_of_ok (fun _ => e) (fun e _ => SolidModel.elasticity e) (.elasticity e) h

@[inherit_doc setDesignVars_elasticity]
theorem SolidModel.setDesignVars_conduction {c c' : Conductor (Solid α)} {elem : ℕ}
    {values : Array α} {journal journal' : List (Event α)}
    (h : ElementModel.setDesignVars elem values ⟨c, journal⟩ = .ok () ⟨c', journal'⟩) :
    ElementModel.setDesignVars elem values ⟨SolidModel.conduction c, journal⟩
      = .ok () ⟨SolidModel.conduction c', journal'⟩ :=
  onPart_of_ok (fun _ => c) (fun c _ => SolidModel.conduction c) (.conduction c) h

theorem SolidModel.isResettable (model : SolidModel α) : IsResettable model := by
  intro elem base hbase values hsize journal
  cases model with
  | elasticity e =>
    obtain ⟨e', journal', hset, hback⟩ := e.isResettable elem base hbase values hsize journal
    exact ⟨.elasticity e', journal', setDesignVars_elasticity hset,
      fun journal => (hback journal).imp fun _ => setDesignVars_elasticity⟩
  | conduction c =>
    obtain ⟨c', journal', hset, hback⟩ := c.isResettable elem base hbase values hsize journal
    exact ⟨.conduction c', journal', setDesignVars_conduction hset,
      fun journal => (hback journal).imp fun _ => setDesignVars_conduction⟩

/-- **No check changes a solid or a model that is made of one.** -/
theorem restores_checks (s : Solid α) :
    (∀ (site : Site α) (strain psi : Array α) (config : CheckConfig α),
        Restores (checkStressDesignSens site strain psi config) s)
      ∧ (∀ thermalLoad : α, IsRestored (⟨s, thermalLoad⟩ : Elasticity (Solid α) α))
      ∧ IsRestored (⟨s⟩ : Conductor (Solid α))
      ∧ ∀ model : SolidModel α, IsRestored model :=
  ⟨s.restores_checkStressDesignSens, fun _ => (Elasticity.isResettable _).isRestored,
    (Conductor.isResettable _).isRestored, fun model => model.isResettable.isRestored⟩

end WeakForm
