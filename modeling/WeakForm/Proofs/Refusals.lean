import WeakForm.Constitutive.Solid
import WeakForm.Element.Basic
import WeakForm.Proofs.Runs

/-!
# Refused arguments

An evaluation writes into buffers that its caller owns, so what it leaves there is part of its
answer, also when it fails. A **clean** evaluation (`Evaluation.IsClean`) either succeeds, and then
keeps what lies behind the place that it writes to, or it refuses its arguments, because a length is
wrong or a quantity is unknown, and then leaves every buffer as it was. There is no third way: a
buffer is a vector, and nothing reads or writes it outside of its length.

Tests come before writing, so most evaluations are clean because they are tests followed by
something that cannot fail (`isClean_liftM_bind`, `Evaluation.Succeeds`). **Sensitivities are the
exception**: several amounts are added to one buffer one after the other, and each of them asks for
its place. All of them get it or none does, since the place does not depend on the amount
(`Solid.addSens_cases`).
-/

namespace WeakForm

variable {α β γ σ : Type}

/-! ## Results and refusals -/

/-- **An error that refuses arguments.** -/
inductive ModelError.IsRefusal : ModelError α → Prop
  | length (fault : LengthFault) : IsRefusal (.length fault)
  | unsupportedQuantity (tag : QuantityTag) : IsRefusal (.unsupportedQuantity tag)

/-- A computation that gives a result or refuses its arguments. -/
def IsAnswered (x : Except (ModelError α) β) : Prop :=
  (∃ b, x = .ok b) ∨ ∃ e, x = .error e ∧ e.IsRefusal

theorem isAnswered_of_ok {x : Except (ModelError α) β} {b : β} (h : x = .ok b) : IsAnswered x :=
  Or.inl ⟨b, h⟩

theorem isAnswered_liftM (x : Except LengthFault β) :
    IsAnswered (liftM x : Except (ModelError α) β) := by
  cases x with
  | ok b => exact Or.inl ⟨b, rfl⟩
  | error fault => exact Or.inr ⟨_, rfl, .length fault⟩

theorem IsAnswered.bind {x : Except (ModelError α) β} {f : β → Except (ModelError α) γ}
    (h : IsAnswered x) (hf : ∀ b, x = .ok b → IsAnswered (f b)) : IsAnswered (x >>= f) := by
  obtain ⟨b, rfl⟩ | ⟨e, rfl, he⟩ := h
  · exact hf b rfl
  · exact Or.inr ⟨e, rfl, he⟩

namespace Evaluation

/-- **A clean evaluation**: it succeeds and keeps what it has to keep, or it refuses its arguments
and leaves its buffers as they were. -/
def IsClean (x : Evaluation α σ β) (keeps : σ → β → σ → Prop) : Prop :=
  ∀ s, (∃ b s', x s = .ok b s' ∧ keeps s b s') ∨ ∃ e, x s = .error e s ∧ e.IsRefusal

/-- An evaluation that cannot fail. -/
def Succeeds (x : Evaluation α σ β) (keeps : σ → β → σ → Prop) : Prop :=
  ∀ s, ∃ b s', x s = .ok b s' ∧ keeps s b s'

variable {keeps : σ → β → σ → Prop}

theorem Succeeds.isClean {x : Evaluation α σ β} (h : Succeeds x keeps) : IsClean x keeps :=
  fun s => Or.inl (h s)

/-- Evaluations that cannot fail, one after the other, keep what both of them keep. -/
theorem Succeeds.bind {R : σ → σ → Prop} (hR : ∀ a b c, R a b → R b c → R a c)
    {x : Evaluation α σ β} {f : β → Evaluation α σ γ} (hx : Succeeds x fun s _ s' => R s s')
    (hf : ∀ b, Succeeds (f b) fun s _ s' => R s s') :
    Succeeds (x >>= f) fun s _ s' => R s s' := by
  intro s
  obtain ⟨b, s', hb, hs'⟩ := hx s
  obtain ⟨c, s'', hc, hs''⟩ := hf b s'
  exact ⟨c, s'', by rw [bind_of_ok hb, hc], hR s s' s'' hs' hs''⟩

theorem isClean_throw {e : ModelError α} (h : e.IsRefusal) :
    IsClean (throw e : Evaluation α σ β) keeps :=
  fun _ => Or.inr ⟨e, rfl, h⟩

theorem isClean_pure {b : β} (h : ∀ s, keeps s b s) :
    IsClean (pure b : Evaluation α σ β) keeps :=
  fun s => Or.inl ⟨b, s, rfl, h s⟩

/-- **A computation comes before the evaluation.** -/
theorem isClean_liftM_bind {x : Except (ModelError α) γ} {f : γ → Evaluation α σ β}
    (hx : IsAnswered x) (h : ∀ c, x = .ok c → IsClean (f c) keeps) :
    IsClean ((liftM x : Evaluation α σ γ) >>= f) keeps := by
  obtain ⟨c, rfl⟩ | ⟨e, rfl, he⟩ := hx
  · exact h c rfl
  · exact isClean_throw he

/-- **A test of a length comes before the evaluation.** -/
theorem isClean_length_bind {x : Except LengthFault γ} {f : γ → Evaluation α σ β}
    (h : ∀ c, x = .ok c → IsClean (f c) keeps) :
    IsClean ((liftM x : Evaluation α σ γ) >>= f) keeps := by
  cases x with
  | ok c => exact h c rfl
  | error fault => exact isClean_throw (.length fault)

end Evaluation

theorem lengthAtLeast_of_lt {what : String} {actual required : ℕ} (h : actual < required) :
    lengthAtLeast what actual required = .error (.tooShort what required actual) :=
  dif_neg (not_le.mpr h)

/-! ## What a buffer keeps -/

/-- A buffer holds what it held before, from a place on. -/
def AgreeFrom {n : ℕ} (k : ℕ) (before after : Vector β n) : Prop :=
  ∀ i (hi : i < n), k ≤ i → after[i] = before[i]

section Buffers

variable {n k l : ℕ} {a b c : Vector β n}

theorem AgreeFrom.refl (k : ℕ) (a : Vector β n) : AgreeFrom k a a := fun _ _ _ => rfl

theorem AgreeFrom.trans (h : AgreeFrom k a b) (h' : AgreeFrom l b c) (hkl : k ≤ l) :
    AgreeFrom l a c :=
  fun i hi hl => (h' i hi hl).trans (h i hi (hkl.trans hl))

theorem agreeFrom_set_zero (h : 0 < n) (a : Vector β n) (x : β) : AgreeFrom 1 a (a.set 0 x h) := by
  intro i hi hk
  exact Vector.getElem_set_ne h hi (by omega)

theorem agreeFrom_overwrite (a : Vector β n) (position : ℕ) (values : Array β) :
    AgreeFrom (position + values.size) a (overwrite a position values) := by
  intro i hi hk
  have hsize : values.size ≤ i - position := by omega
  unfold overwrite
  simp only [Vector.getElem_ofFn, Array.getElem?_eq_none hsize]
  split <;> rfl

end Buffers

/-! ## Solids -/

open Evaluation

variable {n m : ℕ}

namespace Solid

variable (s : Solid α)

/-- There is a place for the thickness, or the buffer is too short. -/
theorem isAnswered_designSlot (what : String) (n : ℕ) : IsAnswered (s.designSlot what n) := by
  unfold designSlot
  cases s.designVar with
  | none => exact isAnswered_of_ok rfl
  | some index => exact (isAnswered_liftM _).bind fun _ _ => isAnswered_of_ok rfl

theorem isClean_designVarNums :
    IsClean s.designVarNums fun (nums : Option (Vector ℕ n)) _ nums' =>
      Option.Rel (AgreeFrom 1) nums nums' := by
  unfold designVarNums
  have hself : ∀ nums : Option (Vector ℕ n), Option.Rel (AgreeFrom 1) nums nums
    | none => .none
    | some nums => .some (.refl 1 nums)
  cases s.designVar with
  | none => exact isClean_pure hself
  | some index =>
    intro nums
    cases nums with
    | none => exact Or.inl ⟨1, none, rfl, .none⟩
    | some nums =>
      by_cases hn : 1 ≤ n
      · simp only [get_bind_apply, lengthAtLeast_of_le hn]
        exact Or.inl ⟨1, _, rfl, .some (agreeFrom_set_zero hn nums index)⟩
      · simp only [get_bind_apply, lengthAtLeast_of_lt (not_le.mp hn)]
        exact Or.inr ⟨_, rfl, .length _⟩

theorem isClean_designVars :
    IsClean s.designVars fun (b : Vector α n) _ b' => AgreeFrom 1 b b' := by
  unfold designVars
  refine isClean_liftM_bind (s.isAnswered_designSlot "dvs" n) fun place _ => ?_
  cases place with
  | none => exact isClean_pure (.refl 1)
  | some h => exact Succeeds.isClean fun b => ⟨(), _, rfl, agreeFrom_set_zero h.down b _⟩

theorem isClean_designVarRange :
    IsClean s.designVarRange fun (b : Vector α n × Vector α m) _ b' =>
      AgreeFrom 1 b.1 b'.1 ∧ AgreeFrom 1 b.2 b'.2 := by
  unfold designVarRange
  -- both places are asked for before anything is written
  refine isClean_liftM_bind (s.isAnswered_designSlot "lb" n) fun place _ => ?_
  cases place with
  | none => exact isClean_pure fun b => ⟨.refl 1 b.1, .refl 1 b.2⟩
  | some h =>
    refine isClean_liftM_bind (s.isAnswered_designSlot "ub" m) fun place _ => ?_
    cases place with
    | none => exact isClean_pure fun b => ⟨.refl 1 b.1, .refl 1 b.2⟩
    | some h' =>
      exact Succeeds.isClean fun b => ⟨(), _, rfl, agreeFrom_set_zero h.down b.1 _,
        agreeFrom_set_zero h'.down b.2 _⟩

variable [Scalar α]

theorem isClean_setDesignVars (values : Array α) :
    IsClean (setDesignVars values) fun _ _ _ => True := by
  intro t
  unfold setDesignVars
  have hsubject : (Work.subject : Work (ModelError α) (Solid α) α (Solid α)) t
      = .ok t.subject t := rfl
  rw [bind_of_ok hsubject]
  cases t.subject.designVar with
  | none => exact Or.inl ⟨(), t, rfl, trivial⟩
  | some index =>
    by_cases hn : 1 ≤ values.size
    · simp only [lengthAtLeast_of_le hn, liftM_length_ok, pure_bind_apply]
      split <;> exact Or.inl ⟨(), _, rfl, trivial⟩
    · simp only [lengthAtLeast_of_lt (not_le.mp hn)]
      exact Or.inr ⟨_, rfl, .length _⟩

/-- **All amounts are added, or none is**: whether there is a place for the thickness does not
depend on the amount, nor on what the buffer holds. -/
theorem addSens_cases (n : ℕ) :
    (∀ amount, Succeeds (s.addSens amount) fun (b : Vector α n) _ b' => AgreeFrom 1 b b')
      ∨ ∀ amount (b : Vector α n),
        s.addSens amount b = .error (.length (.tooShort "dfdx" 1 n)) b := by
  unfold addSens
  cases s.material with
  | none => exact Or.inl fun _ b => ⟨(), b, rfl, .refl 1 b⟩
  | some material =>
    unfold designSlot
    cases s.designVar with
    | none => exact Or.inl fun _ b => ⟨(), b, rfl, .refl 1 b⟩
    | some index =>
      by_cases hn : 1 ≤ n
      · simp only [lengthAtLeast_of_le hn]
        exact Or.inl fun _ b => ⟨(), _, rfl, agreeFrom_set_zero hn b _⟩
      · simp only [lengthAtLeast_of_lt (not_le.mp hn)]
        exact Or.inr fun _ _ => rfl

theorem isClean_addSens (amount : Material α → α) :
    IsClean (s.addSens amount) fun (b : Vector α n) _ b' => AgreeFrom 1 b b' := by
  obtain h | h := s.addSens_cases n
  · exact (h amount).isClean
  · exact fun b => Or.inr ⟨_, h amount b, .length _⟩

/-- Writing over a buffer of the right length cannot fail. -/
theorem succeeds_write {k : ℕ} (h : n = k) (value : Material α → Vector α k) :
    Succeeds (s.write h value) fun _ _ _ => True :=
  fun _ => ⟨(), _, rfl, trivial⟩

end Solid

/-! ## Constitutive laws -/

variable [Scalar α]

/-- **A clean constitutive law**: each of its evaluations is clean. A buffer of sensitivities or of
design variables may be longer than needed, and is then written at its first place only; the buffers
of stresses, strains, fluxes and tangents have exactly their length. -/
structure Constitutive.IsClean (C : Type) [Constitutive C α] : Prop where
  designVarNums : ∀ (law : C) (elem n : ℕ),
    Evaluation.IsClean (Constitutive.designVarNums law elem)
      fun (nums : Option (Vector ℕ n)) _ nums' => Option.Rel (AgreeFrom 1) nums nums'
  /-- A failure leaves the law as it was. -/
  setDesignVars : ∀ (elem : ℕ) (values : Array α),
    Evaluation.IsClean (Constitutive.setDesignVars elem values : Work (ModelError α) C α Unit)
      fun _ _ _ => True
  designVars : ∀ (law : C) (elem n : ℕ),
    Evaluation.IsClean (Constitutive.designVars law elem)
      fun (b : Vector α n) _ b' => AgreeFrom 1 b b'
  designVarRange : ∀ (law : C) (elem n m : ℕ),
    Evaluation.IsClean (Constitutive.designVarRange law elem)
      fun (b : Vector α n × Vector α m) _ b' => AgreeFrom 1 b.1 b'.1 ∧ AgreeFrom 1 b.2 b'.2
  addDensitySens : ∀ (law : C) (site : Site α) (scale : α) (n : ℕ),
    Evaluation.IsClean (Constitutive.addDensitySens law site scale)
      fun (b : Vector α n) _ b' => AgreeFrom 1 b b'
  addSpecificHeatSens : ∀ (law : C) (site : Site α) (scale : α) (n : ℕ),
    Evaluation.IsClean (Constitutive.addSpecificHeatSens law site scale)
      fun (b : Vector α n) _ b' => AgreeFrom 1 b b'
  stress : ∀ (law : C) (site : Site α) (strain : Array α) (n : ℕ),
    Evaluation.IsClean (Constitutive.stress law site strain) fun (_ : Vector α n) _ _ => True
  tangentStiffness : ∀ (law : C) (site : Site α) (n : ℕ),
    Evaluation.IsClean (Constitutive.tangentStiffness law site) fun (_ : Vector α n) _ _ => True
  addStressSens : ∀ (law : C) (site : Site α) (scale : α) (strain psi : Array α) (n : ℕ),
    Evaluation.IsClean (Constitutive.addStressSens law site scale strain psi)
      fun (b : Vector α n) _ b' => AgreeFrom 1 b b'
  thermalStrain : ∀ (law : C) (site : Site α) (theta : α) (n : ℕ),
    Evaluation.IsClean (Constitutive.thermalStrain law site theta) fun (_ : Vector α n) _ _ => True
  heatFlux : ∀ (law : C) (site : Site α) (grad : Array α) (n : ℕ),
    Evaluation.IsClean (Constitutive.heatFlux law site grad) fun (_ : Vector α n) _ _ => True
  tangentConduction : ∀ (law : C) (site : Site α) (n : ℕ),
    Evaluation.IsClean (Constitutive.tangentConduction law site) fun (_ : Vector α n) _ _ => True
  addHeatFluxSens : ∀ (law : C) (site : Site α) (scale : α) (grad psi : Array α) (n : ℕ),
    Evaluation.IsClean (Constitutive.addHeatFluxSens law site scale grad psi)
      fun (b : Vector α n) _ b' => AgreeFrom 1 b b'
  failure : ∀ (law : C) (site : Site α) (strain : Array α),
    IsAnswered (Constitutive.failure law site strain)
  failureGradient : ∀ (law : C) (site : Site α) (strain : Array α) (n : ℕ),
    Evaluation.IsClean (Constitutive.failureGradient law site strain)
      fun (_ : Vector α n) _ _ => True
  addFailureSens : ∀ (law : C) (site : Site α) (scale : α) (strain : Array α) (n : ℕ),
    Evaluation.IsClean (Constitutive.addFailureSens law site scale strain)
      fun (b : Vector α n) _ b' => AgreeFrom 1 b b'

/-- **Every evaluation of a solid is clean.** -/
theorem Solid.isClean : Constitutive.IsClean (Solid α) where
  designVarNums s _ _ := s.isClean_designVarNums
  setDesignVars _ values := isClean_setDesignVars values
  designVars s _ _ := s.isClean_designVars
  designVarRange s _ _ _ := s.isClean_designVarRange
  addDensitySens s _ _ _ := s.isClean_addSens _
  addSpecificHeatSens s _ _ _ := s.isClean_addSens _
  stress s _ _ _ := isClean_length_bind fun _ _ => isClean_length_bind fun _ _ =>
    (s.succeeds_write _ _).isClean
  tangentStiffness s _ _ := isClean_length_bind fun _ _ => (s.succeeds_write _ _).isClean
  addStressSens s _ _ _ _ _ := isClean_length_bind fun _ _ => isClean_length_bind fun _ _ =>
    s.isClean_addSens _
  thermalStrain s _ _ _ := isClean_length_bind fun _ _ => (s.succeeds_write _ _).isClean
  heatFlux s _ _ _ := isClean_length_bind fun _ _ => isClean_length_bind fun _ _ =>
    (s.succeeds_write _ _).isClean
  tangentConduction s _ _ := isClean_length_bind fun _ _ => (s.succeeds_write _ _).isClean
  addHeatFluxSens s _ _ _ _ _ := isClean_length_bind fun _ _ => isClean_length_bind fun _ _ =>
    s.isClean_addSens _
  failure _ _ _ := (isAnswered_liftM _).bind fun _ _ => isAnswered_of_ok rfl
  failureGradient _ _ _ _ := isClean_length_bind fun _ _ => isClean_length_bind fun _ _ =>
    Succeeds.isClean fun _ => ⟨_, _, rfl, trivial⟩
  addFailureSens _ _ _ _ _ := isClean_pure (.refl 1)

end WeakForm
