import Mathlib
import WeakForm.Evaluation
import WeakForm.Journal

/-!
# Running an evaluation

An evaluation is a function from its buffers to an outcome, and a proof about it runs it. The lemmas
of this module are the steps of such a run: each says what one kind of command does to the buffers,
so that a whole evaluation is run by rewriting. **A result that is known replaces its command**
(`bind_of_ok`): the spec of an evaluation is used where the evaluation is called, and what it calls
in turn is not looked at again.
-/

namespace WeakForm

variable {ε α β γ σ : Type}

/-! ## Commands on buffers -/

/-- A command with a known result. -/
theorem bind_of_ok {x : EStateM ε σ β} {f : β → EStateM ε σ γ} {s s' : σ} {b : β}
    (h : x s = .ok b s') : (x >>= f) s = f b s' := by
  show EStateM.bind x f s = _
  unfold EStateM.bind
  rw [h]

/-- A command with a known error. -/
theorem bind_of_error {x : EStateM ε σ β} {f : β → EStateM ε σ γ} {s s' : σ} {e : ε}
    (h : x s = .error e s') : (x >>= f) s = .error e s' := by
  show EStateM.bind x f s = _
  unfold EStateM.bind
  rw [h]

/-- A run that succeeds succeeds at each of its commands. -/
theorem exists_of_bind_ok {x : EStateM ε σ β} {f : β → EStateM ε σ γ} {s s' : σ} {c : γ}
    (h : (x >>= f) s = .ok c s') : ∃ b t, x s = .ok b t ∧ f b t = .ok c s' := by
  cases hx : x s with
  | error e t =>
    rw [bind_of_error hx] at h
    cases h
  | ok b t =>
    rw [bind_of_ok hx] at h
    exact ⟨b, t, rfl, h⟩

@[simp] theorem pure_apply (b : β) (s : σ) : (pure b : EStateM ε σ β) s = .ok b s := rfl

@[simp] theorem throw_apply (e : ε) (s : σ) : (throw e : EStateM ε σ β) s = .error e s := rfl

@[simp] theorem set_apply (s s' : σ) : (set s' : EStateM ε σ PUnit) s = .ok () s' := rfl

@[simp] theorem modify_apply (f : σ → σ) (s : σ) :
    (modify f : EStateM ε σ PUnit) s = .ok () (f s) := rfl

@[simp] theorem pure_bind_apply (b : β) (f : β → EStateM ε σ γ) (s : σ) :
    (pure b >>= f) s = f b s := rfl

@[simp] theorem throw_bind_apply (e : ε) (f : β → EStateM ε σ γ) (s : σ) :
    ((throw e : EStateM ε σ β) >>= f) s = .error e s := rfl

@[simp] theorem get_bind_apply (f : σ → EStateM ε σ γ) (s : σ) : (get >>= f) s = f s s := rfl

@[simp] theorem modify_bind_apply (g : σ → σ) (f : PUnit → EStateM ε σ γ) (s : σ) :
    ((modify g : EStateM ε σ PUnit) >>= f) s = f () (g s) := rfl

/-! ## Computations without buffers -/

@[simp] theorem liftM_ok (b : β) :
    (liftM (.ok b : Except ε β) : EStateM ε σ β) = pure b := rfl

@[simp] theorem liftM_error (e : ε) :
    (liftM (.error e : Except ε β) : EStateM ε σ β) = throw e := rfl

@[simp] theorem liftM_length_ok (b : β) :
    (liftM (.ok b : Except LengthFault β) : Evaluation α σ β) = pure b := rfl

@[simp] theorem liftM_length_error (fault : LengthFault) :
    (liftM (.error fault : Except LengthFault β) : Evaluation α σ β) = throw (.length fault) := rfl

@[simp] theorem liftM_except_ok (b : β) :
    (liftM (.ok b : Except LengthFault β) : Except (ModelError α) β) = .ok b := rfl

@[simp] theorem except_ok_bind (b : β) (f : β → Except ε γ) : (Except.ok b >>= f) = f b := rfl

@[simp] theorem except_pure (b : β) : (pure b : Except ε β) = .ok b := rfl

/-- A computation that succeeds succeeds at each of its steps. -/
theorem exists_of_except_bind_ok {x : Except ε β} {f : β → Except ε γ} {c : γ}
    (h : x >>= f = .ok c) : ∃ b, x = .ok b ∧ f b = .ok c := by
  cases x with
  | error e => cases h
  | ok b => exact ⟨b, rfl, h⟩

/-- A loop whose steps succeed. -/
theorem mapM_of_ok {f : β → Except ε γ} {g : β → γ} {items : List β}
    (h : ∀ item ∈ items, f item = .ok (g item)) : items.mapM f = .ok (items.map g) := by
  induction items with
  | nil => rfl
  | cons item items ih =>
    rw [List.mapM_cons, h item List.mem_cons_self, ih fun i hi => h i (List.mem_cons_of_mem _ hi)]
    rfl

/-- The results of a loop come from its items. -/
theorem exists_of_mapM_ok {f : β → Except ε γ} {items : List β} {results : List γ}
    (h : items.mapM f = .ok results) : ∀ r ∈ results, ∃ item ∈ items, f item = .ok r := by
  induction items generalizing results with
  | nil =>
    cases h
    exact fun r hr => absurd hr List.not_mem_nil
  | cons item items ih =>
    rw [List.mapM_cons] at h
    obtain ⟨b, hb, h⟩ := exists_of_except_bind_ok h
    obtain ⟨bs, hbs, h⟩ := exists_of_except_bind_ok h
    cases h
    intro r hr
    rcases List.mem_cons.mp hr with rfl | hr
    · exact ⟨item, List.mem_cons_self, hb⟩
    · obtain ⟨i, hi, hf⟩ := ih hbs r hr
      exact ⟨i, List.mem_cons_of_mem _ hi, hf⟩

/-! ## Lengths -/

/-- A length that is the expected one. -/
theorem lengthIs_of_eq (what : String) {actual expected : ℕ} (h : actual = expected) :
    lengthIs what actual expected = .ok ⟨h⟩ :=
  dif_pos h

/-- An array has the expected length or it has not. -/
theorem sized_cases (what : String) (n : ℕ) (values : Array β) :
    (∃ fault, sized what n values = .error fault) ∨ ∃ v : Vector β n, values = v.toArray := by
  unfold sized
  by_cases h : values.size = n
  · exact Or.inr ⟨⟨values, h⟩, rfl⟩
  · rw [dif_neg h]
    exact Or.inl ⟨_, rfl⟩

/-! ## Evaluations into buffers of their own -/

theorem fill_of_ok {x : Evaluation α σ Unit} {s s' : σ} (h : x s = .ok () s') :
    Evaluation.fill s x = .ok s' := by
  unfold Evaluation.fill EStateM.run
  rw [h]

theorem fill_of_error {x : Evaluation α σ Unit} {s s' : σ} {e : ModelError α}
    (h : x s = .error e s') : Evaluation.fill s x = .error e := by
  unfold Evaluation.fill EStateM.run
  rw [h]

theorem answer_of_ok {x : Evaluation α σ β} {s s' : σ} {b : β} (h : x s = .ok b s') :
    Evaluation.answer s x = .ok (b, s') := by
  unfold Evaluation.answer EStateM.run
  rw [h]

theorem answer_of_error {x : Evaluation α σ β} {s s' : σ} {e : ModelError α}
    (h : x s = .error e s') : Evaluation.answer s x = .error e := by
  unfold Evaluation.answer EStateM.run
  rw [h]

end WeakForm
