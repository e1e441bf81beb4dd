import WeakForm.Proofs.Calls

/-!
# The thickness is the only state

Whatever is called on a solid, or on elasticity or conduction over it, in whatever order, and
whether the calls succeed or fail: the material, the number of the design variable and the bounds
stay what they were. Only the thickness may change, and only if it is a design variable. Then it is
**the first value of the last setting that has succeeded**, exactly as it was given; the bounds are
data for whoever asks for them, and no value is moved into them.

So a solid after a run is the solid before it with one field read off the transcript (`Solid.hold`).
Every later question is answered by that solid, and by nothing else that has happened in the run.
-/

namespace WeakForm

variable {S α : Type} {Q : Type → Type → Type}

/-! ## What a transcript has stored -/

/-- The number that an exchange has stored: the first value of a setting that has succeeded. -/
def Exchange.stored? (x : Exchange Q α) : Option α :=
  match x.call with
  | .set _ values => if x.answer.succeeded then values[0]? else none
  | .ask _ _ => none

/-- **The number that was stored last.** -/
def lastStored? (exchanges : List (Exchange Q α)) : Option α :=
  (exchanges.filterMap Exchange.stored?).getLast?

theorem lastStored?_cons (x : Exchange Q α) (exchanges : List (Exchange Q α)) :
    lastStored? (x :: exchanges) = (lastStored? exchanges).or x.stored? := by
  unfold lastStored?
  rw [List.filterMap_cons]
  cases x.stored? with
  | none => exact Option.or_none.symm
  | some t =>
    dsimp only
    rw [List.getLast?_cons]
    cases (exchanges.filterMap Exchange.stored?).getLast? <;> rfl

theorem lastStored?_singleton (x : Exchange Q α) : lastStored? [x] = x.stored? := by
  rw [lastStored?_cons]
  rfl

/-- The solid after exchanges: an active thickness is what was stored last. -/
def Solid.hold (s : Solid α) (exchanges : List (Exchange Q α)) : Solid α :=
  match s.designVar with
  | none => s
  | some _ => { s with thickness := (lastStored? exchanges).getD s.thickness }

namespace Solid

variable {s : Solid α}

theorem hold_of_none (hs : s.designVar = none) (exchanges : List (Exchange Q α)) :
    s.hold exchanges = s := by
  unfold hold
  rw [hs]

theorem hold_of_some {index : ℕ} (hs : s.designVar = some index)
    (exchanges : List (Exchange Q α)) :
    s.hold exchanges = { s with thickness := (lastStored? exchanges).getD s.thickness } := by
  unfold hold
  rw [hs]

/-- Exchanges that store nothing leave the solid as it is. -/
theorem hold_of_lastStored? (s : Solid α) {exchanges : List (Exchange Q α)}
    (h : lastStored? exchanges = none) : s.hold exchanges = s := by
  unfold hold
  rw [h, Option.getD_none]
  split <;> rfl

theorem hold_cons (s : Solid α) (x : Exchange Q α) (exchanges : List (Exchange Q α)) :
    s.hold (x :: exchanges) = (s.hold [x]).hold exchanges := by
  cases hs : s.designVar with
  | none => rw [hold_of_none hs, hold_of_none hs, hold_of_none hs]
  | some index =>
    rw [hold_of_some hs, hold_of_some hs,
      hold_of_some (s := { s with thickness := (lastStored? [x]).getD s.thickness }) hs,
      lastStored?_cons, lastStored?_singleton]
    cases lastStored? exchanges <;> rfl

end Solid

/-! ## The design variables of a solid -/

variable [Scalar α]

/-- What is reported when the thickness is set: that it lies outside of its bounds. -/
def Solid.settingEvents (s : Solid α) (index : ℕ) (t : α) : List (Event α) :=
  if t < s.lower ∨ s.upper < t then [.designVarOutsideBounds t s.lower s.upper index] else []

/-- **The first value is stored as it is.** -/
theorem Solid.setDesignVars_of_some {s : Solid α} {index : ℕ} (hs : s.designVar = some index)
    {values : Array α} {t : α} (ht : values[0]? = some t) (journal : List (Event α)) :
    Solid.setDesignVars values ⟨s, journal⟩
      = .ok () ⟨{ s with thickness := t }, journal ++ s.settingEvents index t⟩ := by
  obtain ⟨hsize, rfl⟩ := Array.getElem?_eq_some_iff.mp ht
  unfold Solid.setDesignVars settingEvents
  have hsubject : (Work.subject : Work (ModelError α) (Solid α) α (Solid α)) ⟨s, journal⟩
      = .ok s ⟨s, journal⟩ := rfl
  rw [bind_of_ok hsubject]
  simp only [hs, lengthAtLeast_of_le (show 1 ≤ values.size from hsize), liftM_length_ok,
    pure_bind_apply]
  split
  · rfl
  · rw [List.append_nil]
    rfl

/-- Without a value there is nothing to store. -/
theorem Solid.setDesignVars_of_empty {s : Solid α} {index : ℕ} (hs : s.designVar = some index)
    (journal : List (Event α)) :
    Solid.setDesignVars #[] ⟨s, journal⟩
      = .error (.length (.tooShort "dvs" 1 0)) ⟨s, journal⟩ := by
  unfold Solid.setDesignVars
  have hsubject : (Work.subject : Work (ModelError α) (Solid α) α (Solid α)) ⟨s, journal⟩
      = .ok s ⟨s, journal⟩ := rfl
  rw [bind_of_ok hsubject, hs]
  rfl

section Reads

variable {s : Solid α} {index n m : ℕ}

omit [Scalar α] in
theorem Solid.designVars_of_some (hs : s.designVar = some index) (b : Vector α (n + 1)) :
    s.designVars b = .ok () (b.set 0 s.thickness n.succ_pos) := by
  unfold designVars designSlot
  rw [hs, lengthAtLeast_of_le (Nat.le_add_left 1 n)]
  rfl

omit [Scalar α] in
theorem Solid.designVars_of_none (hs : s.designVar = none) (b : Vector α n) :
    s.designVars b = .ok () b := by
  unfold designVars designSlot
  rw [hs]
  rfl

omit [Scalar α] in
theorem Solid.designVarRange_of_some (hs : s.designVar = some index) (lower : Vector α (n + 1))
    (upper : Vector α (m + 1)) :
    s.designVarRange (lower, upper)
      = .ok () (lower.set 0 s.lower n.succ_pos, upper.set 0 s.upper m.succ_pos) := by
  unfold designVarRange designSlot
  rw [hs, lengthAtLeast_of_le (Nat.le_add_left 1 n), lengthAtLeast_of_le (Nat.le_add_left 1 m)]
  rfl

omit [Scalar α] in
theorem Solid.designVarRange_of_none (hs : s.designVar = none) (b : Vector α n × Vector α m) :
    s.designVarRange b = .ok () b := by
  unfold designVarRange designSlot
  rw [hs]
  rfl

omit [Scalar α] in
/-- **The number of design variables** is the same whether or not their numbers are asked for. -/
theorem Solid.designVarNums_eq (s : Solid α) (n : ℕ) :
    (s.designVarNums (n := n)) none = .ok s.designValues.size none
      ∧ ∀ nums : Vector ℕ n, s.designValues.size ≤ n →
        ∃ nums', s.designVarNums (some nums) = .ok s.designValues.size (some nums') := by
  unfold designVarNums designValues
  cases s.designVar with
  | none => exact ⟨rfl, fun nums _ => ⟨nums, rfl⟩⟩
  | some index =>
    refine ⟨rfl, fun nums hn => ⟨nums.set 0 index, ?_⟩⟩
    simp only [get_bind_apply, lengthAtLeast_of_le (show 1 ≤ n from hn)]
    rfl

end Reads

/-! ## Subjects that are made of a solid -/

section OnWhole

variable {ε σ τ β : Type}

/-- The result of work on a part, with the subject that is made of the part. -/
def Work.onWhole (make : τ → σ) :
    EStateM.Result ε (Tracked τ α) β → EStateM.Result ε (Tracked σ α) β
  | .ok b t => .ok b ⟨make t.subject, t.journal⟩
  | .error e t => .error e ⟨make t.subject, t.journal⟩

omit [Scalar α] in
/-- Work on the part that a subject is made of. -/
theorem Work.onPart_make (part : σ → τ) (replace : τ → σ → σ) (make : τ → σ)
    (hpart : ∀ t, part (make t) = t) (hreplace : ∀ t t', replace t' (make t) = make t')
    (work : Work ε τ α β) (t : τ) (journal : List (Event α)) :
    Work.onPart part replace work ⟨make t, journal⟩ = Work.onWhole make (work ⟨t, journal⟩) := by
  unfold Work.onPart Work.onWhole
  dsimp only
  rw [hpart]
  cases work ⟨t, journal⟩ <;> simp only [hreplace]

end OnWhole

namespace Interface

/-- **A subject that is made of a solid** has the design variables of the solid. -/
structure IsMadeOfSolid (i : Interface S Q α) (make : Solid α → S) : Prop where
  set_eq : ∀ elem values s journal, i.set elem values ⟨make s, journal⟩
    = Work.onWhole make (Solid.setDesignVars values ⟨s, journal⟩)
  designVarNums_eq : ∀ s elem n, i.ask (i.designVarNums elem n) (make s) = s.designVarNums
  designVars_eq : ∀ s elem n, i.ask (i.designVars elem n) (make s) = s.designVars
  designVarRange_eq : ∀ s elem n m,
    i.ask (i.designVarRange elem n m) (make s) = s.designVarRange

section Steps

variable {i : Interface S Q α} {make : Solid α → S} {s : Solid α} {index : ℕ}

theorem IsMadeOfSolid.set_of_none (h : i.IsMadeOfSolid make) (hs : s.designVar = none) (elem : ℕ)
    (values : Array α) (journal : List (Event α)) :
    i.set elem values ⟨make s, journal⟩ = .ok () ⟨make s, journal⟩ := by
  rw [h.set_eq, Solid.setDesignVars_of_none hs, Work.onWhole]

theorem IsMadeOfSolid.set_of_some (h : i.IsMadeOfSolid make) (hs : s.designVar = some index)
    {values : Array α} {t : α} (ht : values[0]? = some t) (elem : ℕ) (journal : List (Event α)) :
    i.set elem values ⟨make s, journal⟩ = .ok ()
      ⟨make { s with thickness := t }, journal ++ s.settingEvents index t⟩ := by
  rw [h.set_eq, Solid.setDesignVars_of_some hs ht, Work.onWhole]

theorem IsMadeOfSolid.set_of_empty (h : i.IsMadeOfSolid make) (hs : s.designVar = some index)
    (elem : ℕ) (journal : List (Event α)) : i.set elem #[] ⟨make s, journal⟩
      = .error (.length (.tooShort "dvs" 1 0)) ⟨make s, journal⟩ := by
  rw [h.set_eq, Solid.setDesignVars_of_empty hs, Work.onWhole]

/-- **One call**: the solid is left as the exchange says. -/
theorem IsMadeOfSolid.subject_next (h : i.IsMadeOfSolid make) (s : Solid α)
    (journal : List (Event α)) (call : Call Q α) :
    (i.next ⟨make s, journal⟩ call).subject
      = make (s.hold [⟨call, i.answer ⟨make s, journal⟩ call⟩]) := by
  cases call with
  | ask question buffers =>
    rw [Solid.hold_of_lastStored? s rfl]
    rfl
  | set elem values =>
    cases hs : s.designVar with
    | none => rw [next_set_of_ok (h.set_of_none hs elem values journal), Solid.hold_of_none hs]
    | some index =>
      rw [Solid.hold_of_some hs]
      cases ht : values[0]? with
      | none =>
        obtain rfl : values = #[] := by simpa using ht
        have hset := h.set_of_empty hs elem journal
        rw [next_set_of_error hset, answer_set_of_error hset]
        rfl
      | some t =>
        have hset := h.set_of_some hs ht elem journal
        have hstored : lastStored? [(⟨.set elem values, .done⟩ : Exchange Q α)] = some t := by
          rw [lastStored?_singleton]
          exact ht
        rw [next_set_of_ok hset, answer_set_of_ok hset, hstored]
        rfl

/-- **A run**: the solid is left as the transcript says. -/
theorem IsMadeOfSolid.subject_after (h : i.IsMadeOfSolid make) (s : Solid α)
    (journal : List (Event α)) (calls : List (Call Q α)) :
    (i.after ⟨make s, journal⟩ calls).subject
      = make (s.hold (i.transcript ⟨make s, journal⟩ calls)) := by
  -- by induction on the calls that are left, for the solid as it is before them
  induction calls generalizing s journal with
  | nil => rw [transcript_nil, Solid.hold_of_lastStored? s rfl, after_nil]
  | cons call calls ih =>
    have hnext : i.next ⟨make s, journal⟩ call
        = ⟨make (s.hold [⟨call, i.answer ⟨make s, journal⟩ call⟩]),
            (i.next ⟨make s, journal⟩ call).journal⟩ := by
      rw [← h.subject_next]
    rw [transcript_cons, after_cons, Solid.hold_cons, hnext]
    exact ih _ _

/-- Setting is refused only if there is an active thickness and no value for it. -/
theorem IsMadeOfSolid.succeeded_set_iff (h : i.IsMadeOfSolid make) (s : Solid α)
    (journal : List (Event α)) (elem : ℕ) (values : Array α) :
    (i.answer ⟨make s, journal⟩ (.set elem values)).succeeded = true
      ↔ (s.designVar.isSome = true → values ≠ #[]) := by
  cases hs : s.designVar with
  | none =>
    rw [answer_set_of_ok (h.set_of_none hs elem values journal)]
    simp
  | some index =>
    cases ht : values[0]? with
    | none =>
      obtain rfl : values = #[] := by simpa using ht
      rw [answer_set_of_error (h.set_of_empty hs elem journal)]
      simp
    | some t =>
      have hne : values ≠ #[] := by
        rintro rfl
        cases ht
      rw [answer_set_of_ok (h.set_of_some hs ht elem journal)]
      simp [hne]

/-- A question in a run is asked of what the calls before it have left. -/
theorem IsMadeOfSolid.getElem?_transcript (h : i.IsMadeOfSolid make) (s : Solid α)
    (journal : List (Event α)) (before rest : List (Call Q α)) {σ β : Type} (question : Q σ β)
    (buffers : σ) :
    (i.transcript ⟨make s, journal⟩ (before ++ .ask question buffers :: rest))[before.length]?
      = some ⟨.ask question buffers,
          ⟨i.ask question (make (s.hold (i.transcript ⟨make s, journal⟩ before))) buffers⟩⟩ := by
  have hlength : (i.transcript ⟨make s, journal⟩ before).length = before.length :=
    i.length_transcript _ _
  rw [transcript_append, ← hlength, List.getElem?_append_right (le_refl _), Nat.sub_self,
    transcript_cons, List.getElem?_cons_zero, ← h.subject_after]
  rfl

end Steps

/-! ## What is read off the thickness -/

/-- **A subject whose only state is the thickness of its solid.** -/
structure HoldsThickness (i : Interface S Q α) (make : Solid α → S) : Prop where
  /-- After any run, an active thickness is what was stored last, and nothing else has changed. -/
  subject_after : ∀ (s : Solid α) (journal : List (Event α)) (calls : List (Call Q α)),
    (i.after ⟨make s, journal⟩ calls).subject
      = make (s.hold (i.transcript ⟨make s, journal⟩ calls))
  /-- A value is stored wherever it lies: setting asks for a value and for nothing else. -/
  succeeded_set_iff : ∀ (s : Solid α) (journal : List (Event α)) (elem : ℕ) (values : Array α),
    (i.answer ⟨make s, journal⟩ (.set elem values)).succeeded = true
      ↔ (s.designVar.isSome = true → values ≠ #[])
  /-- A question in a run is answered by the solid as it is then. -/
  getElem?_transcript : ∀ (s : Solid α) (journal : List (Event α)) (before rest : List (Call Q α))
    {σ β : Type} (question : Q σ β) (buffers : σ),
    (i.transcript ⟨make s, journal⟩ (before ++ .ask question buffers :: rest))[before.length]?
      = some ⟨.ask question buffers,
          ⟨i.ask question (make (s.hold (i.transcript ⟨make s, journal⟩ before))) buffers⟩⟩
  designVars_of_some : ∀ (s : Solid α) (index : ℕ), s.designVar = some index →
    ∀ (elem n : ℕ) (b : Vector α (n + 1)),
      i.ask (i.designVars elem (n + 1)) (make s) b
        = .ok () (b.set 0 s.thickness n.succ_pos)
  designVars_of_none : ∀ s : Solid α, s.designVar = none → ∀ (elem n : ℕ) (b : Vector α n),
    i.ask (i.designVars elem n) (make s) b = .ok () b
  designVarRange_of_some : ∀ (s : Solid α) (index : ℕ), s.designVar = some index →
    ∀ (elem n m : ℕ) (lower : Vector α (n + 1)) (upper : Vector α (m + 1)),
      i.ask (i.designVarRange elem (n + 1) (m + 1)) (make s) (lower, upper)
        = .ok () (lower.set 0 s.lower n.succ_pos, upper.set 0 s.upper m.succ_pos)
  designVarRange_of_none : ∀ s : Solid α, s.designVar = none →
    ∀ (elem n m : ℕ) (b : Vector α n × Vector α m),
      i.ask (i.designVarRange elem n m) (make s) b = .ok () b
  /-- The number of design variables is the same whether or not their numbers are asked for. -/
  designVarNums_eq : ∀ (s : Solid α) (elem n : ℕ),
    i.ask (i.designVarNums elem n) (make s) none = .ok s.designValues.size none
      ∧ ∀ nums : Vector ℕ n, s.designValues.size ≤ n → ∃ nums',
        i.ask (i.designVarNums elem n) (make s) (some nums)
          = .ok s.designValues.size (some nums')

/-- **What is made of a solid holds its thickness** and nothing else. -/
theorem IsMadeOfSolid.holdsThickness {i : Interface S Q α} {make : Solid α → S}
    (h : i.IsMadeOfSolid make) : i.HoldsThickness make where
  subject_after := h.subject_after
  succeeded_set_iff := h.succeeded_set_iff
  getElem?_transcript := h.getElem?_transcript
  designVars_of_some s index hs elem n b := by
    rw [h.designVars_eq, Solid.designVars_of_some hs]
  designVars_of_none s hs elem n b := by
    rw [h.designVars_eq, Solid.designVars_of_none hs]
  designVarRange_of_some s index hs elem n m lower upper := by
    rw [h.designVarRange_eq, Solid.designVarRange_of_some hs]
  designVarRange_of_none s hs elem n m b := by
    rw [h.designVarRange_eq, Solid.designVarRange_of_none hs]
  designVarNums_eq s elem n := by
    rw [h.designVarNums_eq]
    exact s.designVarNums_eq n

end Interface

/-! ## Solids and the models over them -/

theorem Constitutive.isMadeOfSolid :
    (Constitutive.interface (Solid α)).IsMadeOfSolid fun s => s where
  set_eq elem values s journal := by
    show Solid.setDesignVars values ⟨s, journal⟩ = _
    cases Solid.setDesignVars values ⟨s, journal⟩ <;> rfl
  designVarNums_eq _ _ _ := rfl
  designVars_eq _ _ _ := rfl
  designVarRange_eq _ _ _ _ := rfl

theorem Elasticity.isMadeOfSolid (thermalLoad : α) :
    (ElementModel.interface (Elasticity (Solid α) α)).IsMadeOfSolid fun s => ⟨s, thermalLoad⟩ where
  set_eq _ values s journal :=
    Work.onPart_make Elasticity.law (fun law e => { e with law }) (fun s => ⟨s, thermalLoad⟩)
      (fun _ => rfl) (fun _ _ => rfl) (Solid.setDesignVars values) s journal
  designVarNums_eq _ _ _ := rfl
  designVars_eq _ _ _ := rfl
  designVarRange_eq _ _ _ _ := rfl

theorem Conductor.isMadeOfSolid :
    (ElementModel.interface (Conductor (Solid α))).IsMadeOfSolid fun s => ⟨s⟩ where
  set_eq _ values s journal :=
    Work.onPart_make Conductor.law (fun law c => { c with law }) (fun s => ⟨s⟩)
      (fun _ => rfl) (fun _ _ => rfl) (Solid.setDesignVars values) s journal
  designVarNums_eq _ _ _ := rfl
  designVars_eq _ _ _ := rfl
  designVarRange_eq _ _ _ _ := rfl

/-- **The thickness is the only state** of a solid, and of elasticity and conduction over it: after
any run of calls it is the first value of the last setting that has succeeded if it is a design
variable, everything else is as it was, and whatever is asked is answered by that. -/
theorem holdsThickness_solid :
    (Constitutive.interface (Solid α)).HoldsThickness (fun s => s)
      ∧ (∀ thermalLoad : α, (ElementModel.interface (Elasticity (Solid α) α)).HoldsThickness
          fun s => ⟨s, thermalLoad⟩)
      ∧ (ElementModel.interface (Conductor (Solid α))).HoldsThickness (fun s => ⟨s⟩) :=
  ⟨Constitutive.isMadeOfSolid.holdsThickness,
    fun thermalLoad => (Elasticity.isMadeOfSolid thermalLoad).holdsThickness,
    Conductor.isMadeOfSolid.holdsThickness⟩

end WeakForm
