import WeakForm.Check.Difference
import WeakForm.Proofs.Restoration

/-!
# What comes of work

Work on a subject ends with a result or with an error, and the subject may have changed by then.
Three ways of saying what comes of it are put together here, each with rules for the parts that work
is made of. Work that `Keeps` its subject succeeds, leaves the subject as it was, and has a result
with a property, whatever the journal is. Work that `Ensures` a property has it of its result, if
there is one. And work that is **settled in advance** (`Settles`) ends with the error that is
expected of it, or keeps its subject if none is: of two steps the first one that is refused decides,
and so does the first item of a list.
-/

namespace WeakForm

variable {ε ε' σ τ α β γ δ : Type}

/-! ## Errors of computations -/

/-- The error of a computation, if it fails. -/
def refusal? : Except ε β → Option ε
  | .ok _ => none
  | .error e => some e

theorem refusal?_eq_none_iff {x : Except ε β} : refusal? x = none ↔ ∃ b, x = .ok b := by
  cases x with
  | ok b => exact ⟨fun _ => ⟨b, rfl⟩, fun _ => rfl⟩
  | error e =>
    refine ⟨fun h => ?_, fun h => ?_⟩
    · cases h
    · obtain ⟨b, hb⟩ := h
      cases hb

/-- The first item with an error decides. -/
theorem refusal?_mapM (f : β → Except ε γ) (items : List β) :
    refusal? (items.mapM f) = items.findSome? fun item => refusal? (f item) := by
  induction items with
  | nil => rfl
  | cons item items ih =>
    rw [List.mapM_cons, List.findSome?_cons]
    cases f item with
    | error e => rfl
    | ok b =>
      show refusal? (items.mapM f >>= fun bs => pure (b :: bs)) = items.findSome? _
      rw [← ih]
      cases items.mapM f <;> rfl

theorem findSome?_cons_or (r : β → Option ε) (item : β) (items : List β) :
    (item :: items).findSome? r = (r item).or (items.findSome? r) := by
  rw [List.findSome?_cons]
  cases r item <;> rfl

/-- Items in their places, related to results through what has been made of them. -/
theorem forall₂_zipIdx_trans {R : β → γ → Prop} {Q : γ → ℕ → δ → Prop}
    {items : List β} {made : List γ} {results : List δ} (h : List.Forall₂ R items made) {k : ℕ}
    (hresults : List.Forall₂ (fun item result => Q item.1 item.2 result) (made.zipIdx k) results) :
    List.Forall₂ (fun item result => ∃ y, R item.1 y ∧ Q y item.2 result) (items.zipIdx k)
      results := by
  induction h generalizing k results with
  | nil =>
    cases hresults
    exact .nil
  | cons hfirst _ ih =>
    obtain ⟨result, rest, hresult, hrest, rfl⟩ := List.forall₂_cons_left_iff.mp hresults
    exact .cons ⟨_, hfirst, hresult⟩ (ih hrest)

namespace Work

variable {s : σ}

/-! ## Work that keeps its subject -/

/-- **Work that keeps its subject** and has a result with a property. -/
def Keeps (work : Work ε σ α β) (s : σ) (P : β → Prop) : Prop :=
  ∀ journal, ∃ b journal', work ⟨s, journal⟩ = .ok b ⟨s, journal'⟩ ∧ P b

theorem Keeps.bind {work : Work ε σ α β} {next : β → Work ε σ α γ} {P : β → Prop} {Q : γ → Prop}
    (h : Keeps work s P) (hnext : ∀ b, P b → Keeps (next b) s Q) : Keeps (work >>= next) s Q := by
  intro journal
  obtain ⟨b, journal', hwork, hb⟩ := h journal
  rw [bind_of_ok hwork]
  exact hnext b hb journal'

/-- A weaker property. -/
theorem Keeps.imp {work : Work ε σ α β} {P Q : β → Prop} (h : Keeps work s P)
    (himp : ∀ b, P b → Q b) : Keeps work s Q := by
  intro journal
  obtain ⟨b, journal', hwork, hb⟩ := h journal
  exact ⟨b, journal', hwork, himp b hb⟩

theorem keeps_pure {b : β} {P : β → Prop} (h : P b) : Keeps (pure b : Work ε σ α β) s P :=
  fun journal => ⟨b, journal, rfl, h⟩

theorem keeps_subject : Keeps (subject : Work ε σ α σ) s (· = s) :=
  fun journal => ⟨s, journal, rfl, rfl⟩

theorem keeps_note (event : Event α) : Keeps (note event : Work ε σ α Unit) s fun _ => True :=
  fun _ => ⟨(), _, rfl, trivial⟩

theorem keeps_reported {result : CheckResult α} {P : CheckResult α → Prop} (h : P result) :
    Keeps (reported result : Work ε σ α (CheckResult α)) s P :=
  (keeps_note _).bind fun _ _ => keeps_pure h

/-- A computation with a known result. -/
theorem keeps_liftM {x : Except ε β} {b : β} (h : x = .ok b) :
    Keeps (liftM x : Work ε σ α β) s (· = b) := by
  rw [h]
  exact keeps_pure rfl

/-- Work on each item of a list. -/
theorem keeps_mapM {work : β → Work ε σ α γ} {P : γ → Prop} {items : List β}
    (h : ∀ item ∈ items, Keeps (work item) s P) :
    Keeps (items.mapM work) s fun results => ∀ result ∈ results, P result := by
  induction items with
  | nil => exact keeps_pure (fun _ hr => absurd hr List.not_mem_nil)
  | cons item items ih =>
    rw [List.mapM_cons]
    refine (h item List.mem_cons_self).bind fun b hb => ?_
    refine (ih fun i hi => h i (List.mem_cons_of_mem _ hi)).bind fun bs hbs => ?_
    refine keeps_pure fun r hr => ?_
    rcases List.mem_cons.mp hr with rfl | hr
    · exact hb
    · exact hbs r hr

/-- Work on a part that is still the part of the whole afterwards. -/
theorem Keeps.onPart {work : Work ε τ α β} {P : β → Prop} (part : σ → τ) (replace : τ → σ → σ)
    (hreplace : replace (part s) s = s) (h : Keeps work (part s) P) :
    Keeps (onPart part replace work) s P := by
  intro journal
  obtain ⟨b, journal', hwork, hb⟩ := h journal
  refine ⟨b, journal', ?_, hb⟩
  rw [onPart_of_ok part replace s hwork, hreplace]

/-- Errors of another kind make no difference to work that has none. -/
theorem Keeps.mapError {work : Work ε σ α β} {P : β → Prop} (h : Keeps work s P) (f : ε → ε') :
    Keeps (mapError f work) s P := by
  intro journal
  obtain ⟨b, journal', hwork, hb⟩ := h journal
  refine ⟨b, journal', ?_, hb⟩
  unfold Work.mapError
  rw [hwork]

/-! ## Work with results of a kind -/

/-- **Work whose results have a property**, whenever it succeeds. -/
def Ensures (work : Work ε σ α β) (P : β → Prop) : Prop :=
  ∀ t b t', work t = .ok b t' → P b

theorem Ensures.bind {work : Work ε σ α β} {next : β → Work ε σ α γ} {P : β → Prop} {Q : γ → Prop}
    (h : Ensures work P) (hnext : ∀ b, P b → Ensures (next b) Q) : Ensures (work >>= next) Q := by
  intro t c t' hrun
  obtain ⟨b, t'', hwork, hrest⟩ := exists_of_bind_ok hrun
  exact hnext b (h t b t'' hwork) t'' c t' hrest

/-- A weaker property. -/
theorem Ensures.imp {work : Work ε σ α β} {P Q : β → Prop} (h : Ensures work P)
    (himp : ∀ b, P b → Q b) : Ensures work Q :=
  fun t b t' hrun => himp b (h t b t' hrun)

theorem ensures_true (work : Work ε σ α β) : Ensures work fun _ => True :=
  fun _ _ _ _ => trivial

theorem ensures_pure {b : β} {P : β → Prop} (h : P b) : Ensures (pure b : Work ε σ α β) P := by
  rintro t _ t' ⟨⟩
  exact h

/-- Work that keeps nothing in particular. -/
theorem Keeps.ensures {work : Work ε Unit α β} {P : β → Prop} (h : Keeps work () P) :
    Ensures work P := by
  intro t b t' hrun
  obtain ⟨b', journal', hwork, hb⟩ := h t.journal
  rw [hrun] at hwork
  cases hwork
  exact hb

/-- A computation. -/
theorem ensures_liftM {x : Except ε β} {P : β → Prop} (h : ∀ b, x = .ok b → P b) :
    Ensures (liftM x : Work ε σ α β) P := by
  intro t b t' hrun
  cases x with
  | error e => cases hrun
  | ok b' =>
    cases hrun
    exact h b rfl

/-- Work on each item of a list. -/
theorem ensures_mapM {work : β → Work ε σ α γ} {P : β → γ → Prop} {items : List β}
    (h : ∀ item ∈ items, Ensures (work item) (P item)) :
    Ensures (items.mapM work) fun results => ∀ r ∈ results, ∃ item ∈ items, P item r := by
  induction items with
  | nil => exact ensures_pure fun r hr => absurd hr List.not_mem_nil
  | cons item items ih =>
    rw [List.mapM_cons]
    refine (h item List.mem_cons_self).bind fun b hb => ?_
    refine (ih fun i hi => h i (List.mem_cons_of_mem _ hi)).bind fun bs hbs => ?_
    refine ensures_pure fun r hr => ?_
    rcases List.mem_cons.mp hr with rfl | hr
    · exact ⟨item, List.mem_cons_self, hb⟩
    · obtain ⟨i, hi, hP⟩ := hbs r hr
      exact ⟨i, List.mem_cons_of_mem _ hi, hP⟩

/-! ## Work that may be refused -/

/-- **Work that is settled in advance**: it ends with the error that is expected of it, or it keeps
its subject if there is none. The subject is as it was in either case. -/
def Settles (work : Work ε σ α β) (s : σ) (r : Option ε) (P : β → Prop) : Prop :=
  match r with
  | some e => ∀ journal, ∃ journal', work ⟨s, journal⟩ = .error e ⟨s, journal'⟩
  | none => Keeps work s P

/-- **The first step that is refused decides.** -/
theorem Settles.bind {work : Work ε σ α β} {next : β → Work ε σ α γ} {r r' : Option ε}
    {P : β → Prop} {Q : γ → Prop} (h : Settles work s r P)
    (hnext : ∀ b, P b → Settles (next b) s r' Q) : Settles (work >>= next) s (r.or r') Q := by
  cases r with
  | some e =>
    intro journal
    obtain ⟨journal', hwork⟩ := h journal
    exact ⟨journal', bind_of_error hwork⟩
  | none =>
    cases r' with
    | some e =>
      intro journal
      obtain ⟨b, journal', hwork, hb⟩ := h journal
      rw [bind_of_ok hwork]
      exact hnext b hb journal'
    | none => exact Keeps.bind h hnext

/-- A weaker property. -/
theorem Settles.imp {work : Work ε σ α β} {r : Option ε} {P Q : β → Prop} (h : Settles work s r P)
    (himp : ∀ b, P b → Q b) : Settles work s r Q := by
  cases r with
  | some e => exact h
  | none => exact Keeps.imp h himp

theorem settles_throw (e : ε) {P : β → Prop} :
    Settles (throw e : Work ε σ α β) s (some e) P :=
  fun journal => ⟨journal, rfl⟩

/-- A computation. -/
theorem settles_liftM (x : Except ε β) :
    Settles (liftM x : Work ε σ α β) s (refusal? x) (x = .ok ·) := by
  cases x with
  | error e => exact settles_throw e
  | ok b => exact keeps_pure rfl

/-- Whatever is made sure of the results of work is known of what comes of it. -/
theorem Settles.and_ensures {work : Work ε Unit α β} {r : Option ε} {P Q : β → Prop}
    (h : Settles work () r P) (hensures : Ensures work Q) :
    Settles work () r fun b => P b ∧ Q b := by
  cases r with
  | some e => exact h
  | none =>
    intro journal
    obtain ⟨b, journal', hwork, hb⟩ := h journal
    exact ⟨b, journal', hwork, hb, hensures _ b _ hwork⟩

/-- **The first item that is refused decides**, and if there is none, each result is related to its
item. -/
theorem settles_mapM_forall₂ {work : β → Work ε σ α γ} {r : β → Option ε} {R : β → γ → Prop}
    {items : List β} (h : ∀ item ∈ items, Settles (work item) s (r item) (R item)) :
    Settles (items.mapM work) s (items.findSome? r) (List.Forall₂ R items) := by
  induction items with
  | nil => exact keeps_pure .nil
  | cons item items ih =>
    rw [List.mapM_cons, findSome?_cons_or, ← Option.or_none (o := items.findSome? r)]
    refine (h item List.mem_cons_self).bind fun b hb => ?_
    refine (ih fun i hi => h i (List.mem_cons_of_mem _ hi)).bind fun bs hbs => ?_
    exact keeps_pure (.cons hb hbs)

/-- Results that are known up to a function. -/
theorem settles_mapM {work : β → Work ε σ α γ} {r : β → Option ε} {f : γ → δ} {g : β → δ}
    {items : List β}
    (h : ∀ item ∈ items, Settles (work item) s (r item) fun result => f result = g item) :
    Settles (items.mapM work) s (items.findSome? r) fun results =>
      results.map f = items.map g := by
  refine (settles_mapM_forall₂ h).imp fun results hresults => ?_
  rw [← List.forall₂_eq_eq_eq, List.forall₂_map_left_iff, List.forall₂_map_right_iff]
  exact hresults.flip

@[inherit_doc settles_mapM_forall₂]
theorem keeps_mapM_forall₂ {work : β → Work ε σ α γ} {R : β → γ → Prop} {items : List β}
    (h : ∀ item ∈ items, Keeps (work item) s (R item)) :
    Keeps (items.mapM work) s (List.Forall₂ R items) := by
  have hsettles := settles_mapM_forall₂ (r := fun _ => none) h
  rwa [List.findSome?_eq_none_iff.mpr fun _ _ => rfl] at hsettles

end Work

end WeakForm
