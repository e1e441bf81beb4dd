import WeakForm.Proofs.CaseFiles
import WeakForm.Proofs.CaseStages
import WeakForm.Proofs.FloatOrder

/-!
# The thickness at the start

Whether an element may start with its thickness is asked twice, with different tests: when the case
is validated, which also compares the bounds with each other, and when the solid is built, which
only warns. **Both judge alike**, also of undefined and infinite numbers, since a thickness between
its bounds puts the bounds in order (`SolidEntry.validate_eq_ok_iff`,
`Solid.forall_mem_warnings_iff`).

What is built of a list of elements reports the warnings of its solids one after the other, and
nothing else (`Case.buildElements_of_ok`). So **building a case that has been loaded never warns of
a thickness**.
-/

namespace WeakForm

open Work

/-! ## Tests of lists -/

/-- No item comes up twice, or has been seen. -/
theorem firstRepeated_go_eq_none_iff {β : Type} [DecidableEq β] {seen items : List β} :
    firstRepeated.go seen items = none ↔ items.Nodup ∧ ∀ item ∈ items, item ∉ seen := by
  -- by induction on the items, for whatever has come up before them
  induction items generalizing seen with
  | nil => exact iff_of_true rfl ⟨List.nodup_nil, fun _ h => absurd h List.not_mem_nil⟩
  | cons item rest ih =>
    unfold firstRepeated.go
    by_cases hseen : item ∈ seen
    · rw [if_pos hseen]
      exact iff_of_false nofun fun h => h.2 item List.mem_cons_self hseen
    · rw [if_neg hseen, ih, List.nodup_cons, List.forall_mem_cons]
      constructor
      · rintro ⟨hnodup, hrest⟩
        refine ⟨⟨fun hmem => hrest item hmem List.mem_cons_self, hnodup⟩, hseen, fun x hx => ?_⟩
        exact fun hx' => hrest x hx (List.mem_cons_of_mem item hx')
      · rintro ⟨⟨hnew, hnodup⟩, -, hrest⟩
        refine ⟨hnodup, fun x hx hmem => ?_⟩
        rcases List.mem_cons.mp hmem with rfl | hmem
        · exact hnew hx
        · exact hrest x hx hmem

theorem firstRepeated_eq_none_iff {β : Type} [DecidableEq β] {items : List β} :
    firstRepeated items = none ↔ items.Nodup :=
  firstRepeated_go_eq_none_iff.trans (and_iff_left fun _ _ => List.not_mem_nil)

/-- A test of each item. -/
theorem forM_eq_ok_iff {ε β : Type} {test : β → Except ε Unit} {items : List β} :
    items.forM test = .ok () ↔ ∀ item ∈ items, test item = .ok () := by
  induction items with
  | nil => exact iff_of_true rfl fun _ h => absurd h List.not_mem_nil
  | cons item rest ih =>
    rw [List.forall_mem_cons, ← ih]
    show (test item >>= fun _ => rest.forM test) = .ok () ↔ _
    cases test item with
    | ok _ => exact (and_iff_right rfl).symm
    | error e => exact iff_of_false nofun fun h => by cases h.1

/-! ## Reports -/

variable {α : Type}

/-- **Work on each item of a list that reports what its result says of itself** reports it for one
result after the other. -/
theorem Work.journal_of_mapM {ε σ β γ δ : Type} {work : β → Work ε σ α γ}
    {events : γ → List (Event α)} {f : γ → δ} {g : β → δ} {items : List β}
    (h : ∀ item t result t', work item t = .ok result t' →
      t' = ⟨t.subject, t.journal ++ events result⟩ ∧ f result = g item)
    {t t' : Tracked σ α} {results : List γ} (hrun : items.mapM work t = .ok results t') :
    t' = ⟨t.subject, t.journal ++ results.flatMap events⟩ ∧ results.map f = items.map g := by
  induction items generalizing t results with
  | nil =>
    cases hrun
    refine ⟨?_, rfl⟩
    show t' = ⟨t'.subject, t'.journal ++ []⟩
    rw [List.append_nil]
  | cons item items ih =>
    rw [List.mapM_cons] at hrun
    obtain ⟨result, t₁, hitem, hrun⟩ := exists_of_bind_ok hrun
    obtain ⟨rest, t₂, hrest, hrun⟩ := exists_of_bind_ok hrun
    cases hrun
    obtain ⟨rfl, hresult⟩ := h item t result t₁ hitem
    obtain ⟨rfl, hresults⟩ := ih hrest
    refine ⟨?_, ?_⟩
    · rw [List.flatMap_cons, List.append_assoc]
    · rw [List.map_cons, List.map_cons, hresult, hresults]

/-- Whether an event warns of the thickness of a solid that is built. -/
def Event.warnsOfThickness : Event α → Bool
  | .thicknessNotPositive _ => true
  | .thicknessOutsideBounds .. => true
  | _ => false

/-- A warning of the thickness, unless a test is passed. -/
theorem Event.forall_mem_ite_iff {p : Prop} [Decidable p] {warning : Event α}
    (h : warning.warnsOfThickness = true) :
    (∀ event ∈ (if p then [] else [warning]), event.warnsOfThickness = false) ↔ p := by
  by_cases hp : p
  · rw [if_pos hp]
    exact iff_of_true (fun _ hevent => absurd hevent List.not_mem_nil) hp
  · rw [if_neg hp, List.forall_mem_singleton, h]
    exact iff_of_false nofun hp

/-! ## What is asked of a thickness -/

/-- The bounds of the thickness, and the thickness. -/
def Solid.span (s : Solid α) : α × α × α := (s.lower, s.upper, s.thickness)

/-- The bounds of the thickness and the thickness, as they are described. -/
def SolidEntry.span (s : SolidEntry α) : α × α × α := (s.lowerBound, s.upperBound, s.thickness)

variable [Scalar α]

/-- **A thickness to start with**: it is positive, and inside of its bounds. -/
def IsThickness (lower upper t : α) : Prop := 0 < t ∧ lower ≤ t ∧ t ≤ upper

/-- **A solid warns of its thickness unless it is one to start with.** -/
theorem Solid.forall_mem_warnings_iff {s : Solid α} :
    (∀ event ∈ s.warnings, event.warnsOfThickness = false)
      ↔ IsThickness s.lower s.upper s.thickness := by
  have hmaterial : ∀ event ∈ (if s.material.isNone then [Event.materialMissing (α := α)] else []),
      event.warnsOfThickness = false := by
    cases s.material with
    | none => exact List.forall_mem_singleton.mpr rfl
    | some material => exact fun _ hevent => absurd hevent List.not_mem_nil
  unfold warnings IsThickness
  rw [List.forall_mem_append, List.forall_mem_append, and_iff_right hmaterial,
    Event.forall_mem_ite_iff rfl, Event.forall_mem_ite_iff rfl]

/-! ## Validation -/

/-- **An element passes the tests of its thickness exactly if it is one to start with.** The bounds
are in order if there is a number between them. -/
theorem SolidEntry.validate_eq_ok_iff [Scalar.LinearlyOrdered α] {s : SolidEntry α}
    {position : ℕ} : s.validate position = .ok ()
      ↔ IsThickness s.lowerBound s.upperBound s.thickness := by
  unfold validate IsThickness
  dsimp only
  by_cases hpos : 0 < s.thickness
  · rw [if_neg (not_not.mpr hpos), and_iff_right hpos]
    by_cases hin : s.lowerBound ≤ s.thickness ∧ s.thickness ≤ s.upperBound
    · -- the test of the bounds alone refuses nothing that the last test accepts
      have horder : ¬ s.upperBound < s.lowerBound := fun hlt =>
        ((Scalar.LinearlyOrdered.lt_iff _ _).mp hlt).2
          (Scalar.LinearlyOrdered.le_trans _ _ _ hin.1 hin.2)
      rw [if_neg horder, if_neg (not_not.mpr hin)]
      exact iff_of_true rfl hin
    · rw [if_pos hin]
      split <;> exact iff_of_false nofun hin
  · rw [if_pos hpos]
    exact iff_of_false nofun fun h => hpos h.1

namespace Case

/-- **A valid case.** -/
structure IsValid (c : Case α) : Prop where
  version : c.schemaVersion = 1
  distinct : (c.materials.map (·.name)).Nodup
  /-- A bound that is absent is the thickness. -/
  thickness : ∀ element ∈ c.elements,
    IsThickness (element.solid.lower.getD element.solid.thickness)
      (element.solid.upper.getD element.solid.thickness) element.solid.thickness
  step : 0 < c.verification.stepSize
  rtol : ¬ c.verification.rtol < 0
  atol : ¬ c.verification.atol < 0

variable [Scalar.LinearlyOrdered α]

/-- The tests of the elements of a case. -/
theorem validate_elements_eq_ok_iff {c : Case α} :
    (c.elements.zipIdx.forM fun item => item.1.solid.validate item.2) = .ok ()
      ↔ ∀ element ∈ c.elements, IsThickness element.solid.lowerBound element.solid.upperBound
          element.solid.thickness := by
  rw [forM_eq_ok_iff]
  refine ⟨fun h element helement => ?_, fun h item hitem => ?_⟩
  · obtain ⟨position, hposition⟩ := List.mem_iff_getElem?.mp helement
    exact SolidEntry.validate_eq_ok_iff.mp
      (h (element, position) (List.mk_mem_zipIdx_iff_getElem?.mpr hposition))
  · exact SolidEntry.validate_eq_ok_iff.mpr (h item.1 (List.fst_mem_of_mem_zipIdx hitem))

/-- **Validation accepts exactly the valid cases.** -/
theorem validate_eq_ok_iff {c : Case α} : c.validate = .ok () ↔ c.IsValid := by
  unfold validate
  by_cases hversion : c.schemaVersion = 1
  · have hsupported : ¬ c.schemaVersion ≠ supportedVersion := not_not.mpr hversion
    rw [if_neg hsupported]
    cases hrepeated : firstRepeated (c.materials.map (·.name)) with
    | some name =>
      refine iff_of_false nofun fun h => ?_
      rw [firstRepeated_eq_none_iff.mpr h.distinct] at hrepeated
      cases hrepeated
    | none =>
      have hdistinct := firstRepeated_eq_none_iff.mp hrepeated
      show ((c.elements.zipIdx.forM fun item => item.1.solid.validate item.2) >>= fun _ =>
        c.verification.validate) = .ok () ↔ _
      cases htests : c.elements.zipIdx.forM fun item => item.1.solid.validate item.2 with
      | error e =>
        refine iff_of_false nofun fun h => ?_
        rw [validate_elements_eq_ok_iff.mpr h.thickness] at htests
        cases htests
      | ok _ =>
        rw [except_ok_bind, CheckConfig.validate_eq_ok_iff]
        have hthickness := validate_elements_eq_ok_iff.mp htests
        exact ⟨fun ⟨hstep, hrtol, hatol⟩ => ⟨hversion, hdistinct, hthickness, hstep, hrtol, hatol⟩,
          fun h => ⟨h.step, h.rtol, h.atol⟩⟩
  · have hunsupported : c.schemaVersion ≠ supportedVersion := hversion
    rw [if_pos hunsupported]
    exact iff_of_false nofun fun h => hversion h.version

/-- A case that has been loaded is valid. -/
theorem isValid_of_load [DecimalScalar α] {bytes : ByteArray} {c : Case α}
    (h : load bytes = .ok c) : c.IsValid := by
  have hload := load_of_decode (exists_decode_of_load h)
  rw [h] at hload
  cases hvalid : c.validate with
  | ok _ => exact validate_eq_ok_iff.mp hvalid
  | error e =>
    rw [hvalid] at hload
    cases hload

end Case

/-! ## Construction -/

namespace SolidEntry

variable {s : SolidEntry α} {library : Library α}

/-- **What is built is what is described**, and its warnings are reported. -/
theorem build_of_ok {t t' : Tracked Unit α} {solid : Solid α}
    (h : s.build library t = .ok solid t') :
    t' = ⟨t.subject, t.journal ++ solid.warnings⟩ ∧ solid.span = s.span := by
  unfold build at h
  cases hname : s.material with
  | none =>
    rw [hname] at h
    cases h
    exact ⟨rfl, rfl⟩
  | some name =>
    rw [hname] at h
    dsimp only at h
    cases hfound : library.get? name with
    | none =>
      rw [hfound] at h
      cases h
    | some handle =>
      rw [hfound] at h
      cases h
      exact ⟨rfl, rfl⟩

/-- A solid can be built if the library has its material. -/
theorem exists_build (h : ∀ name ∈ s.material, name ∈ library.names) (t : Tracked Unit α) :
    ∃ solid t', s.build library t = .ok solid t' := by
  have hrefusal : s.refusal? library.names = none := by
    unfold refusal?
    rw [Option.bind_eq_none_iff]
    exact fun name hname => if_pos (h name hname)
  have hnames : ∀ name, name ∈ library.names ↔ name ∈ library.names := fun _ => Iff.rfl
  have hsettles := s.settles_build hnames
  rw [hrefusal] at hsettles
  obtain ⟨solid, journal, hbuild, -⟩ := hsettles t.journal
  exact ⟨solid, _, hbuild⟩

end SolidEntry

/-- A solid starts with the thickness of its entry. -/
theorem isThickness_iff_of_span_eq {solid : Solid α} {s : SolidEntry α}
    (h : solid.span = s.span) : IsThickness solid.lower solid.upper solid.thickness
      ↔ IsThickness s.lowerBound s.upperBound s.thickness := by
  obtain ⟨hlower, h⟩ := Prod.mk.inj h
  obtain ⟨hupper, hthickness⟩ := Prod.mk.inj h
  rw [hlower, hupper, hthickness]

/-- **The elements of a case report the warnings of their solids one after the other**, and have
the thicknesses and bounds of their entries. -/
theorem Case.buildElements_of_ok {c : Case α} {library : Library α} {t t' : Tracked Unit α}
    {elements : List (BuiltElement α)} (h : c.buildElements library t = .ok elements t') :
    t' = ⟨t.subject, t.journal ++ elements.flatMap fun element => element.model.solid.warnings⟩
      ∧ elements.map (fun element => element.model.solid.span)
        = c.elements.map fun element => element.solid.span := by
  have hentry : ∀ (item : ElementEntry α × ℕ) (t : Tracked Unit α) (element : BuiltElement α)
      (t' : Tracked Unit α), item.1.build item.2 library t = .ok element t' →
      t' = ⟨t.subject, t.journal ++ element.model.solid.warnings⟩
        ∧ element.model.solid.span = item.1.solid.span := by
    intro item t element t' hrun
    obtain ⟨solid, t₁, hsolid, hrun⟩ := exists_of_bind_ok hrun
    cases hrun
    obtain ⟨rfl, hspan⟩ := SolidEntry.build_of_ok hsolid
    cases item.1.physics <;> exact ⟨rfl, hspan⟩
  obtain ⟨ht, hspans⟩ := Work.journal_of_mapM hentry h
  refine ⟨ht, hspans.trans ?_⟩
  calc c.elements.zipIdx.map (fun item => item.1.solid.span)
    _ = (c.elements.zipIdx.map Prod.fst).map fun element => element.solid.span := by
      rw [List.map_map]
      rfl
    _ = c.elements.map fun element => element.solid.span := by rw [List.zipIdx_map_fst]

/-! ## Both together -/

section Agreement

variable [Scalar.LinearlyOrdered α] [DecimalScalar α]

/-- The solids of a case that has been loaded start inside of their bounds. -/
theorem Case.isThickness_of_load {bytes : ByteArray} {c : Case α} (h : load bytes = .ok c)
    {library : Library α} {t t' : Tracked Unit α} {elements : List (BuiltElement α)}
    (hbuild : c.buildElements library t = .ok elements t') {element : BuiltElement α}
    (helement : element ∈ elements) :
    IsThickness element.model.solid.lower element.model.solid.upper
      element.model.solid.thickness := by
  have hmem : element.model.solid.span ∈ elements.map fun element => element.model.solid.span :=
    List.mem_map_of_mem helement
  rw [(buildElements_of_ok hbuild).2] at hmem
  obtain ⟨entry, hentry, hspan⟩ := List.mem_map.mp hmem
  have hthickness := (isValid_of_load h).thickness entry hentry
  exact (isThickness_iff_of_span_eq hspan.symm).mpr hthickness

variable (α)

/-- **Validation and construction judge a thickness alike.** A case is accepted exactly if it is
valid; an element passes the tests of its thickness exactly if the solid that is built of it comes
without a warning of its thickness; so the elements of a case that has been loaded all start inside
of their bounds, and nothing is said against them. -/
theorem thickness_judged_alike :
    (∀ c : Case α, c.validate = .ok () ↔ c.IsValid)
      ∧ (∀ (s : SolidEntry α) (position : ℕ) (library : Library α) (t : Tracked Unit α),
        (∀ name ∈ s.material, name ∈ library.names) →
        ∃ solid events, s.build library t = .ok solid ⟨t.subject, t.journal ++ events⟩
          ∧ (s.validate position = .ok () ↔ ∀ event ∈ events, event.warnsOfThickness = false))
      ∧ ∀ (bytes : ByteArray) (c : Case α), Case.load bytes = .ok c →
        ∀ (library : Library α) (t t' : Tracked Unit α) (elements : List (BuiltElement α)),
        c.buildElements library t = .ok elements t' →
        (∀ element ∈ elements, IsThickness element.model.solid.lower element.model.solid.upper
            element.model.solid.thickness)
          ∧ ∃ events, t' = ⟨t.subject, t.journal ++ events⟩
            ∧ ∀ event ∈ events, event.warnsOfThickness = false := by
  refine ⟨fun c => Case.validate_eq_ok_iff, fun s position library t hmaterial => ?_,
    fun bytes c hload library t t' elements hbuild => ?_⟩
  · obtain ⟨solid, t', hbuild⟩ := SolidEntry.exists_build hmaterial t
    obtain ⟨rfl, hspan⟩ := SolidEntry.build_of_ok hbuild
    refine ⟨solid, solid.warnings, hbuild, ?_⟩
    rw [SolidEntry.validate_eq_ok_iff, Solid.forall_mem_warnings_iff,
      isThickness_iff_of_span_eq hspan]
  · have hstart : ∀ element ∈ elements, IsThickness element.model.solid.lower
        element.model.solid.upper element.model.solid.thickness :=
      fun _ helement => Case.isThickness_of_load hload hbuild helement
    refine ⟨hstart, _, (Case.buildElements_of_ok hbuild).1, fun event hevent => ?_⟩
    obtain ⟨element, helement, hevent⟩ := List.mem_flatMap.mp hevent
    exact Solid.forall_mem_warnings_iff.mpr (hstart element helement) event hevent

end Agreement

/-- A thickness without an upper bound, and one that is not a number. -/
theorem thickness_judged_alike_sample :
    Case.unbounded.IsValid
      ∧ (∃ solid events, SolidEntry.build ⟨none, 0 / 0, none, none, none⟩ (.empty : Library Float)
            ⟨(), []⟩ = .ok solid ⟨(), events⟩ ∧ ∃ event ∈ events, event.warnsOfThickness = true)
      ∧ ∃ elements t', Case.unbounded.stored.buildElements .empty ⟨(), []⟩ = .ok elements t'
        ∧ ∀ element ∈ elements, IsThickness element.model.solid.lower element.model.solid.upper
            element.model.solid.thickness := by
  obtain ⟨hvalid, hwarns, hstart⟩ := thickness_judged_alike Float
  obtain ⟨elements, t', hbuild⟩ : ∃ elements t',
    Case.unbounded.stored.buildElements .empty ⟨(), []⟩ = .ok elements t' := ⟨_, _, rfl⟩
  refine ⟨(hvalid _).mp Case.load_unbounded.1, ?_, elements, t', hbuild, ?_⟩
  · obtain ⟨solid, events, hbuild, hjudged⟩ :=
      hwarns ⟨none, 0 / 0, none, none, none⟩ 0 .empty ⟨(), []⟩ nofun
    refine ⟨solid, events, hbuild, ?_⟩
    by_contra hsilent
    have hpassed := hjudged.mpr fun event hevent =>
      Bool.eq_false_iff.mpr fun hwarning => hsilent ⟨event, hevent, hwarning⟩
    cases hpassed
  · exact (hstart _ _ Case.load_unbounded.2 _ _ _ _ hbuild).1

end WeakForm
