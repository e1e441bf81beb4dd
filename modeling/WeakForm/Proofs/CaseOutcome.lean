import WeakForm.Proofs.CaseMaterials
import WeakForm.Proofs.ElementChecks

/-!
# When verification runs

Whether a case has a report is decided before any check begins (`Case.IsAccepted`): it has to be
valid, its quantities have to be registered, its materials accepted, and those of its elements among
them. **What is refused is known in advance** (`Case.refusal?`): the stages refuse in this order,
each of them at its first entry that is not as it should be. The checks, which come last, refuse
nothing, whatever the numbers are that they work on.

A report follows the case (`Case.Describes`): it has an element for each entry, with the checks that
the quantities and the physics of the entry ask for. And it holds what these checks find, made on
the solid that the entry asks for and at the sample of its position (`Case.Verifies`): **a report
cannot be had without checking**.
-/

namespace WeakForm

open ElementEntry ElementModel Work

variable {α : Type}

/-! ## What a report says of an element -/

/-- What is reported of an element: its name, its kind and the names of its checks. -/
def ElementReport.outline (report : ElementReport α) : String × String × List String :=
  (report.name, report.kind, report.checks.map (·.name))

/-- The outline of an element under a heading, if its quantities are those with the tags. -/
def outlineOf (tags : List QuantityTag) (heading : String × String × Physics α) :
    String × String × List String :=
  (heading.1, heading.2.1, heading.2.2.checkNames .builtin tags)

variable [Scalar α]

/-- **What is reported of a built element**: under its name and its kind, what the checks of its
model find at the sample of its position. -/
structure BuiltElement.Answers (tags : List QuantityTag) (config : CheckConfig α)
    (element : BuiltElement α) (position : ℕ) (report : ElementReport α) : Prop where
  name_eq : report.name = element.name
  kind_eq : report.kind = element.kind
  checks : Checks element.model (.ofDims (dims element.model) position) .builtin config tags
    report.checks

/-- **The checks of a built element always succeed.** -/
theorem BuiltElement.keeps_verify_answers (element : BuiltElement α) (position : ℕ)
    (tags : List QuantityTag) (config : CheckConfig α) :
    Keeps (element.verify position tags .builtin config) ()
      (element.Answers tags config position) := by
  have hchecks := keeps_verifyElement_checks element.model.physics element.model.solid position tags
    .builtin config element.name element.kind
  rw [SolidModel.modelOf_physics] at hchecks
  unfold BuiltElement.verify
  refine (keeps_note _).bind fun _ _ => ?_
  refine (Keeps.onPart (fun _ => element.model) (fun _ whole => whole) rfl
    (hchecks.mapError CaseError.model)).imp ?_
  rintro report ⟨hname, hkind, hresults⟩
  exact ⟨hname, hkind, hresults⟩

/-- The outline of what is reported is that of the element. -/
theorem BuiltElement.Answers.outline_eq {tags : List QuantityTag} {config : CheckConfig α}
    {element : BuiltElement α} {position : ℕ} {report : ElementReport α}
    (h : element.Answers tags config position report) :
    report.outline = outlineOf tags element.heading := by
  have hchecks := h.checks
  rw [← element.model.modelOf_physics] at hchecks
  unfold ElementReport.outline outlineOf heading
  rw [h.name_eq, h.kind_eq, hchecks.map_name]

/-! ## Cases -/

namespace Case

/-- The names of the materials of a case. -/
def materialNames (c : Case α) : List String := c.materials.map (·.name)

variable [Spectral α]

/-- **A case that can be verified.** -/
structure IsAccepted (c : Case α) : Prop where
  valid : c.validate = .ok ()
  known : ∀ name ∈ c.quantities, Registry.builtin.Knows name
  materials : ∀ m ∈ c.materials, ∃ material, m.construct? = .ok material
  named : ∀ entry ∈ c.elements, ∀ name ∈ entry.solid.material, name ∈ c.materialNames

/-- **The error of a case that cannot be verified**: validation, the quantities, the materials and
the elements refuse in this order, each at its first offender. -/
def refusal? (c : Case α) : Option (CaseError α) :=
  (WeakForm.refusal? c.validate)
    |>.or (c.quantities.findSome? fun name =>
      if Registry.builtin.Knows name then none else some (.unknownQuantity name))
    |>.or (c.materials.findSome? MaterialEntry.refusal?)
    |>.or (c.elements.findSome? fun entry => entry.solid.refusal? c.materialNames)

/-- **An element of a report is what the checks find**, made on the physics of the entry at a
position with the solid that the entry asks for. -/
def Verifies (c : Case α) (item : ElementEntry α × ℕ) (report : ElementReport α) : Prop :=
  ∃ solid, item.1.solid.IsBound c.materials solid
    ∧ Checks (modelOf item.1.physics solid)
      (.ofDims (dims (modelOf item.1.physics solid)) item.2) .builtin c.verification
      (c.quantities.filterMap Registry.builtin.lookup?) report.checks

/-- **A report that follows its case**: one element for each entry in its order, named by the entry
or for its position, with the checks of its physics and of the quantities that it knows, each of
which has been made. -/
structure Describes (c : Case α) (report : Report α) : Prop where
  caseName : report.caseName = c.name
  generatedAt : report.generatedAt = none
  elements : report.elements.map ElementReport.outline = c.elements.zipIdx.map
    fun (entry, position) => (entry.name.getD s!"element_{position}", entry.physics.kind,
      entry.physics.checkNames .builtin (c.quantities.filterMap Registry.builtin.lookup?))
  verified : List.Forall₂ c.Verifies c.elements.zipIdx report.elements

/-- **A case is accepted exactly if nothing in it is refused.** -/
theorem refusal?_eq_none_iff (c : Case α) : c.refusal? = none ↔ c.IsAccepted := by
  have hvalid : WeakForm.refusal? c.validate = none ↔ c.validate = .ok () :=
    WeakForm.refusal?_eq_none_iff.trans ⟨fun ⟨_, h⟩ => h, fun h => ⟨(), h⟩⟩
  have hmaterial : ∀ m : MaterialEntry α,
      m.refusal? = none ↔ ∃ material, m.construct? = .ok material := fun m =>
    Option.map_eq_none_iff.trans WeakForm.refusal?_eq_none_iff
  have hnamed : ∀ s : SolidEntry α, s.refusal? c.materialNames = none
      ↔ ∀ name ∈ s.material, name ∈ c.materialNames := fun s => by
    unfold SolidEntry.refusal?
    rw [Option.bind_eq_none_iff]
    simp only [ite_eq_left_iff, reduceCtorEq, imp_false, not_not, Option.mem_def]
  unfold refusal?
  simp only [Option.or_eq_none_iff, List.findSome?_eq_none_iff, hvalid, hmaterial, hnamed,
    ite_eq_left_iff, reduceCtorEq, imp_false, not_not]
  exact ⟨fun ⟨⟨⟨h₁, h₂⟩, h₃⟩, h₄⟩ => ⟨h₁, h₂, h₃, h₄⟩,
    fun h => ⟨⟨⟨h.valid, h.known⟩, h.materials⟩, h.named⟩⟩

/-- **A verification is settled by its case.** -/
theorem settles_verify (c : Case α) : Settles c.verify () c.refusal? c.Describes := by
  unfold verify refusal?
  simp only [Option.or_assoc]
  refine (settles_liftM c.validate).bind fun _ hvalid => ?_
  rw [← refusal?_resolveQuantities]
  refine (settles_liftM (c.resolveQuantities .builtin)).bind fun tags htags => ?_
  refine (c.settles_buildLibrary.and_ensures fun _ _ _ => isServedBy_of_buildLibrary hvalid).bind ?_
  rintro library ⟨hnames, hserved⟩
  rw [← Option.or_none (o := c.elements.findSome? _)]
  refine ((c.settles_buildElements hnames).and_ensures hserved.elements).bind ?_
  rintro elements ⟨hheadings, hbound⟩
  -- nothing is refused from here on
  refine Keeps.bind (keeps_mapM_forall₂ fun item _ => item.1.keeps_verify_answers item.2 _ _)
    fun reports hreports => ?_
  refine (keeps_note _).bind fun _ _ => keeps_pure ⟨rfl, rfl, ?_, ?_⟩
  · have houtlines : reports.map ElementReport.outline
        = elements.zipIdx.map fun item => outlineOf tags item.1.heading := by
      rw [← List.forall₂_eq_eq_eq, List.forall₂_map_left_iff, List.forall₂_map_right_iff]
      exact (hreports.imp fun _ _ h => h.outline_eq).flip
    calc reports.map ElementReport.outline
      _ = elements.zipIdx.map fun item => outlineOf tags item.1.heading := houtlines
      _ = ((elements.zipIdx.map Prod.fst).map BuiltElement.heading).map (outlineOf tags) := by
        rw [List.map_map, List.map_map]
        rfl
      _ = (c.elements.zipIdx.map fun item => item.1.heading item.2).map (outlineOf tags) := by
        rw [List.zipIdx_map_fst, hheadings]
      _ = _ := by
        rw [List.map_map, resolveQuantities_eq_ok htags]
        rfl
  · refine (forall₂_zipIdx_trans hbound hreports).imp ?_
    rintro item report ⟨element, ⟨hmodel, hsolid⟩, hanswers⟩
    have hchecks := hanswers.checks
    rw [hmodel, resolveQuantities_eq_ok htags] at hchecks
    exact ⟨element.model.solid, hsolid, hchecks⟩

end Case

/-- **Whether a case is verified, and what comes of it**: it has a report exactly if it is accepted,
its report follows it and holds what the checks find, and otherwise it fails with the first error in
the order of the stages. -/
theorem Case.verify_outcome [Spectral α] (c : Case α) (t : Tracked Unit α) :
    ((∃ report t', c.verify t = .ok report t') ↔ c.IsAccepted)
      ∧ (∀ report t', c.verify t = .ok report t' → c.Describes report)
      ∧ ∀ e, (∃ t', c.verify t = .error e t') ↔ c.refusal? = some e := by
  obtain ⟨⟨⟩, journal⟩ := t
  have hsettles := c.settles_verify
  rw [← Case.refusal?_eq_none_iff]
  unfold Settles at hsettles
  cases hrefusal : c.refusal? with
  | none =>
    rw [hrefusal] at hsettles
    obtain ⟨report, journal', hverify, hreport⟩ := hsettles journal
    simp [hverify, hreport]
  | some e =>
    rw [hrefusal] at hsettles
    obtain ⟨journal', hverify⟩ := hsettles journal
    simp [hverify]

end WeakForm
