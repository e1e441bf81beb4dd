import Mathlib
import WeakForm.Case.Verification
import WeakForm.Proofs.ExactNumbers
import WeakForm.Proofs.Outcomes
import WeakForm.Proofs.RegisteredNames

/-!
# The stages before the checks

What is known of a case once it has been validated, its quantities looked up, its materials and its
elements built. A stage has results of a kind (`Work.Ensures`): a valid case has a positive step and
no negative tolerance, the failure index is asked for by its name only, and **a built element is a
solid with the physics of its entry**.

Each stage is also settled by the case itself (`Work.Settles`), and **the first entry that is
refused gives the error**: a quantity that is not registered, a material that its constructor does
not accept, an element with a material that is not in the library. What is in the library is known
from the case by then: the names of its materials, and no others.
-/

namespace WeakForm

open ElementEntry Work

/-! ## What validation makes sure of -/

/-- The tests of the step and the tolerances. -/
theorem CheckConfig.validate_eq_ok_iff {α : Type} [Scalar α] {config : CheckConfig α} :
    config.validate = .ok ()
      ↔ 0 < config.stepSize ∧ ¬ config.rtol < 0 ∧ ¬ config.atol < 0 := by
  unfold validate
  split
  · next h =>
    refine iff_of_false nofun fun h' => ?_
    rcases h with h | h | h
    · exact h h'.1
    · exact h'.2.1 h
    · exact h'.2.2 h
  · next h =>
    rw [not_or, not_or, not_not] at h
    exact iff_of_true rfl h

section Validation

variable [Waves] {c : Case ℝ}

/-- A valid configuration has a positive step, and no negative tolerance. -/
theorem CheckConfig.validate_eq_ok {config : CheckConfig ℝ} {u : Unit}
    (h : config.validate = .ok u) : 0 < config.stepSize ∧ 0 ≤ config.rtol ∧ 0 ≤ config.atol := by
  obtain ⟨hstep, hrtol, hatol⟩ := validate_eq_ok_iff.mp h
  exact ⟨hstep, not_lt.mp hrtol, not_lt.mp hatol⟩

/-- A valid case has a valid configuration. -/
theorem Case.validate_eq_ok {u : Unit} (h : c.validate = .ok u) :
    c.verification.validate = .ok u := by
  unfold Case.validate at h
  dsimp only at h
  split at h
  · cases h
  · split at h
    · cases h
    · obtain ⟨-, -, h⟩ := exists_of_except_bind_ok h
      exact h

omit [Waves] in
/-- The failure index is only asked for by its name. -/
theorem Registry.sameName_of_lookup? {name : String}
    (h : Registry.builtin.lookup? name = some .failureIndex) :
    sameName "failure_index" name = true := by
  unfold lookup? at h
  obtain ⟨entry, hfind, htag⟩ := Option.map_eq_some_iff.mp h
  have hname := List.find?_some hfind
  have hmem := List.mem_of_find?_eq_some hfind
  -- only the first entry of the registry has this tag
  simp only [builtin, List.mem_cons, List.not_mem_nil, or_false] at hmem
  rcases hmem with rfl | rfl | rfl | rfl | rfl
  · exact hname
  · cases htag
  · cases htag
  · cases htag
  · cases htag

omit [Waves] in
/-- A case that asks for the failure index names it. -/
theorem Case.exists_name_of_failureIndex {tags : List QuantityTag}
    (h : c.resolveQuantities .builtin = .ok tags) (hmem : .failureIndex ∈ tags) :
    ∃ name ∈ c.quantities, sameName "failure_index" name = true := by
  obtain ⟨name, hname, hlookup⟩ := exists_of_mapM_ok h _ hmem
  refine ⟨name, hname, Registry.sameName_of_lookup? ?_⟩
  cases hfound : Registry.builtin.lookup? name with
  | none =>
    rw [hfound] at hlookup
    cases hlookup
  | some tag =>
    rw [hfound] at hlookup
    cases hlookup
    rfl

end Validation

variable {α : Type} [Scalar α]

/-! ## Quantities -/

omit [Scalar α] in
/-- **The first name that is not registered is refused**, and nothing else. -/
theorem Case.refusal?_resolveQuantities (c : Case α) (r : Registry) :
    refusal? (c.resolveQuantities r)
      = c.quantities.findSome? fun name =>
          if r.Knows name then none else some (.unknownQuantity name) := by
  unfold resolveQuantities
  rw [refusal?_mapM]
  congr 1
  funext name
  by_cases hknown : r.Knows name
  · obtain ⟨tag, htag⟩ := Registry.exists_lookup?_iff.mpr hknown
    rw [if_pos hknown, htag]
    rfl
  · have hnone : r.lookup? name = none :=
      Option.eq_none_iff_forall_ne_some.mpr fun tag htag =>
        hknown (Registry.exists_lookup?_iff.mp ⟨tag, htag⟩)
    rw [if_neg hknown, hnone]
    rfl

omit [Scalar α] in
theorem Case.knows_of_resolveQuantities {c : Case α} {r : Registry} {tags : List QuantityTag}
    (h : c.resolveQuantities r = .ok tags) : ∀ name ∈ c.quantities, r.Knows name := by
  intro name hname
  have hnone := c.refusal?_resolveQuantities r
  rw [h] at hnone
  by_contra hknown
  have hfirst := List.findSome?_eq_none_iff.mp hnone.symm name hname
  rw [if_neg hknown] at hfirst
  cases hfirst

omit [Scalar α] in
/-- The quantities are those of the names, in their order. -/
theorem Case.resolveQuantities_eq_ok {c : Case α} {r : Registry} {tags : List QuantityTag}
    (h : c.resolveQuantities r = .ok tags) : tags = c.quantities.filterMap r.lookup? := by
  unfold resolveQuantities at h
  generalize c.quantities = names at h ⊢
  induction names generalizing tags with
  | nil =>
    cases h
    rfl
  | cons name names ih =>
    rw [List.mapM_cons] at h
    obtain ⟨tag, htag, h⟩ := exists_of_except_bind_ok h
    obtain ⟨rest, hrest, h⟩ := exists_of_except_bind_ok h
    cases h
    have hlookup : r.lookup? name = some tag := by
      split at htag
      · rename_i found
        cases htag
        exact found
      · cases htag
    rw [List.filterMap_cons_some hlookup, ih hrest]

/-! ## Materials -/

section Materials

variable [Spectral α]

omit [Scalar α] [Spectral α] in
/-- The names in a library are those that can be looked up. -/
theorem Library.mem_names_iff {l : Library α} {name : String} :
    name ∈ l.names ↔ (l.get? name).isSome = true := by
  unfold names get?
  rw [List.find?_isSome, List.mem_map]
  simp only [decide_eq_true_eq]

omit [Scalar α] [Spectral α] in
/-- An addition adds its name to those in the library. -/
theorem Library.mem_names_add {l : Library α} {material : Material α} {name : String} :
    name ∈ (l.add material).2.names ↔ material.name = name ∨ name ∈ l.names := by
  rw [mem_names_iff, mem_names_iff]
  unfold get? add
  dsimp only
  rw [find?_place]
  by_cases hname : material.name = name
  · rw [if_pos hname]
    exact iff_of_true rfl (Or.inl hname)
  · rw [if_neg hname]
    exact (or_iff_right hname).symm

theorem Material.name_of_ofStiffness? {name : String} {symmetry : Symmetry}
    {density yieldStress : α} {stiffness : Stiffness α} {material : Material α}
    (h : ofStiffness? name symmetry density yieldStress stiffness = .ok material) :
    material.name = name := by
  unfold ofStiffness? at h
  split at h
  · cases h
  · split at h
    · cases h
    · split at h
      · cases h
      · cases h
        rfl

theorem Material.name_of_isotropic? {name : String} {density young poisson yieldStress : α}
    {material : Material α}
    (h : isotropic? name density young poisson yieldStress = .ok material) :
    material.name = name := by
  unfold isotropic? at h
  split at h
  · cases h
  · split at h
    · cases h
    · exact name_of_ofStiffness? h

theorem Material.name_of_orthotropic? {name : String} {density yieldStress : α}
    {constants : EngineeringConstants α} {material : Material α}
    (h : orthotropic? name density constants yieldStress = .ok material) :
    material.name = name := by
  unfold orthotropic? at h
  split at h
  · cases h
  · split at h
    · cases h
    · exact name_of_ofStiffness? h

namespace MaterialEntry

/-- What the constructor of the symmetry class makes of an entry. -/
def construct? (m : MaterialEntry α) : Except (ModelError α) (Material α) :=
  match m.constants with
  | .isotropic young poisson => Material.isotropic? m.name m.density young poisson m.yieldStress
  | .orthotropic constants => Material.orthotropic? m.name m.density constants m.yieldStress
  | .anisotropic stiffness => Material.anisotropic? m.name m.density stiffness m.yieldStress

omit [Spectral α] in
/-- The optional fields of an entry, put into a material. -/
def complete (m : MaterialEntry α) (material : Material α) : Material α :=
  let material := material.withSpecificHeat m.specificHeat
  let material := match m.thermalExpansion with
    | some expansion => material.withThermalExpansion expansion
    | none => material
  let material := match m.thermalStrain with
    | some strain => material.withThermalStrain strain
    | none => material
  let material := match m.conductivity with
    | some conductivity => material.withConductivity conductivity
    | none => material
  match m.conduction with
  | some tensor => material.withConduction (.ofVector tensor)
  | none => material

/-- **Only the constructor can refuse a material.** -/
theorem toMaterial?_eq (m : MaterialEntry α) : m.toMaterial? = m.complete <$> m.construct? := by
  unfold toMaterial? construct?
  cases m.constants <;> rfl

theorem exists_construct?_of_toMaterial? {m : MaterialEntry α} {material : Material α}
    (h : m.toMaterial? = .ok material) : ∃ material, m.construct? = .ok material := by
  rw [toMaterial?_eq] at h
  cases hconstruct : m.construct? with
  | error e =>
    rw [hconstruct] at h
    cases h
  | ok material => exact ⟨material, rfl⟩

theorem name_of_construct? {m : MaterialEntry α} {material : Material α}
    (h : m.construct? = .ok material) : material.name = m.name := by
  unfold construct? at h
  cases hc : m.constants with
  | isotropic young poisson =>
    rw [hc] at h
    exact Material.name_of_isotropic? h
  | orthotropic constants =>
    rw [hc] at h
    exact Material.name_of_orthotropic? h
  | anisotropic stiffness =>
    rw [hc] at h
    exact Material.name_of_ofStiffness? h

omit [Spectral α] in
theorem name_complete (m : MaterialEntry α) (material : Material α) :
    (m.complete material).name = material.name := by
  unfold complete
  cases m.thermalExpansion <;> cases m.thermalStrain <;> cases m.conductivity
    <;> cases m.conduction <;> rfl

/-- The error of a material that is not accepted. -/
def refusal? (m : MaterialEntry α) : Option (CaseError α) :=
  (WeakForm.refusal? m.construct?).map .model

theorem settles_build (m : MaterialEntry α) :
    Settles m.build () m.refusal? (·.name = m.name) := by
  unfold build refusal?
  rw [toMaterial?_eq]
  cases hconstruct : m.construct? with
  | error e => exact settles_throw _
  | ok material =>
    refine (keeps_note _).bind fun _ _ => keeps_pure ?_
    exact (m.name_complete material).trans (name_of_construct? hconstruct)

/-- **The library holds the names of the materials**, if all of them are accepted. -/
theorem settles_foldlM (materials : List (MaterialEntry α)) (library : Library α) :
    Settles (materials.foldlM (fun (library : Library α) m => do
        return (library.add (← m.build)).2) library : Work (CaseError α) Unit α (Library α)) ()
      (materials.findSome? refusal?)
      fun built => ∀ name, name ∈ built.names
        ↔ name ∈ materials.map (·.name) ∨ name ∈ library.names := by
  -- by induction on the materials that are left, for whatever library has been built so far
  induction materials generalizing library with
  | nil => exact keeps_pure fun name => (or_iff_right List.not_mem_nil).symm
  | cons m materials ih =>
    have hadd : Settles (do
        return (library.add (← m.build)).2 : Work (CaseError α) Unit α (Library α)) ()
        (m.refusal?.or none)
        fun built => ∀ name, name ∈ built.names ↔ m.name = name ∨ name ∈ library.names :=
      m.settles_build.bind fun material hname => keeps_pure fun name => by
        rw [← hname]
        exact Library.mem_names_add
    rw [Option.or_none] at hadd
    rw [List.foldlM_cons, findSome?_cons_or]
    refine hadd.bind fun built hbuilt => ?_
    refine (ih built).imp fun final hfinal name => ?_
    rw [hfinal name, hbuilt name, List.map_cons, List.mem_cons]
    tauto

end MaterialEntry

/-- The library of a case holds the names of its materials. -/
theorem Case.settles_buildLibrary (c : Case α) :
    Settles c.buildLibrary () (c.materials.findSome? MaterialEntry.refusal?)
      fun library => ∀ name, name ∈ library.names ↔ name ∈ c.materials.map (·.name) := by
  unfold buildLibrary
  rw [← Option.or_none (o := c.materials.findSome? MaterialEntry.refusal?)]
  refine (MaterialEntry.settles_foldlM c.materials .empty).bind fun library hlibrary => ?_
  refine (keeps_note _).bind fun _ _ => keeps_pure fun name => ?_
  rw [hlibrary name]
  exact or_iff_left List.not_mem_nil

end Materials

/-! ## Elements -/

/-- **A built element is a solid with the physics of its entry.** -/
theorem Case.ensures_buildElements (c : Case α) (library : Library α) :
    Ensures (c.buildElements library) fun elements => ∀ element ∈ elements,
      ∃ entry ∈ c.elements, element.kind = entry.physics.kind
        ∧ ∃ s, element.model = modelOf entry.physics s := by
  unfold buildElements
  have hbuild : ∀ item ∈ c.elements.zipIdx, Ensures (item.1.build item.2 library)
      fun element => element.kind = item.1.physics.kind
        ∧ ∃ s, element.model = modelOf item.1.physics s := by
    intro item _
    exact (ensures_true _).bind fun s _ => ensures_pure ⟨rfl, s, rfl⟩
  intro t elements t' hrun element helement
  obtain ⟨item, hitem, hkind, hmodel⟩ := ensures_mapM hbuild t elements t' hrun element helement
  exact ⟨item.1, List.fst_mem_of_mem_zipIdx hitem, hkind, hmodel⟩

/-- The physics of a model. -/
def SolidModel.physics : SolidModel α → Physics α
  | .elasticity e => .elasticity e.thermalLoad
  | .conduction _ => .conduction

omit [Scalar α] in
/-- A model is made of its physics and of its solid. -/
theorem SolidModel.modelOf_physics (model : SolidModel α) :
    modelOf model.physics model.solid = model := by
  cases model <;> rfl

omit [Scalar α] in
@[simp] theorem SolidModel.physics_modelOf (physics : Physics α) (solid : Solid α) :
    (modelOf physics solid).physics = physics := by
  cases physics <;> rfl

/-- What is said of a built element: its name, its kind and its physics. -/
def BuiltElement.heading (element : BuiltElement α) : String × String × Physics α :=
  (element.name, element.kind, element.model.physics)

/-- What is said of the entry at a position. -/
def ElementEntry.heading (entry : ElementEntry α) (position : ℕ) : String × String × Physics α :=
  (entry.name.getD s!"element_{position}", entry.physics.kind, entry.physics)

/-- The error of a solid whose material has none of the names. -/
def SolidEntry.refusal? (names : List String) (s : SolidEntry α) : Option (CaseError α) :=
  s.material.bind fun name => if name ∈ names then none else some (.unknownMaterial name)

section Library

variable {library : Library α} {names : List String}

theorem SolidEntry.settles_build (hnames : ∀ name, name ∈ library.names ↔ name ∈ names)
    (s : SolidEntry α) : Settles (s.build library) () (s.refusal? names) fun _ => True := by
  unfold build refusal?
  cases s.material with
  | none => exact fun _ => ⟨_, _, rfl, trivial⟩
  | some name =>
    dsimp only [Option.bind_some]
    by_cases hname : name ∈ names
    · obtain ⟨handle, hhandle⟩ := Option.isSome_iff_exists.mp
        (Library.mem_names_iff.mp ((hnames name).mpr hname))
      rw [if_pos hname, hhandle]
      exact fun _ => ⟨_, _, rfl, trivial⟩
    · have hnone : library.get? name = none :=
        Option.not_isSome_iff_eq_none.mp fun hfound =>
          hname ((hnames name).mp (Library.mem_names_iff.mpr hfound))
      rw [if_neg hname, hnone]
      exact fun journal => ⟨journal, rfl⟩

/-- **The elements of a case are built in their order**, if the library has their materials. -/
theorem Case.settles_buildElements (c : Case α)
    (hnames : ∀ name, name ∈ library.names ↔ name ∈ names) :
    Settles (c.buildElements library) ()
      (c.elements.findSome? fun entry => entry.solid.refusal? names)
      fun elements => elements.map BuiltElement.heading
        = c.elements.zipIdx.map fun item => item.1.heading item.2 := by
  have hentries : (c.elements.findSome? fun entry => entry.solid.refusal? names)
      = c.elements.zipIdx.findSome? fun item => item.1.solid.refusal? names := by
    nth_rewrite 1 [← List.zipIdx_map_fst 0 c.elements]
    exact List.findSome?_map
  rw [hentries]
  unfold buildElements
  refine settles_mapM fun item _ => ?_
  obtain ⟨entry, position⟩ := item
  rw [← Option.or_none (o := entry.solid.refusal? names)]
  refine (entry.solid.settles_build hnames).bind fun solid _ => keeps_pure ?_
  unfold BuiltElement.heading heading
  rw [SolidModel.physics_modelOf]

end Library

end WeakForm
