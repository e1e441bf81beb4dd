import Mathlib
import WeakForm.Proofs.AdmittedMaterials
import WeakForm.Proofs.LibraryRuns
import WeakForm.Proofs.ThicknessBounds

/-!
# The materials of a case

A case describes materials and names them again where it describes elements. That each element gets
the material that is meant rests on two tests in different places: validation refuses a name that
comes up twice, and a library never gives out a material under another name than its own. So in a
valid case a name has **one description at most** (`filter_materials_eq`), and a solid that asks
for it is made of what this description says (`SolidEntry.IsBound`), where a full tensor goes before
a single constant (`MaterialEntry.Describes`).
-/

namespace WeakForm

open ElementEntry Work

variable {α : Type} [Scalar α]

/-! ## What an entry describes -/

namespace MaterialEntry

/-- The strain of a unit change of temperature. -/
def strain (m : MaterialEntry α) : Voigt α :=
  match m.thermalStrain, m.thermalExpansion with
  | some strain, _ => strain
  | none, some expansion => Vector.replicate 3 expansion ++ Vector.replicate 3 (0 : α)
  | none, none => Vector.replicate 6 0

/-- The conduction tensor. -/
def tensor (m : MaterialEntry α) : Conduction α :=
  match m.conduction, m.conductivity with
  | some tensor, _ => .ofVector tensor
  | none, some conductivity => ⟨conductivity, 0, conductivity⟩
  | none, none => .zero

variable [Spectral α]

/-- **The material that is described**: what the constructor of the class makes, with the thermal
properties of the entry. -/
def Describes (m : MaterialEntry α) (material : Material α) : Prop :=
  ∃ plain, m.construct? = .ok plain ∧ material =
    { plain with specificHeat := m.specificHeat, thermalStrain := m.strain, conduction := m.tensor }

/-- A constructor leaves the thermal properties at zero. -/
theorem thermal_of_construct? {m : MaterialEntry α} {plain : Material α}
    (h : m.construct? = .ok plain) :
    plain.thermalStrain = Vector.replicate 6 0 ∧ plain.conduction = .zero := by
  obtain ⟨symmetry, K, hK⟩ : ∃ symmetry K,
      Material.ofStiffness? m.name symmetry m.density m.yieldStress K = .ok plain := by
    unfold construct? at h
    cases hconstants : m.constants with
    | isotropic young poisson =>
      rw [hconstants] at h
      exact ⟨_, _, (Material.isotropic?_eq_ok.mp h).2.2⟩
    | orthotropic constants =>
      rw [hconstants] at h
      obtain ⟨-, normal, -, hnormal⟩ := Material.orthotropic?_eq_ok_iff.mp h
      exact ⟨_, _, hnormal⟩
    | anisotropic stiffness =>
      rw [hconstants] at h
      exact ⟨_, _, h⟩
  obtain ⟨-, -, -, rfl⟩ := Material.ofStiffness?_eq_ok.mp hK
  exact ⟨rfl, rfl⟩

/-- **What is built is what is described.** -/
theorem describes_of_toMaterial? {m : MaterialEntry α} {material : Material α}
    (h : m.toMaterial? = .ok material) : m.Describes material := by
  rw [toMaterial?_eq] at h
  cases hplain : m.construct? with
  | error e =>
    rw [hplain] at h
    cases h
  | ok plain =>
    rw [hplain] at h
    cases h
    obtain ⟨hstrain, hconduction⟩ := thermal_of_construct? hplain
    refine ⟨plain, hplain, ?_⟩
    -- A property that the entry does not give is the zero that the constructor has left.
    obtain ⟨name, symmetry, density, heat, yieldStress, K, plainStrain, conduction⟩ := plain
    obtain rfl : plainStrain = Vector.replicate 6 0 := hstrain
    obtain rfl : conduction = .zero := hconduction
    unfold complete strain tensor
    cases m.thermalExpansion <;> cases m.thermalStrain <;> cases m.conductivity
      <;> cases m.conduction <;> rfl

theorem Describes.name_eq {m : MaterialEntry α} {material : Material α}
    (h : m.Describes material) : material.name = m.name := by
  obtain ⟨plain, hplain, rfl⟩ := h
  exact (name_of_construct? hplain :)

end MaterialEntry

/-- **A solid that is made of the material it asks for**, which has one description. -/
inductive SolidEntry.IsBound [Spectral α] (materials : List (MaterialEntry α)) (s : SolidEntry α) :
    Solid α → Prop
  | free (h : s.material = none) : IsBound materials s (s.made none)
  | bound {name : String} {m : MaterialEntry α} {material : Material α}
    (h : s.material = some name) (hunique : materials.filter (·.name = name) = [m])
    (hdescribes : m.Describes material) : IsBound materials s (s.made (some material))

/-! ## Validation -/

omit [Scalar α] in
/-- **A name has one description**, if no name comes up twice. -/
theorem filter_materials_eq {materials : List (MaterialEntry α)}
    (hdistinct : (materials.map (·.name)).Nodup) {m : MaterialEntry α} (hm : m ∈ materials) :
    materials.filter (·.name = m.name) = [m] := by
  induction materials with
  | nil => cases hm
  | cons first rest ih =>
    obtain ⟨hnew, hrest⟩ := List.nodup_cons.mp hdistinct
    have hother : ∀ other ∈ rest, other.name ≠ first.name := fun other hmem hname =>
      hnew (List.mem_map.mpr ⟨other, hmem, hname⟩)
    obtain rfl | hmem := List.mem_cons.mp hm
    · have hnone : rest.filter (·.name = m.name) = [] := by
        simpa [List.filter_eq_nil_iff] using hother
      simp [hnone]
    · simp [(hother m hmem).symm, ih hrest hmem]

/-- Validation refuses a name that comes up twice. -/
theorem Case.nodup_of_validate {c : Case α} (h : c.validate = .ok ()) :
    (c.materials.map (·.name)).Nodup := by
  rw [← firstRepeated_eq_none_iff]
  unfold validate at h
  by_cases hversion : c.schemaVersion ≠ supportedVersion
  · rw [if_pos hversion] at h
    cases h
  · rw [if_neg hversion] at h
    cases hrepeated : firstRepeated (c.materials.map (·.name)) with
    | none => rfl
    | some name =>
      rw [hrepeated] at h
      cases h

/-! ## The library of a case -/

section Library

open Library

/-- What a run of additions leaves in the library. -/
theorem Library.Ledger.library_foldl_add (materials : List (Material α)) (u : Ledger α) :
    ((materials.map Call.add).foldl Ledger.next u).library
      = materials.foldl (fun library material => (library.add material).2) u.library := by
  induction materials generalizing u with
  | nil => rfl
  | cons material materials ih => exact ih _

omit [Scalar α] in
theorem Library.added_map_add (materials : List (Material α)) :
    added (materials.map Call.add) = materials := by
  induction materials with
  | nil => rfl
  | cons material materials ih => exact congrArg (material :: ·) ih

variable [Spectral α]

theorem MaterialEntry.toMaterial?_of_build {m : MaterialEntry α} {material : Material α}
    {t t' : Tracked Unit α} (h : m.build t = .ok material t') : m.toMaterial? = .ok material := by
  unfold build at h
  cases hm : m.toMaterial? with
  | error e =>
    rw [hm] at h
    cases h
  | ok built =>
    rw [hm] at h
    cases h
    rfl

/-- Materials have the names of their entries. -/
theorem MaterialEntry.map_name_of_mapM {entries : List (MaterialEntry α)}
    {materials : List (Material α)} (h : entries.mapM toMaterial? = .ok materials) :
    materials.map (·.name) = entries.map (·.name) := by
  induction entries generalizing materials with
  | nil =>
    cases h
    rfl
  | cons m entries ih =>
    rw [List.mapM_cons] at h
    obtain ⟨material, hmaterial, h⟩ := exists_of_except_bind_ok h
    obtain ⟨rest, hrest, h⟩ := exists_of_except_bind_ok h
    cases h
    rw [List.map_cons, List.map_cons, ih hrest, (describes_of_toMaterial? hmaterial).name_eq]

/-- The materials of entries are added one after the other. -/
theorem MaterialEntry.exists_of_foldlM {entries : List (MaterialEntry α)}
    {library library' : Library α} {t t' : Tracked Unit α}
    (h : (entries.foldlM (fun (library : Library α) m => do
        return (library.add (← m.build)).2) library : Work (CaseError α) Unit α (Library α)) t
      = .ok library' t') :
    ∃ materials, entries.mapM toMaterial? = .ok materials
      ∧ library' = materials.foldl (fun library material => (library.add material).2) library := by
  induction entries generalizing library t with
  | nil =>
    cases h
    exact ⟨[], rfl, rfl⟩
  | cons m entries ih =>
    rw [List.foldlM_cons] at h
    obtain ⟨next, t₁, hnext, h⟩ := exists_of_bind_ok h
    obtain ⟨material, t₂, hbuild, hnext⟩ := exists_of_bind_ok hnext
    cases hnext
    obtain ⟨materials, hmaterials, rfl⟩ := ih h
    refine ⟨material :: materials, ?_, rfl⟩
    rw [List.mapM_cons, toMaterial?_of_build hbuild, hmaterials]
    rfl

/-- **The library of a case is a run of additions**, one for each entry. -/
theorem Case.exists_of_buildLibrary {c : Case α} {library : Library α} {t t' : Tracked Unit α}
    (h : c.buildLibrary t = .ok library t') :
    ∃ materials, c.materials.mapM MaterialEntry.toMaterial? = .ok materials
      ∧ library = (Ledger.after (materials.map .add)).library := by
  unfold buildLibrary at h
  obtain ⟨built, t₁, hbuilt, h⟩ := exists_of_bind_ok h
  obtain ⟨-, t₂, -, h⟩ := exists_of_bind_ok h
  cases h
  obtain ⟨materials, hmaterials, rfl⟩ := MaterialEntry.exists_of_foldlM hbuilt
  exact ⟨materials, hmaterials, (Ledger.library_foldl_add materials ⟨.empty, [], []⟩).symm⟩

/-- The library of a case can be built if each of its materials can be. -/
theorem Case.exists_library {c : Case α} (h : ∀ m ∈ c.materials, m.refusal? = none)
    (t : Tracked Unit α) : ∃ library t', c.buildLibrary t = .ok library t' := by
  have hsettles := c.settles_buildLibrary
  rw [List.findSome?_eq_none_iff.mpr h] at hsettles
  obtain ⟨library, journal, hlibrary, -⟩ := hsettles t.journal
  exact ⟨library, _, hlibrary⟩

section Built

variable {c : Case α} {library : Library α} {t t' : Tracked Unit α}

theorem Case.mem_names_of_buildLibrary (h : c.buildLibrary t = .ok library t') (name : String) :
    name ∈ library.names ↔ name ∈ c.materials.map (·.name) := by
  obtain ⟨materials, hmaterials, rfl⟩ := exists_of_buildLibrary h
  rw [(Ledger.accounts_after _).mem_names_iff, added_map_add,
    MaterialEntry.map_name_of_mapM hmaterials]

/-- What the library of a case has under a name was described under this name. -/
theorem Case.exists_describes_of_get? (h : c.buildLibrary t = .ok library t') {name : String}
    {handle : Handle α} (hget : library.get? name = some handle) :
    ∃ m ∈ c.materials, m.name = name ∧ m.Describes handle.material := by
  obtain ⟨materials, hmaterials, rfl⟩ := exists_of_buildLibrary h
  have haccounts := Ledger.accounts_after (materials.map Call.add)
  rw [haccounts.get?_eq, haccounts.handles_eq] at hget
  obtain ⟨hhandle, hname⟩ := mem_of_lastNamed? hget
  have hmem : handle.material ∈ materials := by
    rw [← added_map_add materials, ← map_material_handlesOf]
    exact List.mem_map_of_mem hhandle
  obtain ⟨m, hm, hmaterial⟩ := exists_of_mapM_ok hmaterials _ hmem
  have hdescribes := MaterialEntry.describes_of_toMaterial? hmaterial
  exact ⟨m, hm, hdescribes.name_eq.symm.trans hname, hdescribes⟩

/-- **There is one material for each description**, in a valid case. -/
theorem Case.size_of_buildLibrary (hvalid : c.validate = .ok ())
    (h : c.buildLibrary t = .ok library t') : library.size = c.materials.length := by
  obtain ⟨materials, hmaterials, rfl⟩ := exists_of_buildLibrary h
  rw [(Ledger.accounts_after _).size_eq, added_map_add, MaterialEntry.map_name_of_mapM hmaterials,
    List.toFinset_card_of_nodup (nodup_of_validate hvalid), List.length_map]

/-- **A solid of a valid case is made of the material that it asks for.** -/
theorem Case.isBound_of_build (hvalid : c.validate = .ok ())
    (h : c.buildLibrary t = .ok library t') {s : SolidEntry α} {solid : Solid α}
    {u u' : Tracked Unit α} (hsolid : s.build library u = .ok solid u') :
    s.IsBound c.materials solid := by
  cases hmaterial : s.material with
  | none =>
    rw [SolidEntry.build_of_material_none hmaterial] at hsolid
    cases hsolid
    exact .free hmaterial
  | some name =>
    cases hget : library.get? name with
    | none =>
      rw [SolidEntry.build_of_get?_none hmaterial hget] at hsolid
      cases hsolid
    | some handle =>
      rw [SolidEntry.build_of_get?_some hmaterial hget] at hsolid
      cases hsolid
      -- Validation is what makes the entry that is found the only one with its name.
      obtain ⟨m, hm, rfl, hdescribes⟩ := exists_describes_of_get? h hget
      exact .bound hmaterial (filter_materials_eq (nodup_of_validate hvalid) hm) hdescribes

end Built

end Library

/-! ## The elements of a case -/

omit [Scalar α] in
/-- The results of work on each item of a list, each in its place. -/
theorem Work.forall₂_of_mapM {ε σ β γ : Type} {work : β → Work ε σ α γ} {r : β → γ → Prop}
    (h : ∀ item t result t', work item t = .ok result t' → r item result) {items : List β}
    {results : List γ} {t t' : Tracked σ α} (hrun : items.mapM work t = .ok results t') :
    List.Forall₂ r items results := by
  induction items generalizing results t with
  | nil =>
    cases hrun
    exact .nil
  | cons item items ih =>
    rw [List.mapM_cons] at hrun
    obtain ⟨result, t₁, hresult, hrun⟩ := exists_of_bind_ok hrun
    obtain ⟨rest, t₂, hrest, hrun⟩ := exists_of_bind_ok hrun
    cases hrun
    exact .cons (h item t result t₁ hresult) (ih hrest)

variable [Spectral α]

/-- **A case whose elements get the materials that are meant.** -/
structure Case.IsServedBy (c : Case α) (library : Library α) : Prop where
  size_eq : library.size = c.materials.length
  /-- The elements can be built if each name has a description. -/
  exists_elements : (∀ entry ∈ c.elements, ∀ name ∈ entry.solid.material,
      name ∈ c.materials.map (·.name)) →
    ∀ t, ∃ elements t', c.buildElements library t = .ok elements t'
  /-- Each is the physics of its entry with a solid that is made of the material it asks for. -/
  elements : ∀ t elements t', c.buildElements library t = .ok elements t' →
    List.Forall₂ (fun (entry : ElementEntry α) (element : BuiltElement α) =>
      element.model = modelOf entry.physics element.model.solid
        ∧ entry.solid.IsBound c.materials element.model.solid) c.elements elements

theorem Case.isServedBy_of_buildLibrary {c : Case α} (hvalid : c.validate = .ok ())
    {library : Library α} {t t' : Tracked Unit α} (h : c.buildLibrary t = .ok library t') :
    c.IsServedBy library where
  size_eq := size_of_buildLibrary hvalid h
  exists_elements := by
    intro hnames u
    have hsettles := c.settles_buildElements (mem_names_of_buildLibrary h)
    have hnone : (c.elements.findSome? fun entry =>
        entry.solid.refusal? (c.materials.map (·.name))) = none := by
      rw [List.findSome?_eq_none_iff]
      intro entry hentry
      unfold SolidEntry.refusal?
      rw [Option.bind_eq_none_iff]
      exact fun name hname => if_pos (hnames entry hentry name hname)
    rw [hnone] at hsettles
    obtain ⟨elements, journal, hbuild, -⟩ := hsettles u.journal
    exact ⟨elements, _, hbuild⟩
  elements := by
    intro u elements u' hbuild
    have hbuilt : List.Forall₂ (fun (item : ElementEntry α × ℕ) (element : BuiltElement α) =>
        element.model = modelOf item.1.physics element.model.solid
          ∧ item.1.solid.IsBound c.materials element.model.solid) c.elements.zipIdx elements := by
      refine Work.forall₂_of_mapM (fun item u element u' hrun => ?_) hbuild
      obtain ⟨solid, u₁, hsolid, hrun⟩ := exists_of_bind_ok hrun
      cases hrun
      have hbound := isBound_of_build hvalid h hsolid
      cases item.1.physics <;> exact ⟨rfl, hbound⟩
    rw [← List.zipIdx_map_fst 0 c.elements, List.forall₂_map_left_iff]
    exact hbuilt

/-- **A material is found by its name.** Any run on a library accounts for its calls, and the
library of a valid case serves the elements of this case. -/
theorem materials_found_by_name (α : Type) [Scalar α] [Spectral α] :
    (∀ calls : List (Library.Call α), (Library.Ledger.after calls).Accounts calls)
      ∧ ∀ c : Case α, c.validate = .ok () →
        ∀ t library t', c.buildLibrary t = .ok library t' → c.IsServedBy library :=
  ⟨Library.Ledger.accounts_after, fun _ hvalid _ _ _ h => Case.isServedBy_of_buildLibrary hvalid h⟩

/-- A case with two materials, whose names ascend otherwise than they are listed; one of the
materials has each thermal property twice. -/
def Case.bimetal : Case Float where
  schemaVersion := 1
  name := "bimetal"
  materials := [
    ⟨"é", 2, 3, .anisotropic ⟨Vector.replicate 21 0⟩, 5,
      some 7, some #v[1, 2, 3, 4, 5, 6], some 11, some #v[1, 2, 3]⟩,
    ⟨"z", 2, 3, .anisotropic ⟨Vector.replicate 21 0⟩, 5, some 7, none, some 11, none⟩]
  elements := [
    ⟨none, .conduction, ⟨some "z", 1, none, none, none⟩⟩,
    ⟨none, .conduction, ⟨some "é", 1, none, none, none⟩⟩]
  verification := .standard
  quantities := []

/-- Both elements of the case are built, each of its own material. -/
theorem materials_found_by_name_bimetal :
    Case.bimetal.validate = .ok () ∧ ∃ library t',
      Case.bimetal.buildLibrary ⟨(), []⟩ = .ok library t' ∧ library.size = 2
      ∧ ∃ elements u', Case.bimetal.buildElements library t' = .ok elements u'
        ∧ List.Forall₂ (fun entry element => entry.solid.IsBound Case.bimetal.materials
            element.model.solid) Case.bimetal.elements elements := by
  have hvalid : Case.bimetal.validate = .ok () := by
    have hnone : refusal? Case.bimetal.validate = none := by
      rw [← Option.isNone_iff_eq_none]
      decide +kernel
    obtain ⟨⟨⟩, hvalid⟩ := refusal?_eq_none_iff.mp hnone
    exact hvalid
  have hmaterials : ∀ m ∈ Case.bimetal.materials, m.refusal? = none := by
    simp only [← Option.isNone_iff_eq_none]
    decide +kernel
  obtain ⟨library, t', hlibrary⟩ := Case.exists_library hmaterials ⟨(), []⟩
  have hserved := (materials_found_by_name Float).2 Case.bimetal hvalid _ _ _ hlibrary
  obtain ⟨elements, u', hbuild⟩ := hserved.exists_elements (by simp [Case.bimetal]) t'
  exact ⟨hvalid, library, t', hlibrary, hserved.size_eq, elements, u', hbuild,
    (hserved.elements _ _ _ hbuild).imp fun _ _ h => h.2⟩

end WeakForm
