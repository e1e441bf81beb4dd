import WeakForm.Decimal.Binary64
import WeakForm.Format.File
import WeakForm.Proofs.PrintedJson
import WeakForm.Proofs.StoredRecords

/-!
# Files of cases

A case is written by one family of functions and read by another, and the two agree on names, tags,
defaults and lengths: **what is read from the file of a case is the case**, as long as its numbers
are finite (`Case.decode_fileText_of_finite`). The numbers fall into two groups. A number that a
file has to hold (`required`) is refused if it has become `null`; a number that may be left out
(`optional`) is taken for absent, and **the case that is loaded has lost it** (`stored`). A bound of
an element is such a number, and an absent bound is the thickness, so a valid case without an upper
bound is loaded as a case with one (`Case.not_forall_load_eq`).

Each record follows the same two steps: its fields are found among the slots that were written, and
then its readers run one after the other, each of which gives what was stored if the numbers in it
are finite.
-/

namespace WeakForm

open Json

variable {α : Type} [DecimalScalar α]

/-! ## Step and tolerances -/

namespace CheckConfig

/-- The numbers of step and tolerances. -/
def numbers (config : CheckConfig α) : List α := [config.stepSize, config.rtol, config.atol]

theorem givesIf_ofJson? [Scalar α] {config : CheckConfig α}
    (h : ∀ x ∈ config.numbers, ReadsBack x) :
    GivesIf (∀ x ∈ config.numbers, isFinite x = true) config (ofJson? config.toJson) := by
  simp only [numbers, List.forall_mem_cons] at h
  obtain ⟨hstep, hr, ha, -⟩ := h
  have hslots : slots? ["step_size", "rtol", "atol"] config.toJson
      = some (config.numbers.map fun x => some (ofScalar x)) := rfl
  unfold ofJson?
  rw [hslots]
  simp only [numbers, List.map_cons, List.map_nil, Option.bind_eq_bind, Option.bind_some,
    Option.pure_def]
  refine .congr (.bind (givesIf_scalar hstep) (.bind (givesIf_scalar hr)
    (.bind (givesIf_scalar ha) (.pure _)))) ?_
  simp

end CheckConfig

/-! ## Elastic constants -/

namespace EngineeringConstants

/-- The nine constants. -/
def numbers (p : EngineeringConstants α) : List α :=
  [p.e1, p.e2, p.e3, p.nu12, p.nu13, p.nu23, p.g23, p.g13, p.g12]

theorem givesIf_ofJson? {p : EngineeringConstants α} (h : ∀ x ∈ p.numbers, ReadsBack x) :
    GivesIf (∀ x ∈ p.numbers, isFinite x = true) p (ofJson? (record p.members)) := by
  simp only [numbers, List.forall_mem_cons] at h
  obtain ⟨h1, h2, h3, h12, h13, h23, hg23, hg13, hg12, -⟩ := h
  have hslots : slots? ["e1", "e2", "e3", "nu12", "nu13", "nu23", "g23", "g13", "g12"]
      (record p.members) = some (p.numbers.map fun x => some (ofScalar x)) := rfl
  unfold ofJson?
  dsimp only
  rw [hslots]
  simp only [numbers, List.map_cons, List.map_nil, Option.bind_eq_bind, Option.bind_some,
    Option.pure_def]
  refine .congr (.bind (givesIf_scalar h1) (.bind (givesIf_scalar h2) (.bind (givesIf_scalar h3)
    (.bind (givesIf_scalar h12) (.bind (givesIf_scalar h13) (.bind (givesIf_scalar h23)
    (.bind (givesIf_scalar hg23) (.bind (givesIf_scalar hg13) (.bind (givesIf_scalar hg12)
    (.pure _)))))))))) ?_
  simp

end EngineeringConstants

namespace ElasticConstants

/-- The numbers of elastic constants. -/
def numbers : ElasticConstants α → List α
  | .isotropic young poisson => [young, poisson]
  | .orthotropic constants => constants.numbers
  | .anisotropic stiffness => stiffness.packed.toList

/-- The symmetry class that elastic constants belong to. -/
def symmetry : ElasticConstants α → Symmetry
  | .isotropic .. => .isotropic
  | .orthotropic _ => .orthotropic
  | .anisotropic _ => .anisotropic

/-- The members beside the kind. -/
def fields : ElasticConstants α → List (String × Json)
  | .isotropic young poisson => [("young", ofScalar young), ("poisson", ofScalar poisson)]
  | .orthotropic constants => constants.members
  | .anisotropic stiffness => [("stiffness", stiffness.toJson)]

theorem members_eq (constants : ElasticConstants α) :
    constants.members = ("kind", ofString constants.symmetry.kind) :: constants.fields := by
  cases constants <;> rfl

theorem nodup_members (constants : ElasticConstants α) :
    (constants.members.map Prod.fst).Nodup := by
  cases constants <;> simp [members, EngineeringConstants.members]

theorem storable_fields {constants : ElasticConstants α}
    (h : ∀ x ∈ constants.numbers, ReadsBack x) {room : ℕ} (hroom : 0 < room) :
    ∀ field ∈ constants.fields, storable α room field.2 = true := by
  cases constants with
  | isotropic young poisson =>
    simp only [numbers, List.forall_mem_cons] at h
    simp only [fields, List.forall_mem_cons]
    exact ⟨storable_ofScalar h.1 room, storable_ofScalar h.2.1 room, List.forall_mem_nil _⟩
  | orthotropic p =>
    simp only [numbers, EngineeringConstants.numbers, List.forall_mem_cons] at h
    obtain ⟨h1, h2, h3, h12, h13, h23, hg23, hg13, hg12, -⟩ := h
    simp only [fields, EngineeringConstants.members, List.forall_mem_cons]
    exact ⟨storable_ofScalar h1 _, storable_ofScalar h2 _, storable_ofScalar h3 _,
      storable_ofScalar h12 _, storable_ofScalar h13 _, storable_ofScalar h23 _,
      storable_ofScalar hg23 _, storable_ofScalar hg13 _, storable_ofScalar hg12 _,
      List.forall_mem_nil _⟩
  | anisotropic stiffness =>
    obtain ⟨room, rfl⟩ : ∃ r, room = r + 1 := ⟨room - 1, by omega⟩
    simp only [fields, List.forall_mem_cons]
    exact ⟨storable_ofScalarVector h room, List.forall_mem_nil _⟩

/-- **Elastic constants are read from the fields beside their kind.** -/
theorem givesIf_ofFields? {constants : ElasticConstants α}
    (h : ∀ x ∈ constants.numbers, ReadsBack x) :
    GivesIf (∀ x ∈ constants.numbers, isFinite x = true) constants
      (ofFields? constants.symmetry (record constants.fields)) := by
  cases constants with
  | isotropic young poisson =>
    simp only [numbers, List.forall_mem_cons] at h
    obtain ⟨hyoung, hpoisson, -⟩ := h
    have hslots : slots? ["young", "poisson"] (record (fields (.isotropic young poisson)))
        = some [some (ofScalar young), some (ofScalar poisson)] := rfl
    simp only [ofFields?, symmetry, hslots, Option.bind_eq_bind, Option.bind_some, Option.pure_def]
    refine .congr (.bind (givesIf_scalar hyoung) (.bind (givesIf_scalar hpoisson) (.pure _))) ?_
    simp [numbers]
  | orthotropic p => exact (EngineeringConstants.givesIf_ofJson? h).map _
  | anisotropic stiffness =>
    have hslots : slots? ["stiffness"] (record (fields (.anisotropic stiffness)))
        = some [some stiffness.toJson] := rfl
    have hread : GivesIf (∀ x ∈ stiffness.packed.toList, isFinite x = true) stiffness
        (Stiffness.ofJson? stiffness.toJson) := (givesIf_vector h).map _
    simp only [ofFields?, symmetry, hslots, Option.bind_eq_bind, Option.bind_some, Option.pure_def]
    refine .congr (.bind hread (.pure _)) ?_
    simp [numbers]

end ElasticConstants

/-! ## Materials -/

namespace MaterialEntry

/-- The numbers that the file of a material has to hold. -/
def required (m : MaterialEntry α) : List α :=
  m.constants.numbers ++ [m.density, m.yieldStress, m.specificHeat]
    ++ (m.thermalStrain.elim [] Vector.toList ++ m.conduction.elim [] Vector.toList)

/-- The numbers that the file of a material may leave out. -/
def optional (m : MaterialEntry α) : List α :=
  m.thermalExpansion.toList ++ m.conductivity.toList

/-- **A material without the optional numbers that are not finite.** -/
def stored (m : MaterialEntry α) : MaterialEntry α :=
  { m with
    thermalExpansion := m.thermalExpansion.filter isFinite
    conductivity := m.conductivity.filter isFinite }

/-- One slot for each member. -/
def slots (m : MaterialEntry α) : List (String × Option Json) :=
  full [("name", .ofString m.name), ("density", .ofScalar m.density),
      ("yield_stress", .ofScalar m.yieldStress)]
    ++ full m.constants.members
    ++ [("specific_heat", some (.ofScalar m.specificHeat)),
      ("thermal_expansion", m.thermalExpansion.map .ofScalar),
      ("thermal_strain", m.thermalStrain.map .ofScalarVector),
      ("conductivity", m.conductivity.map .ofScalar),
      ("conduction_2d", m.conduction.map .ofScalarVector)]

theorem toJson_eq (m : MaterialEntry α) : m.toJson = record (present m.slots) := by
  unfold toJson slots
  simp only [present_append, present_full, present_cons, memberIf_eq_present, List.append_assoc]
  rfl

theorem nodup_slots (m : MaterialEntry α) : (m.slots.map Prod.fst).Nodup := by
  unfold slots
  cases m.constants <;> simp [full, ElasticConstants.members, EngineeringConstants.members]

/-- **What is no field of a material belongs to its constants.** -/
theorem filter_slots (m : MaterialEntry α) :
    m.slots.filter (fun slot => !fields.contains slot.1) = full m.constants.members := by
  unfold slots
  cases m.constants <;> rfl

/-- **The constants of a material are read from what is no field of it.** -/
theorem tagged?_toJson {m : MaterialEntry α} (h : ∀ x ∈ m.constants.numbers, ReadsBack x)
    {depth : ℕ} (hdepth : depth < nestingLimit) :
    tagged? α depth "kind" (.object
        (((present m.slots).map fun member => (some member.1, member.2)).filter (!isField ·)))
      = some (ofString m.constants.symmetry.kind, record m.constants.fields) := by
  have hrest : ((present m.slots).map fun member => (some member.1, member.2)).filter (!isField ·)
      = (present (full m.constants.members)).map fun member => (some member.1, member.2) := by
    rw [← m.filter_slots]
    exact filter_record (fun name => !isField (name, .null)) m.slots
  have hnodup := m.constants.nodup_members
  rw [m.constants.members_eq] at hnodup
  rw [hrest, present_full, m.constants.members_eq]
  exact tagged?_record hnodup (ElasticConstants.storable_fields h (by omega))

theorem givesIf_ofJson? [Zero α] {m : MaterialEntry α}
    (h : ∀ x ∈ m.required ++ m.optional, ReadsBack x) {around : ℕ}
    (haround : around + 1 < nestingLimit) :
    GivesIf (∀ x ∈ m.required, isFinite x = true) m.stored (ofJson? around m.toJson) := by
  simp only [required, optional, List.forall_mem_append, List.forall_mem_cons, Option.mem_toList]
    at h
  obtain ⟨⟨⟨hconstants, hdensity, hyield, hheat, -⟩, hstrain, hconduction⟩, hexpansion,
    hconductivity⟩ := h
  have hslots : slots? fields (record (present m.slots)) = some [some (ofString m.name),
      some (ofScalar m.density), some (ofScalar m.yieldStress), some (ofScalar m.specificHeat),
      m.thermalExpansion.map ofScalar, m.thermalStrain.map ofScalarVector,
      m.conductivity.map ofScalar, m.conduction.map ofScalarVector] :=
    slots?_present m.nodup_slots (by simp [fields, slots, full])
  have hkind : Symmetry.kindOfNameOrPosition? (ofString m.constants.symmetry.kind)
      = some m.constants.symmetry := Symmetry.ofKind?_kind _
  unfold ofJson?
  rw [m.toJson_eq]
  simp only [record] at hslots ⊢
  simp only [tagged?_toJson hconstants haround, hslots, hkind, Option.bind_eq_bind,
    Option.bind_some, Option.pure_def]
  refine .congr (.bind (ElasticConstants.givesIf_ofFields? hconstants) (.bind (.of_eq rfl)
    (.bind (givesIf_scalar hdensity) (.bind (givesIf_scalar hyield) (.bind (givesIf_scalar hheat)
    (.bind (givesIf_optional_scalar _ hexpansion) (.bind (givesIf_optional_vector hstrain)
    (.bind (givesIf_optional_scalar _ hconductivity) (.bind (givesIf_optional_vector hconduction)
      (.pure _)))))))))) ?_
  simp only [required, List.forall_mem_append, List.forall_mem_cons, List.not_mem_nil,
    IsEmpty.forall_iff, implies_true, true_and, and_true, and_assoc]

end MaterialEntry

/-! ## Elements -/

namespace SolidEntry

/-- The numbers that the file of a solid may leave out. -/
def optional (s : SolidEntry α) : List α := s.lower.toList ++ s.upper.toList

/-- **A solid without the bounds that are not finite.** -/
def stored (s : SolidEntry α) : SolidEntry α :=
  { s with lower := s.lower.filter isFinite, upper := s.upper.filter isFinite }

/-- One slot for each member. -/
def slots (s : SolidEntry α) : List (String × Option Json) :=
  [("material", s.material.map .ofString), ("thickness", some (.ofScalar s.thickness)),
    ("design_var", s.designVar.map .ofNat), ("lower", s.lower.map .ofScalar),
    ("upper", s.upper.map .ofScalar)]

theorem toJson_eq (s : SolidEntry α) : s.toJson = record (present s.slots) := by
  unfold toJson slots
  simp only [present_cons, memberIf_eq_present, List.append_assoc]
  rfl

theorem givesIf_ofJson? [One α] {s : SolidEntry α} (hthickness : ReadsBack s.thickness)
    (hoptional : ∀ x ∈ s.optional, ReadsBack x) (hword : ∀ n ∈ s.designVar, n < UInt64.size) :
    GivesIf (isFinite s.thickness = true) s.stored (ofJson? s.toJson) := by
  simp only [optional, List.forall_mem_append, Option.mem_toList] at hoptional
  have hslots : slots? ["material", "thickness", "design_var", "lower", "upper"] s.toJson
      = some (s.slots.map Prod.snd) := by
    rw [s.toJson_eq]
    exact slots?_present (by simp [slots]) (by simp [slots])
  have hmaterial : GivesIf True s.material (Json.optional text? (s.material.map ofString)) :=
    (givesIf_optional s.material fun _ _ => ⟨Json.noConfusion, .of_eq rfl⟩).congr (by simp)
  have hdesign : GivesIf True s.designVar (Json.optional index? (s.designVar.map ofNat)) :=
    (givesIf_optional s.designVar fun n hn =>
      ⟨Json.noConfusion, .of_eq (natBelow?_ofNat (hword n hn))⟩).congr (by simp)
  unfold ofJson?
  rw [hslots]
  simp only [slots, List.map_cons, List.map_nil, Option.bind_eq_bind, Option.bind_some,
    Option.pure_def]
  refine .congr (.bind hmaterial (.bind (givesIf_scalar hthickness) (.bind hdesign
    (.bind (givesIf_optional_scalar _ hoptional.1) (.bind (givesIf_optional_scalar _ hoptional.2)
      (.pure _)))))) ?_
  simp

end SolidEntry

namespace Physics

/-- The numbers of a kind of physics. -/
def numbers : Physics α → List α
  | .elasticity thermalLoad => [thermalLoad]
  | .conduction => []

theorem givesIf_ofJson? [Zero α] {p : Physics α} (h : ∀ x ∈ p.numbers, ReadsBack x) (around : ℕ) :
    GivesIf (∀ x ∈ p.numbers, isFinite x = true) p (ofJson? around p.toJson) := by
  cases p with
  | elasticity thermalLoad =>
    simp only [numbers, List.forall_mem_singleton] at h
    have htagged : tagged? α (around + 1) "kind" (toJson (.elasticity thermalLoad))
        = some (ofString "linear_elasticity_3d", record [("thermal_load", ofScalar thermalLoad)]) :=
      tagged?_record (by simp) (List.forall_mem_singleton.mpr (storable_ofScalar h _))
    have hslots : slots? ["thermal_load"] (record [("thermal_load", ofScalar thermalLoad)])
        = some [some (ofScalar thermalLoad)] := rfl
    unfold ofJson?
    simp only [htagged, ofString, text?, hslots, Option.bind_eq_bind, Option.bind_some,
      Option.pure_def]
    refine .congr (.bind (givesIf_scalar h) (.pure _)) ?_
    simp [numbers]
  | conduction =>
    have htagged : tagged? α (around + 1) "kind" (toJson (.conduction : Physics α))
        = some (ofString "heat_conduction_2d", record []) :=
      tagged?_record (by simp) (List.forall_mem_nil _)
    unfold ofJson?
    simp only [htagged, ofString, text?, Option.bind_eq_bind, Option.bind_some, Option.pure_def]
    exact (GivesIf.of_eq rfl).congr (by simp [numbers])

end Physics

namespace ElementEntry

/-- The numbers that the file of an element has to hold. -/
def required (e : ElementEntry α) : List α := e.physics.numbers ++ [e.solid.thickness]

/-- An element without the bounds that are not finite. -/
def stored (e : ElementEntry α) : ElementEntry α := { e with solid := e.solid.stored }

/-- One slot for each member. -/
def slots (e : ElementEntry α) : List (String × Option Json) :=
  [("name", e.name.map .ofString), ("model", some e.physics.toJson),
    ("constitutive", some e.solid.toJson)]

theorem toJson_eq (e : ElementEntry α) : e.toJson = record (present e.slots) := by
  unfold toJson slots
  simp only [present_cons, memberIf_eq_present, List.append_assoc]
  rfl

theorem givesIf_ofJson? [Zero α] [One α] {e : ElementEntry α}
    (hrequired : ∀ x ∈ e.required, ReadsBack x) (hoptional : ∀ x ∈ e.solid.optional, ReadsBack x)
    (hword : ∀ n ∈ e.solid.designVar, n < UInt64.size) (around : ℕ) :
    GivesIf (∀ x ∈ e.required, isFinite x = true) e.stored (ofJson? around e.toJson) := by
  simp only [required, List.forall_mem_append, List.forall_mem_singleton] at hrequired
  have hslots : slots? ["name", "model", "constitutive"] e.toJson
      = some (e.slots.map Prod.snd) := by
    rw [e.toJson_eq]
    exact slots?_present (by simp [slots]) (by simp [slots])
  have hname : GivesIf True e.name (Json.optional text? (e.name.map ofString)) :=
    (givesIf_optional e.name fun _ _ => ⟨Json.noConfusion, .of_eq rfl⟩).congr (by simp)
  unfold ofJson?
  rw [hslots]
  simp only [slots, List.map_cons, List.map_nil, Option.bind_eq_bind, Option.bind_some,
    Option.pure_def]
  refine .congr (.bind hname (.bind (Physics.givesIf_ofJson? hrequired.1 (around + 1)) (.bind
    (SolidEntry.givesIf_ofJson? hrequired.2 hoptional hword) (.pure _)))) ?_
  simp only [required, List.forall_mem_append, List.forall_mem_singleton, true_and, and_true]

end ElementEntry

/-! ## Cases -/

namespace Case

/-- The numbers that the file of a case has to hold. -/
def required (c : Case α) : List α :=
  c.materials.flatMap MaterialEntry.required ++ c.elements.flatMap ElementEntry.required
    ++ c.verification.numbers

/-- The numbers that the file of a case may leave out. -/
def optional (c : Case α) : List α :=
  c.materials.flatMap MaterialEntry.optional ++ c.elements.flatMap fun e => e.solid.optional

/-- **A case without the optional numbers that are not finite.** -/
def stored (c : Case α) : Case α :=
  { c with
    materials := c.materials.map MaterialEntry.stored
    elements := c.elements.map ElementEntry.stored }

/-- The counts of a case fit into the words that hold them. -/
structure FitsWords (c : Case α) : Prop where
  schemaVersion : c.schemaVersion < UInt32.size
  designVar : ∀ e ∈ c.elements, ∀ n ∈ e.solid.designVar, n < UInt64.size

variable [Scalar α]

/-- **What is read from a stored case** is the case without its optional numbers that are not
finite, if the other ones are finite, and nothing otherwise. -/
theorem givesIf_ofJson? {c : Case α} (hword : c.FitsWords)
    (h : ∀ x ∈ c.required ++ c.optional, ReadsBack x) :
    GivesIf (∀ x ∈ c.required, isFinite x = true) c.stored (ofJson? c.toJson) := by
  simp only [List.forall_mem_append, required, optional, List.forall_mem_flatMap] at h
  obtain ⟨⟨⟨hmaterials, helements⟩, hconfig⟩, hmaterials', helements'⟩ := h
  have hreadMaterials := givesIf_list c.materials fun m hm =>
    MaterialEntry.givesIf_ofJson? (m := m) (List.forall_mem_append.mpr
      ⟨hmaterials m hm, hmaterials' m hm⟩) (show 2 + 1 < nestingLimit by decide)
  have hreadElements := givesIf_list c.elements fun e he =>
    ElementEntry.givesIf_ofJson? (helements e he) (helements' e he) (hword.designVar e he) 2
  have hquantities : list? text? (ofList ofString c.quantities) = some c.quantities :=
    list?_ofList c.quantities fun _ _ => rfl
  have hslots : slots? ["schema_version", "name", "materials", "elements", "verification",
        "quantities"] c.toJson
      = some [some (ofNat c.schemaVersion), some (ofString c.name),
          some (ofList MaterialEntry.toJson c.materials),
          some (ofList ElementEntry.toJson c.elements), some c.verification.toJson,
          some (ofList ofString c.quantities)] := rfl
  unfold ofJson?
  dsimp only
  rw [hslots]
  simp only [Option.bind_eq_bind, Option.bind_some, Option.pure_def]
  refine .congr (.bind (.of_eq (natBelow?_ofNat hword.schemaVersion)) (.bind (.of_eq rfl)
    (.bind hreadMaterials (.bind hreadElements (.bind (CheckConfig.givesIf_ofJson? hconfig)
      (.bind (.of_eq hquantities) (.pure _))))))) ?_
  simp only [required, List.forall_mem_append, List.forall_mem_flatMap, true_and, and_true,
    and_assoc]

/-- The numbers of a case. -/
def numbers (c : Case α) : List α := c.required ++ c.optional

/-- A case is read from its file if it is read from its stored value. -/
theorem decode_fileText (c : Case α) {d : Case α} :
    decode c.fileText.toUTF8 = .ok d ↔ ofJson? c.toJson = some d := by
  unfold decode fileText
  rw [ofBytes?_pretty, Option.bind_some]
  split
  · next heq => rw [heq, Except.ok.injEq, Option.some.injEq]
  · next heq => rw [heq]; exact ⟨nofun, nofun⟩

/-- A case that has been read is validated. -/
theorem load_of_decode {bytes : ByteArray} {c : Case α}
    (h : decode bytes = .ok c) : load bytes = c.validate.map fun _ => c := by
  unfold load
  rw [h, except_ok_bind]
  cases c.validate <;> rfl

theorem exists_decode_of_load {bytes : ByteArray} {c : Case α} (h : load bytes = .ok c) :
    decode bytes = .ok c := by
  obtain ⟨d, hd, hvalid⟩ := exists_of_except_bind_ok h
  obtain ⟨_, -, hpure⟩ := exists_of_except_bind_ok hvalid
  cases hpure
  exact hd

end Case

/-! ## What a file loses -/

omit [DecimalScalar α] in
theorem filter_eq_self_iff {p : α → Bool} {o : Option α} :
    o.filter p = o ↔ ∀ x ∈ o.toList, p x = true := by
  cases o with
  | none => simp
  | some x => simp [Option.filter_some]

omit [DecimalScalar α] in
theorem map_eq_self_iff {f : α → α} {xs : List α} : xs.map f = xs ↔ ∀ x ∈ xs, f x = x := by
  conv_lhs => rhs; rw [← List.map_id xs]
  exact List.map_inj_left

theorem MaterialEntry.stored_eq_self_iff {m : MaterialEntry α} :
    m.stored = m ↔ ∀ x ∈ m.optional, isFinite x = true := by
  simp only [optional, List.forall_mem_append, ← filter_eq_self_iff]
  constructor
  · intro h
    exact ⟨congrArg MaterialEntry.thermalExpansion h, congrArg MaterialEntry.conductivity h⟩
  · rintro ⟨hexpansion, hconductivity⟩
    unfold stored
    rw [hexpansion, hconductivity]

theorem SolidEntry.stored_eq_self_iff {s : SolidEntry α} :
    s.stored = s ↔ ∀ x ∈ s.optional, isFinite x = true := by
  simp only [optional, List.forall_mem_append, ← filter_eq_self_iff]
  constructor
  · intro h
    exact ⟨congrArg SolidEntry.lower h, congrArg SolidEntry.upper h⟩
  · rintro ⟨hlower, hupper⟩
    unfold stored
    rw [hlower, hupper]

theorem ElementEntry.stored_eq_self_iff {e : ElementEntry α} :
    e.stored = e ↔ ∀ x ∈ e.solid.optional, isFinite x = true := by
  rw [← SolidEntry.stored_eq_self_iff]
  refine ⟨fun h => congrArg ElementEntry.solid h, fun h => ?_⟩
  unfold stored
  rw [h]

namespace Case

/-- **A file keeps a case exactly if its optional numbers are finite.** -/
theorem stored_eq_self_iff {c : Case α} : c.stored = c ↔ ∀ x ∈ c.optional, isFinite x = true := by
  simp only [optional, List.forall_mem_append, List.forall_mem_flatMap,
    ← MaterialEntry.stored_eq_self_iff, ← ElementEntry.stored_eq_self_iff, ← map_eq_self_iff]
  constructor
  · intro h
    exact ⟨congrArg Case.materials h, congrArg Case.elements h⟩
  · rintro ⟨hmaterials, helements⟩
    unfold stored
    rw [hmaterials, helements]

variable [Scalar α]

/-- **A case whose numbers are finite is read from its file as it was.** -/
theorem decode_fileText_of_finite {c : Case α} (hword : c.FitsWords)
    (hreads : ∀ x ∈ c.numbers, ReadsBack x) (hfinite : ∀ x ∈ c.numbers, isFinite x = true) :
    decode c.fileText.toUTF8 = .ok c := by
  have hfinite := List.forall_mem_append.mp hfinite
  rw [decode_fileText, (givesIf_ofJson? hword hreads).1 hfinite.1,
    stored_eq_self_iff.mpr hfinite.2]

/-- **What saving a case and loading it does**: a case that is loaded from the file of a case is
that case without its optional numbers that are not finite. So it is the same case exactly if there
are no such numbers, and a bound that is not finite has become the thickness. -/
theorem eq_stored_of_load {c loaded : Case α} (hword : c.FitsWords)
    (hreads : ∀ x ∈ c.numbers, ReadsBack x) (h : load c.fileText.toUTF8 = .ok loaded) :
    loaded = c.stored ∧ (loaded = c ↔ ∀ x ∈ c.optional, isFinite x = true)
      ∧ loaded.elements.map (fun e => (e.solid.lowerBound, e.solid.upperBound))
        = c.elements.map fun e => ((e.solid.lower.filter isFinite).getD e.solid.thickness,
            (e.solid.upper.filter isFinite).getD e.solid.thickness) := by
  have hread := (decode_fileText c).mp (exists_decode_of_load h)
  obtain ⟨-, rfl⟩ := (givesIf_ofJson? hword hreads).of_eq_some hread
  exact ⟨rfl, stored_eq_self_iff, List.map_map⟩

/-- A case with one element whose thickness has no upper bound. -/
def unbounded : Case Float where
  schemaVersion := supportedVersion
  name := "unbounded"
  materials := []
  elements := [{
    name := none
    physics := .conduction
    solid := {
      material := none
      thickness := 2
      designVar := some 0
      lower := some 1
      upper := some (1 / 0) } }]
  verification := .standard
  quantities := []

/-- Its integers are in their ranges, and its decimal numbers are read as they were printed. -/
theorem unbounded_readsBack :
    unbounded.FitsWords ∧ ∀ x ∈ unbounded.numbers, ReadsBack x :=
  ⟨⟨by decide, by decide +kernel⟩, by decide +kernel⟩

/-- The case without a bound is valid, and is loaded from its file with the thickness as its
bound. -/
theorem load_unbounded :
    unbounded.validate = .ok () ∧ load unbounded.fileText.toUTF8 = .ok unbounded.stored := by
  obtain ⟨hword, hreads⟩ := unbounded_readsBack
  have hfinite : ∀ x ∈ unbounded.required, isFinite x = true := by decide +kernel
  have hdecode := (decode_fileText unbounded).mpr ((givesIf_ofJson? hword hreads).1 hfinite)
  have hvalid : unbounded.stored.validate.toBool = true := by decide +kernel
  refine ⟨by rfl, ?_⟩
  rw [load_of_decode hdecode]
  cases hresult : unbounded.stored.validate with
  | ok => rfl
  | error e =>
    rw [hresult] at hvalid
    cases hvalid

/-- The bound of the case is lost: the thickness is there instead. -/
theorem eq_stored_of_load_unbounded :
    load unbounded.fileText.toUTF8 = .ok unbounded.stored ∧ unbounded.stored ≠ unbounded
      ∧ unbounded.stored.elements.map (fun e => e.solid.upperBound) = [2] := by
  obtain ⟨hword, hreads⟩ := unbounded_readsBack
  obtain ⟨-, hlost, -⟩ := eq_stored_of_load hword hreads load_unbounded.2
  exact ⟨load_unbounded.2, fun heq => absurd (hlost.mp heq) (by decide +kernel), by decide +kernel⟩

/-- **Saving a valid case can change it.** -/
theorem not_forall_load_eq : ¬ ∀ c loaded : Case Float, c.validate = .ok () →
    load c.fileText.toUTF8 = .ok loaded → loaded = c := by
  intro h
  have heq := h unbounded unbounded.stored load_unbounded.1 load_unbounded.2
  exact absurd (stored_eq_self_iff.mp heq) (by decide +kernel)

end Case

end WeakForm
