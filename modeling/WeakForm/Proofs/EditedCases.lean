import WeakForm.Proofs.CaseFiles
import WeakForm.Proofs.ComparedReports
import WeakForm.Proofs.EditedRecords
import WeakForm.Proofs.NeutralZero

/-!
# Cases in another form

A case that is written by hand says less than one that is saved: **a member whose value is the
default of its field may be left out** (`IsDefault`), and members stand in any order, the kinds of a
material and of a physics among them. Every reader of a part of a case follows such edits, one
lemma for each reader, put together like the reader (`Case.follows_ofJson?`). Nothing is assumed of
the value that is edited; that it is the written form of a case only comes in at the end.

What is left out is read as the default itself. So the case is the same one if what was left out was
the default, and an equal one if it was a number that equals the default, as a negative zero equals
zero. Both are one statement about a relation `same` between numbers (`Case.Agrees`).
-/

namespace WeakForm

open Json

variable {α : Type} [Scalar α] [DecimalScalar α]

/-! ## Cases that agree -/

section Agreement

omit [Scalar α] [DecimalScalar α]

variable (same : α → α → Prop)

/-- Step and tolerances that agree. -/
structure CheckConfig.Agrees (config config' : CheckConfig α) : Prop where
  stepSize : same config.stepSize config'.stepSize
  rtol : same config.rtol config'.rtol
  atol : same config.atol config'.atol

/-- Materials that are the same up to the specific heat, on which they agree. -/
def MaterialEntry.Agrees (m m' : MaterialEntry α) : Prop :=
  ∃ specificHeat, same m.specificHeat specificHeat ∧ m' = { m with specificHeat }

/-- Solids that are the same up to the thickness, on which they agree. -/
def SolidEntry.Agrees (s s' : SolidEntry α) : Prop :=
  ∃ thickness, same s.thickness thickness ∧ s' = { s with thickness }

/-- The same kind of physics, with thermal loads that agree. -/
inductive Physics.Agrees : Physics α → Physics α → Prop
  | elasticity {thermalLoad thermalLoad' : α} (h : same thermalLoad thermalLoad') :
    Agrees (.elasticity thermalLoad) (.elasticity thermalLoad')
  | conduction : Agrees .conduction .conduction

/-- Elements that agree. -/
structure ElementEntry.Agrees (e e' : ElementEntry α) : Prop where
  name : e.name = e'.name
  physics : e.physics.Agrees same e'.physics
  solid : e.solid.Agrees same e'.solid

/-- **Cases that are the same up to the numbers that have a default**, on which they agree. -/
structure Case.Agrees (c c' : Case α) : Prop where
  schemaVersion : c.schemaVersion = c'.schemaVersion
  name : c.name = c'.name
  materials : List.Forall₂ (MaterialEntry.Agrees same) c.materials c'.materials
  elements : List.Forall₂ (ElementEntry.Agrees same) c.elements c'.elements
  verification : c.verification.Agrees same c'.verification
  quantities : c.quantities = c'.quantities

end Agreement

/-! ## Defaults -/

/-- The fields that have a number as their default, and the number. -/
def numberDefaults : List (String × α) :=
  [("specific_heat", 0), ("thermal_load", 0), ("thickness", 1), ("step_size", 1e-6),
    ("rtol", 1e-5), ("atol", 1e-8)]

/-- The fields that have a default. -/
def defaultNames : List String :=
  ["specific_heat", "thermal_load", "thickness", "step_size", "rtol", "atol", "verification",
    "quantities"]

variable {same : α → α → Prop}

/-- **The members of a case that may be left out**: the value is the default of the field. -/
inductive IsDefault (same : α → α → Prop) (name : String) (value : Json) : Prop
  | number {x default : α} (hname : (name, default) ∈ (numberDefaults : List (String × α)))
    (hvalue : scalar? value = some x) (hsame : same x default)
  | verification {config : CheckConfig α} (hname : name = "verification")
    (hvalue : CheckConfig.ofJson? value = some config) (hsame : config.Agrees same .standard)
  | quantities (hname : name = "quantities") (hvalue : value = .array [])

omit [DecimalScalar α] in
/-- A field has one default. -/
theorem eq_of_mem_numberDefaults {name : String} {d d' : α}
    (h : (name, d) ∈ (numberDefaults : List (String × α)))
    (h' : (name, d') ∈ (numberDefaults : List (String × α))) : d = d' := by
  have hnodup : ((numberDefaults : List (String × α)).map Prod.fst).Nodup := by
    simp [numberDefaults]
  exact congrArg Prod.snd (List.inj_on_of_nodup_map hnodup h h' rfl)

/-- Only a field that has a default may be left out. -/
theorem IsDefault.mem_names {name : String} {value : Json} (h : IsDefault same name value) :
    name ∈ defaultNames := by
  cases h with
  | number hname =>
    have hmem : name ∈ (numberDefaults : List (String × α)).map Prod.fst :=
      List.mem_map_of_mem hname
    exact List.mem_append_left ["verification", "quantities"] hmem
  | verification hname => simp [hname, defaultNames]
  | quantities hname => simp [hname, defaultNames]

/-- A field without a default is not left out. -/
theorem not_isDefault {name : String}
    (h : name ∉ defaultNames) (value : Json) : ¬ IsDefault same name value :=
  fun hdefault => h hdefault.mem_names

/-- A number that may be left out agrees with the default of its field. -/
theorem IsDefault.same_number {name : String} {value : Json} {x default : α}
    (h : IsDefault same name value)
    (hname : (name, default) ∈ (numberDefaults : List (String × α)))
    (hx : scalar? value = some x) : same x default := by
  have hmem : name ∈ (numberDefaults : List (String × α)).map Prod.fst := List.mem_map_of_mem hname
  cases h with
  | number hname' hvalue hsame =>
    obtain rfl := eq_of_mem_numberDefaults hname hname'
    rwa [Option.some.inj (hx.symm.trans hvalue)]
  | verification hname' =>
    rw [hname'] at hmem
    exact absurd hmem (by simp [numberDefaults])
  | quantities hname' =>
    rw [hname'] at hmem
    exact absurd hmem (by simp [numberDefaults])

/-- Step and tolerances that may be left out agree with the standard ones. -/
theorem IsDefault.same_verification {value : Json} {config : CheckConfig α}
    (h : IsDefault same "verification" value) (hconfig : CheckConfig.ofJson? value = some config) :
    config.Agrees same .standard := by
  cases h with
  | number hname => exact absurd hname (by simp [numberDefaults])
  | verification _ hvalue hsame => rwa [Option.some.inj (hconfig.symm.trans hvalue)]
  | quantities hname => exact absurd hname (by decide)

/-- Quantities that may be left out are none. -/
theorem IsDefault.same_quantities {value : Json} {names : List String}
    (h : IsDefault same "quantities" value) (hnames : list? text? value = some names) :
    names = [] := by
  cases h with
  | number hname => exact absurd hname (by simp [numberDefaults])
  | verification hname => exact absurd hname (by decide)
  | quantities _ hvalue =>
    rw [hvalue] at hnames
    exact (Option.some.inj hnames).symm

/-! ## The readers of a case -/

section Readers

variable (hsame : ∀ x, same x x)
include hsame

/-- A number that has a default. -/
theorem followsSlot_number {name : String} {default : α}
    (hname : (name, default) ∈ (numberDefaults : List (String × α))) :
    FollowsSlot (IsDefault same) name same (orElse scalar? default) :=
  (follows_scalar? hsame).orElse (hsame default) fun _ _ h hx => h.same_number hname hx

theorem CheckConfig.follows_ofJson? :
    Follows (IsDefault same) (CheckConfig.Agrees same) CheckConfig.ofJson? := by
  intro v w h
  unfold CheckConfig.ofJson?
  dsimp only
  refine (carries_slots? h _).bind fun slots slots' hslots => ?_
  rcases hslots with _ | ⟨hstep, _ | ⟨hrtol, _ | ⟨hatol, _ | _⟩⟩⟩
  refine (followsSlot_number hsame ?_ hstep).bind fun _ _ hstep => ?_
  · simp [numberDefaults, standard]
  refine (followsSlot_number hsame ?_ hrtol).bind fun _ _ hrtol => ?_
  · simp [numberDefaults, standard]
  refine (followsSlot_number hsame ?_ hatol).bind fun _ _ hatol => ?_
  · simp [numberDefaults, standard]
  exact .pure ⟨hstep, hrtol, hatol⟩

omit hsame

/-- A number that has to be there. -/
theorem followsSlot_required_scalar {name : String} (hname : name ∉ defaultNames) :
    FollowsSlot (IsDefault same) name Eq (required (scalar? (α := α))) :=
  (follows_scalar? Eq.refl).required (not_isDefault hname)

theorem EngineeringConstants.follows_ofJson? :
    Follows (IsDefault same) Eq (EngineeringConstants.ofJson? (α := α)) := by
  intro v w h
  unfold EngineeringConstants.ofJson?
  dsimp only
  refine (carries_slots? h _).bind fun slots slots' hslots => ?_
  rcases hslots with _ | ⟨h1, _ | ⟨h2, _ | ⟨h3, _ | ⟨h12, _ | ⟨h13, _ | ⟨h23, _ | ⟨hg23,
    _ | ⟨hg13, _ | ⟨hg12, _ | _⟩⟩⟩⟩⟩⟩⟩⟩⟩
  refine (followsSlot_required_scalar (by decide) h1).bind fun _ _ h1 => ?_
  refine (followsSlot_required_scalar (by decide) h2).bind fun _ _ h2 => ?_
  refine (followsSlot_required_scalar (by decide) h3).bind fun _ _ h3 => ?_
  refine (followsSlot_required_scalar (by decide) h12).bind fun _ _ h12 => ?_
  refine (followsSlot_required_scalar (by decide) h13).bind fun _ _ h13 => ?_
  refine (followsSlot_required_scalar (by decide) h23).bind fun _ _ h23 => ?_
  refine (followsSlot_required_scalar (by decide) hg23).bind fun _ _ hg23 => ?_
  refine (followsSlot_required_scalar (by decide) hg13).bind fun _ _ hg13 => ?_
  refine (followsSlot_required_scalar (by decide) hg12).bind fun _ _ hg12 => ?_
  exact .pure (by rw [h1, h2, h3, h12, h13, h23, hg23, hg13, hg12])

theorem ElasticConstants.follows_ofFields? (symmetry : Symmetry) :
    Follows (IsDefault same) Eq (ElasticConstants.ofFields? (α := α) symmetry) := by
  intro v w h
  cases symmetry with
  | isotropic =>
    refine (carries_slots? h _).bind fun slots slots' hslots => ?_
    rcases hslots with _ | ⟨hyoung, _ | ⟨hpoisson, _ | _⟩⟩
    refine (followsSlot_required_scalar (by decide) hyoung).bind fun _ _ hyoung => ?_
    refine (followsSlot_required_scalar (by decide) hpoisson).bind fun _ _ hpoisson => ?_
    exact .pure (by rw [hyoung, hpoisson])
  | orthotropic => exact (EngineeringConstants.follows_ofJson? h).map fun _ _ => congrArg _
  | anisotropic =>
    refine (carries_slots? h _).bind fun slots slots' hslots => ?_
    rcases hslots with _ | ⟨hstiffness, _ | _⟩
    have hread : Follows (IsDefault same) Eq (Stiffness.ofJson? (α := α)) :=
      ((follows_scalar? Eq.refl).vector? 21).map fun _ _ => congrArg _
    refine (hread.required (not_isDefault (by decide)) hstiffness).bind fun _ _ hstiffness => ?_
    exact .pure (by rw [hstiffness])

theorem Symmetry.follows_kindOfNameOrPosition? :
    Follows (IsDefault same) Eq Symmetry.kindOfNameOrPosition? :=
  follows_of_plain Eq.refl (fun _ => rfl) fun _ => rfl

/-- A field that may be absent has no default. -/
theorem followsSlot_optional {β : Type} {read : Json → Option β}
    (hread : Follows (IsDefault same) Eq read) {name : String} (hname : name ∉ defaultNames) :
    FollowsSlot (IsDefault same) name Eq (optional read) :=
  hread.optional (not_isDefault hname)

/-- A text that has to be there. -/
theorem followsSlot_text {name : String} (hname : name ∉ defaultNames) :
    FollowsSlot (IsDefault same) name Eq (required text?) :=
  follows_text?.required (not_isDefault hname)

include hsame

/-- **A material is read in any order of its members**, those of its constants among them. -/
theorem MaterialEntry.follows_ofJson? (around : ℕ) :
    Follows (IsDefault same) (MaterialEntry.Agrees same) (MaterialEntry.ofJson? around) := by
  intro v w h
  cases v with
  | object members =>
    obtain ⟨kept, members', rfl, hmembers, hperm⟩ := h.exists_object
    have hrest : Edited (IsDefault same) (.object (members.filter (!isField ·)))
        (.object (members'.filter (!isField ·))) :=
      .object (hmembers.filter fun name => !isField (name, .null))
        (hperm.filter fun member => !isField member)
    refine (carries_tagged? hrest (around + 1) (not_isDefault (by decide))).bind
      fun _ _ ⟨hkind, hfields⟩ => ?_
    refine (Symmetry.follows_kindOfNameOrPosition? hkind).bind fun symmetry _ hsymmetry => ?_
    obtain rfl := hsymmetry
    refine (ElasticConstants.follows_ofFields? symmetry hfields).bind fun constants _ hconst => ?_
    obtain rfl := hconst
    refine (carries_slots? h _).bind fun slots slots' hslots => ?_
    rcases hslots with _ | ⟨hname, _ | ⟨hdensity, _ | ⟨hyield, _ | ⟨hheat, _ | ⟨hexpansion,
      _ | ⟨hstrain, _ | ⟨hconductivity, _ | ⟨hconduction, _ | _⟩⟩⟩⟩⟩⟩⟩⟩
    have hscalar : Follows (IsDefault same) Eq (scalar? : Json → Option α) :=
      follows_scalar? Eq.refl
    refine (followsSlot_text (by decide) hname).bind fun _ _ hname => ?_
    refine (followsSlot_required_scalar (by decide) hdensity).bind fun _ _ hdensity => ?_
    refine (followsSlot_required_scalar (by decide) hyield).bind fun _ _ hyield => ?_
    refine (followsSlot_number hsame (by simp [numberDefaults]) hheat).bind fun _ _ hheat => ?_
    refine (followsSlot_optional hscalar (by decide) hexpansion).bind fun _ _ hexpansion => ?_
    refine (followsSlot_optional (hscalar.vector? 6) (by decide) hstrain).bind
      fun _ _ hstrain => ?_
    refine (followsSlot_optional hscalar (by decide) hconductivity).bind
      fun _ _ hconductivity => ?_
    refine (followsSlot_optional (hscalar.vector? 3) (by decide) hconduction).bind
      fun _ _ hconduction => ?_
    refine .pure ⟨_, hheat, ?_⟩
    rw [hname, hdensity, hyield, hexpansion, hstrain, hconductivity, hconduction]
  | array items => exact .none
  | null => exact .none
  | bool b => exact .none
  | number n => exact .none
  | text s => exact .none

theorem SolidEntry.follows_ofJson? :
    Follows (IsDefault same) (SolidEntry.Agrees same) SolidEntry.ofJson? := by
  intro v w h
  unfold SolidEntry.ofJson?
  refine (carries_slots? h _).bind fun slots slots' hslots => ?_
  rcases hslots with _ | ⟨hmaterial, _ | ⟨hthickness, _ | ⟨hdesign, _ | ⟨hlower, _ | ⟨hupper,
    _ | _⟩⟩⟩⟩⟩
  have hscalar : Follows (IsDefault same) Eq (scalar? : Json → Option α) := follows_scalar? Eq.refl
  refine (followsSlot_optional follows_text? (by decide) hmaterial).bind fun _ _ hmaterial => ?_
  refine (followsSlot_number hsame (by simp [numberDefaults]) hthickness).bind
    fun _ _ hthickness => ?_
  refine (followsSlot_optional (follows_natBelow? _) (by decide) hdesign).bind
    fun _ _ hdesign => ?_
  refine (followsSlot_optional hscalar (by decide) hlower).bind fun _ _ hlower => ?_
  refine (followsSlot_optional hscalar (by decide) hupper).bind fun _ _ hupper => ?_
  refine .pure ⟨_, hthickness, ?_⟩
  rw [hmaterial, hdesign, hlower, hupper]

theorem Physics.follows_ofJson? (around : ℕ) :
    Follows (IsDefault same) (Physics.Agrees same) (Physics.ofJson? around) := by
  intro v w h
  unfold Physics.ofJson?
  refine (carries_tagged? h (around + 1) (not_isDefault (by decide))).bind
    fun _ _ ⟨hkind, hfields⟩ => ?_
  refine (follows_text? hkind).bind fun kind _ heq => ?_
  obtain rfl := heq
  split
  · refine (carries_slots? hfields _).bind fun slots slots' hslots => ?_
    rcases hslots with _ | ⟨hload, _ | _⟩
    refine (followsSlot_number hsame (by simp [numberDefaults]) hload).bind fun _ _ hload => ?_
    exact .pure (.elasticity hload)
  · exact (carries_slots? hfields _).bind fun _ _ _ => .pure .conduction
  · exact .none

theorem ElementEntry.follows_ofJson? (around : ℕ) :
    Follows (IsDefault same) (ElementEntry.Agrees same) (ElementEntry.ofJson? around) := by
  intro v w h
  unfold ElementEntry.ofJson?
  refine (carries_slots? h _).bind fun slots slots' hslots => ?_
  rcases hslots with _ | ⟨hname, _ | ⟨hphysics, _ | ⟨hsolid, _ | _⟩⟩⟩
  refine (followsSlot_optional follows_text? (by decide) hname).bind fun _ _ hname => ?_
  refine ((Physics.follows_ofJson? hsame (around + 1)).required (not_isDefault (by decide))
    hphysics).bind fun _ _ hphysics => ?_
  refine ((SolidEntry.follows_ofJson? hsame).required (not_isDefault (by decide))
    hsolid).bind fun _ _ hsolid => ?_
  exact .pure ⟨hname, hphysics, hsolid⟩

/-- **Reading a case follows its edits**: what may be left out may be left out, and members may
stand in any order, whatever value the case is read from. -/
theorem Case.follows_ofJson? :
    Follows (IsDefault same) (Case.Agrees same) Case.ofJson? := by
  intro v w h
  unfold Case.ofJson?
  dsimp only
  refine (carries_slots? h _).bind fun slots slots' hslots => ?_
  rcases hslots with _ | ⟨hversion, _ | ⟨hname, _ | ⟨hmaterials, _ | ⟨helements,
    _ | ⟨hverification, _ | ⟨hquantities, _ | _⟩⟩⟩⟩⟩⟩
  refine ((follows_natBelow? _).required (not_isDefault (by decide)) hversion).bind
    fun _ _ hversion => ?_
  refine (followsSlot_text (by decide) hname).bind fun _ _ hname => ?_
  refine ((MaterialEntry.follows_ofJson? hsame 2).list?.required (not_isDefault (by decide))
    hmaterials).bind fun _ _ hmaterials => ?_
  refine ((ElementEntry.follows_ofJson? hsame 2).list?.required (not_isDefault (by decide))
    helements).bind fun _ _ helements => ?_
  refine ((CheckConfig.follows_ofJson? hsame).orElse ⟨hsame _, hsame _, hsame _⟩
    (fun _ _ h hconfig => h.same_verification hconfig) hverification).bind
    fun _ _ hverification => ?_
  refine (follows_text?.list?_eq.orElse rfl (fun _ _ h hnames => h.same_quantities hnames)
    hquantities).bind fun _ _ hquantities => ?_
  exact .pure ⟨hversion, hname, hmaterials, helements, hverification, hquantities⟩

end Readers

/-! ## The same case -/

section Same

omit [Scalar α] [DecimalScalar α]

theorem CheckConfig.eq_of_agrees {config config' : CheckConfig α} (h : config.Agrees Eq config') :
    config = config' := by
  obtain ⟨step, rtol, atol⟩ := config
  obtain ⟨step', rtol', atol'⟩ := config'
  obtain ⟨rfl, rfl, rfl⟩ := h
  rfl

theorem MaterialEntry.eq_of_agrees {m m' : MaterialEntry α} (h : m.Agrees Eq m') : m = m' := by
  obtain ⟨_, rfl, rfl⟩ := h
  rfl

theorem ElementEntry.eq_of_agrees {e e' : ElementEntry α} (h : e.Agrees Eq e') : e = e' := by
  obtain ⟨name, physics, solid⟩ := e
  obtain ⟨name', physics', solid'⟩ := e'
  obtain ⟨rfl, hphysics, _, rfl, rfl⟩ := h
  cases hphysics with
  | elasticity hload => rw [hload]
  | conduction => rfl

/-- **Cases that agree with equality are the same.** -/
theorem Case.eq_of_agrees {c c' : Case α} (h : c.Agrees Eq c') : c = c' := by
  obtain ⟨version, name, materials, elements, config, quantities⟩ := c
  obtain ⟨version', name', materials', elements', config', quantities'⟩ := c'
  obtain ⟨hversion, hname, hmaterials, helements, hconfig, hquantities⟩ := h
  have hmaterials' : List.Forall₂ Eq materials materials' :=
    hmaterials.imp fun _ _ => MaterialEntry.eq_of_agrees
  have helements' : List.Forall₂ Eq elements elements' :=
    helements.imp fun _ _ => ElementEntry.eq_of_agrees
  rw [List.forall₂_eq_eq_eq] at hmaterials' helements'
  rw [Case.mk.injEq]
  exact ⟨hversion, hname, hmaterials', helements', CheckConfig.eq_of_agrees hconfig, hquantities⟩

end Same

/-! ## An equal case -/

section Equal

omit [DecimalScalar α]

/-- The same number is an equal one, unless it is undefined. -/
theorem Scalar.Same.beq {x y : α} (h : Scalar.Same x y) (hx : (x == x) = true) :
    (x == y) = true := by
  obtain h | ⟨hundefined, -⟩ := h
  · exact h
  · rw [Scalar.isUndefined, hx] at hundefined
    cases hundefined

section Containers

variable {β : Type} [BEq β]

theorem option_beq_self {o : Option β} (h : ∀ x ∈ o, (x == x) = true) : (o == o) = true := by
  cases o with
  | none => rfl
  | some x => exact h x rfl

/-- Lists whose items are related, and equal then, are equal. -/
theorem list_beq_of_forall₂ {r : β → β → Prop} {xs ys : List β} (h : List.Forall₂ r xs ys)
    (hr : ∀ x ∈ xs, ∀ y, r x y → (x == y) = true) : (xs == ys) = true := by
  induction h with
  | nil => rfl
  | cons h _ ih =>
    rw [List.forall_mem_cons] at hr
    rw [List.cons_beq_cons, hr.1 _ h, ih hr.2, Bool.and_self]

theorem vector_beq_self {n : ℕ} {v : Vector β n} (h : ∀ x ∈ v.toList, (x == x) = true) :
    (v == v) = true := by
  rw [← Vector.toList_beq_toList]
  have hsame : List.Forall₂ Eq v.toList v.toList := List.forall₂_same.mpr fun _ _ => rfl
  exact list_beq_of_forall₂ hsame fun x hx y heq => heq ▸ h x hx

end Containers

theorem ElasticConstants.beq_self {constants : ElasticConstants α}
    (h : ∀ x ∈ constants.numbers, (x == x) = true) : (constants == constants) = true := by
  cases constants with
  | isotropic young poisson =>
    simp only [numbers, List.forall_mem_cons] at h
    show (young == young && poisson == poisson) = true
    rw [h.1, h.2.1]
    rfl
  | orthotropic p =>
    simp only [numbers, EngineeringConstants.numbers, List.forall_mem_cons] at h
    obtain ⟨h1, h2, h3, h12, h13, h23, hg23, hg13, hg12, -⟩ := h
    show (p.e1 == p.e1 && (p.e2 == p.e2 && (p.e3 == p.e3 && (p.nu12 == p.nu12
      && (p.nu13 == p.nu13 && (p.nu23 == p.nu23 && (p.g23 == p.g23
        && (p.g13 == p.g13 && p.g12 == p.g12)))))))) = true
    rw [h1, h2, h3, h12, h13, h23, hg23, hg13, hg12]
    rfl
  | anisotropic stiffness => exact vector_beq_self h

theorem CheckConfig.beq_of_agrees {config config' : CheckConfig α}
    (h : config.Agrees Scalar.Same config') (hself : ∀ x ∈ config.numbers, (x == x) = true) :
    (config == config') = true := by
  simp only [numbers, List.forall_mem_cons] at hself
  show (config.stepSize == config'.stepSize
    && (config.rtol == config'.rtol && config.atol == config'.atol)) = true
  rw [h.stepSize.beq hself.1, h.rtol.beq hself.2.1, h.atol.beq hself.2.2.1]
  rfl

theorem MaterialEntry.beq_of_agrees {m m' : MaterialEntry α} (h : m.Agrees Scalar.Same m')
    (hself : ∀ x ∈ m.required ++ m.optional, (x == x) = true) : (m == m') = true := by
  simp only [required, optional, List.forall_mem_append, List.forall_mem_cons] at hself
  obtain ⟨⟨⟨hconstants, hdensity, hyield, hheat, -⟩, hstrain, hconduction⟩, hexpansion,
    hconductivity⟩ := hself
  obtain ⟨heat, hsame, rfl⟩ := h
  show (m.name == m.name && (m.density == m.density && (m.yieldStress == m.yieldStress
    && (m.constants == m.constants && (m.specificHeat == heat
      && (m.thermalExpansion == m.thermalExpansion && (m.thermalStrain == m.thermalStrain
        && (m.conductivity == m.conductivity && m.conduction == m.conduction)))))))) = true
  have hexpansion' : (m.thermalExpansion == m.thermalExpansion) = true :=
    option_beq_self fun x hx => hexpansion x (Option.mem_toList.mpr hx)
  have hconductivity' : (m.conductivity == m.conductivity) = true :=
    option_beq_self fun x hx => hconductivity x (Option.mem_toList.mpr hx)
  have hstrain' : (m.thermalStrain == m.thermalStrain) = true :=
    option_beq_self fun v hv => vector_beq_self (by rwa [Option.mem_def.mp hv] at hstrain)
  have hconduction' : (m.conduction == m.conduction) = true :=
    option_beq_self fun v hv => vector_beq_self (by rwa [Option.mem_def.mp hv] at hconduction)
  rw [beq_self_eq_true, hdensity, hyield, ElasticConstants.beq_self hconstants, hsame.beq hheat,
    hexpansion', hstrain', hconductivity', hconduction']
  rfl

theorem ElementEntry.beq_of_agrees {e e' : ElementEntry α} (h : e.Agrees Scalar.Same e')
    (hrequired : ∀ x ∈ e.required, (x == x) = true)
    (hoptional : ∀ x ∈ e.solid.optional, (x == x) = true) : (e == e') = true := by
  simp only [required, List.forall_mem_append, List.forall_mem_singleton] at hrequired
  simp only [SolidEntry.optional, List.forall_mem_append] at hoptional
  obtain ⟨name, physics, solid⟩ := e
  obtain ⟨name', physics', solid'⟩ := e'
  obtain ⟨rfl, hphysics, thickness, hsame, rfl⟩ := h
  have hsolid : (solid == { solid with thickness }) = true := by
    show (solid.material == solid.material && (solid.thickness == thickness
      && (solid.designVar == solid.designVar
        && (solid.lower == solid.lower && solid.upper == solid.upper)))) = true
    have hlower : (solid.lower == solid.lower) = true :=
      option_beq_self fun x hx => hoptional.1 x (Option.mem_toList.mpr hx)
    have hupper : (solid.upper == solid.upper) = true :=
      option_beq_self fun x hx => hoptional.2 x (Option.mem_toList.mpr hx)
    rw [beq_self_eq_true, hsame.beq hrequired.2, beq_self_eq_true, hlower, hupper]
    rfl
  have hphysics' : (physics == physics') = true := by
    cases hphysics with
    | elasticity hload => exact hload.beq (hrequired.1 _ (List.mem_singleton_self _))
    | conduction => rfl
  show (name == name && (physics == physics' && solid == { solid with thickness })) = true
  rw [beq_self_eq_true, hphysics', hsolid]
  rfl

/-- **Cases that agree are equal**, if their numbers are defined. -/
theorem Case.beq_of_agrees {c c' : Case α} (h : c.Agrees Scalar.Same c')
    (hself : ∀ x ∈ c.numbers, (x == x) = true) : (c == c') = true := by
  simp only [numbers, required, optional, List.forall_mem_append, List.forall_mem_flatMap] at hself
  obtain ⟨⟨⟨hmaterials, helements⟩, hconfig⟩, hmaterials', helements'⟩ := hself
  show (c.schemaVersion == c'.schemaVersion && (c.name == c'.name && (c.materials == c'.materials
    && (c.elements == c'.elements && (c.verification == c'.verification
      && c.quantities == c'.quantities))))) = true
  have hmaterial : (c.materials == c'.materials) = true :=
    list_beq_of_forall₂ h.materials fun m hm _ hagrees => MaterialEntry.beq_of_agrees hagrees
      (List.forall_mem_append.mpr ⟨hmaterials m hm, hmaterials' m hm⟩)
  have helement : (c.elements == c'.elements) = true :=
    list_beq_of_forall₂ h.elements fun e he _ hagrees =>
      ElementEntry.beq_of_agrees hagrees (helements e he) (helements' e he)
  rw [h.schemaVersion, h.name, h.quantities, hmaterial, helement,
    CheckConfig.beq_of_agrees h.verification hconfig, beq_self_eq_true, beq_self_eq_true,
    beq_self_eq_true]
  rfl

end Equal

/-! ## Reading a case in another form -/

/-- A number in its written form may be left out if it agrees with the default of its field. -/
theorem isDefault_ofScalar {name : String} {x default : α}
    (hname : (name, default) ∈ (numberDefaults : List (String × α))) (hreads : ReadsBack x)
    (hfinite : isFinite x = true) (hsame : same x default) :
    IsDefault same name (ofScalar x) :=
  .number hname ((givesIf_scalar hreads).1 hfinite) hsame

namespace Case

/-- What is read from the written form of a case is read from it in another form. -/
theorem exists_ofJson?_of_edited {c : Case α} (hsame : ∀ x, same x x) (hword : c.FitsWords)
    (hreads : ∀ x ∈ c.numbers, ReadsBack x) (hfinite : ∀ x ∈ c.numbers, isFinite x = true)
    {w : Json} (h : Edited (IsDefault same) c.toJson w) :
    ∃ d, ofJson? w = some d ∧ c.Agrees same d := by
  have hfinite := List.forall_mem_append.mp hfinite
  have hread := (givesIf_ofJson? hword hreads).1 hfinite.1
  rw [stored_eq_self_iff.mpr hfinite.2] at hread
  exact follows_ofJson? hsame h c hread

theorem decode_of_ofJson? {bytes : ByteArray} {w : Json} {d : Case α}
    (hspells : ofBytes? bytes = some w) (h : ofJson? w = some d) : decode bytes = .ok d := by
  unfold decode
  rw [hspells, Option.bind_some, h]

/-- **Reading a case ignores the order of members and the defaults that are left out.** The bytes
spell the written form of a case in which, in any objects, the members stand in another order and
some members are missing whose value is the default of their field. What is read is the case; and
if a value only equals the default, as a negative zero does, it is an equal case. -/
theorem decode_of_edited {c : Case Float} (hword : c.FitsWords)
    (hreads : ∀ x ∈ c.numbers, ReadsBack x) (hfinite : ∀ x ∈ c.numbers, x.isFinite = true)
    {bytes : ByteArray} {w : Json} (hspells : ofBytes? bytes = some w) :
    (Edited (@IsDefault Float _ _ Eq) c.toJson w → decode bytes = .ok c)
      ∧ (Edited (@IsDefault Float _ _ Scalar.Same) c.toJson w →
        ∃ d, decode bytes = .ok d ∧ (c == d) = true) := by
  have hdigits : ∀ x ∈ c.numbers, isFinite x = true := fun x hx => by
    rw [isFinite_float]
    exact hfinite x hx
  refine ⟨fun h => ?_, fun h => ?_⟩
  · obtain ⟨d, hd, hagrees⟩ := exists_ofJson?_of_edited Eq.refl hword hreads hdigits h
    obtain rfl := eq_of_agrees hagrees
    exact decode_of_ofJson? hspells hd
  · obtain ⟨d, hd, hagrees⟩ := exists_ofJson?_of_edited Scalar.Same.refl hword hreads hdigits h
    refine ⟨d, decode_of_ofJson? hspells hd, beq_of_agrees hagrees fun x hx => ?_⟩
    have hdefined : Scalar.isUndefined x = false := by
      rw [isUndefined_float]
      exact (isNaN_and_isInf_of_isFinite (hfinite x hx)).1
    rwa [Scalar.isUndefined, Bool.not_eq_false'] at hdefined

/-- A case with one element, all of whose defaults are taken; its thermal load may be any number. -/
def brief (thermalLoad : Float) : Case Float where
  schemaVersion := supportedVersion
  name := "brief"
  materials := [{
    name := "foam"
    density := 2
    yieldStress := 3
    constants := .isotropic 4 0.25
    specificHeat := 0
    thermalExpansion := none
    thermalStrain := none
    conductivity := none
    conduction := none }]
  elements := [{
    name := none
    physics := .elasticity thermalLoad
    solid := {
      material := some "foam"
      thickness := 1
      designVar := none
      lower := none
      upper := none } }]
  verification := .standard
  quantities := []

/-- The case as it may be written by hand, with the kinds behind what they select. -/
def briefForm : Json :=
  record [
    ("elements", .array [record [
      ("constitutive", record [("material", ofString "foam")]),
      ("model", record [("kind", ofString "linear_elasticity_3d")])]]),
    ("materials", .array [record [
      ("poisson", ofScalar (0.25 : Float)),
      ("young", ofScalar (4 : Float)),
      ("kind", ofString "isotropic"),
      ("yield_stress", ofScalar (3 : Float)),
      ("density", ofScalar (2 : Float)),
      ("name", ofString "foam")]]),
    ("name", ofString "brief"),
    ("schema_version", ofNat 1)]

/-- The form is an edited one. -/
theorem edited_briefForm {same : Float → Float → Prop} (hsame : ∀ x, same x x)
    {thermalLoad : Float}
    (hreads : ReadsBack thermalLoad) (hfinite : isFinite thermalLoad = true)
    (hload : same thermalLoad 0) :
    Edited (IsDefault same) (brief thermalLoad).toJson briefForm := by
  have hdefault : ∀ {name : String} {x : Float},
      (name, x) ∈ (numberDefaults : List (String × Float)) → ReadsBack x → isFinite x = true →
      IsDefault same name (ofScalar x) :=
    fun hname hreads hfinite => isDefault_ofScalar hname hreads hfinite (hsame _)
  have hconfig :
      IsDefault same "verification" (CheckConfig.standard : CheckConfig Float).toJson := by
    have hread : ∀ x ∈ (CheckConfig.standard : CheckConfig Float).numbers, ReadsBack x := by
      decide +kernel
    exact .verification rfl ((CheckConfig.givesIf_ofJson? hread).1 (by decide +kernel))
      ⟨hsame _, hsame _, hsame _⟩
  -- in each object what is kept stands in reverse order
  refine .object (.keep _ (.refl _) (.keep _ (.refl _) (.keep _ (.array (.cons ?_ .nil))
    (.keep _ (.array (.cons ?_ .nil)) (.leaveOut hconfig (.leaveOut (.quantities rfl rfl) .nil))))))
    (List.reverse_perm _).symm
  · have hheat : IsDefault same "specific_heat" (ofScalar (0 : Float)) :=
      hdefault (by simp [numberDefaults]) (by decide +kernel) (by decide +kernel)
    exact .object (.keep _ (.refl _) (.keep _ (.refl _) (.keep _ (.refl _) (.keep _ (.refl _)
      (.keep _ (.refl _) (.keep _ (.refl _) (.leaveOut hheat .nil))))))) (by
        refine (List.reverse_perm _).symm.trans ?_
        exact .refl _)
  · have hthickness : IsDefault same "thickness" (ofScalar (1 : Float)) :=
      hdefault (by simp [numberDefaults]) (by decide +kernel) (by decide +kernel)
    have hthermal : IsDefault same "thermal_load" (ofScalar thermalLoad) :=
      isDefault_ofScalar (by simp [numberDefaults]) hreads hfinite hload
    exact .object (.keep _ (.object (.keep _ (.refl _) (.leaveOut hthermal .nil)) (.refl _))
      (.keep _ (.object (.keep _ (.refl _) (.leaveOut hthickness .nil)) (.refl _)) .nil))
      (List.reverse_perm _).symm

/-- The form is read as the case, also where a negative zero was left out of the case. -/
theorem decode_of_edited_brief :
    decode briefForm.pretty.toUTF8 = .ok (brief 0)
      ∧ ∃ d, decode briefForm.pretty.toUTF8 = .ok d ∧ (brief (-0) == d) = true := by
  have hword (thermalLoad : Float) : (brief thermalLoad).FitsWords :=
    ⟨show 1 < UInt32.size by decide, List.forall_mem_singleton.mpr nofun⟩
  refine ⟨(decode_of_edited (hword 0) ?_ ?_ (ofBytes?_pretty briefForm)).1
    (edited_briefForm Eq.refl ?_ ?_ rfl), (decode_of_edited (hword (-0)) ?_ ?_
      (ofBytes?_pretty briefForm)).2 (edited_briefForm Scalar.Same.refl ?_ ?_ ?_)⟩
  all_goals decide +kernel

end Case

end WeakForm
