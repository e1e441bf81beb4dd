import WeakForm.Proofs.AdmittedMaterials
import WeakForm.Proofs.CaseOutcome

/-!
# The verdict on a case

A report is what is left when all stages of a verification have succeeded. The checks are the last
of them, and they refuse nothing (`Case.keeps_verify`): a case without a report was refused before.
Of a case with a report, validation has made sure that the step is positive and that no tolerance is
negative, and each element is a solid with one of the two kinds of physics, so **every check of
every element finds nothing**, except that of the failure index along the state.
-/

namespace WeakForm

open Dims ElementModel ElementEntry Work

section Cases

variable [Waves] {c : Case ℝ}

/-- **The checks of a built element** always succeed. -/
theorem BuiltElement.keeps_verify {element : BuiltElement ℝ} {physics : Physics ℝ} {s : Solid ℝ}
    (hmodel : element.model = modelOf physics s) {config : CheckConfig ℝ}
    (hstep : config.stepSize ≠ 0) (hr : 0 ≤ config.rtol) (ha : 0 ≤ config.atol) (position : ℕ)
    (tags : List QuantityTag) :
    Keeps (element.verify position tags .builtin config) () fun report =>
      report.kind = element.kind
        ∧ ∀ r ∈ report.checks, r.IsExact ∨ r.Exempt physics.kind tags := by
  have hchecks := keeps_verifyElement physics s hstep hr ha element.name element.kind position tags
  rw [← hmodel] at hchecks
  unfold BuiltElement.verify
  refine (keeps_note _).bind fun _ _ => ?_
  exact Keeps.onPart (fun _ => element.model) (fun _ whole => whole) rfl
    (hchecks.mapError CaseError.model)

/-! ## Cases -/

variable [Spectral ℝ]

/-- **A case accounts for what is found in an element**: the element is of the kind of one of its
entries, and a check that finds something is that of a failure index which the case names. -/
def Case.AccountsFor (c : Case ℝ) (e : ElementReport ℝ) : Prop :=
  (∃ entry ∈ c.elements, e.kind = entry.physics.kind)
    ∧ ∀ r ∈ e.checks, r.IsExact ∨ (e.kind = "linear_elasticity_3d"
      ∧ (∃ name ∈ c.quantities, sameName "failure_index" name = true)
      ∧ r.name = "failure_index state sensitivity")

/-- **A case accounts for the whole of its report.** -/
theorem Case.ensures_verify (c : Case ℝ) :
    Ensures c.verify fun report => ∀ e ∈ report.elements, c.AccountsFor e := by
  unfold verify
  refine (ensures_liftM fun _ h =>
    CheckConfig.validate_eq_ok (Case.validate_eq_ok h)).bind fun _ hvalid => ?_
  obtain ⟨hstep, hr, ha⟩ := hvalid
  refine (ensures_liftM fun tags h => Case.exists_name_of_failureIndex h).bind
    fun tags htags => ?_
  refine (ensures_true _).bind fun library _ => ?_
  refine (c.ensures_buildElements library).bind fun elements helements => ?_
  have hverify : ∀ item ∈ elements.zipIdx,
      Ensures (item.1.verify item.2 tags .builtin c.verification) c.AccountsFor := by
    intro item hitem
    -- the element is traced back to its entry, and a failure index to the name that asks for it
    obtain ⟨entry, hentry, hkind, s, hmodel⟩ :=
      helements item.1 (List.fst_mem_of_mem_zipIdx hitem)
    refine (BuiltElement.keeps_verify hmodel hstep.ne' hr ha item.2 tags).ensures.imp ?_
    rintro report ⟨hreport, hchecks⟩
    rw [hkind] at hreport
    refine ⟨⟨entry, hentry, hreport⟩, fun r hmem => (hchecks r hmem).imp_right ?_⟩
    rintro ⟨helastic, hfailure, hname⟩
    exact ⟨hreport.trans helastic, htags hfailure, hname⟩
  refine (ensures_mapM hverify).bind fun reports hreports => ?_
  refine (ensures_true _).bind fun _ _ => ensures_pure fun e he => ?_
  obtain ⟨-, -, hreport⟩ := hreports e he
  exact hreport

/-- **The checks refuse nothing**: a valid case has a report if its quantities are known, its
materials are accepted and those of its elements are among them. -/
theorem Case.keeps_verify {tags : List QuantityTag} (hvalid : c.validate = .ok ())
    (htags : c.resolveQuantities .builtin = .ok tags)
    (hmaterials : ∀ m ∈ c.materials, ∃ material, m.toMaterial? = .ok material)
    (hnames : ∀ entry ∈ c.elements, ∀ name, entry.solid.material = some name →
      ∃ m ∈ c.materials, m.name = name) : Keeps c.verify () fun _ => True := by
  have haccepted : c.IsAccepted := {
    valid := hvalid
    known := Case.knows_of_resolveQuantities htags
    materials := fun m hm => by
      obtain ⟨material, hmaterial⟩ := hmaterials m hm
      exact MaterialEntry.exists_construct?_of_toMaterial? hmaterial
    named := fun entry hentry name hname => by
      obtain ⟨m, hm, rfl⟩ := hnames entry hentry name hname
      exact List.mem_map_of_mem hm }
  have hsettles := c.settles_verify
  rw [c.refusal?_eq_none_iff.mpr haccepted] at hsettles
  exact Keeps.imp hsettles fun _ _ => trivial

/-- **Every check of every report is exact** but for the failure index along the state, and a report
without it has passed. -/
theorem isExact_of_verify (c : Case ℝ) {t t' : Tracked Unit ℝ} {report : Report ℝ}
    (h : c.verify t = .ok report t') :
    (∀ e ∈ report.elements, ∀ r ∈ e.checks,
        ¬ (e.kind = "linear_elasticity_3d" ∧ r.name = "failure_index state sensitivity")
          → r.IsExact)
      ∧ ((∀ name ∈ c.quantities, sameName "failure_index" name = false)
          ∨ (∀ entry ∈ c.elements, entry.physics.kind ≠ "linear_elasticity_3d")
        → report.passed = true) := by
  have hreport := c.ensures_verify t report t' h
  refine ⟨fun e he r hr hother => ?_, fun hfree => ?_⟩
  · obtain hexact | ⟨hkind, -, hname⟩ := (hreport e he).2 r hr
    · exact hexact
    · exact absurd ⟨hkind, hname⟩ hother
  · refine report.passed_iff_forall.mpr fun r hr => ?_
    obtain ⟨e, he, hr⟩ := List.mem_flatMap.mp hr
    obtain ⟨⟨entry, hentry, hkind⟩, hchecks⟩ := hreport e he
    obtain hexact | ⟨helastic, ⟨name, hname, hsame⟩, -⟩ := hchecks r hr
    · exact hexact.passed
    · rcases hfree with hfree | hfree
      · rw [hfree name hname] at hsame
        cases hsame
      · exact absurd (hkind.symm.trans helastic) (hfree entry hentry)

end Cases

/-! ## A case with a report -/

/-- The least eigenvalue as it is found by rotations, read exactly. -/
noncomputable instance Spectral.jacobi : Spectral ℝ := ⟨Stiffness.jacobiEigenvalue⟩

/-- The unit stiffness. -/
noncomputable def Stiffness.unit : Stiffness ℝ := ofMatrix fun i j => if i = j then 1 else 0

theorem Stiffness.get_unit (i j : Fin 6) : unit.get i j = if i = j then 1 else 0 := by
  rcases le_total i j with h | h
  · exact get_ofMatrix_of_le _ h
  · rw [get_comm]
    exact (get_ofMatrix_of_le _ h).trans (if_congr eq_comm rfl rfl)

/-- A diagonal matrix needs no rotation. -/
theorem Stiffness.minEigenvalue_of_isDiagonal {K : Stiffness ℝ} (h : K.isDiagonal = true) :
    K.minEigenvalue = K.leastDiagonal := by
  have hfinite : K.isFinite = true := by
    simp [isFinite]
  show jacobiEigenvalue _ = _
  unfold jacobiEigenvalue
  rw [hfinite, h]
  rfl

theorem Stiffness.minEigenvalue_unit : Stiffness.unit.minEigenvalue = 1 := by
  have hdiagonal : Stiffness.unit.isDiagonal = true := by
    unfold isDiagonal
    simp only [get_unit]
    simp [planes]
    omega
  rw [minEigenvalue_of_isDiagonal hdiagonal]
  unfold leastDiagonal diagonal
  rw [← Vector.foldl_toList, Vector.toList_ofFn]
  simp [get_unit, Voigt.xx, List.ofFn_succ]

/-- A stiffness without an eigenvalue below zero is accepted. -/
theorem Material.exists_anisotropic? {K : Stiffness ℝ} {density yieldStress : ℝ} (name : String)
    (hdensity : 0 ≤ density) (hyield : 0 < yieldStress) (hK : 0 ≤ K.minEigenvalue) :
    ∃ material, Material.anisotropic? name density K yieldStress = .ok material :=
  Material.exists_ofStiffness? name .anisotropic hdensity hyield hK

/-- A material and an element of each kind, verified with a coarse step and no tolerance. -/
noncomputable def Case.sample : Case ℝ where
  schemaVersion := supportedVersion
  name := "sample"
  materials := [⟨"unit", (2 : ℕ), (5 : ℕ), .anisotropic .unit, (3 : ℕ), some 1, none, some 0, none⟩]
  elements := [
    ⟨some "block", .elasticity (11 : ℕ), ⟨some "unit", 1, some 0, some 0, some (2 : ℕ)⟩⟩,
    ⟨none, .conduction, ⟨some "unit", 1, none, none, none⟩⟩]
  verification := ⟨1, 0, 0⟩
  quantities := ["density", "Strain_Energy_Density", "heat_flux"]

theorem Case.validate_sample : Case.sample.validate = .ok () := by
  have hblock : SolidEntry.validate
      (⟨some "unit", 1, some 0, some 0, some (2 : ℕ)⟩ : SolidEntry ℝ) 0 = .ok () := by
    unfold SolidEntry.validate SolidEntry.lowerBound SolidEntry.upperBound
    norm_num
  have hplate : SolidEntry.validate (⟨some "unit", 1, none, none, none⟩ : SolidEntry ℝ) 1
      = .ok () := by
    unfold SolidEntry.validate SolidEntry.lowerBound SolidEntry.upperBound
    norm_num
  have hconfig : CheckConfig.validate (⟨1, 0, 0⟩ : CheckConfig ℝ) = .ok () := by
    unfold CheckConfig.validate
    norm_num
  show (SolidEntry.validate _ 0 >>= fun _ => SolidEntry.validate _ 1 >>= fun _ => pure ())
    >>= (fun _ => CheckConfig.validate _) = _
  rw [hblock, hplate]
  exact hconfig

theorem Case.exists_toMaterial?_sample :
    ∀ m ∈ Case.sample.materials, ∃ material, m.toMaterial? = .ok material := by
  intro m hm
  have hmin : 0 ≤ Stiffness.unit.minEigenvalue := by
    rw [Stiffness.minEigenvalue_unit]
    norm_num
  obtain ⟨plain, hplain⟩ := Material.exists_anisotropic? "unit"
    (show (0 : ℝ) ≤ (2 : ℕ) by norm_num) (show (0 : ℝ) < (5 : ℕ) by norm_num) hmin
  rw [List.mem_singleton.mp hm]
  unfold MaterialEntry.toMaterial?
  dsimp only
  rw [hplain]
  exact ⟨_, rfl⟩

/-- The sample has a report, and it has passed. -/
theorem isExact_of_verify_sample : ∃ report t',
    Case.sample.verify ⟨(), []⟩ = .ok report t' ∧ report.passed = true := by
  have htags : Case.sample.resolveQuantities .builtin
      = .ok [.density, .strainEnergyDensity, .heatFlux] := rfl
  have hnames : ∀ entry ∈ Case.sample.elements, ∀ name, entry.solid.material = some name →
      ∃ m ∈ Case.sample.materials, m.name = name := by
    intro entry hentry name hname
    simp only [Case.sample, List.mem_cons, List.not_mem_nil, or_false] at hentry
    rcases hentry with rfl | rfl <;> exact ⟨_, List.mem_cons_self, Option.some.inj hname⟩
  obtain ⟨report, journal, hverify, -⟩ :=
    Case.keeps_verify Case.validate_sample htags Case.exists_toMaterial?_sample hnames []
  refine ⟨report, _, hverify, (isExact_of_verify Case.sample hverify).2 (Or.inl ?_)⟩
  show ∀ name ∈ ["density", "Strain_Energy_Density", "heat_flux"],
    sameName "failure_index" name = false
  decide

end WeakForm
