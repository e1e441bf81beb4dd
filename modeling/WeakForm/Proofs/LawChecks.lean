import Mathlib
import WeakForm.Check.Constitutive
import WeakForm.Proofs.DesignVariables
import WeakForm.Proofs.StiffnessMatrix

/-!
# The checks of a solid

A solid answers with the response of its material, which is linear, and with tangents, which are
that response times the thickness. So the quotients of the response along its entries, times a
factor, are the matrix of the material times that factor (`exists_columnsAlong`), and the check of a
tangent compares two multiples of one matrix: **it finds nothing if the factor is the thickness, and
without tolerance it passes only if the multiples are the same**. It does not follow that the factor
is the thickness, since a solid that does not respond at all passes with any factor.

The other two checks use that the matrix is symmetric and that the tangent is linear in the
thickness. None of the four depends on the material, on the bounds, or on whether the thickness is
a design variable.
-/

namespace WeakForm

open Matrix Work

/-! ## Matrices row by row -/

/-- The entries of a matrix, row by row. -/
def rowsOf {n m : ℕ} (A : Matrix (Fin n) (Fin m) ℝ) : List ℝ :=
  (List.finRange n).flatMap fun i => (List.finRange m).map (A i)

/-- **The entries of a matrix determine it.** -/
theorem rowsOf_inj {n m : ℕ} {A B : Matrix (Fin n) (Fin m) ℝ} : rowsOf A = rowsOf B ↔ A = B := by
  refine ⟨fun h => ?_, congrArg rowsOf⟩
  -- rows of one length are not mixed up where they are joined
  have hrows : (List.finRange n).map (fun i => (List.finRange m).map (A i))
      = (List.finRange n).map fun i => (List.finRange m).map (B i) := by
    refine List.eq_iff_flatten_eq.mpr ⟨h, ?_⟩
    simp
  ext i j
  have hrow := List.map_inj_left.mp hrows i (List.mem_finRange i)
  exact List.map_inj_left.mp hrow j (List.mem_finRange j)

/-- A matrix that is given by its columns. -/
theorem rowMajor_columns [Waves] {n m : ℕ} (A : Matrix (Fin n) (Fin m) ℝ) :
    rowMajor n ((List.finRange m).map fun j => (List.finRange n).map fun i => A i j)
      = rowsOf A := by
  unfold rowMajor rowsOf
  rw [← List.map_coe_finRange_eq_range, List.flatMap_map]
  refine List.flatMap_congr fun i _ => ?_
  rw [List.map_map]
  refine List.map_congr_left fun j _ => ?_
  simp [List.getD_eq_getElem?_getD]

/-- The sum of the entries, row by row. -/
theorem sum_rowsOf [Waves] {n m : ℕ} (A : Matrix (Fin n) (Fin m) ℝ) :
    Scalar.sum (rowsOf A) = ∑ i, ∑ j, A i j := by
  unfold rowsOf
  rw [Scalar.sum_real, List.flatMap_def, List.sum_flatten, List.map_map, Fin.sum_univ_def]
  refine congrArg List.sum (List.map_congr_left fun i _ => ?_)
  rw [Fin.sum_univ_def]
  rfl

/-! ## Quotients of a linear response -/

section Linear

variable [Waves] {ε : Type} {n : ℕ} {step : ℝ}

/-- The quotient of two responses, times a factor. -/
noncomputable def scaledQuotient (factor step plus minus : ℝ) : ℝ :=
  factor * (plus - minus) / (((2 : ℕ) : ℝ) * step)

omit [Waves] in
theorem zipWith_toList (f : ℝ → ℝ → ℝ) (v w : Vector ℝ n) :
    List.zipWith f v.toList w.toList = (List.finRange n).map fun i => f (v.get i) (w.get i) := by
  refine List.ext_getElem (by simp) fun i _ _ => ?_
  simp [Vector.get_eq_getElem]

/-- **The quotients of a linear response along its entries are the columns of its matrix**, times
the factor. -/
theorem exists_columnsAlong (A : Matrix (Fin n) (Fin n) ℝ) (respond : Vector ℝ n → Vector ℝ n)
    (ask : Array ℝ → Except ε (List ℝ)) (hstep : step ≠ 0)
    (hask : ∀ w : Vector ℝ n, ask w.toArray = .ok (respond w).toList)
    (hrespond : ∀ w, (respond w).get = A *ᵥ w.get) (v : Vector ℝ n) (factor : ℝ) :
    ∃ columns, columnsAlong (scaledQuotient factor step) step v.toArray ask = .ok columns
      ∧ rowMajor n columns = rowsOf (factor • A) := by
  refine ⟨(List.finRange n).map fun j => (List.finRange n).map fun i => (factor • A) i j, ?_,
    rowMajor_columns _⟩
  have hshift : ∀ (j : Fin n) (t : ℝ) (i : Fin n),
      (respond (v.set j (v.get j + t) j.isLt)).get i = (respond v).get i + t * A i j := by
    intro j t i
    have hget : (v.set j (v.get j + t) j.isLt).get = v.get + t • Pi.single j 1 := by
      rw [set_get_add, get_ofFn]
      rfl
    rw [hrespond, hrespond, hget, mulVec_add, mulVec_smul, mulVec_single_one]
    rfl
  have hquotient : ∀ j : Fin n, List.zipWith (scaledQuotient factor step)
      (respond (v.set j (v.get j + step) j.isLt)).toList
      (respond (v.set j (v.get j - step) j.isLt)).toList
        = (List.finRange n).map fun i => (factor • A) i j := by
    intro j
    rw [zipWith_toList]
    refine List.map_congr_left fun i _ => ?_
    rw [sub_eq_add_neg, hshift, hshift, Matrix.smul_apply, smul_eq_mul, scaledQuotient]
    field_simp
    ring
  obtain ⟨values, rfl⟩ := v
  unfold columnsAlong
  refine mapM_of_ok fun j _ => ?_
  have hplus : ask (values.set j (values[j] + step)) = .ok _ :=
    hask ((Vector.mk values rfl).set j (values[j] + step))
  have hminus : ask (values.set j (values[j] - step)) = .ok _ :=
    hask ((Vector.mk values rfl).set j (values[j] - step))
  rw [hplus, hminus]
  exact congrArg Except.ok (hquotient j)

/-- **What a check of a tangent finds**: it compares two multiples of one matrix. -/
theorem passed_compare_smul_iff {m : ℕ} (name : String) (A : Matrix (Fin n) (Fin m) ℝ)
    (first second step : ℝ) :
    (CheckResult.compare name (rowsOf (first • A)) (rowsOf (second • A)) ⟨step, 0, 0⟩).passed = true
      ↔ second • A = first • A := by
  rw [CheckResult.passed_compare_iff_eq, rowsOf_inj, eq_comm]

end Linear

/-! ## The conduction as a matrix -/

namespace Conduction

/-- The full symmetric matrix. -/
def toMatrix (k : Conduction ℝ) : Matrix (Fin 2) (Fin 2) ℝ := !![k.k11, k.k12; k.k12, k.k22]

variable [Waves]

theorem mulVec_eq (k : Conduction ℝ) (g : Vector ℝ 2) :
    (k.mulVec g).get = k.toMatrix *ᵥ g.get := by
  ext i
  fin_cases i <;>
    simp [mulVec, toMatrix, Matrix.mulVec, dotProduct, Fin.sum_univ_two, Vector.get_eq_getElem]

/-- The entries of a tensor times a factor, as they are listed for the comparison. -/
theorem list_scale_eq (k : Conduction ℝ) (t : ℝ) :
    [(k.scale t).k11, (k.scale t).k12, (k.scale t).k12, (k.scale t).k22]
      = rowsOf (t • k.toMatrix) := by
  simp [rowsOf, toMatrix, scale, List.finRange_succ]

end Conduction

/-! ## The checks -/

namespace Solid

variable [Waves] {config : CheckConfig ℝ}

/-- **The checks of a solid find nothing**, those of the tangents with its thickness as the
factor. -/
structure HasExactChecks (s : Solid ℝ) (site : Site ℝ) (config : CheckConfig ℝ) : Prop where
  tangentStiffness : ∀ strain : Voigt ℝ, ∃ result,
    checkTangentStiffness s site strain.toArray s.thickness config = .ok result ∧ result.IsExact
  tangentConduction : ∀ grad : Vector ℝ 2, ∃ result,
    checkTangentConduction s site grad.toArray s.thickness config = .ok result ∧ result.IsExact
  /-- The solid is left as it was. -/
  stressDesignSens : ∀ strain psi : Voigt ℝ,
    Keeps (checkStressDesignSens site strain.toArray psi.toArray config) s CheckResult.IsExact
  reciprocity : ∀ first second : Voigt ℝ, ∃ result,
    checkReciprocity s site first.toArray second.toArray config = .ok result ∧ result.IsExact

/-- **Without tolerance the checks of the tangents judge their factors**: one passes exactly if the
matrix of the material times the factor is the matrix times the thickness. -/
structure JudgesFactors (s : Solid ℝ) (site : Site ℝ) (step : ℝ) : Prop where
  tangentStiffness : ∀ (strain : Voigt ℝ) (factor : ℝ), ∃ result,
    checkTangentStiffness s site strain.toArray factor ⟨step, 0, 0⟩ = .ok result
      ∧ (result.passed = true ↔ factor • s.response.stiffness.toMatrix
        = s.thickness • s.response.stiffness.toMatrix)
  tangentConduction : ∀ (grad : Vector ℝ 2) (factor : ℝ), ∃ result,
    checkTangentConduction s site grad.toArray factor ⟨step, 0, 0⟩ = .ok result
      ∧ (result.passed = true ↔ factor • s.response.conduction.toMatrix
        = s.thickness • s.response.conduction.toMatrix)

/-! ### Tangents -/

variable (s : Solid ℝ) (site : Site ℝ)

/-- The tangent stiffness is that of the material times the thickness. -/
theorem tangent_eq : Constitutive.tangent s site
    = .ok (s.response.stiffness.scale s.thickness) := by
  unfold Constitutive.tangent
  rw [fill_of_ok (s.tangentStiffness_apply site _)]
  rfl

/-- What the check of the tangent stiffness compares. -/
theorem checkTangentStiffness_eq (config : CheckConfig ℝ) (hstep : config.stepSize ≠ 0)
    (strain : Voigt ℝ) (factor : ℝ) :
    checkTangentStiffness s site strain.toArray factor config
      = .ok (.compare "tangent stiffness"
          (rowsOf (s.thickness • s.response.stiffness.toMatrix))
          (rowsOf (factor • s.response.stiffness.toMatrix)) config) := by
  obtain ⟨columns, hcolumns, hrows⟩ := exists_columnsAlong s.response.stiffness.toMatrix
    s.response.stiffness.mulVec
    (fun strain => do
      return (← Evaluation.fill (Vector.replicate 6 0) (Constitutive.stress s site strain)).toList)
    hstep (fun w => by rw [fill_of_ok (s.stress_apply site w _)]; rfl)
    s.response.stiffness.mulVec_eq strain factor
  unfold checkTangentStiffness
  simp only [lengthIs_of_eq "strain" strain.size_toArray, liftM_except_ok, except_ok_bind,
    tangent_eq]
  refine (congrArg (· >>= _) hcolumns).trans ?_
  rw [← hrows, ← Stiffness.toMatrix_scale]
  rfl

/-- What the check of the tangent conduction compares. -/
theorem checkTangentConduction_eq (config : CheckConfig ℝ) (hstep : config.stepSize ≠ 0)
    (grad : Vector ℝ 2) (factor : ℝ) :
    checkTangentConduction s site grad.toArray factor config
      = .ok (.compare "heat flux tangent"
          (rowsOf (s.thickness • s.response.conduction.toMatrix))
          (rowsOf (factor • s.response.conduction.toMatrix)) config) := by
  obtain ⟨columns, hcolumns, hrows⟩ := exists_columnsAlong s.response.conduction.toMatrix
    s.response.conduction.mulVec
    (fun grad => do
      return (← Evaluation.fill (Vector.replicate 2 0) (Constitutive.heatFlux s site grad)).toList)
    hstep (fun w => by rw [fill_of_ok (s.heatFlux_apply site w _)]; rfl)
    s.response.conduction.mulVec_eq grad factor
  unfold checkTangentConduction
  simp only [lengthIs_of_eq "gradient" grad.size_toArray, liftM_except_ok, except_ok_bind,
    fill_of_ok (s.tangentConduction_apply site _), Conduction.ofVector_toVector]
  refine (congrArg (· >>= _) hcolumns).trans ?_
  rw [← hrows, ← Conduction.list_scale_eq]
  rfl

/-! ### Design sensitivities -/

/-- The work of the tangent stress is that of the stress times the thickness. -/
theorem tangentWork_eq (strain psi : Voigt ℝ) : tangentWork strain.toArray psi.toArray s site
    = .ok (s.thickness
        * Scalar.dot (s.response.stiffness.mulVec strain).toList psi.toList) := by
  unfold tangentWork
  simp only [sized_toArray, liftM_except_ok, except_ok_bind, tangent_eq, except_pure]
  refine congrArg Except.ok ?_
  have hsum := sum_rowsOf (Matrix.of fun i j : Fin 6 =>
    psi[i] * (s.response.stiffness.scale s.thickness).get i j * strain[j])
  have hscale : ∀ i j, (s.response.stiffness.scale s.thickness).get i j
      = s.thickness * s.response.stiffness.get i j := fun i j =>
    congrFun (congrFun (s.response.stiffness.toMatrix_scale s.thickness) i) j
  rw [Scalar.dot_toList, Finset.mul_sum]
  refine Eq.trans hsum (Finset.sum_congr rfl fun i _ => ?_)
  rw [Stiffness.get_mulVec, Finset.sum_mul, Finset.mul_sum]
  refine Finset.sum_congr rfl fun j _ => ?_
  rw [Matrix.of_apply, hscale]
  simp only [Vector.get_eq_getElem, Fin.getElem_fin]
  ring

/-- The thickness of a solid itself is stored. -/
theorem storesThickness (elem : ℕ) :
    StoresThickness (Constitutive.setDesignVars elem) (fun s : Solid ℝ => s) :=
  fun _ _ hs t journal => exists_setDesignVars hs t journal

section DesignVariables

variable {s}

theorem answer_designVarNums_of_none (hs : s.designVar = none) (elem : ℕ) :
    Evaluation.answer (none : Option (Vector ℕ 0)) (Constitutive.designVarNums s elem)
      = .ok (0, none) := by
  simp only [Constitutive.designVarNums, designVarNums, hs]
  rfl

theorem fill_designVars_of_none (hs : s.designVar = none) (elem : ℕ) :
    Evaluation.fill (Vector.replicate 0 (0 : ℝ)) (Constitutive.designVars s elem) = .ok #v[] := by
  simp only [Constitutive.designVars, designVars, designSlot, hs]
  rfl

variable {index : ℕ}

theorem answer_designVarNums_of_some (hs : s.designVar = some index) (elem : ℕ) :
    Evaluation.answer (none : Option (Vector ℕ 0)) (Constitutive.designVarNums s elem)
      = .ok (1, none) := by
  simp only [Constitutive.designVarNums, designVarNums, hs]
  rfl

theorem fill_designVars_of_some (hs : s.designVar = some index) (elem : ℕ) :
    Evaluation.fill (Vector.replicate 1 (0 : ℝ)) (Constitutive.designVars s elem)
      = .ok #v[s.thickness] := by
  simp only [Constitutive.designVars, designVars, designSlot, hs]
  rfl

/-- The sensitivity to the thickness is the work of the stress. -/
theorem fill_addStressSens_of_some (hs : s.designVar = some index) (strain psi : Voigt ℝ) :
    Evaluation.fill (Vector.replicate 1 (0 : ℝ))
        (Constitutive.addStressSens s site 1 strain.toArray psi.toArray)
      = .ok #v[Scalar.dot (s.response.stiffness.mulVec strain).toList psi.toList] := by
  rw [fill_of_ok (addStressSens_apply (fun _ => le_rfl) site 1 strain psi _),
    accumulate_of_some hs, addFirst_zero, one_mul]

end DesignVariables

/-- **The check of the design derivative of the stress finds nothing**, and leaves the solid as it
was. -/
theorem keeps_checkStressDesignSens (hstep : config.stepSize ≠ 0) (hr : 0 ≤ config.rtol)
    (ha : 0 ≤ config.atol) (strain psi : Voigt ℝ) :
    Keeps (checkStressDesignSens site strain.toArray psi.toArray config) s
      CheckResult.IsExact := by
  set work := Scalar.dot (s.response.stiffness.mulVec strain).toList psi.toList with hwork
  unfold checkStressDesignSens
  rw [lengthIs_of_eq "psi" psi.size_toArray]
  refine Keeps.bind (P := fun _ => True) (keeps_pure trivial) fun _ _ => ?_
  refine keeps_subject.bind ?_
  rintro s rfl
  cases hs : s.designVar with
  | none =>
    refine (keeps_liftM (answer_designVarNums_of_none hs site.elem)).bind ?_
    rintro _ rfl
    refine (keeps_liftM (fill_designVars_of_none hs site.elem)).bind ?_
    rintro _ rfl
    refine (keeps_liftM (fill_of_ok (addStressSens_apply (hasPlace_of_none hs 0) site 1 strain psi
      _))).bind fun analytic _ => ?_
    refine Keeps.bind (P := (· = [])) (keeps_pure rfl) ?_
    rintro _ rfl
    -- without design variables nothing is compared with nothing
    have hempty : analytic.toList = [] := List.eq_nil_of_length_eq_zero analytic.length_toList
    rw [hempty]
    exact keeps_reported (CheckResult.isExact_compare_self _ _ hr ha)
  | some index =>
    refine (keeps_liftM (answer_designVarNums_of_some hs site.elem)).bind ?_
    rintro _ rfl
    refine (keeps_liftM (fill_designVars_of_some hs site.elem)).bind ?_
    rintro _ rfl
    refine (keeps_liftM (fill_addStressSens_of_some site hs strain psi)).bind ?_
    rintro _ rfl
    refine ((storesThickness site.elem).keeps_designDifferences hs
      (tangentWork_eq _ site strain psi) (tangentWork_eq _ site strain psi)).bind ?_
    rintro _ rfl
    -- the work is proportional to the thickness, so its quotient is exact
    have hquotient : differenceQuotient config.stepSize ((s.thickness + config.stepSize) * work)
        ((s.thickness + -config.stepSize) * work) = work := by
      rw [differenceQuotient_real]
      field_simp
      ring
    dsimp only [response] at hwork hquotient ⊢
    rw [← hwork, hquotient]
    exact keeps_reported (CheckResult.isExact_compare_self _ [work] hr ha)

/-! ### Reciprocity -/

/-- What the check of reciprocity compares: the work of each strain on the stress of the other. -/
theorem checkReciprocity_eq (first second : Voigt ℝ) :
    checkReciprocity s site first.toArray second.toArray config
      = .ok (.compare "stiffness symmetry"
          [Scalar.dot first.toList (s.response.stiffness.mulVec second).toList]
          [Scalar.dot second.toList (s.response.stiffness.mulVec first).toList] config) := by
  -- a solid has six stresses
  have hstress : ∀ strain : Voigt ℝ,
      Evaluation.fill (Vector.replicate (Constitutive.numStresses s) 0)
        (Constitutive.stress s site strain.toArray) = .ok (s.response.stiffness.mulVec strain) :=
    fun strain => fill_of_ok (s.stress_apply site strain _)
  unfold checkReciprocity
  dsimp only
  rw [hstress, hstress]
  rfl

/-- **The check of reciprocity finds nothing**, for the stiffness is symmetric. -/
theorem isExact_checkReciprocity (hr : 0 ≤ config.rtol) (ha : 0 ≤ config.atol)
    (first second : Voigt ℝ) : ∃ result,
      checkReciprocity s site first.toArray second.toArray config = .ok result
        ∧ result.IsExact := by
  have hsymm : Scalar.dot first.toList (s.response.stiffness.mulVec second).toList
      = Scalar.dot second.toList (s.response.stiffness.mulVec first).toList := by
    rw [Scalar.dot_toList, Scalar.dot_toList, s.response.stiffness.sum_mul_mulVec first]
    exact Finset.sum_congr rfl fun i _ => mul_comm _ _
  refine ⟨_, s.checkReciprocity_eq site first second, ?_⟩
  rw [hsymm]
  exact CheckResult.isExact_compare_self _ _ hr ha

/-! ### All checks -/

/-- **The checks of a solid are exact**, and without tolerance those of the tangents accept no other
matrix than the thickness gives. -/
theorem hasExactChecks_judgesFactors (hstep : config.stepSize ≠ 0) (hr : 0 ≤ config.rtol)
    (ha : 0 ≤ config.atol) :
    s.HasExactChecks site config ∧ s.JudgesFactors site config.stepSize where
  left := {
    tangentStiffness := fun strain =>
      ⟨_, s.checkTangentStiffness_eq site config hstep strain s.thickness,
        CheckResult.isExact_compare_self _ _ hr ha⟩
    tangentConduction := fun grad =>
      ⟨_, s.checkTangentConduction_eq site config hstep grad s.thickness,
        CheckResult.isExact_compare_self _ _ hr ha⟩
    stressDesignSens := s.keeps_checkStressDesignSens site hstep hr ha
    reciprocity := s.isExact_checkReciprocity site hr ha }
  right := {
    tangentStiffness := fun strain factor =>
      ⟨_, s.checkTangentStiffness_eq site ⟨config.stepSize, 0, 0⟩ hstep strain factor,
        passed_compare_smul_iff ..⟩
    tangentConduction := fun grad factor =>
      ⟨_, s.checkTangentConduction_eq site ⟨config.stepSize, 0, 0⟩ hstep grad factor,
        passed_compare_smul_iff ..⟩ }

end Solid

theorem Solid.hasExactChecks_judgesFactors_sample :
    Solid.sample.HasExactChecks ⟨0, #[], #[]⟩ ⟨1, 0, 0⟩
      ∧ Solid.sample.JudgesFactors ⟨0, #[], #[]⟩ 1 :=
  hasExactChecks_judgesFactors sample ⟨0, #[], #[]⟩ one_ne_zero le_rfl le_rfl

end WeakForm
