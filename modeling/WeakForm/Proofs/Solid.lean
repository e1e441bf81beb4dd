import Mathlib
import WeakForm.Constitutive.Solid
import WeakForm.Proofs.ExactNumbers
import WeakForm.Proofs.Runs

/-!
# What a solid answers

A solid without a material answers with zeros. So does a solid of the material `Material.void`,
which is as good as nothing, and with it there is one formula for each answer instead of two: this
module states them, each over the `response` of the solid, and everything about elements of a solid
is read off them.

**Each design sensitivity does one thing.** It adds an amount to the first place of its buffer if
the thickness is a design variable, and nothing otherwise (`Solid.accumulate`).
-/

namespace WeakForm

/-- The material whose answers are those of no material. -/
def Material.void : Material ℝ where
  name := ""
  symmetry := .anisotropic
  density := 0
  specificHeat := 0
  yieldStress := 1
  stiffness := ⟨Vector.replicate 21 0⟩
  thermalStrain := Vector.replicate 6 0
  conduction := ⟨0, 0, 0⟩

/-- A material with constants that differ from each other. -/
def Material.sample : Material ℝ where
  name := "sample"
  symmetry := .anisotropic
  density := (2 : ℕ)
  specificHeat := (3 : ℕ)
  yieldStress := (5 : ℕ)
  stiffness := ⟨Vector.ofFn fun i => (i.val : ℝ)⟩
  thermalStrain := Vector.ofFn fun i => (i.val : ℝ)
  conduction := ⟨(7 : ℕ), 1, (11 : ℕ)⟩

namespace Solid

/-- A solid of the sample material, with an active thickness. -/
def sample : Solid ℝ := ⟨some .sample, (13 : ℕ), some 0, 1, (17 : ℕ)⟩

/-- The material that a solid answers with. -/
def response (s : Solid ℝ) : Material ℝ := s.material.getD .void

/-- A buffer with an amount added to its first place. -/
def addFirst {n : ℕ} (amount : ℝ) (b : Vector ℝ (n + 1)) : Vector ℝ (n + 1) :=
  b.set 0 (b[0] + amount)

theorem addFirst_zero (amount : ℝ) : addFirst amount (Vector.replicate 1 0) = #v[amount] := by
  simp [addFirst]

/-- The buffer of sensitivities with an amount added for the thickness, if it is a design
variable. -/
def accumulate (s : Solid ℝ) (amount : ℝ) : {n : ℕ} → Vector ℝ n → Vector ℝ n
  | 0, b => b
  | _ + 1, b => if s.designVar.isSome then addFirst amount b else b

variable {s : Solid ℝ} {site : Site ℝ} {n : ℕ}

theorem accumulate_of_some {index : ℕ} (h : s.designVar = some index) (amount : ℝ)
    (b : Vector ℝ (n + 1)) : s.accumulate amount b = addFirst amount b := by
  unfold accumulate
  rw [h]
  rfl

theorem accumulate_of_none (h : s.designVar = none) (amount : ℝ) (b : Vector ℝ n) :
    s.accumulate amount b = b := by
  unfold accumulate
  cases n with
  | zero => rfl
  | succ n =>
    dsimp only
    rw [h]
    rfl

/-- Amounts that are added one after the other add up. -/
theorem accumulate_accumulate (first second : ℝ) (b : Vector ℝ n) :
    s.accumulate second (s.accumulate first b) = s.accumulate (first + second) b := by
  cases h : s.designVar with
  | none => rw [accumulate_of_none h, accumulate_of_none h, accumulate_of_none h]
  | some index =>
    cases n with
    | zero => rfl
    | succ n =>
      rw [accumulate_of_some h, accumulate_of_some h, accumulate_of_some h]
      simp [addFirst, add_assoc]

theorem accumulate_zero (b : Vector ℝ n) : s.accumulate 0 b = b := by
  cases h : s.designVar with
  | none => exact accumulate_of_none h 0 b
  | some index =>
    cases n with
    | zero => rfl
    | succ n =>
      rw [accumulate_of_some h]
      unfold addFirst
      rw [add_zero]
      exact Vector.set_getElem_self _

/-- **The buffer of sensitivities has a place for the thickness** if it is a design variable. -/
def HasPlace (s : Solid ℝ) (n : ℕ) : Prop := s.designVar.isSome → 1 ≤ n

theorem hasPlace_of_none (h : s.designVar = none) (n : ℕ) : s.HasPlace n := by
  intro hsome
  rw [h] at hsome
  cases hsome

variable [Waves]

/-! ## Values -/

theorem density_eq (s : Solid ℝ) (site : Site ℝ) :
    Constitutive.density s site = s.thickness * s.response.density := by
  unfold response
  obtain ⟨material, t, index, lower, upper⟩ := s
  cases material with
  | none => exact (mul_zero t).symm
  | some material => rfl

theorem specificHeat_eq (s : Solid ℝ) (site : Site ℝ) :
    Constitutive.specificHeat s site = s.thickness * s.response.specificHeat := by
  unfold response
  obtain ⟨material, t, index, lower, upper⟩ := s
  cases material with
  | none => exact (mul_zero t).symm
  | some material => rfl

/-! ## What is written -/

/-- Writing over the whole buffer. -/
theorem write_apply (s : Solid ℝ) {value : Material ℝ → Vector ℝ n}
    (hvoid : value .void = Vector.replicate n 0) (b : Vector ℝ n) :
    s.write rfl value b = .ok () (value s.response) := by
  unfold write response
  cases hm : s.material with
  | none =>
    rw [Option.getD_none, hvoid]
    rfl
  | some material => rfl

theorem tangentStiffness_apply (s : Solid ℝ) (site : Site ℝ) (b : Vector ℝ 21) :
    Constitutive.tangentStiffness s site b
      = .ok () (s.response.stiffness.scale s.thickness).packed := by
  simp only [Constitutive.tangentStiffness, lengthIs_self, liftM_length_ok, pure_bind_apply]
  exact s.write_apply (by simp [Material.void, Stiffness.scale]) b

theorem thermalStrain_apply (s : Solid ℝ) (site : Site ℝ) (theta : ℝ) (b : Vector ℝ 6) :
    Constitutive.thermalStrain s site theta b
      = .ok () (s.response.thermalStrain.map (theta * ·)) := by
  simp only [Constitutive.thermalStrain, lengthIs_self, liftM_length_ok, pure_bind_apply]
  exact s.write_apply (by simp [Material.void]) b

theorem tangentConduction_apply (s : Solid ℝ) (site : Site ℝ) (b : Vector ℝ 3) :
    Constitutive.tangentConduction s site b
      = .ok () (s.response.conduction.scale s.thickness).toVector := by
  simp only [Constitutive.tangentConduction, lengthIs_self, liftM_length_ok, pure_bind_apply]
  exact s.write_apply
    (by simp [Material.void, Conduction.scale, Conduction.toVector]; rfl) b

/-- Without stiffness there is no stress. -/
theorem void_mulVec (v : Voigt ℝ) : Material.void.stiffness.mulVec v = Vector.replicate 6 0 := by
  refine Vector.ext fun i hi => ?_
  simp [Material.void, Stiffness.mulVec, Stiffness.get]

theorem stress_apply (s : Solid ℝ) (site : Site ℝ) (strain b : Voigt ℝ) :
    Constitutive.stress s site strain.toArray b
      = .ok () (s.response.stiffness.mulVec strain) := by
  simp only [Constitutive.stress, sized_toArray, lengthIs_self, liftM_length_ok, pure_bind_apply]
  exact s.write_apply (void_mulVec strain) b

theorem heatFlux_apply (s : Solid ℝ) (site : Site ℝ) (grad b : Vector ℝ 2) :
    Constitutive.heatFlux s site grad.toArray b
      = .ok () (s.response.conduction.mulVec grad) := by
  simp only [Constitutive.heatFlux, sized_toArray, lengthIs_self, liftM_length_ok, pure_bind_apply]
  exact s.write_apply (by simp [Material.void, Conduction.mulVec]; rfl) b

/-! ## Failure -/

/-- Without stress there is no failure. -/
theorem void_failure (v : Voigt ℝ) :
    Material.void.failure (Material.void.stiffness.mulVec v) = 0 := by
  rw [void_mulVec]
  simp [Material.failure, Material.equivalentStressSquared, Voigt.xx, Voigt.yy, Voigt.zz, Voigt.yz,
    Voigt.xz, Voigt.xy]

theorem failure_eq (s : Solid ℝ) (site : Site ℝ) (strain : Voigt ℝ) :
    Constitutive.failure s site strain.toArray
      = .ok (s.response.failure (s.response.stiffness.mulVec strain)) := by
  simp only [Constitutive.failure, sized_toArray, liftM_except_ok, except_ok_bind, except_pure]
  -- the failure index of no material is zero, and so is that of no stress
  obtain ⟨material, t, index, lower, upper⟩ := s
  cases material with
  | none => exact congrArg Except.ok (void_failure strain).symm
  | some material => rfl

theorem failureGradient_apply (s : Solid ℝ) (site : Site ℝ) (strain b : Voigt ℝ) :
    Constitutive.failureGradient s site strain.toArray b
      = .ok (s.response.failure (s.response.stiffness.mulVec strain))
          (s.response.stiffness.mulVec
            (s.response.failureGradient (s.response.stiffness.mulVec strain))) := by
  simp only [Constitutive.failureGradient, sized_toArray, lengthIs_self, liftM_length_ok,
    pure_bind_apply]
  rw [bind_of_ok (s.write_apply (void_mulVec _) b)]
  obtain ⟨material, t, index, lower, upper⟩ := s
  cases material with
  | none => exact congrArg (fun index => EStateM.Result.ok index _) (void_failure strain).symm
  | some material => rfl

/-! ## Sensitivities -/

/-- **Adding a sensitivity**, of which nothing is left without a material. -/
theorem addSens_apply (h : s.HasPlace n) {amount : Material ℝ → ℝ} (hvoid : amount .void = 0)
    (b : Vector ℝ n) : s.addSens amount b = .ok () (s.accumulate (amount s.response) b) := by
  unfold addSens response
  cases hm : s.material with
  | none =>
    rw [Option.getD_none, hvoid, accumulate_zero]
    rfl
  | some material =>
    rw [Option.getD_some]
    unfold designSlot
    cases hd : s.designVar with
    | none =>
      rw [accumulate_of_none hd]
      rfl
    | some index =>
      have hn : 1 ≤ n := h (by rw [hd]; rfl)
      obtain ⟨m, rfl⟩ := Nat.exists_eq_add_of_le' hn
      rw [accumulate_of_some hd]
      simp only [lengthAtLeast_of_le hn]
      rfl

theorem addDensitySens_apply (h : s.HasPlace n) (site : Site ℝ) (scale : ℝ) (b : Vector ℝ n) :
    Constitutive.addDensitySens s site scale b
      = .ok () (s.accumulate (scale * s.response.density) b) :=
  addSens_apply h (mul_zero scale) b

theorem addSpecificHeatSens_apply (h : s.HasPlace n) (site : Site ℝ) (scale : ℝ) (b : Vector ℝ n) :
    Constitutive.addSpecificHeatSens s site scale b
      = .ok () (s.accumulate (scale * s.response.specificHeat) b) :=
  addSens_apply h (mul_zero scale) b

theorem addStressSens_apply (h : s.HasPlace n) (site : Site ℝ) (scale : ℝ)
    (strain psi : Voigt ℝ) (b : Vector ℝ n) :
    Constitutive.addStressSens s site scale strain.toArray psi.toArray b
      = .ok () (s.accumulate
          (scale * Scalar.dot (s.response.stiffness.mulVec strain).toList psi.toList) b) := by
  simp only [Constitutive.addStressSens, sized_toArray, liftM_length_ok, pure_bind_apply]
  refine addSens_apply h ?_ b
  rw [void_mulVec, Scalar.dot_toList]
  simp

theorem addHeatFluxSens_apply (h : s.HasPlace n) (site : Site ℝ) (scale : ℝ)
    (grad psi : Vector ℝ 2) (b : Vector ℝ n) :
    Constitutive.addHeatFluxSens s site scale grad.toArray psi.toArray b
      = .ok () (s.accumulate
          (scale * Conduction.pairing (s.response.conduction.mulVec grad) psi) b) := by
  simp only [Constitutive.addHeatFluxSens, sized_toArray, liftM_length_ok, pure_bind_apply]
  refine addSens_apply h ?_ b
  simp [Material.void, Conduction.mulVec, Conduction.pairing]

end Solid

end WeakForm
