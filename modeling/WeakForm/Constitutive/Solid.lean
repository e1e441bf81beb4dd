import WeakForm.Constitutive.Basic

/-!
# The linear solid with a thickness

A solid answers with the linear law of its material. Its thickness `t`, which may be a design
variable, scales the density, the specific heat and both tangents, but not the response of the
material: the sensitivities of stress and flux are those of `t · C · e` and `t · K · g`, and the
failure index does not depend on `t`.

**Without a material everything is zero**, and without an active design variable every sensitivity
is left alone. Lengths are tested before anything is written.
-/

namespace WeakForm

/-- A linear solid. -/
structure Solid (α : Type) where
  material : Option (Material α)
  thickness : α
  /-- The global number of the thickness, if it is a design variable. -/
  designVar : Option Nat
  lower : α
  upper : α
  deriving Repr

namespace Solid

variable {α : Type} [Scalar α]

/-- A solid of unit thickness without design variables. -/
def ofMaterial (material : Material α) : Solid α := ⟨some material, 1, none, 1, 1⟩

/-- **What is odd about a solid at its start**: no material, a thickness that is not positive, a
thickness outside of its bounds. An undefined number is both not positive and outside. -/
def warnings (s : Solid α) : List (Event α) :=
  (if s.material.isNone then [.materialMissing] else [])
    ++ (if 0 < s.thickness then [] else [.thicknessNotPositive s.thickness])
    ++ (if s.lower ≤ s.thickness ∧ s.thickness ≤ s.upper then []
      else [.thicknessOutsideBounds s.thickness s.lower s.upper])

/-- Asks for a place for the thickness in a buffer of design variables; there is nothing to write if
the thickness is none. -/
def designSlot (s : Solid α) (what : String) (n : Nat) :
    Except (ModelError α) (Option (PLift (1 ≤ n))) :=
  match s.designVar with
  | none => .ok none
  | some _ => do return some (← lengthAtLeast what n 1)

/-- Adds an amount to the sensitivity of the thickness. The amount is only asked for if there is a
material and an active design variable. -/
def addSens {n : Nat} (s : Solid α) (amount : Material α → α) : Evaluation α (Vector α n) Unit := do
  match s.material with
  | none => pure ()
  | some material =>
    match ← s.designSlot "dfdx" n with
    | none => pure ()
    | some ⟨h⟩ => modify fun dfdx => dfdx.set 0 (dfdx[0] + amount material)

/-- Writes a vector that the material gives, or zeros, over the whole buffer. -/
def write {n k : Nat} (s : Solid α) (h : n = k) (value : Material α → Vector α k) :
    Evaluation α (Vector α n) Unit :=
  set (match s.material with
    | some material => (value material).cast h.symm
    | none => Vector.replicate n 0)

/-- The numbers of stress components. -/
def numStresses : Nat := 6

/-- The number of the thickness among the design variables. -/
def designVarNums {n : Nat} (s : Solid α) : Evaluation α (Option (Vector Nat n)) Nat := do
  match s.designVar with
  | none => return 0
  | some index =>
    match ← get with
    | none => return 1
    | some nums =>
      let ⟨h⟩ ← lengthAtLeast "dv_nums" n 1
      set (some (nums.set 0 index))
      return 1

/-- Stores the first value as the thickness, also if it is outside of the bounds. -/
def setDesignVars (values : Array α) : Work (ModelError α) (Solid α) α Unit := do
  let s ← Work.subject
  match s.designVar with
  | none => pure ()
  | some index =>
    let ⟨h⟩ ← lengthAtLeast "dvs" values.size 1
    let t := values[0]
    if t < s.lower ∨ s.upper < t then
      Work.note (.designVarOutsideBounds t s.lower s.upper index)
    Work.assign { s with thickness := t }

/-- Writes the thickness. -/
def designVars {n : Nat} (s : Solid α) : Evaluation α (Vector α n) Unit := do
  match ← s.designSlot "dvs" n with
  | none => pure ()
  | some ⟨h⟩ => modify fun values => values.set 0 s.thickness

/-- Writes the bounds of the thickness. -/
def designVarRange {n m : Nat} (s : Solid α) : Evaluation α (Vector α n × Vector α m) Unit := do
  match ← s.designSlot "lb" n with
  | none => pure ()
  | some ⟨h⟩ =>
    match ← s.designSlot "ub" m with
    | none => pure ()
    | some ⟨h'⟩ => modify fun (lower, upper) => (lower.set 0 s.lower, upper.set 0 s.upper)

instance : Constitutive (Solid α) α where
  numStresses _ := numStresses
  designVarNums s _ := s.designVarNums
  setDesignVars _ values := setDesignVars values
  designVars s _ := s.designVars
  designVarRange s _ := s.designVarRange
  density s _ := match s.material with
    | some material => s.thickness * material.density
    | none => 0
  addDensitySens s _ scale := s.addSens fun material => scale * material.density
  specificHeat s _ := match s.material with
    | some material => s.thickness * material.specificHeat
    | none => 0
  addSpecificHeatSens s _ scale := s.addSens fun material => scale * material.specificHeat
  stress {n} s _ strain := do
    let strain ← sized "strain" 6 strain
    let ⟨h⟩ ← lengthIs "stress" n 6
    s.write h fun material => material.stiffness.mulVec strain
  tangentStiffness {n} s _ := do
    let ⟨h⟩ ← lengthIs "tangent stiffness" n 21
    s.write h fun material => (material.stiffness.scale s.thickness).packed
  addStressSens s _ scale strain psi := do
    let strain ← sized "strain" 6 strain
    let psi ← sized "psi" 6 psi
    s.addSens fun material =>
      scale * Scalar.dot (material.stiffness.mulVec strain).toList psi.toList
  thermalStrain {n} s _ theta := do
    let ⟨h⟩ ← lengthIs "thermal strain" n 6
    s.write h fun material => material.thermalStrain.map (theta * ·)
  heatFlux {n} s _ grad := do
    let grad ← sized "gradient" 2 grad
    let ⟨h⟩ ← lengthIs "flux" n 2
    s.write h fun material => material.conduction.mulVec grad
  tangentConduction {n} s _ := do
    let ⟨h⟩ ← lengthIs "heat flux tangent" n 3
    s.write h fun material => (material.conduction.scale s.thickness).toVector
  addHeatFluxSens s _ scale grad psi := do
    let grad ← sized "gradient" 2 grad
    let psi ← sized "psi" 2 psi
    s.addSens fun material => scale * Conduction.pairing (material.conduction.mulVec grad) psi
  failure s _ strain := do
    let strain ← sized "strain" 6 strain
    return match s.material with
      | some material => material.failure (material.stiffness.mulVec strain)
      | none => 0
  failureGradient {n} s _ strain := do
    let strain ← sized "strain" 6 strain
    let ⟨h⟩ ← lengthIs "dfde" n 6
    s.write h fun material =>
      material.stiffness.mulVec (material.failureGradient (material.stiffness.mulVec strain))
    return match s.material with
      | some material => material.failure (material.stiffness.mulVec strain)
      | none => 0

end Solid

end WeakForm
