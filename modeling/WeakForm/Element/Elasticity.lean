import WeakForm.Constitutive.Solid
import WeakForm.Element.Basic

/-!
# Linear elasticity in space

The variables are the three displacements. The nine displacement gradients become six strains by
**one map of indices** (`voigt`), and every other step reads the same map: the strain gathers the
gradients, the weak form scatters the stress back to them, the Jacobian takes its entries from the
tangent, and adjoint gradients are gathered like displacement gradients.

The weak form works with the *mechanical strain*, which is the strain less the thermal strain of a
uniform change of temperature, and with the tangent stiffness of the constitutive law. Output and
failure use the response of the material instead.
-/

namespace WeakForm

/-- Linear elasticity with a constitutive law and a uniform change of temperature. -/
structure Elasticity (C α : Type) where
  law : C
  thermalLoad : α
  deriving Repr

namespace Elasticity

/-- Three displacements in space. -/
def dims : Dims := ⟨3, 3, by decide, by decide, by decide⟩

/-- The strain that a displacement gradient, of a component in a direction, contributes to: a normal
strain has the number of its axis, and the shear strains count down from five. -/
def voigt (component direction : Fin 3) : Fin 6 :=
  if h : component.val = direction.val then ⟨component.val, by omega⟩
  else ⟨6 - component.val - direction.val, by omega⟩

section Gradients

variable {α : Type}

/-- The displacement gradients among the values by space. -/
def gradients (ux : Vector α 12) (component direction : Fin 3) : α :=
  ux[4 * component.val + 1 + direction.val]

/-- Adjoint gradients by component and direction. -/
def adjointGradients (psix : Vector α 9) (component direction : Fin 3) : α :=
  psix[3 * component.val + direction.val]

variable [Scalar α]

/-- **Gathers** gradients: each strain is the sum of the gradients that contribute to it. -/
def gather (g : Fin 3 → Fin 3 → α) : Voigt α :=
  #v[g 0 0, g 1 1, g 2 2, g 1 2 + g 2 1, g 0 2 + g 2 0, g 0 1 + g 1 0]

/-- **Scatters** stresses over values by space: each gradient receives the stress of the strain
that it contributes to, and the values of the displacements receive nothing. -/
def scatter (s : Voigt α) : Vector α 12 :=
  let f := fun component direction => s[voigt component direction]
  #v[0, f 0 0, f 0 1, f 0 2, 0, f 1 0, f 1 1, f 1 2, 0, f 2 0, f 2 1, f 2 2]

/-- The strain of values by space. -/
def strain (ux : Vector α 12) : Voigt α := gather (gradients ux)

/-- The strain of an array that holds at least the values by space. -/
def strain? (ux : Array α) : Option (Voigt α) :=
  if h : 12 ≤ ux.size then some (strain ((ux.toVector.take 12).cast (Nat.min_eq_left h))) else none

end Gradients

/-- The pairs of a component and a direction, row by row. -/
def axes : List (Fin 3 × Fin 3) :=
  (List.finRange 3).flatMap fun component => (List.finRange 3).map fun direction =>
    (component, direction)

/-- The mass of each component, then the derivative of each stress by each gradient. -/
def pattern : List (Nat × Nat) :=
  ((List.finRange 3).map fun k : Fin 3 => (dims.timeIndex k 2, dims.timeIndex k 2))
    ++ axes.flatMap fun (k, a) => axes.map fun (l, b) =>
      (dims.spatialIndex k a, dims.spatialIndex l b)

/-- The values that belong to the pattern. -/
def patternValues {α : Type} (density : α) (tangent : Stiffness α) : List α :=
  List.replicate 3 density
    ++ axes.flatMap fun (k, a) => axes.map fun (l, b) => tangent.get (voigt k a) (voigt l b)

variable {C α : Type} [Scalar α] [Constitutive C α]

/-- The model without a thermal load. -/
def ofLaw (law : C) : Elasticity C α := ⟨law, 0⟩

/-- The strain of a point less its thermal strain. Without a thermal load the constitutive law is
not asked for one. -/
def mechanicalStrain (e : Elasticity C α) (site : Site α) (ux : Vector α 12) :
    Except (ModelError α) (Voigt α) := do
  let total := strain ux
  if e.thermalLoad == 0 then return total
  else
    let thermal ← Evaluation.fill (Vector.replicate 6 0)
      (Constitutive.thermalStrain e.law site e.thermalLoad)
    return Vector.zipWith (· - ·) total thermal

/-- The tangent stiffness at a site. -/
def tangent (e : Elasticity C α) (site : Site α) : Except (ModelError α) (Stiffness α) := do
  return ⟨← Evaluation.fill (Vector.replicate 21 0) (Constitutive.tangentStiffness e.law site)⟩

/-- The stress that the weak form carries. -/
def resultantStress (e : Elasticity C α) (site : Site α) (strain : Voigt α) :
    Except (ModelError α) (Voigt α) := do
  return (← e.tangent site).mulVec strain

/-- Writes the inertia forces, then the stresses. -/
def weakIntegrand {n m : Nat} (e : Elasticity C α) (p : Point α) :
    Evaluation α (Coefficients α n m) Unit := do
  let data ← dims.checkPoint p
  let ⟨hn, hm⟩ ← dims.checkCoefficients n m
  let ut : Vector α 9 := data.ut
  let density := Constitutive.density e.law p.site
  let inertia : Vector α 9 :=
    #v[0, 0, density * ut[2], 0, 0, density * ut[5], 0, 0, density * ut[8]]
  modify fun c => { c with dut := inertia.cast hn.symm }
  let strain ← e.mechanicalStrain p.site data.ux
  let stress ← e.resultantStress p.site strain
  modify fun c => { c with dux := (scatter stress).cast hm.symm }

/-- Writes the coefficients, then masses and stiffnesses. -/
def weakJacobian {n m k : Nat} (e : Elasticity C α) (p : Point α) :
    Evaluation α (Linearization α n m k) JacobianPattern := do
  Linearization.onCoefficients (e.weakIntegrand p)
  let _ ← lengthAtLeast "jac" k pattern.length
  let density := Constitutive.density e.law p.site
  let tangent ← e.tangent p.site
  Linearization.writeJacobian (patternValues density tangent).toArray
  return .sparse pattern

/-- Adds the design derivatives of the inertia forces and of the stresses. -/
def addWeakAdjoint {n : Nat} (e : Elasticity C α) (p : Point α) (psi psix : Array α) (scale : α) :
    Evaluation α (Vector α n) Unit := do
  let data ← dims.checkPoint p
  let adjoint ← dims.checkAdjoint psi psix
  let ut : Vector α 9 := data.ut
  let psi : Vector α 3 := adjoint.psi
  let inertia := Scalar.sum ((List.finRange 3).map fun k : Fin 3 => psi[k] * ut[3 * k.val + 2])
  Constitutive.addDensitySens e.law p.site (scale * inertia)
  let phi := gather (adjointGradients adjoint.psix)
  let strain ← e.mechanicalStrain p.site data.ux
  Constitutive.addStressSens e.law p.site scale strain.toArray phi.toArray

/-- The value of a quantity: failure index, density, or strain energy density. -/
def quantityValue (e : Elasticity C α) (tag : QuantityTag) (site : Site α)
    (data : PointData dims α) : Except (ModelError α) α := do
  match tag with
  | .failureIndex =>
    let strain ← e.mechanicalStrain site data.ux
    Constitutive.failure e.law site strain.toArray
  | .density => return Constitutive.density e.law site
  | .strainEnergyDensity =>
    let strain ← e.mechanicalStrain site data.ux
    let stress ← e.resultantStress site strain
    return (0.5 : α) * Scalar.dot stress.toList strain.toList
  | _ => throw (.unsupportedQuantity tag)

/-- Writes the value of a quantity. -/
def quantity {n : Nat} (e : Elasticity C α) (tag : QuantityTag) (p : Point α) :
    Evaluation α (Vector α n) Nat := do
  let data ← dims.checkPoint p
  let value ← e.quantityValue tag p.site data
  let ⟨h⟩ ← lengthAtLeast "quantity" n 1
  modify fun out => out.set 0 value
  return 1

/-- Adds the design derivative of a quantity. The strain energy is linear in the tangent, so half of
the derivative of the stress, paired with the strain, is its derivative. -/
def addQuantityDesignSens {n : Nat} (e : Elasticity C α) (tag : QuantityTag) (scale : α)
    (p : Point α) (dfdq : Array α) : Evaluation α (Vector α n) Unit := do
  let data ← dims.checkPoint p
  match tag with
  | .failureIndex =>
    let ⟨h⟩ ← lengthAtLeast "dfdq" dfdq.size 1
    let strain ← e.mechanicalStrain p.site data.ux
    Constitutive.addFailureSens e.law p.site (scale * dfdq[0]) strain.toArray
  | .density =>
    let ⟨h⟩ ← lengthAtLeast "dfdq" dfdq.size 1
    Constitutive.addDensitySens e.law p.site (scale * dfdq[0])
  | .strainEnergyDensity =>
    let ⟨h⟩ ← lengthAtLeast "dfdq" dfdq.size 1
    let strain ← e.mechanicalStrain p.site data.ux
    Constitutive.addStressSens e.law p.site ((0.5 : α) * scale * dfdq[0])
      strain.toArray strain.toArray
  | _ => throw (.unsupportedQuantity tag)

/-- The derivative of a quantity with respect to strain; none for a quantity that does not depend on
it. -/
def quantityStrainGradient (e : Elasticity C α) (tag : QuantityTag) (site : Site α)
    (data : PointData dims α) : Except (ModelError α) (Option (Voigt α)) := do
  match tag with
  | .failureIndex =>
    let strain ← e.mechanicalStrain site data.ux
    let gradient ← Evaluation.fill (Vector.replicate 6 0) do
      let _ ← Constitutive.failureGradient e.law site strain.toArray
    return some gradient
  | .density => return none
  | .strainEnergyDensity =>
    let strain ← e.mechanicalStrain site data.ux
    return some (← e.resultantStress site strain)
  | _ => throw (.unsupportedQuantity tag)

/-- Writes the derivative of a quantity: that with respect to strain, scattered over the
displacement gradients, and zeros elsewhere. -/
def quantitySens {a b c d : Nat} (e : Elasticity C α) (tag : QuantityTag) (p : Point α)
    (dfdq : Array α) : Evaluation α (QuantitySens α a b c d) Unit := do
  let data ← dims.checkPoint p
  let ⟨_, _, hd⟩ ← QuantitySens.checkLengths dims a b c d
  let gradient ← e.quantityStrainGradient tag p.site data
  let ⟨h⟩ ← lengthAtLeast "dfdq" dfdq.size 1
  let zeros := QuantitySens.zero a b c d
  match gradient with
  | none => set zeros
  | some gradient =>
    set { zeros with dfdux := (scatter (gradient.map (dfdq[0] * ·))).cast hd.symm }

/-- Writes a record: position, displacements, strain, stress of the material, failure index and
density. -/
def output {n : Nat} (e : Elasticity C α) (p : Point α) (etype : ElementType) (flags : OutputFlags)
    (stride : Nat) : Evaluation α (Vector α n) Nat := do
  if etype ≠ .solid then return 0
  let data ← dims.checkPoint p
  let ut : Vector α 9 := data.ut
  let cursor ← RecordCursor.start etype flags stride n
  let cursor ← cursor.section? flags .nodes fun _ => return p.x
  let cursor ← cursor.section? flags .displacements fun _ => return #[ut[0], ut[3], ut[6]]
  let cursor ← cursor.section? flags .strains fun _ => return (strain data.ux).toArray
  let cursor ← cursor.section? flags .stresses fun _ => do
    let strain ← e.mechanicalStrain p.site data.ux
    let stress ← Evaluation.fill (Vector.replicate 6 0)
      (Constitutive.stress e.law p.site strain.toArray)
    return stress.toArray
  let cursor ← cursor.section? flags .extras fun _ => do
    let strain ← e.mechanicalStrain p.site data.ux
    let failure ← Constitutive.failure e.law p.site strain.toArray
    return #[failure, Constitutive.density e.law p.site]
  return cursor.position

instance : ElementModel (Elasticity C α) α where
  dims _ := dims
  elementType _ := .solid
  designVarNums e elem := Constitutive.designVarNums e.law elem
  setDesignVars elem values :=
    Work.onPart Elasticity.law (fun law e => { e with law })
      (Constitutive.setDesignVars elem values)
  designVars e elem := Constitutive.designVars e.law elem
  designVarRange e elem := Constitutive.designVarRange e.law elem
  weakIntegrand := weakIntegrand
  weakJacobian := weakJacobian
  addWeakAdjoint := addWeakAdjoint
  quantity e tag p _ := e.quantity tag p
  addQuantityDesignSens e tag scale p _ dfdq := e.addQuantityDesignSens tag scale p dfdq
  quantitySens e tag p _ dfdq := e.quantitySens tag p dfdq
  output := output

end Elasticity

end WeakForm
