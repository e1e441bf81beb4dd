import WeakForm.Constitutive.Solid
import WeakForm.Element.Basic

/-!
# Transient heat conduction in the plane

The variable is a temperature. Its rate is weighted with the heat capacity, the product of density
and specific heat, and its gradient with the tangent conduction. **A thickness enters the capacity
twice**, once with each factor, so the capacity is quadratic in it, and the product rule gives its
derivative.
-/

namespace WeakForm

/-- Heat conduction with a constitutive law. -/
structure Conductor (C : Type) where
  law : C
  deriving Repr

namespace Conductor

/-- One temperature in the plane. -/
def dims : Dims := ⟨2, 1, by decide, by decide, by decide⟩

/-- The capacity, then the four conductivities. -/
def pattern : List (Nat × Nat) :=
  let rate := dims.timeIndex 0 1
  let gx := dims.spatialIndex 0 0
  let gy := dims.spatialIndex 0 1
  [(rate, rate), (gx, gx), (gx, gy), (gy, gx), (gy, gy)]

/-- The temperature gradient among the values by space. -/
def gradient {α : Type} (ux : Vector α dims.uxLen) : Vector α 2 := #v[ux[1], ux[2]]

variable {C α : Type} [Scalar α] [Constitutive C α]

/-- The tangent conduction at a site. -/
def conduction (c : Conductor C) (site : Site α) : Except (ModelError α) (Conduction α) := do
  let packed ← Evaluation.fill (Vector.replicate 3 0) (Constitutive.tangentConduction c.law site)
  return .ofVector packed

/-- The flux that the weak form carries. -/
def flux (c : Conductor C) (site : Site α) (gradient : Vector α 2) :
    Except (ModelError α) (Vector α 2) := do
  return (← c.conduction site).mulVec gradient

/-- The heat capacity per unit volume. -/
def capacity (c : Conductor C) (site : Site α) : α :=
  Constitutive.density c.law site * Constitutive.specificHeat c.law site

/-- Writes the stored heat, then the flux. -/
def weakIntegrand {n m : Nat} (c : Conductor C) (p : Point α) :
    Evaluation α (Coefficients α n m) Unit := do
  let data ← dims.checkPoint p
  let ⟨hn, hm⟩ ← dims.checkCoefficients n m
  let stored : Vector α 3 := #v[0, c.capacity p.site * data.ut[1], 0]
  modify fun b => { b with dut := stored.cast hn.symm }
  let flux ← c.flux p.site (gradient data.ux)
  let spatial : Vector α 3 := #v[0, flux[0], flux[1]]
  modify fun b => { b with dux := spatial.cast hm.symm }

/-- Writes the coefficients, then the capacity and the conductivities. -/
def weakJacobian {n m k : Nat} (c : Conductor C) (p : Point α) :
    Evaluation α (Linearization α n m k) JacobianPattern := do
  Linearization.onCoefficients (c.weakIntegrand p)
  let _ ← lengthAtLeast "jac" k pattern.length
  let tensor ← c.conduction p.site
  Linearization.writeJacobian #[c.capacity p.site, tensor.k11, tensor.k12, tensor.k12, tensor.k22]
  return .sparse pattern

/-- Adds the design derivatives of the stored heat, one for each factor of the capacity, and of the
flux. -/
def addWeakAdjoint {n : Nat} (c : Conductor C) (p : Point α) (psi psix : Array α) (scale : α) :
    Evaluation α (Vector α n) Unit := do
  let data ← dims.checkPoint p
  let adjoint ← dims.checkAdjoint psi psix
  let psi : Vector α 1 := adjoint.psi
  let density := Constitutive.density c.law p.site
  let specificHeat := Constitutive.specificHeat c.law p.site
  let weight := scale * psi[0] * data.ut[1]
  Constitutive.addDensitySens c.law p.site (weight * specificHeat)
  Constitutive.addSpecificHeatSens c.law p.site (weight * density)
  Constitutive.addHeatFluxSens c.law p.site scale (gradient data.ux).toArray psix

/-- Writes a quantity: density, temperature, or heat flux. -/
def quantity {n : Nat} (c : Conductor C) (tag : QuantityTag) (p : Point α) :
    Evaluation α (Vector α n) Nat := do
  let data ← dims.checkPoint p
  match tag with
  | .density =>
    let ⟨h⟩ ← lengthAtLeast "quantity" n 1
    modify fun out => out.set 0 (Constitutive.density c.law p.site)
    return 1
  | .temperature =>
    let ⟨h⟩ ← lengthAtLeast "quantity" n 1
    modify fun out => out.set 0 data.ut[0]
    return 1
  | .heatFlux =>
    let _ ← lengthAtLeast "quantity" n 2
    let flux ← c.flux p.site (gradient data.ux)
    modify (overwrite · 0 flux.toArray)
    return 2
  | _ => throw (.unsupportedQuantity tag)

/-- Adds the design derivative of a quantity. A temperature does not depend on the design. -/
def addQuantityDesignSens {n : Nat} (c : Conductor C) (tag : QuantityTag) (scale : α) (p : Point α)
    (dfdq : Array α) : Evaluation α (Vector α n) Unit := do
  let data ← dims.checkPoint p
  match tag with
  | .density =>
    let ⟨h⟩ ← lengthAtLeast "dfdq" dfdq.size 1
    Constitutive.addDensitySens c.law p.site (scale * dfdq[0])
  | .temperature => pure ()
  | .heatFlux =>
    let _ ← lengthAtLeast "dfdq" dfdq.size 2
    Constitutive.addHeatFluxSens c.law p.site scale (gradient data.ux).toArray (dfdq.take 2)
  | _ => throw (.unsupportedQuantity tag)

/-- Writes the derivative of a quantity with respect to the data of the point. -/
def quantitySens {a b c d : Nat} (model : Conductor C) (tag : QuantityTag) (p : Point α)
    (dfdq : Array α) : Evaluation α (QuantitySens α a b c d) Unit := do
  let _ ← dims.checkPoint p
  let ⟨_, hc, hd⟩ ← QuantitySens.checkLengths dims a b c d
  let zeros := QuantitySens.zero a b c d
  match tag with
  | .density =>
    let _ ← lengthAtLeast "dfdq" dfdq.size 1
    set zeros
  | .temperature =>
    let ⟨h⟩ ← lengthAtLeast "dfdq" dfdq.size 1
    let dfdut : Vector α 3 := #v[dfdq[0], 0, 0]
    set { zeros with dfdut := dfdut.cast hc.symm }
  | .heatFlux =>
    let ⟨h⟩ ← lengthAtLeast "dfdq" dfdq.size 2
    let tensor ← model.conduction p.site
    let dfdux : Vector α 3 :=
      #v[0, dfdq[0] * tensor.k11 + dfdq[1] * tensor.k12,
        dfdq[0] * tensor.k12 + dfdq[1] * tensor.k22]
    set { zeros with dfdux := dfdux.cast hd.symm }
  | _ => throw (.unsupportedQuantity tag)

/-- Writes a record: position, temperature, its gradient, heat flux of the material, and density. -/
def output {n : Nat} (c : Conductor C) (p : Point α) (etype : ElementType) (flags : OutputFlags)
    (stride : Nat) : Evaluation α (Vector α n) Nat := do
  if etype ≠ .scalar2D then return 0
  let data ← dims.checkPoint p
  let grad := gradient data.ux
  let cursor ← RecordCursor.start etype flags stride n
  let cursor ← cursor.section? flags .nodes fun _ => return p.x
  let cursor ← cursor.section? flags .displacements fun _ => return #[data.ut[0]]
  let cursor ← cursor.section? flags .strains fun _ => return grad.toArray
  let cursor ← cursor.section? flags .stresses fun _ => do
    let flux ← Evaluation.fill (Vector.replicate 2 0)
      (Constitutive.heatFlux c.law p.site grad.toArray)
    return flux.toArray
  let cursor ← cursor.section? flags .extras fun _ => return #[Constitutive.density c.law p.site]
  return cursor.position

instance : ElementModel (Conductor C) α where
  dims _ := dims
  elementType _ := .scalar2D
  designVarNums c elem := Constitutive.designVarNums c.law elem
  setDesignVars elem values :=
    Work.onPart Conductor.law (fun law c => { c with law }) (Constitutive.setDesignVars elem values)
  designVars c elem := Constitutive.designVars c.law elem
  designVarRange c elem := Constitutive.designVarRange c.law elem
  weakIntegrand := weakIntegrand
  weakJacobian := weakJacobian
  addWeakAdjoint := addWeakAdjoint
  quantity c tag p _ := c.quantity tag p
  addQuantityDesignSens c tag scale p _ dfdq := c.addQuantityDesignSens tag scale p dfdq
  quantitySens c tag p _ dfdq := c.quantitySens tag p dfdq
  output := output

end Conductor

end WeakForm
