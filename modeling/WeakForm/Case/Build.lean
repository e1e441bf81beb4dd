import WeakForm.Case.Basic
import WeakForm.Case.Error
import WeakForm.Element.Solid
import WeakForm.Material.Library
import WeakForm.Quantity.Registry

/-!
# Building what a case describes

Materials are built by their constructors and put into a library, quantities are looked up in a
registry, and elements are made of the materials in the library. Each stage goes through its list
from the front and ends at the first entry that is refused. What was built is reported as it is
built.
-/

namespace WeakForm

variable {α : Type} [Scalar α] [Spectral α]

namespace MaterialEntry

/-- The material that an entry describes. A full tensor goes before a single constant. -/
def toMaterial? (m : MaterialEntry α) : Except (ModelError α) (Material α) := do
  let material ← match m.constants with
    | .isotropic young poisson =>
      Material.isotropic? m.name m.density young poisson m.yieldStress
    | .orthotropic constants => Material.orthotropic? m.name m.density constants m.yieldStress
    | .anisotropic stiffness => Material.anisotropic? m.name m.density stiffness m.yieldStress
  let material := material.withSpecificHeat m.specificHeat
  let material := match m.thermalExpansion with
    | some expansion => material.withThermalExpansion expansion
    | none => material
  let material := match m.thermalStrain with
    | some strain => material.withThermalStrain strain
    | none => material
  let material := match m.conductivity with
    | some conductivity => material.withConductivity conductivity
    | none => material
  return match m.conduction with
    | some tensor => material.withConduction (.ofVector tensor)
    | none => material

/-- Builds a material. -/
def build (m : MaterialEntry α) : Work (CaseError α) Unit α (Material α) := do
  match m.toMaterial? with
  | .error e => throw (.model e)
  | .ok material =>
    Work.note material.event
    return material

end MaterialEntry

namespace SolidEntry

omit [Spectral α] in
/-- Builds a solid. -/
def build (s : SolidEntry α) (library : Library α) : Work (CaseError α) Unit α (Solid α) := do
  let material ← match s.material with
    | none => pure none
    | some name => match library.get? name with
      | some handle => pure (some handle.material)
      | none => throw (.unknownMaterial name)
  let solid : Solid α := ⟨material, s.thickness, s.designVar, s.lowerBound, s.upperBound⟩
  Work.noteAll solid.warnings
  return solid

end SolidEntry

/-- An element that is ready for its checks. -/
structure BuiltElement (α : Type) where
  name : String
  kind : String
  model : SolidModel α
  deriving Repr

namespace ElementEntry

omit [Spectral α] in
/-- The model of a kind of physics. -/
def modelOf (physics : Physics α) (solid : Solid α) : SolidModel α :=
  match physics with
  | .elasticity thermalLoad => .elasticity ⟨solid, thermalLoad⟩
  | .conduction => .conduction ⟨solid⟩

omit [Spectral α] in
/-- Builds the element at a position; one without a name is named for its position. -/
def build (e : ElementEntry α) (position : Nat) (library : Library α) :
    Work (CaseError α) Unit α (BuiltElement α) := do
  let solid ← e.solid.build library
  return ⟨e.name.getD s!"element_{position}", e.physics.kind, modelOf e.physics solid⟩

end ElementEntry

namespace Case

/-- Builds the materials of a case. -/
def buildLibrary (c : Case α) : Work (CaseError α) Unit α (Library α) := do
  let library ← c.materials.foldlM
    (fun library entry => do return (library.add (← entry.build)).2) Library.empty
  Work.note (.libraryBuilt c.name library.size)
  return library

omit [Spectral α] in
/-- Builds the elements of a case. -/
def buildElements (c : Case α) (library : Library α) :
    Work (CaseError α) Unit α (List (BuiltElement α)) :=
  c.elements.zipIdx.mapM fun (entry, position) => entry.build position library

omit [Scalar α] [Spectral α] in
/-- Looks up the quantities of a case. -/
def resolveQuantities (c : Case α) (registry : Registry) :
    Except (CaseError α) (List QuantityTag) :=
  c.quantities.mapM fun name =>
    match registry.lookup? name with
    | some tag => .ok tag
    | none => .error (.unknownQuantity name)

end Case

end WeakForm
