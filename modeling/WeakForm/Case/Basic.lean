import WeakForm.Check.Result
import WeakForm.Material.Basic

/-!
# Cases

A case says what is to be verified: materials, the elements that are made of them, the step and the
tolerances of the checks, and the quantities by name. **A case is only a description**: nothing in
it has been looked up or accepted yet.
-/

namespace WeakForm

/-- The elastic constants of a material, by its symmetry class. -/
inductive ElasticConstants (α : Type) where
  | isotropic (young poisson : α)
  | orthotropic (constants : EngineeringConstants α)
  | anisotropic (stiffness : Stiffness α)
  deriving BEq, Repr

/-- The description of a material. -/
structure MaterialEntry (α : Type) where
  name : String
  density : α
  yieldStress : α
  constants : ElasticConstants α
  specificHeat : α
  /-- The same expansion in all directions. -/
  thermalExpansion : Option α
  /-- The strain of a unit change of temperature; it goes before `thermalExpansion`. -/
  thermalStrain : Option (Vector α 6)
  /-- The same conductivity in all directions. -/
  conductivity : Option α
  /-- The conduction tensor; it goes before `conductivity`. -/
  conduction : Option (Vector α 3)
  deriving BEq, Repr

/-- The description of a solid. -/
structure SolidEntry (α : Type) where
  /-- The name of the material; without one the solid has none. -/
  material : Option String
  thickness : α
  designVar : Option Nat
  /-- The lower bound, which is the thickness if there is none here. -/
  lower : Option α
  /-- The upper bound, which is the thickness if there is none here. -/
  upper : Option α
  deriving BEq, Repr

/-- The physics of an element. -/
inductive Physics (α : Type) where
  | elasticity (thermalLoad : α)
  | conduction
  deriving BEq, Repr

/-- The description of an element. -/
structure ElementEntry (α : Type) where
  name : Option String
  physics : Physics α
  solid : SolidEntry α
  deriving BEq, Repr

/-- The description of what is to be verified. -/
structure Case (α : Type) where
  schemaVersion : Nat
  name : String
  materials : List (MaterialEntry α)
  elements : List (ElementEntry α)
  verification : CheckConfig α
  /-- The names of the quantities that are checked on each element that knows them. -/
  quantities : List String
  deriving BEq, Repr

/-- The version of the description that is understood. -/
def Case.supportedVersion : Nat := 1

/-- The name of a kind of physics. -/
def Physics.kind {α : Type} : Physics α → String
  | .elasticity _ => "linear_elasticity_3d"
  | .conduction => "heat_conduction_2d"

namespace SolidEntry

variable {α : Type}

/-- The lower bound that the solid has. -/
def lowerBound (s : SolidEntry α) : α := s.lower.getD s.thickness

/-- The upper bound that the solid has. -/
def upperBound (s : SolidEntry α) : α := s.upper.getD s.thickness

end SolidEntry

namespace Case

variable {α : Type} [Scalar α]

/-- A case to start from, with one element of each kind. -/
def template : Case α where
  schemaVersion := supportedVersion
  name := "aluminium_block"
  materials := [{
    name := "al"
    density := ((2700 : Nat) : α)
    yieldStress := 270e6
    constants := .isotropic 70e9 0.3
    specificHeat := ((921 : Nat) : α)
    thermalExpansion := some 23e-6
    thermalStrain := none
    conductivity := some ((230 : Nat) : α)
    conduction := none }]
  elements := [
    { name := some "block"
      physics := .elasticity 0
      solid := {
        material := some "al"
        thickness := 1
        designVar := some 0
        lower := some 0.1
        upper := some ((10 : Nat) : α) } },
    { name := some "plate"
      physics := .conduction
      solid := {
        material := some "al"
        thickness := 0.01
        designVar := some 1
        lower := some 0.001
        upper := some 0.1 } }]
  verification := .standard
  quantities :=
    ["failure_index", "density", "strain_energy_density", "temperature", "heat_flux"]

end Case

end WeakForm
