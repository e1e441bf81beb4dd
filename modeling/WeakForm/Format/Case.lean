import WeakForm.Case.Basic
import WeakForm.Format.Basic
import WeakForm.Format.Check

/-!
# File forms of cases

The physics of an element and the elastic constants of a material are *tagged*: their kind is a
field like the others and selects what the others are. In a material the constants are not a record
of their own but fields of the material, so **whatever is no field of the material belongs to its
constants**; such a record can only be an object, and there a kind may also be given by its
position.

Each reader is told how many brackets are open around the value, because tagged records are stored
before they are read.
-/

namespace WeakForm

open Json

variable {α : Type} [DecimalScalar α]

namespace Symmetry

/-- The name of a class as a kind of elastic constants. -/
def kind : Symmetry → String
  | .isotropic => "isotropic"
  | .orthotropic => "orthotropic"
  | .anisotropic => "anisotropic"

/-- The class of a kind of elastic constants. -/
def ofKind? : String → Option Symmetry
  | "isotropic" => some .isotropic
  | "orthotropic" => some .orthotropic
  | "anisotropic" => some .anisotropic
  | _ => none

/-- The class at a position among the kinds. -/
def ofPosition? : Nat → Option Symmetry
  | 0 => some .isotropic
  | 1 => some .orthotropic
  | 2 => some .anisotropic
  | _ => none

/-- The class with a name. -/
def ofName? : String → Option Symmetry
  | "Isotropic" => some .isotropic
  | "Orthotropic" => some .orthotropic
  | "Anisotropic" => some .anisotropic
  | _ => none

/-- The written form of a class on its own. -/
def toJson (s : Symmetry) : Json := .ofString s.name

/-- Reads a class on its own. -/
def ofJson? (value : Json) : Option Symmetry := (name? value).bind ofName?

/-- Reads a kind of elastic constants, given by its name. -/
def kindOfName? (value : Json) : Option Symmetry := (text? value).bind ofKind?

/-- Reads a kind of elastic constants, given by its name or its position. -/
def kindOfNameOrPosition? (value : Json) : Option Symmetry :=
  match value with
  | .number _ => (index? value).bind ofPosition?
  | _ => kindOfName? value

@[simp] theorem ofKind?_kind (s : Symmetry) : ofKind? s.kind = some s := by cases s <;> rfl

@[simp] theorem ofName?_name (s : Symmetry) : ofName? s.name = some s := by cases s <;> rfl

end Symmetry

namespace EngineeringConstants

/-- The members of the written form. -/
def members (p : EngineeringConstants α) : List (String × Json) :=
  [("e1", .ofScalar p.e1), ("e2", .ofScalar p.e2), ("e3", .ofScalar p.e3),
    ("nu12", .ofScalar p.nu12), ("nu13", .ofScalar p.nu13), ("nu23", .ofScalar p.nu23),
    ("g23", .ofScalar p.g23), ("g13", .ofScalar p.g13), ("g12", .ofScalar p.g12)]

/-- Reads engineering constants. -/
def ofJson? (value : Json) : Option (EngineeringConstants α) := do
  let fields := ["e1", "e2", "e3", "nu12", "nu13", "nu23", "g23", "g13", "g12"]
  match ← slots? fields value with
  | [e1, e2, e3, nu12, nu13, nu23, g23, g13, g12] =>
    return {
      e1 := ← required scalar? e1
      e2 := ← required scalar? e2
      e3 := ← required scalar? e3
      nu12 := ← required scalar? nu12
      nu13 := ← required scalar? nu13
      nu23 := ← required scalar? nu23
      g23 := ← required scalar? g23
      g13 := ← required scalar? g13
      g12 := ← required scalar? g12 }
  | _ => none

end EngineeringConstants

namespace ElasticConstants

/-- The members of the written form, the kind first. -/
def members : ElasticConstants α → List (String × Json)
  | .isotropic young poisson =>
    [("kind", .ofString Symmetry.isotropic.kind), ("young", .ofScalar young),
      ("poisson", .ofScalar poisson)]
  | .orthotropic constants => ("kind", .ofString Symmetry.orthotropic.kind) :: constants.members
  | .anisotropic stiffness =>
    [("kind", .ofString Symmetry.anisotropic.kind), ("stiffness", stiffness.toJson)]

/-- The written form of elastic constants on their own. -/
def toJson (constants : ElasticConstants α) : Json := .record constants.members

/-- Reads the constants of a class from the fields beside its kind. -/
def ofFields? (symmetry : Symmetry) (fields : Json) : Option (ElasticConstants α) :=
  match symmetry with
  | .isotropic => do
    match ← slots? ["young", "poisson"] fields with
    | [young, poisson] =>
      return .isotropic (← required scalar? young) (← required scalar? poisson)
    | _ => none
  | .orthotropic => (EngineeringConstants.ofJson? fields).map .orthotropic
  | .anisotropic => do
    match ← slots? ["stiffness"] fields with
    | [stiffness] => return .anisotropic (← required Stiffness.ofJson? stiffness)
    | _ => none

/-- Reads elastic constants on their own. -/
def ofJson? (around : Nat) (value : Json) : Option (ElasticConstants α) := do
  let (kind, fields) ← tagged? α (around + 1) "kind" value
  ofFields? (← Symmetry.kindOfName? kind) fields

end ElasticConstants

namespace MaterialEntry

/-- The fields of a material that are not elastic constants. -/
def fields : List String :=
  ["name", "density", "yield_stress", "specific_heat", "thermal_expansion", "thermal_strain",
    "conductivity", "conduction_2d"]

/-- The written form of a material. -/
def toJson (m : MaterialEntry α) : Json :=
  .record ([("name", .ofString m.name), ("density", .ofScalar m.density),
      ("yield_stress", .ofScalar m.yieldStress)]
    ++ m.constants.members
    ++ [("specific_heat", .ofScalar m.specificHeat)]
    ++ memberIf "thermal_expansion" .ofScalar m.thermalExpansion
    ++ memberIf "thermal_strain" .ofScalarVector m.thermalStrain
    ++ memberIf "conductivity" .ofScalar m.conductivity
    ++ memberIf "conduction_2d" .ofScalarVector m.conduction)

/-- Whether a member is one of the fields. -/
def isField (member : Option String × Json) : Bool :=
  match member.1 with
  | some name => fields.contains name
  | none => false

/-- Reads a material. -/
def ofJson? [Zero α] (around : Nat) (value : Json) : Option (MaterialEntry α) := do
  let .object members := value | none
  let (kind, rest) ← tagged? α (around + 1) "kind" (.object (members.filter (!isField ·)))
  let constants ← ElasticConstants.ofFields? (← Symmetry.kindOfNameOrPosition? kind) rest
  match ← slots? fields (.object members) with
  | [name, density, yieldStress, specificHeat, expansion, strain, conductivity, conduction] =>
    return {
      name := ← required text? name
      density := ← required scalar? density
      yieldStress := ← required scalar? yieldStress
      constants
      specificHeat := ← orElse scalar? 0 specificHeat
      thermalExpansion := ← optional scalar? expansion
      thermalStrain := ← optional (vector? 6 scalar?) strain
      conductivity := ← optional scalar? conductivity
      conduction := ← optional (vector? 3 scalar?) conduction }
  | _ => none

end MaterialEntry

namespace SolidEntry

/-- The written form of a solid. -/
def toJson (s : SolidEntry α) : Json :=
  .record (memberIf "material" .ofString s.material
    ++ [("thickness", .ofScalar s.thickness)]
    ++ memberIf "design_var" .ofNat s.designVar
    ++ memberIf "lower" .ofScalar s.lower
    ++ memberIf "upper" .ofScalar s.upper)

/-- Reads a solid. -/
def ofJson? [One α] (value : Json) : Option (SolidEntry α) := do
  match ← slots? ["material", "thickness", "design_var", "lower", "upper"] value with
  | [material, thickness, designVar, lower, upper] =>
    return {
      material := ← optional text? material
      thickness := ← orElse scalar? 1 thickness
      designVar := ← optional index? designVar
      lower := ← optional scalar? lower
      upper := ← optional scalar? upper }
  | _ => none

end SolidEntry

namespace Physics

/-- The written form of a kind of physics. -/
def toJson (p : Physics α) : Json :=
  .record (("kind", .ofString p.kind) :: match p with
    | .elasticity thermalLoad => [("thermal_load", .ofScalar thermalLoad)]
    | .conduction => [])

/-- Reads a kind of physics. -/
def ofJson? [Zero α] (around : Nat) (value : Json) : Option (Physics α) := do
  let (kind, fields) ← tagged? α (around + 1) "kind" value
  match ← text? kind with
  | "linear_elasticity_3d" =>
    match ← slots? ["thermal_load"] fields with
    | [thermalLoad] => return .elasticity (← orElse scalar? 0 thermalLoad)
    | _ => none
  | "heat_conduction_2d" =>
    let _ ← slots? [] fields
    return .conduction
  | _ => none

end Physics

namespace ElementEntry

/-- The written form of an element. -/
def toJson (e : ElementEntry α) : Json :=
  .record (memberIf "name" .ofString e.name
    ++ [("model", e.physics.toJson), ("constitutive", e.solid.toJson)])

/-- Reads an element. -/
def ofJson? [Zero α] [One α] (around : Nat) (value : Json) : Option (ElementEntry α) := do
  match ← slots? ["name", "model", "constitutive"] value with
  | [name, physics, solid] =>
    return {
      name := ← optional text? name
      physics := ← required (Physics.ofJson? (around + 1)) physics
      solid := ← required SolidEntry.ofJson? solid }
  | _ => none

end ElementEntry

namespace Case

/-- The written form of a case. -/
def toJson (c : Case α) : Json :=
  .record [
    ("schema_version", .ofNat c.schemaVersion),
    ("name", .ofString c.name),
    ("materials", .ofList MaterialEntry.toJson c.materials),
    ("elements", .ofList ElementEntry.toJson c.elements),
    ("verification", c.verification.toJson),
    ("quantities", .ofList .ofString c.quantities)]

/-- Reads a case. Two brackets are open around each material and each element. -/
def ofJson? [Scalar α] (value : Json) : Option (Case α) := do
  let fields := ["schema_version", "name", "materials", "elements", "verification", "quantities"]
  match ← slots? fields value with
  | [schemaVersion, name, materials, elements, verification, quantities] =>
    return {
      schemaVersion := ← required word32? schemaVersion
      name := ← required text? name
      materials := ← required (list? (MaterialEntry.ofJson? 2)) materials
      elements := ← required (list? (ElementEntry.ofJson? 2)) elements
      verification := ← orElse CheckConfig.ofJson? .standard verification
      quantities := ← orElse (list? text?) [] quantities }
  | _ => none

end Case

end WeakForm
