import WeakForm.Error
import WeakForm.Matrix3
import WeakForm.Stiffness.Spectrum

/-!
# Materials

A material is built by one of three constructors, which differ in the constants that they take and
agree in the end: from the constants comes a stiffness, and `ofStiffness?` accepts it together with
the density and the yield stress. **Every test is written as the refusal of a bad value**, so an
undefined number, which fails every comparison, is refused by none of them.

Thermal strain, specific heat and conduction start as zero and are set afterwards.
-/

namespace WeakForm

/-- The symmetry class that a stiffness was built from. -/
inductive Symmetry where
  | isotropic
  | orthotropic
  | anisotropic
  deriving DecidableEq, Repr

namespace Symmetry

/-- The name of a class. -/
def name : Symmetry → String
  | .isotropic => "Isotropic"
  | .orthotropic => "Orthotropic"
  | .anisotropic => "Anisotropic"

end Symmetry

/-- A symmetric 2×2 conduction tensor. -/
structure Conduction (α : Type) where
  k11 : α
  k12 : α
  k22 : α
  deriving BEq, Repr

namespace Conduction

variable {α : Type}

/-- The three entries in order. -/
def toVector (k : Conduction α) : Vector α 3 := #v[k.k11, k.k12, k.k22]

/-- The tensor with three entries in order. -/
def ofVector (v : Vector α 3) : Conduction α := ⟨v[0], v[1], v[2]⟩

@[simp] theorem ofVector_toVector (k : Conduction α) : ofVector k.toVector = k := rfl

variable [Scalar α]

/-- No conduction. -/
def zero : Conduction α := ⟨0, 0, 0⟩

/-- The tensor times a gradient. -/
def mulVec (k : Conduction α) (g : Vector α 2) : Vector α 2 :=
  #v[k.k11 * g[0] + k.k12 * g[1], k.k12 * g[0] + k.k22 * g[1]]

/-- The inner product of a flux with a gradient. -/
def pairing (flux g : Vector α 2) : α := flux[0] * g[0] + flux[1] * g[1]

/-- Every entry, multiplied from the left by a factor. -/
def scale (factor : α) (k : Conduction α) : Conduction α :=
  ⟨factor * k.k11, factor * k.k12, factor * k.k22⟩

end Conduction

/-- The properties of a material. -/
structure Material (α : Type) where
  name : String
  /-- The class that the stiffness was built from. -/
  symmetry : Symmetry
  /-- Mass per unit volume. -/
  density : α
  /-- Heat per unit mass and unit temperature. -/
  specificHeat : α
  /-- The equivalent stress at which the failure index is one. -/
  yieldStress : α
  stiffness : Stiffness α
  /-- The strain of a unit change of temperature. -/
  thermalStrain : Voigt α
  conduction : Conduction α
  deriving BEq, Repr

/-- The engineering constants of an orthotropic material in its own axes. -/
structure EngineeringConstants (α : Type) where
  e1 : α
  e2 : α
  e3 : α
  nu12 : α
  nu13 : α
  nu23 : α
  g23 : α
  g13 : α
  g12 : α
  deriving BEq, Repr

namespace EngineeringConstants

variable {α : Type} [Scalar α]

/-- The strains of unit normal stresses. -/
def compliance (p : EngineeringConstants α) : Matrix3 α where
  m11 := 1 / p.e1
  m12 := -p.nu12 / p.e1
  m13 := -p.nu13 / p.e1
  m21 := -p.nu12 / p.e1
  m22 := 1 / p.e2
  m23 := -p.nu23 / p.e2
  m31 := -p.nu13 / p.e1
  m32 := -p.nu23 / p.e2
  m33 := 1 / p.e3

/-- Whether some modulus is zero or below. -/
def hasNonPositiveModulus (p : EngineeringConstants α) : Bool :=
  p.e1 ≤ 0 ∨ p.e2 ≤ 0 ∨ p.e3 ≤ 0 ∨ p.g23 ≤ 0 ∨ p.g13 ≤ 0 ∨ p.g12 ≤ 0

/-- The stiffness with the given block of normal components; each shear modulus acts on its own
shear strain alone. -/
def stiffness (p : EngineeringConstants α) (normal : Matrix3 α) : Stiffness α :=
  ⟨#v[normal.m11, normal.m12, normal.m13, 0, 0, 0,
    normal.m22, normal.m23, 0, 0, 0,
    normal.m33, 0, 0, 0,
    p.g23, 0, 0,
    p.g13, 0,
    p.g12]⟩

end EngineeringConstants

namespace Material

variable {α : Type} [Scalar α]

section Build

variable [Spectral α]

/-- **The common end of all constructors.** It refuses a negative density, a yield stress that is
not positive, and a stiffness whose least eigenvalue is clearly below zero, in this order. -/
def ofStiffness? (name : String) (symmetry : Symmetry) (density yieldStress : α)
    (stiffness : Stiffness α) : Except (ModelError α) (Material α) :=
  if density < 0 then .error (.invalidMaterial name (.negativeDensity density))
  else if yieldStress ≤ 0 then .error (.invalidMaterial name (.yieldNotPositive yieldStress))
  else if stiffness.minEigenvalue < -1e-12 * stiffness.magnitude then
    .error (.invalidMaterial name (.indefinite stiffness.minEigenvalue))
  else .ok {
    name, symmetry, density, yieldStress, stiffness
    specificHeat := 0
    thermalStrain := Vector.replicate 6 0
    conduction := .zero }

/-- The stiffness of Young's modulus `E` and Poisson's ratio `ν`: `E(1-ν)/((1+ν)(1-2ν))` on the
diagonal of the normal block, `Eν/((1+ν)(1-2ν))` beside it, and `E/(2(1+ν))` for the shears. -/
def isotropicStiffness (young poisson : α) : Stiffness α :=
  let factor := young / ((1 + poisson) * (1 - ((2 : Nat) : α) * poisson))
  let same := factor * (1 - poisson)
  let cross := factor * poisson
  let shear := young / (((2 : Nat) : α) * (1 + poisson))
  ⟨#v[same, cross, cross, 0, 0, 0,
    same, cross, 0, 0, 0,
    same, 0, 0, 0,
    shear, 0, 0,
    shear, 0,
    shear]⟩

/-- A material with the same stiffness in all directions. -/
def isotropic? (name : String) (density young poisson yieldStress : α) :
    Except (ModelError α) (Material α) :=
  if young ≤ 0 then .error (.invalidMaterial name (.youngNotPositive young))
  else if poisson ≤ -1 ∨ 0.5 ≤ poisson then
    .error (.invalidMaterial name (.poissonOutOfRange poisson))
  else ofStiffness? name .isotropic density yieldStress (isotropicStiffness young poisson)

/-- A material with three axes of its own: the normal block of its stiffness is the inverse of the
compliance. -/
def orthotropic? (name : String) (density : α) (constants : EngineeringConstants α)
    (yieldStress : α) : Except (ModelError α) (Material α) :=
  if constants.hasNonPositiveModulus then .error (.invalidMaterial name .modulusNotPositive)
  else match constants.compliance.inverse? with
    | none => .error (.invalidMaterial name .singularCompliance)
    | some normal =>
      ofStiffness? name .orthotropic density yieldStress (constants.stiffness normal)

/-- A material with the given stiffness. -/
def anisotropic? (name : String) (density : α) (stiffness : Stiffness α) (yieldStress : α) :
    Except (ModelError α) (Material α) :=
  ofStiffness? name .anisotropic density yieldStress stiffness

end Build

/-- The material with a specific heat. -/
def withSpecificHeat (m : Material α) (specificHeat : α) : Material α := { m with specificHeat }

/-- The material with a thermal strain. -/
def withThermalStrain (m : Material α) (thermalStrain : Voigt α) : Material α :=
  { m with thermalStrain }

/-- The material that expands by the same amount in all directions. -/
def withThermalExpansion (m : Material α) (expansion : α) : Material α :=
  m.withThermalStrain #v[expansion, expansion, expansion, 0, 0, 0]

/-- The material with a conduction tensor. -/
def withConduction (m : Material α) (conduction : Conduction α) : Material α :=
  { m with conduction }

/-- The material that conducts by the same amount in all directions. -/
def withConductivity (m : Material α) (conductivity : α) : Material α :=
  m.withConduction ⟨conductivity, 0, conductivity⟩

/-! ## Failure -/

/-- The square of the von Mises equivalent stress. -/
def equivalentStressSquared (s : Voigt α) : α :=
  (0.5 : α)
    * (Scalar.square (s.xx - s.yy) + Scalar.square (s.xx - s.zz) + Scalar.square (s.yy - s.zz))
    + ((3 : Nat) : α) * (s.yz * s.yz + s.xz * s.xz + s.xy * s.xy)

/-- The failure index of a stress: its equivalent stress over the yield stress. -/
def failure (m : Material α) (s : Voigt α) : α :=
  Scalar.sqrt (equivalentStressSquared s) / m.yieldStress

/-- The gradient of the failure index at a stress. **Where the index is zero it has no gradient, and
zero stands for it**, so no division is by zero. -/
def failureGradient (m : Material α) (s : Voigt α) : Voigt α :=
  let index := m.failure s
  if index == 0 then Vector.replicate 6 0
  else
    let two : α := ((2 : Nat) : α)
    let six : α := ((6 : Nat) : α)
    let factor := 1 / (two * m.yieldStress * m.yieldStress * index)
    #v[factor * (two * s.xx - s.yy - s.zz),
      factor * (two * s.yy - s.xx - s.zz),
      factor * (two * s.zz - s.xx - s.yy),
      factor * six * s.yz,
      factor * six * s.xz,
      factor * six * s.xy]

/-- The failure index with its gradient. An index that equals zero is returned as zero. -/
def failureWithGradient (m : Material α) (s : Voigt α) : α × Voigt α :=
  let index := m.failure s
  if index == 0 then (0, Vector.replicate 6 0) else (index, m.failureGradient s)

end Material

end WeakForm
