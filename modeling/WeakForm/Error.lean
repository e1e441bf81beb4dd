import WeakForm.Decimal.Basic
import WeakForm.Quantity.Basic

/-!
# What can go wrong in a model

An error is its cause, with the sizes and numbers that show it; the wording is a function of the
cause (`ModelError.message`). A missing material is no error: it evaluates to zero.
-/

namespace WeakForm

/-- Why the constants of a material are refused. -/
inductive MaterialFault (α : Type) where
  | youngNotPositive (young : α)
  | poissonOutOfRange (poisson : α)
  | modulusNotPositive
  | singularCompliance
  | negativeDensity (density : α)
  | yieldNotPositive (yieldStress : α)
  | indefinite (minEigenvalue : α)
  deriving DecidableEq, Repr

namespace MaterialFault

variable {α : Type} [DecimalScalar α]

/-- The wording of a fault. -/
def message : MaterialFault α → String
  | .youngNotPositive young => "Young's modulus must be positive, got " ++ DecimalScalar.plain young
  | .poissonOutOfRange poisson =>
    "Poisson's ratio must lie in (-1, 0.5), got " ++ DecimalScalar.plain poisson
  | .modulusNotPositive => "moduli must be positive"
  | .singularCompliance => "singular orthotropic compliance"
  | .negativeDensity density => "density must be non-negative, got " ++ DecimalScalar.plain density
  | .yieldNotPositive yieldStress =>
    "yield stress must be positive, got " ++ DecimalScalar.plain yieldStress
  | .indefinite minEigenvalue =>
    "stiffness is not positive semi-definite (min eigenvalue "
      ++ DecimalScalar.withExponent minEigenvalue ++ ")"

end MaterialFault

/-- What is wrong with the length of an array or buffer. -/
inductive LengthFault where
  /-- An array has to have exactly the expected length. -/
  | mismatch (what : String) (expected actual : Nat)
  /-- A buffer has to hold at least the required number of values. -/
  | tooShort (what : String) (required actual : Nat)
  deriving DecidableEq, Repr

namespace LengthFault

/-- The wording of a fault. -/
def message : LengthFault → String
  | .mismatch what expected actual => s!"{what}: expected length {expected}, got {actual}"
  | .tooShort what required actual =>
    s!"{what}: buffer holds {actual} values, at least {required} required"

end LengthFault

/-- Why an evaluation, a check or a constructor refuses its arguments. -/
inductive ModelError (α : Type) where
  | length (fault : LengthFault)
  | invalidDimensions (spatialDim varsPerNode : Nat)
  | unsupportedQuantity (tag : QuantityTag)
  /-- A tag or a name is taken; the message shows the tag that holds it. -/
  | quantityCollision (tag : QuantityTag) (existing : String)
  | jacobianMismatch (pairs values : Nat)
  | jacobianIndexOutOfRange (row col size : Nat)
  | invalidMaterial (name : String) (fault : MaterialFault α)
  deriving DecidableEq, Repr

namespace ModelError

variable {α : Type} [DecimalScalar α]

/-- The wording of an error. -/
def message : ModelError α → String
  | .length fault => fault.message
  | .invalidDimensions spatialDim varsPerNode =>
    s!"invalid model dimensions: spatial_dim={spatialDim}, vars_per_node={varsPerNode}"
  | .unsupportedQuantity tag => s!"unsupported point quantity: {tag.label}"
  | .quantityCollision tag existing =>
    s!"quantity tag {tag.label} already registered as '{existing}'"
  | .jacobianMismatch pairs values =>
    s!"Jacobian pattern has {pairs} entries but {values} values were supplied"
  | .jacobianIndexOutOfRange row col size =>
    s!"Jacobian entry ({row}, {col}) lies outside the {size}x{size} block"
  | .invalidMaterial name fault => s!"invalid material: {name}: {fault.message}"

end ModelError

end WeakForm
