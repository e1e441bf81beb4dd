import WeakForm.Error

/-!
# What can go wrong with a case

The stages of a verification have errors of their own: a file may not be there, may not be a case,
may be a case that makes no sense, or may name what does not exist; everything else is an error of
a model.
-/

namespace WeakForm

/-- Why a case makes no sense. -/
inductive CaseFault (α : Type) where
  | unsupportedVersion (version supported : Nat)
  | duplicateMaterial (name : String)
  | thicknessNotPositive (element : Nat) (thickness : α)
  | boundsReversed (element : Nat) (lower upper : α)
  | thicknessOutsideBounds (element : Nat) (thickness lower upper : α)
  | configNotPositive
  deriving DecidableEq, Repr

namespace CaseFault

variable {α : Type} [DecimalScalar α]

/-- The wording of a fault. -/
def message : CaseFault α → String
  | .unsupportedVersion version supported =>
    s!"unsupported schema_version {version} (expected {supported})"
  | .duplicateMaterial name => s!"material '{name}' defined twice"
  | .thicknessNotPositive element thickness =>
    let t := DecimalScalar.plain thickness
    s!"element {element}: thickness must be positive, got {t}"
  | .boundsReversed element lower upper =>
    let lo := DecimalScalar.plain lower
    let hi := DecimalScalar.plain upper
    s!"element {element}: lower bound {lo} exceeds upper bound {hi}"
  | .thicknessOutsideBounds element thickness lower upper =>
    let t := DecimalScalar.plain thickness
    let lo := DecimalScalar.plain lower
    let hi := DecimalScalar.plain upper
    s!"element {element}: thickness {t} outside bounds [{lo}, {hi}]"
  | .configNotPositive => "verification step and tolerances must be positive"

end CaseFault

/-- Why a case cannot be read, written or verified. -/
inductive CaseError (α : Type) where
  /-- A file cannot be read or written. -/
  | file (reason : String)
  /-- The content of a file is not what it should be. -/
  | content (reason : String)
  | model (error : ModelError α)
  | invalid (fault : CaseFault α)
  | unknownMaterial (name : String)
  | unknownQuantity (name : String)
  deriving DecidableEq, Repr

namespace CaseError

variable {α : Type} [DecimalScalar α]

/-- The wording of an error. -/
def message : CaseError α → String
  | .file reason => "I/O error: " ++ reason
  | .content reason => "JSON error: " ++ reason
  | .model error => "Model error: " ++ error.message
  | .invalid fault => "Invalid case: " ++ fault.message
  | .unknownMaterial name => s!"Unknown material '{name}'"
  | .unknownQuantity name => s!"Unknown quantity '{name}'"

end CaseError

end WeakForm
