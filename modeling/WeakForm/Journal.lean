import WeakForm.Material.Basic

/-!
# The journal

What a run reports besides its result is a list of events, in the order in which they happened. An
event is data; its level and its wording are functions of it. Whoever works on a subject that
changes, such as a model whose design variables are shifted, works on the subject and the journal
together (`Tracked`), and both survive an error.
-/

namespace WeakForm

/-- How much an event matters. -/
inductive Level where
  | debug
  | info
  | warning
  deriving DecidableEq, Repr

namespace Level

/-- The name of a level. -/
def name : Level → String
  | .debug => "DEBUG"
  | .info => "INFO"
  | .warning => "WARN"

end Level

/-- What a run may report. -/
inductive Event (α : Type) where
  /-- A material was built. -/
  | materialAccepted (name : String) (symmetry : Symmetry) (density minEigenvalue : α)
  /-- A constitutive law was bound to no material. -/
  | materialMissing
  /-- A constitutive law starts with a thickness that is not positive. -/
  | thicknessNotPositive (thickness : α)
  /-- A constitutive law starts outside of its design bounds. -/
  | thicknessOutsideBounds (thickness lower upper : α)
  /-- A design variable was set to a value outside of its bounds. -/
  | designVarOutsideBounds (thickness lower upper : α) (designVar : Nat)
  /-- Two vectors were compared. -/
  | compared (name : String) (entries : Nat) (maxAbsError maxRelError : α) (passed : Bool)
  /-- An element does not know a quantity. -/
  | quantitySkipped (element quantity : String)
  /-- The checks of an element begin. -/
  | elementStarted (name kind : String)
  /-- The materials of a case were built. -/
  | libraryBuilt (caseName : String) (materials : Nat)
  /-- The checks of a case are over. -/
  | caseFinished (caseName : String) (failed checks : Nat)
  deriving DecidableEq, Repr

namespace Event

variable {α : Type}

/-- The level of an event. -/
def level : Event α → Level
  | .materialAccepted .. => .debug
  | .materialMissing => .warning
  | .thicknessNotPositive .. => .warning
  | .thicknessOutsideBounds .. => .warning
  | .designVarOutsideBounds .. => .debug
  | .compared .. => .info
  | .quantitySkipped .. => .debug
  | .elementStarted .. => .info
  | .libraryBuilt .. => .debug
  | .caseFinished .. => .info

/-- The wording of an event. -/
def message [DecimalScalar α] : Event α → String
  | .materialAccepted name symmetry density minEigenvalue =>
    let least := DecimalScalar.withExponent minEigenvalue
    let rho := DecimalScalar.plain density
    s!"material '{name}' ({symmetry.name}): density={rho}, min eigenvalue={least}"
  | .materialMissing => "solid constitutive created without material properties"
  | .thicknessNotPositive thickness =>
    "solid constitutive created with non-positive thickness " ++ DecimalScalar.plain thickness
  | .thicknessOutsideBounds thickness lower upper =>
    let t := DecimalScalar.plain thickness
    let lo := DecimalScalar.plain lower
    let hi := DecimalScalar.plain upper
    s!"solid constitutive thickness {t} outside [{lo}, {hi}]"
  | .designVarOutsideBounds thickness lower upper designVar =>
    let t := DecimalScalar.plain thickness
    let lo := DecimalScalar.plain lower
    let hi := DecimalScalar.plain upper
    s!"thickness {t} outside [{lo}, {hi}] for design variable Some({designVar})"
  | .compared name entries maxAbsError maxRelError passed =>
    let abs := DecimalScalar.tabular maxAbsError
    let rel := DecimalScalar.tabular maxRelError
    let verdict := if passed then "PASS" else "FAIL"
    s!"{name}: {entries} entries, max abs err {abs}, max rel err {rel} [{verdict}]"
  | .quantitySkipped element quantity => s!"{element}: skipping unsupported quantity {quantity}"
  | .elementStarted name kind => s!"verifying {name} ({kind})"
  | .libraryBuilt caseName materials => s!"case '{caseName}': {materials} materials"
  | .caseFinished caseName failed checks =>
    s!"case '{caseName}': {failed} of {checks} checks failed"

end Event

namespace Material

/-- What is reported when a material has been built. -/
def event {α : Type} [Spectral α] (m : Material α) : Event α :=
  .materialAccepted m.name m.symmetry m.density m.stiffness.minEigenvalue

end Material

/-- Something that is worked on, and what has been reported so far. -/
structure Tracked (σ α : Type) where
  subject : σ
  journal : List (Event α)
  deriving Repr

/-- Work on a subject that may fail with an error in `ε`. -/
abbrev Work (ε σ α β : Type) : Type := EStateM ε (Tracked σ α) β

namespace Work

variable {ε ε' σ τ α β : Type}

/-- Reports an event. -/
def note (event : Event α) : Work ε σ α Unit :=
  modify fun t => { t with journal := t.journal ++ [event] }

/-- Reports events in order. -/
def noteAll (events : List (Event α)) : Work ε σ α Unit :=
  modify fun t => { t with journal := t.journal ++ events }

/-- The subject as it is now. -/
def subject : Work ε σ α σ := do return (← get).subject

/-- Puts another subject in place of the one so far. -/
def assign (s : σ) : Work ε σ α Unit := modify fun t => { t with subject := s }

/-- Works on a part of the subject; what happens to the part happens to the whole, also when the
work on the part fails. -/
def onPart (part : σ → τ) (replace : τ → σ → σ) (work : Work ε τ α β) : Work ε σ α β := fun t =>
  match work ⟨part t.subject, t.journal⟩ with
  | .ok b t' => .ok b ⟨replace t'.subject t.subject, t'.journal⟩
  | .error e t' => .error e ⟨replace t'.subject t.subject, t'.journal⟩

/-- The same work with its errors seen as errors of another kind. -/
def mapError (f : ε → ε') (work : Work ε σ α β) : Work ε' σ α β := fun t =>
  match work t with
  | .ok b t' => .ok b t'
  | .error e t' => .error (f e) t'

end Work

end WeakForm
