import WeakForm.Journal

/-!
# Comparing two vectors

A derivative is checked by comparing two vectors that should agree. Errors are measured against
**the magnitude of the second vector as a whole**, so an entry that vanishes does not blow up. The
largest error is kept together with the place where it was met first. An undefined error is kept
only if no error was met before, and from then on no other error exceeds it; where it is not kept,
an error in front of it decides.
-/

namespace WeakForm

/-- The step of difference quotients, and the tolerances of comparisons. -/
structure CheckConfig (α : Type) where
  stepSize : α
  rtol : α
  atol : α
  deriving BEq, Repr

/-- The outcome of a comparison. -/
structure CheckResult (α : Type) where
  name : String
  /-- The length of the first vector. -/
  entries : Nat
  maxAbsError : α
  /-- The largest error divided by the magnitude of the second vector, unless that is zero. -/
  maxRelError : α
  /-- Where the largest error was met first; nowhere if the vectors agree. -/
  worstIndex : Option Nat
  passed : Bool
  deriving BEq, Repr

/-- The largest error so far, and where it was met first. -/
structure Deviation (α : Type) where
  error : α
  index : Option Nat
  deriving DecidableEq, Repr

variable {α : Type} [Scalar α]

/-- A step of `10⁻⁶`, a relative tolerance of `10⁻⁵` and an absolute one of `10⁻⁸`. -/
def CheckConfig.standard : CheckConfig α := ⟨1e-6, 1e-5, 1e-8⟩

namespace Deviation

/-- No error so far. -/
def zero : Deviation α := ⟨0, none⟩

/-- Meets the error at an index. -/
def meet (d : Deviation α) (error : α) (index : Nat) : Deviation α :=
  if d.error < error ∨ (Scalar.isUndefined error ∧ d.index = none) then ⟨error, some index⟩ else d

/-- The largest of a list of errors. -/
def ofErrors (errors : List α) : Deviation α :=
  errors.zipIdx.foldl (fun d (error, index) => d.meet error index) zero

/-- Errors are met from the first to the last. -/
theorem ofErrors_append_singleton (errors : List α) (error : α) :
    ofErrors (errors ++ [error]) = (ofErrors errors).meet error errors.length := by
  simp [ofErrors, List.zipIdx_append]

end Deviation

namespace CheckResult

/-- The largest magnitude of an entry, an undefined entry being passed over. -/
def magnitude (values : List α) : α :=
  values.foldl (fun largest value => Scalar.maximum largest (Scalar.abs value)) 0

/-- The errors of the entries that both vectors have. -/
def errors (analytic differences : List α) : List α :=
  List.zipWith (fun a f => Scalar.abs (a - f)) analytic differences

/-- **Compares a vector with difference quotients.** It passes if the lengths agree and the largest
error is at most `atol + rtol · m`, where `m` is the magnitude of the quotients. -/
def compare (name : String) (analytic differences : List α) (config : CheckConfig α) :
    CheckResult α :=
  let scale := magnitude differences
  let worst := Deviation.ofErrors (errors analytic differences)
  { name
    entries := analytic.length
    maxAbsError := worst.error
    maxRelError := if 0 < scale then worst.error / scale else worst.error
    worstIndex := worst.index
    passed := analytic.length = differences.length ∧
      worst.error ≤ config.atol + config.rtol * scale }

/-- The comparison of nothing with nothing. -/
def empty (name : String) : CheckResult α := compare name [] [] .standard

omit [Scalar α] in
/-- What is reported of a comparison. -/
def event (r : CheckResult α) : Event α :=
  .compared r.name r.entries r.maxAbsError r.maxRelError r.passed

end CheckResult

end WeakForm
