import WeakForm.Check.Result
import WeakForm.Evaluation

/-!
# Central difference quotients

An argument is shifted up and down by a step, and the difference of the two answers is divided by
twice the step. A vector of arguments is shifted entry by entry, each entry taking its old value
back before the next one is shifted. Where the argument is a design variable of a subject, it is
shifted by setting the design variables of the subject; **the old values are set again before the
answer is looked at**, so that an error in the answer finds the subject as it was.
-/

namespace WeakForm

variable {ε σ α β : Type} [Scalar α]

/-- The central difference quotient of two answers. -/
def differenceQuotient (step plus minus : α) : α := (plus - minus) / (((2 : Nat) : α) * step)

/-- The quotients of a function along each entry of an array. The upper answer is asked for
first. -/
def differencesAlong (step : α) (values : Array α) (ask : Array α → Except ε α) :
    Except ε (List α) :=
  (List.finRange values.size).mapM fun i : Fin values.size => do
    let plus ← ask (values.set i (values[i] + step))
    let minus ← ask (values.set i (values[i] - step))
    return differenceQuotient step plus minus

/-- The columns of quotients of a vector-valued function along each entry of an array. -/
def columnsAlong (quotient : α → α → α) (step : α) (values : Array α)
    (ask : Array α → Except ε (List α)) : Except ε (List (List α)) :=
  (List.finRange values.size).mapM fun i : Fin values.size => do
    let plus ← ask (values.set i (values[i] + step))
    let minus ← ask (values.set i (values[i] - step))
    return List.zipWith quotient plus minus

/-- The entries of `n` rows, row by row, of a matrix that is given by its columns. -/
def rowMajor (n : Nat) (columns : List (List α)) : List α :=
  (List.range n).flatMap fun row => columns.map fun column => column.getD row 0

namespace Work

/-- Asks a subject about itself while one of its design variables is shifted. -/
def shifted (setDesignVars : Array α → Work ε σ α Unit) (base : Array α) (i : Nat) (delta : α)
    (ask : σ → Except ε β) : Work ε σ α β := do
  setDesignVars (base.modify i (· + delta))
  let answer := ask (← Work.subject)
  setDesignVars base
  return ← answer

/-- The quotients of a question along each design variable of a subject. -/
def designDifferences (setDesignVars : Array α → Work ε σ α Unit) (base : Array α) (step : α)
    (ask : σ → Except ε α) : Work ε σ α (List α) :=
  (List.range base.size).mapM fun i => do
    let plus ← shifted setDesignVars base i step ask
    let minus ← shifted setDesignVars base i (-step) ask
    return differenceQuotient step plus minus

omit [Scalar α] in
/-- Reports a comparison. -/
def reported (result : CheckResult α) : Work ε σ α (CheckResult α) := do
  Work.note result.event
  return result

end Work

end WeakForm
