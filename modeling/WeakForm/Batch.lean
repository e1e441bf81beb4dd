import WeakForm.Check.Element

/-!
# Many points at once

A model is asked about a list of samples, each a point with the weight that integration gives it.
Where the answers are lists, they come in the order of the samples; where they are summed, the sum
may be formed in pieces. **How the samples are cut into pieces is a value** (`Split`): a tree whose
leaves are runs of samples, each summed from zero, and whose joins add up entry by entry. The sum
of one piece is the sum in the order of the samples.
-/

namespace WeakForm

/-- A point and its weight in an integral. -/
structure Sample (α : Type) where
  point : Point α
  weight : α
  deriving Repr

/-- A sample with the adjoint at its point. -/
structure AdjointSample (α : Type) where
  sample : Sample α
  psi : Array α
  psix : Array α
  deriving Repr

/-- A way to cut a list into pieces, and to join the results of the pieces. -/
inductive Split (β : Type) where
  /-- No item at all. -/
  | idle
  /-- Consecutive items. -/
  | piece (items : List β)
  | join (left right : Split β)
  deriving Repr

/-- The items of all pieces in order. -/
def Split.items {β : Type} : Split β → List β
  | .idle => []
  | .piece items => items
  | .join left right => left.items ++ right.items

/-- A list cut in two halves. -/
def Split.halves {β : Type} (items : List β) : Split β :=
  .join (.piece (items.take (items.length / 2))) (.piece (items.drop (items.length / 2)))

@[simp] theorem Split.items_halves {β : Type} (items : List β) : (halves items).items = items := by
  simp [halves, Split.items]

variable {α M : Type} [Scalar α] [ElementModel M α]

open ElementModel

/-- The coefficients at every sample. -/
def coefficientsAt (model : M) (samples : List (Sample α)) :
    Except (ModelError α) (List (Coefficients α (dims model).utLen (dims model).uxLen)) :=
  samples.mapM fun s => coefficients model s.point

/-- The values of a quantity at every sample. -/
def quantityAt (model : M) (tag : QuantityTag) (samples : List (Sample α)) :
    Except (ModelError α) (List (List α)) :=
  samples.mapM fun s => quantityValues model tag s.point #[]

/-! ## Integrals of quantities -/

/-- Adds a multiple of a list to a total, which keeps its length. -/
def addMultiple (weight : α) : List α → List α → List α
  | total :: totals, value :: values => (total + weight * value) :: addMultiple weight totals values
  | totals, _ => totals

/-- The weighted sum of the values of a quantity. It has as many components as the first sample. -/
def integrateQuantity (model : M) (tag : QuantityTag) (samples : List (Sample α)) :
    Except (ModelError α) (List α) := do
  let values ← quantityAt model tag samples
  let zeros := (values.headD []).map fun _ => (0 : α)
  return (samples.zip values).foldl (fun total (s, value) => addMultiple s.weight total value) zeros

/-! ## Adjoint products -/

/-- The number of design variables, which the samples of a list share. -/
def sharedDesignVarCount (model : M) (samples : List (AdjointSample α)) :
    Except (ModelError α) Nat :=
  match samples with
  | [] => return 0
  | first :: _ => designVarCount model first.sample.point.elem

/-- Adds the adjoint product of a sample to sensitivities. -/
def addSampleAdjoint {n : Nat} (model : M) (scale : α) (sens : Vector α n) (s : AdjointSample α) :
    Except (ModelError α) (Vector α n) :=
  Evaluation.fill sens
    (addWeakAdjoint model s.sample.point s.psi s.psix (scale * s.sample.weight))

/-- The adjoint products of consecutive samples, summed one after the other from zero. -/
def sumAdjoint (n : Nat) (model : M) (scale : α) (samples : List (AdjointSample α)) :
    Except (ModelError α) (Vector α n) :=
  samples.foldlM (addSampleAdjoint model scale) (Vector.replicate n 0)

/-- The adjoint products of all samples, summed one after the other. -/
def weakAdjointSum (model : M) (samples : List (AdjointSample α)) (scale : α) :
    Except (ModelError α) (List α) := do
  let n ← sharedDesignVarCount model samples
  return (← sumAdjoint n model scale samples).toList

/-- The adjoint products of the pieces of a split, summed along its joins. -/
def sumAdjointBy (n : Nat) (model : M) (scale : α) :
    Split (AdjointSample α) → Except (ModelError α) (Vector α n)
  | .idle => return Vector.replicate n 0
  | .piece samples => sumAdjoint n model scale samples
  | .join left right => do
    let a ← sumAdjointBy n model scale left
    let b ← sumAdjointBy n model scale right
    return Vector.zipWith (· + ·) a b

/-- The adjoint products of all samples, summed in pieces. -/
def weakAdjointSumBy (model : M) (split : Split (AdjointSample α)) (scale : α) :
    Except (ModelError α) (List α) := do
  let n ← sharedDesignVarCount model split.items
  return (← sumAdjointBy n model scale split).toList

end WeakForm
