import WeakForm.Batch

/-!
# Sampled points

The data at which an element is verified. The entries are waves of their index, shifted by the
number of the element: **no two of them are alike**, so that no coupling is hidden by symmetry, and
none is large, so that a step of a difference quotient is felt.
-/

namespace WeakForm

namespace Sample

variable {α : Type} [Scalar α]

/-- A wave of the index. -/
def wave (elem i : Nat) (frequency phase : α) : α :=
  Scalar.sin (frequency * (i : α) + phase + (0.37 : α) * (elem : α))

/-- The magnitude of the sampled values. -/
def amplitude : α := 1e-2

/-- The array of a function of the index. -/
def tabulate (n : Nat) (f : Nat → α) : Array α := ((List.range n).map f).toArray

/-- The sample of an element with given dimensions. -/
def ofDims (d : Dims) (elem : Nat) : Sample α where
  point := {
    elem
    time := 0
    quad := 0
    pt := tabulate d.spatialDim fun i => (0.5 : α) * wave elem i 2.1 0.2
    x := #[0.1, 0.2, 0.3]
    ut := tabulate d.utLen fun i => amplitude * (1 + (0.5 : α) * wave elem i 1.7 0.3)
    ux := tabulate d.uxLen fun i => amplitude * wave elem i 2.3 0.9 }
  weight := 1

end Sample

namespace AdjointSample

variable {α : Type} [Scalar α]

/-- The sample of an element with an adjoint. -/
def ofDims (d : Dims) (elem : Nat) : AdjointSample α where
  sample := .ofDims d elem
  psi := Sample.tabulate d.varsPerNode fun i => Scalar.cos ((1.1 : α) * (i : α) + 0.4)
  psix := Sample.tabulate (d.varsPerNode * d.spatialDim) fun i =>
    Scalar.sin ((0.8 : α) * (i : α) + 1.3)

end AdjointSample

end WeakForm
