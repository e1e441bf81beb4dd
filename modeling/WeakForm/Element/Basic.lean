import WeakForm.Dims
import WeakForm.Jacobian
import WeakForm.Journal
import WeakForm.Record

/-!
# Element models

An element model is the physics of an element, without the basis that integrates it. Asked about
one point, it gives the coefficients of the weak form, their exact Jacobian, the product of an
adjoint with the design derivative of the residual, and quantities of interest with their
derivatives.

The coefficients by time depend on the values by time only, and those by space on the values by
space only. **The residual of an adjoint** `(ψ, ψx)` is `Σₖ ψₖ (dut[3k] + dut[3k+1] + dut[3k+2] +
dux[k(d+1)]) + Σ ψx · dux`, the second sum running over the spatial derivatives. A model without
design variables or quantities has nothing to say about them: it takes the defaults.
-/

namespace WeakForm

/-- Buffers for the coefficients of the weak form. -/
structure Coefficients (α : Type) (n m : Nat) where
  /-- Of the values by time. -/
  dut : Vector α n
  /-- Of the values by space. -/
  dux : Vector α m
  deriving Repr

/-- Buffers for the coefficients and their Jacobian. -/
structure Linearization (α : Type) (n m k : Nat) where
  coefficients : Coefficients α n m
  /-- The values of the Jacobian, in the order of its pattern. -/
  jac : Vector α k
  deriving Repr

/-- Buffers for the derivatives of a quantity with respect to the data of a point. -/
structure QuantitySens (α : Type) (a b c d : Nat) where
  /-- With respect to the physical position. -/
  dfdx : Vector α a
  /-- With respect to the derivatives of the position. -/
  dfdxd : Vector α b
  /-- With respect to the values by time. -/
  dfdut : Vector α c
  /-- With respect to the values by space. -/
  dfdux : Vector α d
  deriving Repr

namespace Coefficients

/-- Zeros. -/
def zero {α : Type} [Scalar α] (n m : Nat) : Coefficients α n m :=
  ⟨Vector.replicate n 0, Vector.replicate m 0⟩

end Coefficients

namespace Linearization

variable {α β : Type} {n m k : Nat}

/-- Evaluates the coefficients of a linearization and leaves its Jacobian alone. What has been
written to the coefficients stays written, also after an error. -/
def onCoefficients (evaluation : Evaluation α (Coefficients α n m) β) :
    Evaluation α (Linearization α n m k) β := fun buffers =>
  match evaluation buffers.coefficients with
  | .ok b coefficients => .ok b { buffers with coefficients }
  | .error e coefficients => .error e { buffers with coefficients }

/-- Writes values of the Jacobian over its buffer, from the first place on. -/
def writeJacobian (values : Array α) : Evaluation α (Linearization α n m k) Unit :=
  modify fun buffers => { buffers with jac := overwrite buffers.jac 0 values }

end Linearization

namespace QuantitySens

/-- Zeros. -/
def zero {α : Type} [Scalar α] (a b c d : Nat) : QuantitySens α a b c d :=
  ⟨Vector.replicate a 0, Vector.replicate b 0, Vector.replicate c 0, Vector.replicate d 0⟩

/-- Fails unless the buffers have the lengths that dimensions ask for. -/
def checkLengths (dims : Dims) (a b c d : Nat) :
    Except LengthFault (PLift ((a = numCoords ∧ b = numCoords * numCoords) ∧
      (c = dims.utLen ∧ d = dims.uxLen))) := do
  let ⟨ha⟩ ← lengthIs "dfdx" a numCoords
  let ⟨hb⟩ ← lengthIs "dfdxd" b (numCoords * numCoords)
  let ⟨hc⟩ ← lengthIs "dfdut" c dims.utLen
  let ⟨hd⟩ ← lengthIs "dfdux" d dims.uxLen
  return ⟨⟨ha, hb⟩, ⟨hc, hd⟩⟩

end QuantitySens

/-- What an element model `M` over numbers `α` answers. -/
class ElementModel (M : Type) (α : outParam Type) where
  dims : M → Dims
  /-- The class of element that the model writes records for. -/
  elementType : M → ElementType
  /-- The number of design variables of an element; if a buffer is given, their global numbers are
  written into it. -/
  designVarNums {n : Nat} (model : M) (elem : Nat) :
    Evaluation α (Option (Vector Nat n)) Nat := pure 0
  /-- Sets the design variables of an element. -/
  setDesignVars (elem : Nat) (values : Array α) : Work (ModelError α) M α Unit := pure ()
  /-- Writes the design variables of an element. -/
  designVars {n : Nat} (model : M) (elem : Nat) : Evaluation α (Vector α n) Unit := pure ()
  /-- Writes the lower and upper bounds of the design variables of an element. -/
  designVarRange {n m : Nat} (model : M) (elem : Nat) :
    Evaluation α (Vector α n × Vector α m) Unit := pure ()
  /-- Writes the coefficients of the weak form. -/
  weakIntegrand {n m : Nat} (model : M) (p : Point α) : Evaluation α (Coefficients α n m) Unit
  /-- Writes the coefficients and the values of their Jacobian, and gives its pattern. -/
  weakJacobian {n m k : Nat} (model : M) (p : Point α) :
    Evaluation α (Linearization α n m k) JacobianPattern
  /-- Adds `scale · (∂R/∂x)ᵀ` to the sensitivities, `R` being the residual of the adjoint. -/
  addWeakAdjoint {n : Nat} (model : M) (p : Point α) (psi psix : Array α) (scale : α) :
    Evaluation α (Vector α n) Unit := pure ()
  /-- Writes the values of a quantity and gives their number. -/
  quantity {n : Nat} (model : M) (tag : QuantityTag) (p : Point α) (xd : Array α) :
    Evaluation α (Vector α n) Nat := throw (.unsupportedQuantity tag)
  /-- Adds `scale · dfdqᵀ ∂q/∂x` to the sensitivities, `x` being the design variables. -/
  addQuantityDesignSens {n : Nat} (model : M) (tag : QuantityTag) (scale : α) (p : Point α)
    (xd dfdq : Array α) : Evaluation α (Vector α n) Unit := throw (.unsupportedQuantity tag)
  /-- Writes `dfdqᵀ ∂q` with respect to the data of the point. -/
  quantitySens {a b c d : Nat} (model : M) (tag : QuantityTag) (p : Point α) (xd dfdq : Array α) :
    Evaluation α (QuantitySens α a b c d) Unit := throw (.unsupportedQuantity tag)
  /-- Writes a record of at most `stride` values and gives its length; nothing is written for
  another class of element. -/
  output {n : Nat} (model : M) (p : Point α) (etype : ElementType) (flags : OutputFlags)
    (stride : Nat) : Evaluation α (Vector α n) Nat

end WeakForm
