import WeakForm.Error

/-!
# Evaluations into buffers

The caller of an evaluation owns the buffers that it fills, and keeps them when it fails. So an
evaluation is a state transformer **whose state survives an error** (`EStateM`): after a failure the
buffers hold whatever had been written until then, and that nothing had is a theorem about the
evaluation, not a property of its type.

A buffer is a vector. Its length is the caller's choice and cannot change, so each evaluation is
given for every length, and starts by asking for the length that it needs. Arrays that are only read
have a length of their own, and turn into vectors of known length by the same tests.
-/

namespace WeakForm

/-- An evaluation with a result in `β` that fills buffers `σ`. -/
abbrev Evaluation (α σ β : Type) : Type := EStateM (ModelError α) σ β

variable {α β σ : Type}

/-- A computation without buffers is an evaluation that leaves the buffers alone. -/
def Evaluation.lift {ε : Type} : Except ε β → EStateM ε σ β
  | .ok b => pure b
  | .error e => throw e

instance Evaluation.monadLiftExcept {ε : Type} : MonadLift (Except ε) (EStateM ε σ) :=
  ⟨Evaluation.lift⟩

/-- A wrong length is an error of the model. -/
def LengthFault.raise : Except LengthFault β → Except (ModelError α) β
  | .ok b => .ok b
  | .error fault => .error (.length fault)

instance : MonadLift (Except LengthFault) (Except (ModelError α)) := ⟨LengthFault.raise⟩

/-- Runs an evaluation on a buffer of its own and gives the result together with the buffer. -/
def Evaluation.answer (buffer : σ) (evaluation : Evaluation α σ β) :
    Except (ModelError α) (β × σ) :=
  match evaluation.run buffer with
  | .ok b filled => .ok (b, filled)
  | .error e _ => .error e

/-- Runs an evaluation on a buffer of its own and gives the buffer. -/
def Evaluation.fill (buffer : σ) (evaluation : Evaluation α σ Unit) : Except (ModelError α) σ :=
  match evaluation.run buffer with
  | .ok _ filled => .ok filled
  | .error e _ => .error e

/-! ## Lengths -/

/-- Fails unless a length is the expected one. -/
def lengthIs (what : String) (actual expected : Nat) :
    Except LengthFault (PLift (actual = expected)) :=
  if h : actual = expected then .ok ⟨h⟩ else .error (.mismatch what expected actual)

/-- Fails unless a length is at least the required one. -/
def lengthAtLeast (what : String) (actual required : Nat) :
    Except LengthFault (PLift (required ≤ actual)) :=
  if h : required ≤ actual then .ok ⟨h⟩ else .error (.tooShort what required actual)

/-- An array as a vector of the expected length. -/
def sized (what : String) (expected : Nat) (values : Array β) :
    Except LengthFault (Vector β expected) :=
  if h : values.size = expected then .ok ⟨values, h⟩
  else .error (.mismatch what expected values.size)

@[simp] theorem lengthIs_self (what : String) (n : Nat) : lengthIs what n n = .ok ⟨rfl⟩ :=
  dif_pos rfl

theorem lengthAtLeast_of_le {what : String} {actual required : Nat} (h : required ≤ actual) :
    lengthAtLeast what actual required = .ok ⟨h⟩ :=
  dif_pos h

@[simp] theorem sized_toArray (what : String) {n : Nat} (v : Vector β n) :
    sized what n v.toArray = .ok v :=
  dif_pos v.size_toArray

end WeakForm
