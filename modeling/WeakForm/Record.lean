import WeakForm.Evaluation

/-!
# Output records

For visualization a model writes a flat run of values, the record. It is made of sections in a fixed
order, each present if its bit is set in the flags; **bits that name no section mean nothing**. How
long a section is depends on the class of the element, and so do the names of its columns.
-/

namespace WeakForm

/-- A set of record sections, as a bit mask. -/
structure OutputFlags where
  bits : UInt32
  deriving DecidableEq, Repr

namespace OutputFlags

/-- The physical position. -/
def nodes : OutputFlags := ⟨2⟩

/-- The values of the variables. -/
def displacements : OutputFlags := ⟨4⟩

/-- The strain or the gradient. -/
def strains : OutputFlags := ⟨8⟩

/-- The stress or the flux. -/
def stresses : OutputFlags := ⟨16⟩

/-- What is derived from the state, such as the density. -/
def extras : OutputFlags := ⟨32⟩

/-- No section. -/
def none : OutputFlags := ⟨0⟩

/-- The bits of both sets. -/
def union (a b : OutputFlags) : OutputFlags := ⟨a.bits ||| b.bits⟩

/-- Whether all bits of the second set are in the first. The set without bits is contained in
none. -/
def contains (a b : OutputFlags) : Bool := a.bits &&& b.bits == b.bits && b.bits != 0

/-- The sections in the order in which they are written. -/
def sections : List OutputFlags := [nodes, displacements, strains, stresses, extras]

end OutputFlags

/-- The class of an element, as far as output is concerned. -/
inductive ElementType where
  /-- A continuum in space with three displacements. -/
  | solid
  /-- A scalar field in the plane, such as a temperature. -/
  | scalar2D
  deriving DecidableEq, Repr

namespace ElementType

/-- The name of a class. -/
def name : ElementType → String
  | .solid => "solid"
  | .scalar2D => "scalar_2d"

/-- The columns of one section; anything but exactly one section has none. -/
def components (e : ElementType) (part : OutputFlags) : List String :=
  if part = .nodes then ["x", "y", "z"]
  else match e with
    | .solid =>
      if part = .displacements then ["u", "v", "w"]
      else if part = .strains then ["exx", "eyy", "ezz", "gyz", "gxz", "gxy"]
      else if part = .stresses then ["sxx", "syy", "szz", "syz", "sxz", "sxy"]
      else if part = .extras then ["failure", "density"]
      else []
    | .scalar2D =>
      if part = .displacements then ["t"]
      else if part = .strains then ["tx", "ty"]
      else if part = .stresses then ["qx", "qy"]
      else if part = .extras then ["density"]
      else []

/-- The columns of a record. -/
def recordHeader (e : ElementType) (flags : OutputFlags) : List String :=
  (OutputFlags.sections.filter flags.contains).flatMap e.components

/-- The length of a record: the sum of the lengths of its sections. -/
def recordLen (e : ElementType) (flags : OutputFlags) : Nat :=
  OutputFlags.sections.foldl
    (fun n part => if flags.contains part then n + (e.components part).length else n) 0

theorem length_recordHeader (e : ElementType) (flags : OutputFlags) :
    (e.recordHeader flags).length = e.recordLen flags := by
  have add_up (parts : List OutputFlags) (n : Nat) :
      parts.foldl (fun n part => if flags.contains part then n + (e.components part).length else n)
        n = n + ((parts.filter flags.contains).flatMap e.components).length := by
    induction parts generalizing n with
    | nil => rfl
    | cons part rest ih =>
      by_cases h : flags.contains part <;> simp [ih, h, Nat.add_assoc]
  simp only [recordHeader, recordLen, add_up, Nat.zero_add]

end ElementType

/-! ## Writing into buffers -/

/-- The buffer with values written over it from a position on; values beyond its end are dropped. -/
def overwrite {α : Type} {n : Nat} (buffer : Vector α n) (position : Nat) (values : Array α) :
    Vector α n :=
  Vector.ofFn fun i =>
    if position ≤ i.val then values[i.val - position]?.getD buffer[i] else buffer[i]

/-- A place in a record that is being written. -/
structure RecordCursor where
  /-- The length of the whole record. -/
  limit : Nat
  /-- The number of values written so far. -/
  position : Nat
  deriving DecidableEq, Repr

namespace RecordCursor

variable {α : Type} {n : Nat}

/-- Starts a record, which has to fit both the stride of the caller and the buffer. -/
def start (e : ElementType) (flags : OutputFlags) (stride n : Nat) :
    Except LengthFault RecordCursor := do
  let _ ← lengthAtLeast "data" (min stride n) (e.recordLen flags)
  return ⟨e.recordLen flags, 0⟩

/-- Writes values next, if the record has room for them. -/
def write (cursor : RecordCursor) (values : Array α) : Evaluation α (Vector α n) RecordCursor :=
  if cursor.position + values.size ≤ cursor.limit then do
    modify (overwrite · cursor.position values)
    return { cursor with position := cursor.position + values.size }
  else return cursor

/-- Writes a section if it is among the flags. Its values are only asked for in that case. -/
def section? (cursor : RecordCursor) (flags part : OutputFlags)
    (values : Unit → Except (ModelError α) (Array α)) :
    Evaluation α (Vector α n) RecordCursor :=
  if flags.contains part then do
    let values ← values ()
    cursor.write values
  else return cursor

end RecordCursor

end WeakForm
