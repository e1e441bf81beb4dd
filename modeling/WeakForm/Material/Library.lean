import WeakForm.Material.Basic

/-!
# Material libraries

A library holds one material for each name. What it gives out is a *handle*: the properties together
with the number of the addition that brought them, so that **two additions of equal properties can
be told apart**. Adding a material under a name that is taken puts it in place of the one there; a
handle given out before keeps the properties that it had.
-/

namespace WeakForm

/-- A material in a library. -/
structure Handle (α : Type) where
  /-- The number of additions to the library before this one. -/
  serial : Nat
  material : Material α
  deriving Repr

/-- Materials by name. -/
structure Library (α : Type) where
  /-- The materials in ascending order of their names. -/
  handles : List (Handle α)
  /-- The number of additions so far. -/
  additions : Nat
  deriving Repr

namespace Library

variable {α : Type}

/-- A library without materials. -/
def empty : Library α := ⟨[], 0⟩

/-- The material with a name. -/
def get? (l : Library α) (name : String) : Option (Handle α) :=
  l.handles.find? (·.material.name = name)

/-- The names in ascending order. -/
def names (l : Library α) : List String := l.handles.map (·.material.name)

/-- The number of materials. -/
def size (l : Library α) : Nat := l.handles.length

/-- Whether there is no material. -/
def isEmpty (l : Library α) : Bool := l.handles.isEmpty

/-- Puts a handle in its place among handles in ascending order, instead of one with its name. -/
def place (new : Handle α) : List (Handle α) → List (Handle α)
  | [] => [new]
  | first :: rest =>
    if new.material.name = first.material.name then new :: rest
    else if new.material.name < first.material.name then new :: first :: rest
    else first :: place new rest

/-- Adds a material and gives its handle. -/
def add (l : Library α) (material : Material α) : Handle α × Library α :=
  let new : Handle α := ⟨l.additions, material⟩
  (new, ⟨place new l.handles, l.additions + 1⟩)

/-- What is looked up carries the name that it was looked up by. -/
theorem name_of_get? {l : Library α} {name : String} {h : Handle α} (found : l.get? name = some h) :
    h.material.name = name := by
  simpa using List.find?_some found

/-- Looking a name up after a handle was put in its place: its own name finds it, any other name
finds what it found before. -/
theorem find?_place (new : Handle α) (handles : List (Handle α)) (name : String) :
    (place new handles).find? (·.material.name = name)
      = if new.material.name = name then some new
        else handles.find? (·.material.name = name) := by
  fun_induction place new handles with
  | case1 => by_cases h : new.material.name = name <;> simp [h]
  | case2 first rest same => by_cases h : new.material.name = name <;> simp_all
  | case3 first rest => by_cases h : new.material.name = name <;> simp [h]
  | case4 first rest same _ ih =>
    by_cases h : first.material.name = name
    · have : new.material.name ≠ name := fun e => same (e.trans h.symm)
      simp [h, this]
    · simp [h, ih]

@[simp] theorem material_add_fst (l : Library α) (material : Material α) :
    (l.add material).1.material = material := rfl

end Library

end WeakForm
