import WeakForm.Json.Reader
import WeakForm.Quantity.Registry
import WeakForm.Record
import WeakForm.Stiffness

/-!
# File forms of names, numbers and small records

Each type that is written to a file has two functions: `toJson` gives its written form, `ofJson?`
reads every form that is accepted. Names of classes are texts, tags and flags are 32-bit numbers,
vectors are lists of exactly their length.
-/

namespace WeakForm

open Json

namespace Json

variable {α : Type} [DecimalScalar α]

/-- An array of numbers. -/
def scalars? (value : Json) : Option (Array α) := (list? scalar? value).map List.toArray

/-- The written form of an array of numbers. -/
def ofScalarArray (values : Array α) : Json := ofScalars values.toList

/-- The written form of a vector of numbers. -/
def ofScalarVector {n : Nat} (values : Vector α n) : Json := ofScalars values.toList

end Json

namespace ElementType

/-- The name of a class in files. -/
def fileName : ElementType → String
  | .solid => "solid"
  | .scalar2D => "scalar2_d"

/-- The class with a name in files. -/
def ofFileName? : String → Option ElementType
  | "solid" => some .solid
  | "scalar2_d" => some .scalar2D
  | _ => none

/-- The written form of a class. -/
def toJson (e : ElementType) : Json := .ofString e.fileName

/-- Reads a class. -/
def ofJson? (value : Json) : Option ElementType := (name? value).bind ofFileName?

@[simp] theorem ofFileName?_fileName (e : ElementType) : ofFileName? e.fileName = some e := by
  cases e <;> rfl

end ElementType

namespace QuantityTag

/-- The written form of a tag. -/
def toJson (t : QuantityTag) : Json := .ofNat t.number

/-- Reads a tag. -/
def ofJson? (value : Json) : Option QuantityTag := (word32? value).map QuantityTag.mk

end QuantityTag

namespace OutputFlags

/-- The written form of flags. -/
def toJson (f : OutputFlags) : Json := .ofNat f.bits.toNat

/-- Reads flags. -/
def ofJson? (value : Json) : Option OutputFlags :=
  (word32? value).map fun bits => ⟨UInt32.ofNat bits⟩

end OutputFlags

namespace QuantityInfo

/-- The written form of an entry of a registry. -/
def toJson (info : QuantityInfo) : Json :=
  .record [("name", .ofString info.name), ("description", .ofString info.description)]

/-- Reads an entry of a registry. -/
def ofJson? (value : Json) : Option QuantityInfo := do
  match ← slots? ["name", "description"] value with
  | [name, description] => return ⟨← required text? name, ← required text? description⟩
  | _ => none

end QuantityInfo

namespace Stiffness

variable {α : Type} [DecimalScalar α]

/-- The written form of a stiffness. -/
def toJson (k : Stiffness α) : Json := .ofScalarVector k.packed

/-- Reads a stiffness. -/
def ofJson? (value : Json) : Option (Stiffness α) := (vector? 21 scalar? value).map Stiffness.mk

end Stiffness

end WeakForm
