import WeakForm.Json.Basic

/-!
# Reading records out of JSON

A record has named fields in a fixed order. It may be written as an object, in which the order of
the members is free, a member that is no field is ignored, and a field written twice is an error; or
as an array of its fields in order, from the end of which fields may be missing. Both come down to
one *slot* for each field (`slots?`), and each field says what an empty slot means: an error
(`required`), a default (`orElse`), or absence (`optional`, which also reads `null` as absence).

**What is ignored is only looked at as far as the grammar goes.** The exception are tagged records,
whose members are kept until the tag is known: what is kept has to be storable (`storable`), so its
literals denote something and it is not nested without limit.
-/

namespace WeakForm

namespace Json

/-! ## Plain values -/

/-- A text. -/
def text? : Json → Option String
  | .text s => s
  | _ => none

/-- A truth value. -/
def bool? : Json → Option Bool
  | .bool b => some b
  | _ => none

/-- A number; integers are numbers too. -/
def scalar? {α : Type} [DecimalScalar α] : Json → Option α
  | .number n => n.value? α
  | _ => none

/-- An unsigned integer literal below a bound. -/
def natBelow? (bound : Nat) : Json → Option Nat
  | .number n =>
    match n.natural? with
    | some k => if k < bound then some k else none
    | none => none
  | _ => none

/-- A 32-bit number. -/
def word32? : Json → Option Nat := natBelow? UInt32.size

/-- An index or count: a 64-bit number. -/
def index? : Json → Option Nat := natBelow? UInt64.size

/-- A list. -/
def list? {β : Type} (item? : Json → Option β) : Json → Option (List β)
  | .array items => items.mapM item?
  | _ => none

/-- A list of exactly `n` items. -/
def vector? {β : Type} (n : Nat) (item? : Json → Option β) (value : Json) : Option (Vector β n) :=
  match list? item? value with
  | some items => if h : items.length = n then some ⟨items.toArray, by simpa using h⟩ else none
  | none => none

/-- One of a set of names: as a text, or as the only member of an object, with the value `null`. -/
def name? : Json → Option String
  | .text s => s
  | .object [(name, .null)] => name
  | _ => none

/-! ## Records -/

/-- The members of an object, if all their names are texts. -/
def named? (members : List (Option String × Json)) : Option (List (String × Json)) :=
  members.mapM fun (name, value) => name.map fun name => (name, value)

/-- The value of a member, or an empty slot; nothing if it is there twice. -/
def slot? (name : String) (members : List (String × Json)) : Option (Option Json) :=
  match members.filter (·.1 = name) with
  | [] => some none
  | [(_, value)] => some (some value)
  | _ => none

/-- One slot for each field. -/
def slots? (fields : List String) : Json → Option (List (Option Json))
  | .object members => do
    let members ← named? members
    fields.mapM (slot? · members)
  | .array items =>
    if items.length ≤ fields.length then
      some (items.map some ++ List.replicate (fields.length - items.length) none)
    else none
  | _ => none

section Slots

variable {β : Type} (read? : Json → Option β)

/-- A field that has to be there. -/
def required (slot : Option Json) : Option β := slot.bind read?

/-- A field that has a default. -/
def orElse (default : β) : Option Json → Option β
  | none => some default
  | some value => read? value

/-- A field that may be absent. -/
def optional : Option Json → Option (Option β)
  | none => some none
  | some .null => some none
  | some value => (read? value).map some

end Slots

/-! ## Tagged records -/

/-- How many brackets may be open at once where values are stored. -/
def nestingLimit : Nat := 127

mutual

/-- Whether a value can be stored before it is known what it is for: every literal in it denotes
something, and it opens at most `room` brackets inside one another. -/
def storable (α : Type) [DecimalScalar α] (room : Nat) : Json → Bool
  | .null => true
  | .bool _ => true
  | .number n => (n.value? α).isSome
  | .text s => s.isSome
  | .array items => match room with
    | 0 => false
    | room + 1 => storableItems α room items
  | .object members => match room with
    | 0 => false
    | room + 1 => storableMembers α room members

@[inherit_doc storable]
def storableItems (α : Type) [DecimalScalar α] (room : Nat) : List Json → Bool
  | [] => true
  | item :: items => storable α room item && storableItems α room items

@[inherit_doc storable]
def storableMembers (α : Type) [DecimalScalar α] (room : Nat) : List (Option String × Json) → Bool
  | [] => true
  | (name, value) :: members =>
    name.isSome && storable α room value && storableMembers α room members

end

/-- A tagged record, taken apart into its tag and the rest. `depth` brackets are open inside it. -/
def tagged? (α : Type) [DecimalScalar α] (depth : Nat) (tag : String) : Json → Option (Json × Json)
  | .object members => do
    let kind ← (← slot? tag (← named? members))
    let rest := members.filter (·.1 ≠ some tag)
    if storableMembers α (nestingLimit - depth) rest then some (kind, .object rest) else none
  | .array (kind :: items) =>
    if storableItems α (nestingLimit - depth) items then some (kind, .array items) else none
  | _ => none

end Json

end WeakForm
