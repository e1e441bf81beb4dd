import WeakForm.Error

/-!
# The registry of quantities

A registry gives tags stable names. It is a list of entries **in ascending order of their tags**,
and no two entries share a tag or a name, where names that differ only in the case of ASCII letters
count as one: `register` refuses whatever would break this. The five quantities with a fixed
meaning are entries like any other, so a registry that has them keeps them.
-/

namespace WeakForm

/-- What is registered under a tag. -/
structure QuantityInfo where
  name : String
  description : String
  deriving DecidableEq, Repr

/-- The lower-case form of an ASCII letter; any other character is its own. -/
def foldCase (ch : Char) : Char := if 'A' ≤ ch ∧ ch ≤ 'Z' then Char.ofNat (ch.toNat + 32) else ch

/-- Whether two names agree up to the case of ASCII letters. -/
def sameName (a b : String) : Bool := a.toList.map foldCase == b.toList.map foldCase

/-- Named quantities. -/
structure Registry where
  /-- The entries in ascending order of their tags. -/
  entries : List (QuantityTag × QuantityInfo)
  deriving DecidableEq, Repr

namespace Registry

/-- No quantity at all. -/
def empty : Registry := ⟨[]⟩

/-- The five quantities with a fixed meaning. -/
def builtin : Registry := ⟨[
  (.failureIndex, ⟨"failure_index", "material failure index"⟩),
  (.density, ⟨"density", "mass per unit volume"⟩),
  (.strainEnergyDensity, ⟨"strain_energy_density", "strain energy per unit volume"⟩),
  (.temperature, ⟨"temperature", "temperature"⟩),
  (.heatFlux, ⟨"heat_flux", "in-plane heat flux vector"⟩)]⟩

/-- The number of entries. -/
def size (r : Registry) : Nat := r.entries.length

/-- What is registered under a tag. -/
def info? (r : Registry) (tag : QuantityTag) : Option QuantityInfo :=
  (r.entries.find? (·.1 = tag)).map (·.2)

/-- The name of a tag. -/
def name? (r : Registry) (tag : QuantityTag) : Option String := (r.info? tag).map (·.name)

/-- The tag with a name, in any case of its ASCII letters. -/
def lookup? (r : Registry) (name : String) : Option QuantityTag :=
  (r.entries.find? fun entry => sameName entry.2.name name).map (·.1)

/-- Puts an entry in front of the first one with a larger tag. -/
def insertEntry (entry : QuantityTag × QuantityInfo) :
    List (QuantityTag × QuantityInfo) → List (QuantityTag × QuantityInfo)
  | [] => [entry]
  | first :: rest =>
    if entry.1.number < first.1.number then entry :: first :: rest
    else first :: insertEntry entry rest

/-- **Registers a quantity unless its tag or its name is taken.** A refusal by tag shows the name
that the tag has, a refusal by name the tag that has the name and the name as it was given. The
registry survives a refusal, and is written last. -/
def register {α : Type} (tag : QuantityTag) (name description : String) :
    EStateM (ModelError α) Registry Unit := do
  let r ← get
  match r.name? tag with
  | some existing => throw (.quantityCollision tag existing)
  | none =>
    match r.lookup? name with
    | some holder => throw (.quantityCollision holder name)
    | none => set (⟨insertEntry (tag, ⟨name, description⟩) r.entries⟩ : Registry)

end Registry

end WeakForm
