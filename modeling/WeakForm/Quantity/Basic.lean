/-!
# Point quantities

A quantity of interest is named by a number, its tag. Tags form an open set: an element evaluates
the ones it knows and reports any other as unsupported, and new ones may be given names in a
`Registry`. Five tags have a fixed meaning.
-/

namespace WeakForm

/-- The number that selects a quantity of interest. -/
structure QuantityTag where
  number : Nat
  deriving DecidableEq, Repr

namespace QuantityTag

/-- The failure index of the material. -/
@[match_pattern] def failureIndex : QuantityTag := ⟨1⟩

/-- Mass per unit volume. -/
@[match_pattern] def density : QuantityTag := ⟨2⟩

/-- Strain energy per unit volume. -/
@[match_pattern] def strainEnergyDensity : QuantityTag := ⟨3⟩

/-- Temperature. -/
@[match_pattern] def temperature : QuantityTag := ⟨4⟩

/-- In-plane heat flux, which has two components. -/
@[match_pattern] def heatFlux : QuantityTag := ⟨5⟩

/-- The most values that a quantity may have. -/
def maxLength : Nat := 16

/-- A tag in a message. -/
def label (t : QuantityTag) : String := s!"#{t.number}"

end QuantityTag

end WeakForm
