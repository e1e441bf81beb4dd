/-!
# Points

What the owner of a mesh knows at one quadrature point. A model is asked about a point at a time; it
never sees the shape functions or the integration that the point comes from.
-/

namespace WeakForm

/-- A place inside an element: parametric position `pt` and physical position `x`. -/
structure Site (α : Type) where
  elem : Nat
  pt : Array α
  x : Array α
  deriving Repr

/-- The data at one quadrature point. By variable, `ut` holds the value and its first two time
derivatives, `ux` the value and its spatial derivatives. -/
structure Point (α : Type) where
  /-- Local number of the element. -/
  elem : Nat
  /-- Simulation time. -/
  time : α
  /-- Number of the quadrature point. -/
  quad : Nat
  /-- Parametric position. -/
  pt : Array α
  /-- Physical position. -/
  x : Array α
  ut : Array α
  ux : Array α
  deriving Repr

namespace Point

/-- Where the point is. -/
def site {α : Type} (p : Point α) : Site α := ⟨p.elem, p.pt, p.x⟩

end Point

end WeakForm
