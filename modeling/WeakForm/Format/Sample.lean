import WeakForm.Batch
import WeakForm.Format.Basic

/-!
# File forms of samples

A sample is written flat: the data of its point and its weight are the fields of one record.
-/

namespace WeakForm

open Json

variable {α : Type} [DecimalScalar α]

namespace Sample

/-- The written form of a sample. -/
def toJson (s : Sample α) : Json :=
  .record [
    ("elem_index", .ofNat s.point.elem),
    ("time", .ofScalar s.point.time),
    ("quad_index", .ofNat s.point.quad),
    ("pt", .ofScalarArray s.point.pt),
    ("x", .ofScalarArray s.point.x),
    ("ut", .ofScalarArray s.point.ut),
    ("ux", .ofScalarArray s.point.ux),
    ("weight", .ofScalar s.weight)]

/-- Reads a sample. -/
def ofJson? (value : Json) : Option (Sample α) := do
  let fields := ["elem_index", "time", "quad_index", "pt", "x", "ut", "ux", "weight"]
  match ← slots? fields value with
  | [elem, time, quad, pt, x, ut, ux, weight] =>
    let point : Point α := {
      elem := ← required index? elem
      time := ← required scalar? time
      quad := ← required index? quad
      pt := ← required scalars? pt
      x := ← required scalars? x
      ut := ← required scalars? ut
      ux := ← required scalars? ux }
    return ⟨point, ← required scalar? weight⟩
  | _ => none

end Sample

namespace AdjointSample

/-- The written form of a sample with an adjoint. -/
def toJson (s : AdjointSample α) : Json :=
  .record [
    ("point", s.sample.toJson),
    ("psi", .ofScalarArray s.psi),
    ("psix", .ofScalarArray s.psix)]

/-- Reads a sample with an adjoint. -/
def ofJson? (value : Json) : Option (AdjointSample α) := do
  match ← slots? ["point", "psi", "psix"] value with
  | [sample, psi, psix] =>
    return ⟨← required Sample.ofJson? sample, ← required scalars? psi, ← required scalars? psix⟩
  | _ => none

end AdjointSample

end WeakForm
