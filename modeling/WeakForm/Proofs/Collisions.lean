import Mathlib
import WeakForm.Proofs.RegisteredNames

/-!
# Collisions

A registration is refused for its tag or for its name, with one error for both: a tag, and a name
for it. A tag that is taken is shown with the name it has. A name that is taken is shown with the
tag that has it, but **the name is shown as it was asked for**, and names are compared up to the
case of ASCII letters. So the tag of a refusal is always registered, and the name is its name up to
the case of its letters; it is exactly its name unless the refusal is for a name that is registered
in another spelling.
-/

namespace WeakForm

namespace Registry

variable {r r' : Registry} {tag : QuantityTag} {name description : String}

theorem sameName_self (a : String) : sameName a a = true := sameName_iff.mpr rfl

section Refused

variable {α : Type} {e : ModelError α}

/-- In a consistent registry a name that is taken is that of its holder. -/
theorem IsConsistent.register_eq_error_iff (h : r.IsConsistent) :
    register tag name description r = .error e r'
      ↔ r' = r ∧ ((∃ existing, r.name? tag = some existing ∧ e = .quantityCollision tag existing)
        ∨ r.name? tag = none ∧ ∃ holder existing, r.name? holder = some existing
          ∧ sameName existing name = true ∧ e = .quantityCollision holder name) := by
  rw [Registry.register_eq_error_iff]
  refine and_congr_right fun _ =>
    or_congr_right (and_congr_right fun _ => exists_congr fun holder => ?_)
  rw [(h.isIndex (α := α)).lookup?_eq_some_iff]
  constructor
  · rintro ⟨⟨existing, hname, hsame⟩, heq⟩
    exact ⟨existing, hname, hsame, heq⟩
  · rintro ⟨existing, hname, hsame, heq⟩
    exact ⟨⟨existing, hname, hsame⟩, heq⟩

end Refused

variable (α : Type)

/-- **What the refusals of a registry show.** -/
structure ShowsHolders (r : Registry) : Prop where
  /-- A tag that is taken is shown with its name; else a name that is taken is shown as it was asked
  for, with the tag that has it in some case of its ASCII letters. -/
  register_eq_error_iff : ∀ tag name description (e : ModelError α) r',
    register tag name description r = .error e r'
      ↔ r' = r ∧ ((∃ existing, r.name? tag = some existing ∧ e = .quantityCollision tag existing)
        ∨ r.name? tag = none ∧ ∃ holder existing, r.name? holder = some existing
          ∧ sameName existing name = true ∧ e = .quantityCollision holder name)
  /-- The tag that is shown is registered, under the name that is shown, up to the case of its ASCII
  letters. -/
  exists_name? : ∀ tag name description holder shown r',
    register (α := α) tag name description r = .error (.quantityCollision holder shown) r' →
      ∃ existing, r.name? holder = some existing ∧ sameName existing shown = true
  /-- It is registered under exactly this name if the tag was taken or the name was asked for in the
  spelling that is registered, and only then. -/
  name?_eq_some_iff : ∀ tag name description holder shown r',
    register (α := α) tag name description r = .error (.quantityCollision holder shown) r' →
      (r.name? holder = some shown ↔ r.name? tag ≠ none ∨ r.name? holder = some name)

variable {α}

theorem IsConsistent.showsHolders (h : r.IsConsistent) : r.ShowsHolders α where
  register_eq_error_iff := fun _ _ _ _ _ => h.register_eq_error_iff
  exists_name? := by
    intro tag name description holder shown r' hrefused
    obtain ⟨-, ⟨existing, hname, heq⟩ | ⟨-, t, existing, hname, hsame, heq⟩⟩ :=
      h.register_eq_error_iff.mp hrefused
    all_goals obtain ⟨rfl, rfl⟩ := ModelError.quantityCollision.inj heq
    · exact ⟨_, hname, sameName_self _⟩
    · exact ⟨existing, hname, hsame⟩
  name?_eq_some_iff := by
    intro tag name description holder shown r' hrefused
    obtain ⟨-, ⟨existing, hname, heq⟩ | ⟨hfree, t, existing, hname, hsame, heq⟩⟩ :=
      h.register_eq_error_iff.mp hrefused
    all_goals obtain ⟨rfl, rfl⟩ := ModelError.quantityCollision.inj heq
    · exact iff_of_true hname (Or.inl (Option.ne_none_iff_exists'.mpr ⟨_, hname⟩))
    · exact (or_iff_right (not_not.mpr hfree)).symm

/-- **Whatever registry is reached, its refusals show who holds the tag or the name.** -/
theorem showsHolders_after (α : Type) (calls : List Registration) :
    (empty.after α calls).ShowsHolders α ∧ (builtin.after α calls).ShowsHolders α :=
  ⟨(isConsistent_empty.after calls).showsHolders, (isConsistent_builtin.after calls).showsHolders⟩

/-- **A refusal may show a name that is registered nowhere**: the density, in capitals. -/
theorem not_forall_name?_eq_some :
    ¬ ∀ (calls : List Registration) (tag : QuantityTag) (name description : String)
      (holder : QuantityTag) (shown : String) (r : Registry),
      register (α := Float) tag name description (builtin.after Float calls)
          = .error (.quantityCollision holder shown) r →
        (builtin.after Float calls).name? holder = some shown := by
  intro h
  have hshown := h [] ⟨2000⟩ "DENSITY" "" .density "DENSITY" builtin rfl
  exact absurd hshown (by decide)

end Registry

end WeakForm
