import Mathlib
import WeakForm.Case.Build
import WeakForm.Proofs.ByteOrder
import WeakForm.Proofs.CaseStages

/-!
# Runs on a library

A library is asked for its materials while materials are still being added to it, and what it has
given out stays in use. So a run is a list of calls of two kinds: a material is added, or a solid is
bound to the material with a name. What has come of a run is written down in a *ledger*: the handles
of the additions and the solids, in the order in which they came.

One call keeps the names in ascending order, no name twice, and under each name the handle of its
last addition (`Library.Ledger.IsKept`), hence so does any run. **After any run the library is known
from its calls alone**, and a solid that has been bound stays as it was (`Library.Ledger.Accounts`).
-/

namespace WeakForm

variable {α : Type}

/-! ## Solids -/

namespace SolidEntry

variable [Scalar α] {s : SolidEntry α} {library : Library α} {name : String}

/-- The solid of an entry, made of a material. -/
def made (s : SolidEntry α) (material : Option (Material α)) : Solid α :=
  ⟨material, s.thickness, s.designVar, s.lowerBound, s.upperBound⟩

/-- A solid without a material can always be built. -/
theorem build_of_material_none (h : s.material = none) (t : Tracked Unit α) :
    s.build library t
      = .ok (s.made none) ⟨t.subject, t.journal ++ (s.made none).warnings⟩ := by
  unfold build
  rw [h]
  rfl

/-- A solid is built of the material that the library has under its name. -/
theorem build_of_get?_some {handle : Handle α} (h : s.material = some name)
    (hget : library.get? name = some handle) (t : Tracked Unit α) :
    s.build library t = .ok (s.made (some handle.material))
      ⟨t.subject, t.journal ++ (s.made (some handle.material)).warnings⟩ := by
  unfold build
  rw [h]
  dsimp only
  rw [hget]
  rfl

theorem build_of_get?_none (h : s.material = some name) (hget : library.get? name = none)
    (t : Tracked Unit α) : s.build library t = .error (.unknownMaterial name) t := by
  unfold build
  rw [h]
  dsimp only
  rw [hget]
  rfl

end SolidEntry

namespace Library

/-! ## One addition -/

/-- Handles in strictly ascending order of their names. -/
def Ascends (handles : List (Handle α)) : Prop :=
  handles.Pairwise fun a b => a.material.name < b.material.name

theorem mem_place {x new : Handle α} {handles : List (Handle α)} (h : x ∈ place new handles) :
    x = new ∨ x ∈ handles := by
  fun_induction place new handles with
  | case1 => exact Or.inl (List.mem_singleton.mp h)
  | case2 first rest same =>
    exact (List.mem_cons.mp h).imp_right (List.mem_cons_of_mem first)
  | case3 first rest => exact List.mem_cons.mp h
  | case4 first rest _ _ ih =>
    obtain rfl | h := List.mem_cons.mp h
    · exact Or.inr List.mem_cons_self
    · exact (ih h).imp_right (List.mem_cons_of_mem first)

/-- **Handles are put in their places.** -/
theorem Ascends.place {handles : List (Handle α)} (h : Ascends handles) (new : Handle α) :
    Ascends (place new handles) := by
  fun_induction Library.place new handles with
  | case1 => exact List.pairwise_singleton _ _
  | case2 first rest same =>
    obtain ⟨hfirst, hrest⟩ := List.pairwise_cons.mp h
    exact List.pairwise_cons.mpr ⟨fun x hx => same ▸ hfirst x hx, hrest⟩
  | case3 first rest _ hlt =>
    obtain ⟨hfirst, -⟩ := List.pairwise_cons.mp h
    refine List.pairwise_cons.mpr ⟨fun x hx => ?_, h⟩
    obtain rfl | hx := List.mem_cons.mp hx
    · exact hlt
    · exact hlt.trans (hfirst x hx)
  | case4 first rest hne hnlt ih =>
    obtain ⟨hfirst, hrest⟩ := List.pairwise_cons.mp h
    refine List.pairwise_cons.mpr ⟨fun x hx => ?_, ih hrest⟩
    obtain rfl | hx := mem_place hx
    · exact lt_of_le_of_ne (not_lt.mp hnlt) (Ne.symm hne)
    · exact hfirst x hx

/-- What is found after an addition. -/
theorem get?_add (l : Library α) (material : Material α) (name : String) :
    (l.add material).2.get? name
      = if material.name = name then some (l.add material).1 else l.get? name :=
  find?_place _ _ _

/-! ## Calls -/

/-- What is done with a library: a material is added, or a solid is built with it. -/
inductive Call (α : Type) where
  | add (material : Material α)
  | bind (s : SolidEntry α)

/-- **A library with all that it has given out**: the handles of the additions, and the solids that
were asked for, `none` standing for one whose material is missing. -/
structure Ledger (α : Type) where
  library : Library α
  handles : List (Handle α)
  solids : List (Option (Solid α))

namespace Ledger

variable [Scalar α]

/-- One call. -/
def next (u : Ledger α) : Call α → Ledger α
  | .add material =>
    { u with
      library := (u.library.add material).2
      handles := u.handles ++ [(u.library.add material).1] }
  | .bind s =>
    match s.build u.library ⟨(), []⟩ with
    | .ok solid _ => { u with solids := u.solids ++ [some solid] }
    | .error _ _ => { u with solids := u.solids ++ [none] }

/-- What has come of a run of calls on an empty library. -/
def after (calls : List (Call α)) : Ledger α := calls.foldl next ⟨.empty, [], []⟩

end Ledger

/-! ## What is expected of a run -/

/-- The materials that are added, in order. -/
def added : List (Call α) → List (Material α)
  | [] => []
  | .add material :: calls => material :: added calls
  | .bind _ :: calls => added calls

/-- **The handles of the additions**: each with the number of additions before it, so that no two
of them are the same. -/
def handlesOf (calls : List (Call α)) : List (Handle α) :=
  (added calls).zipIdx.map fun item => ⟨item.2, item.1⟩

/-- The handle of the last addition of a material with a name. -/
def lastNamed? (name : String) (handles : List (Handle α)) : Option (Handle α) :=
  (handles.filter fun handle => handle.material.name = name).getLast?

/-- The solid of an entry that is made of the last material with its name. -/
def boundTo? (handles : List (Handle α)) (s : SolidEntry α) : Option (Solid α) :=
  match s.material with
  | none => some (s.made none)
  | some name => (lastNamed? name handles).map fun handle => s.made (some handle.material)

section Expected

variable {name : String}

theorem added_append (calls more : List (Call α)) :
    added (calls ++ more) = added calls ++ added more := by
  induction calls with
  | nil => rfl
  | cons call calls ih =>
    cases call with
    | add material => exact congrArg (material :: ·) ih
    | bind s => exact ih

theorem length_handlesOf (calls : List (Call α)) :
    (handlesOf calls).length = (added calls).length := by
  rw [handlesOf, List.length_map, List.length_zipIdx]

/-- One more handle. -/
theorem handlesOf_append_add (calls : List (Call α)) (material : Material α) :
    handlesOf (calls ++ [.add material])
      = handlesOf calls ++ [⟨(handlesOf calls).length, material⟩] := by
  rw [length_handlesOf]
  unfold handlesOf
  rw [added_append, List.zipIdx_append, List.map_append, Nat.zero_add]
  rfl

theorem handlesOf_append_bind (calls : List (Call α)) (s : SolidEntry α) :
    handlesOf (calls ++ [.bind s]) = handlesOf calls := by
  have hadded : added (calls ++ [.bind s]) = added calls :=
    (added_append calls _).trans (List.append_nil _)
  unfold handlesOf
  rw [hadded]

theorem map_material_handlesOf (calls : List (Call α)) :
    (handlesOf calls).map (·.material) = added calls := by
  unfold handlesOf
  rw [List.map_map]
  exact List.zipIdx_map_fst 0 (added calls)

/-- The last handle with a name, after one more. -/
theorem lastNamed?_append_singleton (name : String) (handles : List (Handle α))
    (handle : Handle α) :
    lastNamed? name (handles ++ [handle])
      = if handle.material.name = name then some handle else lastNamed? name handles := by
  unfold lastNamed?
  rw [List.filter_append]
  by_cases hname : handle.material.name = name
  · simp [hname]
  · simp [hname]

/-- The last handle with a name is a handle with this name. -/
theorem mem_of_lastNamed? {handles : List (Handle α)} {handle : Handle α}
    (h : lastNamed? name handles = some handle) :
    handle ∈ handles ∧ handle.material.name = name := by
  obtain ⟨hmem, hname⟩ := List.mem_filter.mp (List.mem_of_getLast? h)
  exact ⟨hmem, of_decide_eq_true hname⟩

theorem isSome_lastNamed?_iff {handles : List (Handle α)} :
    (lastNamed? name handles).isSome = true ↔ ∃ handle ∈ handles, handle.material.name = name := by
  unfold lastNamed?
  rw [List.getLast?_isSome, ne_eq, List.filter_eq_nil_iff]
  simp

end Expected

/-! ## Runs -/

namespace Ledger

variable [Scalar α] {u : Ledger α} {calls : List (Call α)}

/-- **What one call keeps**: the names ascend, and under each of them is the handle of its last
addition. -/
structure IsKept (u : Ledger α) (calls : List (Call α)) : Prop where
  handles_eq : u.handles = handlesOf calls
  additions_eq : u.library.additions = u.handles.length
  get?_eq : ∀ name, u.library.get? name = lastNamed? name u.handles
  ascends : Ascends u.library.handles

/-- Binding a solid leaves the library alone. -/
theorem IsKept.next_bind (h : u.IsKept calls) (s : SolidEntry α) :
    u.next (.bind s) = { u with solids := u.solids ++ [boundTo? u.handles s] } := by
  unfold next boundTo?
  dsimp only
  cases hmaterial : s.material with
  | none => rw [SolidEntry.build_of_material_none hmaterial]
  | some name =>
    dsimp only
    have hget := h.get?_eq name
    cases hlast : lastNamed? name u.handles with
    | none =>
      rw [hlast] at hget
      rw [SolidEntry.build_of_get?_none hmaterial hget]
      rfl
    | some handle =>
      rw [hlast] at hget
      rw [SolidEntry.build_of_get?_some hmaterial hget]
      rfl

/-- **One call.** -/
theorem IsKept.next (h : u.IsKept calls) (call : Call α) :
    (u.next call).IsKept (calls ++ [call]) := by
  cases call with
  | add material =>
    have hnew : (u.library.add material).1 = ⟨u.handles.length, material⟩ :=
      congrArg (Handle.mk · material) h.additions_eq
    exact {
      handles_eq := by
        rw [handlesOf_append_add, ← h.handles_eq, ← hnew]
        rfl
      additions_eq := by
        show u.library.additions + 1 = (u.handles ++ [_]).length
        rw [h.additions_eq, List.length_append]
        rfl
      get?_eq := fun name => by
        show (u.library.add material).2.get? name = lastNamed? name (u.handles ++ [_])
        rw [get?_add, lastNamed?_append_singleton, material_add_fst, h.get?_eq]
      ascends := h.ascends.place _ }
  | bind s =>
    rw [h.next_bind]
    exact {
      handles_eq := by rw [handlesOf_append_bind]; exact h.handles_eq
      additions_eq := h.additions_eq
      get?_eq := h.get?_eq
      ascends := h.ascends }

theorem after_append_singleton (calls : List (Call α)) (call : Call α) :
    after (calls ++ [call]) = (after calls).next call := by
  unfold after
  rw [List.foldl_append]
  rfl

/-- **Any run.** -/
theorem isKept_after (calls : List (Call α)) : (after calls).IsKept calls := by
  -- From the end, since a call is judged by the ones before it.
  induction calls using List.reverseRecOn with
  | nil => exact ⟨rfl, rfl, fun _ => rfl, List.Pairwise.nil⟩
  | append_singleton calls call ih =>
    rw [after_append_singleton]
    exact ih.next call

/-- What has been given out is not taken back. -/
theorem exists_solids_foldl (calls : List (Call α)) (u : Ledger α) :
    ∃ rest, (calls.foldl next u).solids = u.solids ++ rest := by
  induction calls generalizing u with
  | nil => exact ⟨[], (List.append_nil _).symm⟩
  | cons call calls ih =>
    obtain ⟨rest, hrest⟩ := ih (u.next call)
    rw [List.foldl_cons, hrest]
    cases call with
    | add material => exact ⟨rest, rfl⟩
    | bind s =>
      unfold next
      dsimp only
      split
      · exact ⟨_, List.append_assoc _ _ _⟩
      · exact ⟨_, List.append_assoc _ _ _⟩

/-- **A solid stays as it was bound**, whatever is added later. -/
theorem exists_solids_after (before : List (Call α)) (s : SolidEntry α) (more : List (Call α)) :
    ∃ rest, (after (before ++ .bind s :: more)).solids
      = (after before).solids ++ boundTo? (handlesOf before) s :: rest := by
  have hrun : after (before ++ .bind s :: more)
      = more.foldl next ((after before).next (.bind s)) := by
    unfold after
    rw [List.foldl_append, List.foldl_cons]
  have hkept := isKept_after before
  obtain ⟨rest, hrest⟩ := exists_solids_foldl more ((after before).next (.bind s))
  refine ⟨rest, ?_⟩
  rw [hrun, hrest, hkept.next_bind, ← hkept.handles_eq]
  exact List.append_assoc _ _ _

/-- **A library that is known from its calls.** -/
structure Accounts (u : Ledger α) (calls : List (Call α)) : Prop where
  /-- Each addition has given out a handle of its own. -/
  handles_eq : u.handles = handlesOf calls
  /-- What is looked up is the handle of the last addition. -/
  get?_eq : ∀ name, u.library.get? name = lastNamed? name u.handles
  name_eq : ∀ name handle, u.library.get? name = some handle → handle.material.name = name
  /-- The names ascend byte by byte. -/
  names_ascend : u.library.names.Pairwise fun a b => a.toUTF8.toList < b.toUTF8.toList
  mem_names_iff : ∀ name, name ∈ u.library.names ↔ name ∈ (added calls).map (·.name)
  /-- There are as many materials as there are different names. -/
  size_eq : u.library.size = ((added calls).map (·.name)).toFinset.card
  isEmpty_iff : u.library.isEmpty = true ↔ added calls = []
  /-- A solid that was bound is still the one that was made of the last material by then. -/
  solids : ∀ before s more, calls = before ++ .bind s :: more → ∃ rest,
    u.solids = (after before).solids ++ boundTo? (handlesOf before) s :: rest

section Kept

omit [Scalar α]

theorem IsKept.mem_names_iff (h : u.IsKept calls) (name : String) :
    name ∈ u.library.names ↔ name ∈ (added calls).map (·.name) := by
  rw [Library.mem_names_iff, h.get?_eq, isSome_lastNamed?_iff, h.handles_eq,
    ← map_material_handlesOf, List.map_map, List.mem_map]
  rfl

theorem IsKept.nodup_names (h : u.IsKept calls) : u.library.names.Nodup :=
  (List.pairwise_map.mpr h.ascends).imp fun hlt => ne_of_lt hlt

theorem IsKept.size_eq (h : u.IsKept calls) :
    u.library.size = ((added calls).map (·.name)).toFinset.card := by
  have hsame : u.library.names.toFinset = ((added calls).map (·.name)).toFinset := by
    ext name
    rw [List.mem_toFinset, List.mem_toFinset, h.mem_names_iff]
  rw [← hsame, List.toFinset_card_of_nodup h.nodup_names, names, List.length_map]
  rfl

theorem IsKept.isEmpty_iff (h : u.IsKept calls) :
    u.library.isEmpty = true ↔ added calls = [] := by
  have hempty : u.library.isEmpty = true ↔ u.library.names = [] := by
    unfold isEmpty names
    rw [List.isEmpty_iff, List.map_eq_nil_iff]
  rw [hempty, ← List.map_eq_nil_iff (f := fun material : Material α => material.name),
    List.eq_nil_iff_forall_not_mem, List.eq_nil_iff_forall_not_mem]
  simp only [h.mem_names_iff]

end Kept

/-- **Any run accounts for its calls.** -/
theorem accounts_after (calls : List (Call α)) : (after calls).Accounts calls where
  handles_eq := (isKept_after calls).handles_eq
  get?_eq := (isKept_after calls).get?_eq
  name_eq := fun _ _ => name_of_get?
  names_ascend := (List.pairwise_map.mpr (isKept_after calls).ascends).imp toUTF8_lt_toUTF8
  mem_names_iff := (isKept_after calls).mem_names_iff
  size_eq := (isKept_after calls).size_eq
  isEmpty_iff := (isKept_after calls).isEmpty_iff
  solids := by
    rintro before s more rfl
    exact exists_solids_after before s more

end Ledger

end Library

end WeakForm
