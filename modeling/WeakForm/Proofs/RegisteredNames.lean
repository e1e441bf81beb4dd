import Mathlib
import WeakForm.Proofs.Runs
import WeakForm.Quantity.Registry

/-!
# Registered names

A registry is searched in two ways, by tag and by name. Its order is by tag, so nothing in the way
it is stored keeps two entries from sharing a name, and then a look-up would give whichever tag
comes first. What keeps them apart is that `register` looks before it writes. So the invariant has
two halves (`Registry.IsConsistent`): tags ascend, and no two names are the same up to the case of
ASCII letters. One registration preserves it, hence any run of registrations does, successful or
refused in any order (`Registry.IsConsistent.after`).

Under the invariant a search has one possible outcome, and **tags and names determine each other**
(`Registry.IsIndex`).
-/

namespace WeakForm

/-! ## Names -/

theorem sameName_iff {a b : String} :
    sameName a b = true ↔ a.toList.map foldCase = b.toList.map foldCase :=
  beq_iff_eq

theorem sameName_comm (a b : String) : sameName a b = sameName b a :=
  Bool.eq_iff_iff.mpr (by rw [sameName_iff, sameName_iff, eq_comm])

/-- Names that are the same as a third one are the same. -/
theorem sameName_of_sameName {a b c : String} (ha : sameName a c = true)
    (hb : sameName b c = true) : sameName a b = true :=
  sameName_iff.mpr ((sameName_iff.mp ha).trans (sameName_iff.mp hb).symm)

/-- A search among items no two of which fit finds the one that fits. -/
theorem find?_eq_some_iff_of_pairwise {β : Type} {p : β → Bool} {items : List β}
    (h : items.Pairwise fun a b => p a = true → p b = false) {b : β} :
    items.find? p = some b ↔ b ∈ items ∧ p b = true := by
  refine ⟨fun hfind => ⟨List.mem_of_find?_eq_some hfind, List.find?_some hfind⟩, ?_⟩
  rintro ⟨hmem, hb⟩
  induction items with
  | nil => cases hmem
  | cons first rest ih =>
    obtain ⟨hfirst, hrest⟩ := List.pairwise_cons.mp h
    rcases List.mem_cons.mp hmem with rfl | hmem
    · exact List.find?_cons_of_pos hb
    · have hno : ¬ p first = true := fun hp => Bool.false_ne_true ((hfirst b hmem hp).symm.trans hb)
      rw [List.find?_cons_of_neg hno]
      exact ih hrest hmem

namespace Registry

variable {r r' : Registry} {tag : QuantityTag} {name description : String}

/-! ## Entries -/

/-- Whether a name is registered, in any case of its ASCII letters. -/
def Knows (r : Registry) (name : String) : Prop :=
  ∃ entry ∈ r.entries, sameName entry.2.name name = true

instance (r : Registry) (name : String) : Decidable (r.Knows name) :=
  inferInstanceAs (Decidable (∃ entry ∈ r.entries, _))

theorem exists_lookup?_iff {r : Registry} {name : String} :
    (∃ tag, r.lookup? name = some tag) ↔ r.Knows name := by
  unfold lookup? Knows
  rw [← Option.isSome_iff_exists, Option.isSome_map, List.find?_isSome]

theorem lookup?_eq_none_iff : r.lookup? name = none ↔ ¬ r.Knows name := by
  rw [← exists_lookup?_iff, ← Option.isSome_iff_exists, Option.not_isSome_iff_eq_none]

theorem info?_eq_none_iff : r.info? tag = none ↔ ∀ entry ∈ r.entries, entry.1 ≠ tag := by
  simp [info?]

theorem name?_eq_some_iff {existing : String} :
    r.name? tag = some existing ↔ ∃ info, r.info? tag = some info ∧ info.name = existing := by
  simp [name?]

theorem insertEntry_perm (entry : QuantityTag × QuantityInfo)
    (entries : List (QuantityTag × QuantityInfo)) :
    (insertEntry entry entries).Perm (entry :: entries) := by
  induction entries with
  | nil => exact List.Perm.refl _
  | cons first rest ih =>
    unfold insertEntry
    split
    · exact List.Perm.refl _
    · exact (ih.cons first).trans (List.Perm.swap _ _ _)

theorem mem_insertEntry {x entry : QuantityTag × QuantityInfo}
    {entries : List (QuantityTag × QuantityInfo)} :
    x ∈ insertEntry entry entries ↔ x = entry ∨ x ∈ entries := by
  rw [(insertEntry_perm entry entries).mem_iff, List.mem_cons]

/-- An entry with a tag of its own is put where its tag belongs. -/
theorem pairwise_insertEntry {entry : QuantityTag × QuantityInfo}
    {entries : List (QuantityTag × QuantityInfo)} (hnew : ∀ x ∈ entries, x.1 ≠ entry.1)
    (h : entries.Pairwise fun a b => a.1.number < b.1.number) :
    (insertEntry entry entries).Pairwise fun a b => a.1.number < b.1.number := by
  induction entries with
  | nil => exact List.pairwise_singleton _ _
  | cons first rest ih =>
    obtain ⟨hfirst, hrest⟩ := List.pairwise_cons.mp h
    unfold insertEntry
    split
    · rename_i hlt
      refine List.pairwise_cons.mpr ⟨fun x hx => ?_, h⟩
      rcases List.mem_cons.mp hx with rfl | hx
      · exact hlt
      · exact hlt.trans (hfirst x hx)
    · rename_i hle
      have hne : first.1.number ≠ entry.1.number := fun heq =>
        hnew first List.mem_cons_self (congrArg QuantityTag.mk heq)
      refine List.pairwise_cons.mpr
        ⟨fun x hx => ?_, ih (fun x hx => hnew x (List.mem_cons_of_mem _ hx)) hrest⟩
      rcases mem_insertEntry.mp hx with rfl | hx
      · omega
      · exact hfirst x hx

/-! ## One registration -/

section Register

variable {α : Type}

/-- **What is registered is new**, by its tag and by its name. -/
theorem register_eq_ok_iff :
    register (α := α) tag name description r = .ok () r'
      ↔ (r.info? tag = none ∧ ¬ r.Knows name)
        ∧ r' = ⟨insertEntry (tag, ⟨name, description⟩) r.entries⟩ := by
  unfold register name?
  rw [← lookup?_eq_none_iff, get_bind_apply]
  cases r.info? tag with
  | some info => simp
  | none => cases r.lookup? name <;> simp [eq_comm]

/-- **The two reasons for a refusal**, the tag before the name. Nothing is written before it. -/
theorem register_eq_error_iff {e : ModelError α} :
    register tag name description r = .error e r'
      ↔ r' = r ∧ ((∃ existing, r.name? tag = some existing ∧ e = .quantityCollision tag existing)
        ∨ r.name? tag = none
          ∧ ∃ holder, r.lookup? name = some holder ∧ e = .quantityCollision holder name) := by
  unfold register
  rw [get_bind_apply]
  cases r.name? tag with
  | some existing => simp [eq_comm, and_comm]
  | none => cases r.lookup? name <;> simp [eq_comm, and_comm]

end Register

/-- **The invariant of a registry**: tags ascend, and no two names are the same. -/
structure IsConsistent (r : Registry) : Prop where
  ascending : r.entries.Pairwise fun a b => a.1.number < b.1.number
  distinct : r.entries.Pairwise fun a b => sameName a.2.name b.2.name = false

theorem isConsistent_empty : empty.IsConsistent := ⟨List.Pairwise.nil, List.Pairwise.nil⟩

theorem isConsistent_builtin : builtin.IsConsistent := ⟨by decide, by decide⟩

namespace IsConsistent

/-- Under a tag there is what is listed with it. -/
theorem info?_eq_some_iff (h : r.IsConsistent) {info : QuantityInfo} :
    r.info? tag = some info ↔ (tag, info) ∈ r.entries := by
  have hone : r.entries.Pairwise fun a b =>
      decide (a.1 = tag) = true → decide (b.1 = tag) = false :=
    h.ascending.imp fun hlt ha => decide_eq_false fun hb =>
      hlt.ne (congrArg QuantityTag.number ((of_decide_eq_true ha).trans hb.symm))
  unfold info?
  rw [Option.map_eq_some_iff]
  constructor
  · rintro ⟨⟨found, info⟩, hfind, rfl⟩
    obtain ⟨hmem, htag⟩ := (find?_eq_some_iff_of_pairwise hone).mp hfind
    obtain rfl : found = tag := of_decide_eq_true htag
    exact hmem
  · intro hmem
    exact ⟨(tag, info), (find?_eq_some_iff_of_pairwise hone).mpr ⟨hmem, decide_eq_true rfl⟩, rfl⟩

/-- **A name is that of one tag.** -/
theorem lookup?_eq_some_iff (h : r.IsConsistent) :
    r.lookup? name = some tag
      ↔ ∃ info, (tag, info) ∈ r.entries ∧ sameName info.name name = true := by
  have hone : r.entries.Pairwise fun a b =>
      sameName a.2.name name = true → sameName b.2.name name = false :=
    h.distinct.imp fun hab ha => Bool.eq_false_iff.mpr fun hb =>
      Bool.false_ne_true (hab.symm.trans (sameName_of_sameName ha hb))
  unfold lookup?
  rw [Option.map_eq_some_iff]
  constructor
  · rintro ⟨⟨found, info⟩, hfind, rfl⟩
    exact ⟨info, (find?_eq_some_iff_of_pairwise hone).mp hfind⟩
  · rintro ⟨info, hfits⟩
    exact ⟨(tag, info), (find?_eq_some_iff_of_pairwise hone).mpr hfits, rfl⟩

/-- **One registration preserves the invariant.** -/
theorem insertEntry (h : r.IsConsistent) (htag : r.info? tag = none) (hname : ¬ r.Knows name)
    (description : String) :
    IsConsistent ⟨Registry.insertEntry (tag, ⟨name, description⟩) r.entries⟩ where
  ascending := pairwise_insertEntry (info?_eq_none_iff.mp htag) h.ascending
  distinct := by
    -- being different does not depend on the order, so the new entry may as well come first
    refine ((insertEntry_perm _ _).pairwise_iff fun {a b} hab => ?_).mpr
      (List.pairwise_cons.mpr ⟨fun entry hentry => ?_, h.distinct⟩)
    · rw [sameName_comm, hab]
    · rw [sameName_comm]
      exact Bool.eq_false_iff.mpr fun hsame => hname ⟨entry, hentry, hsame⟩

end IsConsistent

/-! ## Runs -/

/-- What `register` is asked for. -/
structure Registration where
  tag : QuantityTag
  name : String
  description : String

variable (α : Type)

/-- What a registration leaves, whether it succeeds or is refused. -/
def next (r : Registry) (call : Registration) : Registry :=
  match register (α := α) call.tag call.name call.description r with
  | .ok _ r' => r'
  | .error _ r' => r'

/-- What a run of registrations leaves. -/
def after (r : Registry) (calls : List Registration) : Registry := calls.foldl (next α) r

variable {α}

/-- A registration leaves the registry as it was, or with one more entry. -/
theorem next_cases (r : Registry) (call : Registration) :
    r.next α call = r
      ∨ (r.info? call.tag = none ∧ ¬ r.Knows call.name)
        ∧ r.next α call = ⟨insertEntry (call.tag, ⟨call.name, call.description⟩) r.entries⟩ := by
  unfold next
  split
  · rename_i hregister
    exact Or.inr (register_eq_ok_iff.mp hregister)
  · rename_i hregister
    exact Or.inl (register_eq_error_iff.mp hregister).1

theorem IsConsistent.next (h : r.IsConsistent) (call : Registration) :
    (r.next α call).IsConsistent := by
  obtain hsame | ⟨⟨htag, hname⟩, hnext⟩ := r.next_cases (α := α) call
  · rwa [hsame]
  · rw [hnext]
    exact h.insertEntry htag hname _

/-- No entry is lost. -/
theorem entries_subset_next (r : Registry) (call : Registration) :
    r.entries ⊆ (r.next α call).entries := by
  obtain hsame | ⟨-, hnext⟩ := r.next_cases (α := α) call
  · rw [hsame]
    exact List.Subset.refl _
  · rw [hnext]
    exact fun entry hentry => mem_insertEntry.mpr (Or.inr hentry)

/-- **Every run preserves the invariant.** -/
theorem IsConsistent.after (h : r.IsConsistent) (calls : List Registration) :
    (r.after α calls).IsConsistent := by
  induction calls generalizing r with
  | nil => exact h
  | cons call calls ih => exact ih (h.next call)

theorem entries_subset_after (r : Registry) (calls : List Registration) :
    r.entries ⊆ (r.after α calls).entries := by
  induction calls generalizing r with
  | nil => exact List.Subset.refl _
  | cons call calls ih => exact List.Subset.trans (r.entries_subset_next call) (ih _)

/-! ## Indices -/

variable (α)

/-- **A registry is an index**: tags and names, in any case of their ASCII letters, determine each
other; a registration succeeds if both are new, and adds them; a refused one changes nothing. -/
structure IsIndex (r : Registry) : Prop where
  /-- No two entries have the same name. -/
  distinct : r.entries.Pairwise fun a b => sameName a.2.name b.2.name = false
  /-- The entries are listed by ascending tags, each tag once. -/
  ascending : r.entries.Pairwise fun a b => a.1.number < b.1.number
  mem_entries_iff : ∀ tag info, (tag, info) ∈ r.entries ↔ r.info? tag = some info
  size_eq : r.size = {tag | r.info? tag ≠ none}.ncard
  lookup?_eq_some_iff : ∀ n tag,
    r.lookup? n = some tag ↔ ∃ name, r.name? tag = some name ∧ sameName name n = true
  /-- What is registered is new, and only that. -/
  exists_register_iff : ∀ tag name description,
    (∃ r', register (α := α) tag name description r = .ok () r')
      ↔ r.name? tag = none
        ∧ ∀ t existing, r.name? t = some existing → sameName existing name = false
  /-- What has been registered is found, and all else as before. -/
  register_ok : ∀ tag name description r',
    register (α := α) tag name description r = .ok () r' →
      r.next α ⟨tag, name, description⟩ = r'
        ∧ r'.info? tag = some ⟨name, description⟩
        ∧ (∀ n, sameName name n = true → r'.lookup? n = some tag)
        ∧ ∀ t info, r.info? t = some info → r'.info? t = some info
  register_error : ∀ tag name description (e : ModelError α) r',
    register tag name description r = .error e r' →
      r.next α ⟨tag, name, description⟩ = r' ∧ r' = r

variable {α}

/-- The number of entries is that of the tags. -/
theorem IsConsistent.size_eq (h : r.IsConsistent) :
    r.size = {tag | r.info? tag ≠ none}.ncard := by
  have hnodup : (r.entries.map (·.1)).Nodup :=
    List.pairwise_map.mpr (h.ascending.imp fun hlt heq => hlt.ne (congrArg QuantityTag.number heq))
  have htags : {tag | r.info? tag ≠ none} = ((r.entries.map (·.1)).toFinset : Set QuantityTag) := by
    ext tag
    simp [info?_eq_none_iff]
  rw [htags, Set.ncard_coe_finset, List.toFinset_card_of_nodup hnodup, List.length_map]
  rfl

/-- **A consistent registry is an index.** -/
theorem IsConsistent.isIndex (h : r.IsConsistent) : r.IsIndex α where
  distinct := h.distinct
  ascending := h.ascending
  mem_entries_iff := fun tag info => h.info?_eq_some_iff.symm
  size_eq := h.size_eq
  lookup?_eq_some_iff := by
    intro n tag
    simp only [h.lookup?_eq_some_iff, name?_eq_some_iff, h.info?_eq_some_iff]
    constructor
    · rintro ⟨info, hmem, hsame⟩
      exact ⟨info.name, ⟨info, hmem, rfl⟩, hsame⟩
    · rintro ⟨name, ⟨info, hmem, rfl⟩, hsame⟩
      exact ⟨info, hmem, hsame⟩
  exists_register_iff := by
    intro tag name description
    have hfree : ¬ r.Knows name
        ↔ ∀ t existing, r.name? t = some existing → sameName existing name = false := by
      simp only [Knows, name?_eq_some_iff, h.info?_eq_some_iff, not_exists, not_and,
        Bool.not_eq_true]
      constructor
      · rintro hnone t existing ⟨info, hmem, rfl⟩
        exact hnone (t, info) hmem
      · intro hnone entry hmem
        exact hnone entry.1 _ ⟨entry.2, hmem, rfl⟩
    simp only [register_eq_ok_iff, exists_and_left, exists_eq, and_true, hfree, name?,
      Option.map_eq_none_iff]
  register_ok := by
    intro tag name description r' hregister
    obtain ⟨⟨htag, hname⟩, rfl⟩ := register_eq_ok_iff.mp hregister
    have h' := h.insertEntry htag hname description
    have hnew : (tag, ⟨name, description⟩)
        ∈ Registry.insertEntry (tag, ⟨name, description⟩) r.entries :=
      mem_insertEntry.mpr (Or.inl rfl)
    refine ⟨?_, h'.info?_eq_some_iff.mpr hnew, fun n hn => ?_, fun t info hold => ?_⟩
    · simp only [Registry.next, hregister]
    · exact h'.lookup?_eq_some_iff.mpr ⟨_, hnew, hn⟩
    · exact h'.info?_eq_some_iff.mpr
        (mem_insertEntry.mpr (Or.inr (h.info?_eq_some_iff.mp hold)))
  register_error := by
    intro tag name description e r' hregister
    refine ⟨?_, (register_eq_error_iff.mp hregister).1⟩
    simp only [Registry.next, hregister]

/-- What is registered under a tag stays registered under it. -/
theorem IsConsistent.info?_after (h : r.IsConsistent) (calls : List Registration)
    {info : QuantityInfo} (hinfo : r.info? tag = some info) :
    (r.after α calls).info? tag = some info :=
  (h.after calls).info?_eq_some_iff.mpr
    (r.entries_subset_after calls (h.info?_eq_some_iff.mp hinfo))

/-- **Every registry that is reached is an index**, from no entries and from the built-in ones, by
any run of registrations; and the built-in entries stay what they are. -/
theorem isIndex_after (α : Type) (calls : List Registration) :
    (empty.after α calls).IsIndex α ∧ (builtin.after α calls).IsIndex α
      ∧ ∀ tag info, builtin.info? tag = some info →
        (builtin.after α calls).info? tag = some info :=
  ⟨(isConsistent_empty.after calls).isIndex, (isConsistent_builtin.after calls).isIndex,
    fun _ _ hinfo => isConsistent_builtin.info?_after calls hinfo⟩

end Registry

end WeakForm
