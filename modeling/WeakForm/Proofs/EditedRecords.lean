import WeakForm.Proofs.StoredRecords

/-!
# Records in another form

A file may be written by hand: its objects have their members in any order, and members that say
nothing new are left out (`Json.Edited`). What may be left out is a parameter here, a condition on
the name and the value of a member. **A reader follows the edits of a value** (`Follows`) if it
reads from the edited value what it reads from the value itself, or something that stands for it.
A reader is made of other readers, one after the other, so the statement is about pairs of results
(`Carries`) and is put together like the reader.

An object is read slot by slot, so an edit comes down to what happens to each slot
(`EditedSlot`): its value has been edited, or it has become empty. The order of the members is gone
by then, since a slot is found by its name wherever it stands (`exists_slot?_of_edited`). A tagged
record is no exception, although its members are stored before they are read: what can be stored can
be stored in any order, and with members left out (`storable_of_edited`).
-/

namespace WeakForm

namespace Json

/-! ## Results that carry over -/

section Carries

variable {β γ : Type} {same : β → β → Prop} {same' : γ → γ → Prop}

/-- **What one reader gives has a counterpart in what another one gives.** -/
def Carries (same : β → β → Prop) (o o' : Option β) : Prop :=
  ∀ b, o = some b → ∃ b', o' = some b' ∧ same b b'

namespace Carries

variable {o o' : Option β}

theorem none : Carries same Option.none o := nofun

theorem pure {b b' : β} (h : same b b') : Carries same (some b) (some b') :=
  fun _ hb => ⟨b', rfl, Option.some.inj hb ▸ h⟩

theorem refl (h : ∀ b, same b b) : Carries same o o := fun b hb => ⟨b, hb, h b⟩

/-- One reader after another. -/
theorem bind (h : Carries same o o') {f f' : β → Option γ}
    (hf : ∀ b b', same b b' → Carries same' (f b) (f' b')) :
    Carries same' (o.bind f) (o'.bind f') := by
  intro c hc
  obtain ⟨b, hb, hc⟩ := Option.bind_eq_some_iff.mp hc
  obtain ⟨b', hb', hsame⟩ := h b hb
  obtain ⟨c', hc', hsame'⟩ := hf b b' hsame c hc
  exact ⟨c', Option.bind_eq_some_iff.mpr ⟨b', hb', hc'⟩, hsame'⟩

theorem map (h : Carries same o o') {f : β → γ} (hf : ∀ b b', same b b' → same' (f b) (f b')) :
    Carries same' (o.map f) (o'.map f) := by
  rw [Option.map_eq_bind, Option.map_eq_bind]
  exact h.bind fun b b' hsame => .pure (hf b b' hsame)

/-- Items are read one by one. -/
theorem mapM {δ : Type} {r : δ → δ → Prop} {read : δ → Option β} {items items' : List δ}
    (hitems : List.Forall₂ r items items')
    (h : ∀ item item', r item item' → Carries same (read item) (read item')) :
    Carries (List.Forall₂ same) (items.mapM read) (items'.mapM read) := by
  induction hitems with
  | nil => exact .pure .nil
  | cons hitem _ ih =>
    rw [List.mapM_cons, List.mapM_cons]
    exact (h _ _ hitem).bind fun _ _ hsame => ih.bind fun _ _ hrest => .pure (.cons hsame hrest)

end Carries

end Carries

/-! ## Edits -/

mutual

/-- **A value in another form**: in each object the members that may be omitted may be missing, and
the other ones stand in any order. -/
inductive Edited (mayOmit : String → Json → Prop) : Json → Json → Prop
  | refl (v : Json) : Edited mayOmit v v
  | array {items items' : List Json} (h : EditedItems mayOmit items items') :
    Edited mayOmit (.array items) (.array items')
  | object {members kept members' : List (Option String × Json)}
    (h : EditedMembers mayOmit members kept) (hperm : kept.Perm members') :
    Edited mayOmit (.object members) (.object members')

/-- The items of an array in another form. -/
inductive EditedItems (mayOmit : String → Json → Prop) : List Json → List Json → Prop
  | nil : EditedItems mayOmit [] []
  | cons {v w : Json} {items items' : List Json} (h : Edited mayOmit v w)
    (hitems : EditedItems mayOmit items items') : EditedItems mayOmit (v :: items) (w :: items')

/-- The members of an object that are kept, in their order and in another form. -/
inductive EditedMembers (mayOmit : String → Json → Prop) :
    List (Option String × Json) → List (Option String × Json) → Prop
  | nil : EditedMembers mayOmit [] []
  | keep (name : Option String) {v w : Json} {members kept : List (Option String × Json)}
    (h : Edited mayOmit v w) (hmembers : EditedMembers mayOmit members kept) :
    EditedMembers mayOmit ((name, v) :: members) ((name, w) :: kept)
  | leaveOut {name : String} {v : Json} {members kept : List (Option String × Json)}
    (h : mayOmit name v) (hmembers : EditedMembers mayOmit members kept) :
    EditedMembers mayOmit ((some name, v) :: members) kept

end

variable {mayOmit : String → Json → Prop} {β : Type}

theorem EditedItems.forall₂ {items items' : List Json} (h : EditedItems mayOmit items items') :
    List.Forall₂ (Edited mayOmit) items items' := by
  induction items generalizing items' with
  | nil =>
    cases h
    exact .nil
  | cons item items ih =>
    cases h with
    | cons h hitems => exact .cons h (ih hitems)

theorem EditedMembers.refl :
    ∀ members : List (Option String × Json), EditedMembers mayOmit members members
  | [] => .nil
  | (name, value) :: members => .keep name (.refl value) (.refl members)

/-- An array in another form is an array. -/
theorem Edited.exists_array {items : List Json} {w : Json} (h : Edited mayOmit (.array items) w) :
    ∃ items', w = .array items' ∧ List.Forall₂ (Edited mayOmit) items items' := by
  cases h with
  | refl => exact ⟨items, rfl, List.forall₂_same.mpr fun item _ => .refl item⟩
  | array h => exact ⟨_, rfl, h.forall₂⟩

/-- An object in another form is an object. -/
theorem Edited.exists_object {members : List (Option String × Json)} {w : Json}
    (h : Edited mayOmit (.object members) w) :
    ∃ kept members', w = .object members' ∧ EditedMembers mayOmit members kept
      ∧ kept.Perm members' := by
  cases h with
  | refl => exact ⟨members, members, rfl, .refl members, .refl members⟩
  | object h hperm => exact ⟨_, _, rfl, h, hperm⟩

/-- Members are picked by their names before or after an edit. -/
theorem EditedMembers.filter {members kept : List (Option String × Json)}
    (h : EditedMembers mayOmit members kept) (p : Option String → Bool) :
    EditedMembers mayOmit (members.filter fun member => p member.1)
      (kept.filter fun member => p member.1) := by
  induction members generalizing kept with
  | nil =>
    cases h
    exact .nil
  | cons member members ih =>
    cases h with
    | keep name h hmembers =>
      rw [List.filter_cons, List.filter_cons]
      cases p name with
      | true => exact .keep name h (ih hmembers)
      | false => exact ih hmembers
    | @leaveOut name _ _ _ h hmembers =>
      rw [List.filter_cons]
      cases p (some name) with
      | true => exact .leaveOut h (ih hmembers)
      | false => exact ih hmembers

/-! ## Slots -/

/-- **A slot in another form**: its value has been edited, or has been left out. -/
inductive EditedSlot (mayOmit : String → Json → Prop) (name : String) :
    Option Json → Option Json → Prop
  | empty : EditedSlot mayOmit name none none
  | keep {v w : Json} (h : Edited mayOmit v w) : EditedSlot mayOmit name (some v) (some w)
  | leaveOut {v : Json} (h : mayOmit name v) : EditedSlot mayOmit name (some v) none

/-- One slot for each field, each in another form. -/
inductive EditedSlots (mayOmit : String → Json → Prop) :
    List String → List (Option Json) → List (Option Json) → Prop
  | nil : EditedSlots mayOmit [] [] []
  | cons {name : String} {slot slot' : Option Json} {fields : List String}
    {slots slots' : List (Option Json)} (h : EditedSlot mayOmit name slot slot')
    (hslots : EditedSlots mayOmit fields slots slots') :
    EditedSlots mayOmit (name :: fields) (slot :: slots) (slot' :: slots')

/-- The names of members are texts if the members are named ones. -/
theorem named?_eq_some_iff {members : List (Option String × Json)} {named : List (String × Json)} :
    named? members = some named ↔ members = named.map fun member => (some member.1, member.2) := by
  constructor
  · intro h
    induction members generalizing named with
    | nil =>
      cases h
      rfl
    | cons member members ih =>
      unfold named? at h ih
      rw [List.mapM_cons] at h
      obtain ⟨first, hfirst, h⟩ := Option.bind_eq_some_iff.mp h
      obtain ⟨rest, hrest, h⟩ := Option.bind_eq_some_iff.mp h
      cases h
      obtain ⟨_ | name, value⟩ := member
      · cases hfirst
      · cases hfirst
        rw [List.map_cons, ← ih hrest]
  · rintro rfl
    exact named?_record named

/-- What is kept of named members has names. -/
theorem EditedMembers.exists_named {named : List (String × Json)}
    {kept : List (Option String × Json)}
    (h : EditedMembers mayOmit (named.map fun member => (some member.1, member.2)) kept) :
    ∃ named' : List (String × Json), kept = named'.map fun member => (some member.1, member.2) := by
  induction named generalizing kept with
  | nil =>
    cases h
    exact ⟨[], rfl⟩
  | cons member named ih =>
    cases h with
    | @keep _ _ w _ _ _ hmembers =>
      obtain ⟨named', rfl⟩ := ih hmembers
      exact ⟨(member.1, w) :: named', rfl⟩
    | leaveOut _ hmembers => exact ih hmembers

/-- What is looked up in an object are the members with a name. -/
theorem map_filter_eq (name : String) (named : List (String × Json)) :
    (named.filter fun member => decide (member.1 = name)).map
        (fun member => (some member.1, member.2))
      = (named.map fun member => (some member.1, member.2)).filter
          fun member => decide (member.1 = some name) := by
  rw [List.filter_map]
  simp only [Function.comp_def, Option.some.injEq]

/-- The slot of a name is filled by the only member that has it. -/
theorem slot?_eq_some_iff {name : String} {named : List (String × Json)} {slot : Option Json} :
    slot? name named = some slot
      ↔ (named.filter fun member => decide (member.1 = name))
        = slot.toList.map fun value => (name, value) := by
  unfold slot?
  split
  · next hfilter =>
    rw [hfilter, Option.some.injEq]
    cases slot <;> simp
  · next other value hfilter =>
    have hname : other = name := by
      have hmem : (other, value) ∈ named.filter fun member => decide (member.1 = name) := by
        rw [hfilter]
        exact List.mem_singleton_self _
      simpa using (List.mem_filter.mp hmem).2
    rw [hfilter, Option.some.injEq, hname]
    cases slot <;> simp
  · next hnil hone =>
    refine iff_of_false nofun fun h => ?_
    cases slot with
    | none => exact hnil h
    | some value => exact hone name value h

/-- **A slot is found wherever it stands**, and has been edited or left out. -/
theorem carries_slot? {named named' : List (String × Json)} {kept : List (Option String × Json)}
    (h : EditedMembers mayOmit (named.map fun member => (some member.1, member.2)) kept)
    (hperm : kept.Perm (named'.map fun member => (some member.1, member.2))) (name : String) :
    Carries (EditedSlot mayOmit name) (slot? name named) (slot? name named') := by
  intro slot hslot
  have hmembers := h.filter fun n => decide (n = some name)
  rw [← map_filter_eq, slot?_eq_some_iff.mp hslot] at hmembers
  have hsame := hperm.filter fun member => decide (member.1 = some name)
  rw [← map_filter_eq] at hsame
  generalize kept.filter _ = found at hmembers hsame
  -- at most one member has the name, so that there is nothing to permute
  cases slot with
  | none =>
    cases hmembers
    have hnone := List.map_eq_nil_iff.mp (List.nil_perm.mp hsame)
    exact ⟨none, slot?_eq_some_iff.mpr hnone, .empty⟩
  | some v =>
    cases hmembers with
    | keep _ hv hrest =>
      cases hrest
      obtain ⟨member, hmember, heq⟩ :=
        List.map_eq_singleton_iff.mp (List.singleton_perm.mp hsame).symm
      obtain ⟨hname, hvalue⟩ := Prod.mk.inj heq
      refine ⟨some member.2, slot?_eq_some_iff.mpr ?_, .keep (hvalue ▸ hv)⟩
      rw [hmember]
      exact congrArg (fun n => [(n, member.2)]) (Option.some.inj hname)
    | leaveOut hv hrest =>
      cases hrest
      have hnone := List.map_eq_nil_iff.mp (List.nil_perm.mp hsame)
      exact ⟨none, slot?_eq_some_iff.mpr hnone, .leaveOut hv⟩

/-- Members that are kept are named like those that were there. -/
theorem carries_named? {members kept members' : List (Option String × Json)}
    (h : EditedMembers mayOmit members kept) (hperm : kept.Perm members') :
    Carries (fun named named' => ∀ name,
        Carries (EditedSlot mayOmit name) (slot? name named) (slot? name named'))
      (named? members) (named? members') := by
  intro named hnamed
  obtain rfl := named?_eq_some_iff.mp hnamed
  obtain ⟨keptNamed, rfl⟩ := h.exists_named
  have himage := (congrFun₂ (List.eq_map_comp_perm fun member : String × Json =>
    (some member.1, member.2)) members' keptNamed).mpr hperm.symm
  obtain ⟨named', rfl, -⟩ := himage
  exact ⟨named', named?_record named', carries_slot? h hperm⟩

/-- The fields of an object are looked up one by one. -/
theorem carries_fields {named named' : List (String × Json)}
    (h : ∀ name, Carries (EditedSlot mayOmit name) (slot? name named) (slot? name named'))
    (fields : List String) :
    Carries (EditedSlots mayOmit fields) (fields.mapM (slot? · named))
      (fields.mapM (slot? · named')) := by
  induction fields with
  | nil => exact .pure .nil
  | cons name fields ih =>
    rw [List.mapM_cons, List.mapM_cons]
    exact (h name).bind fun _ _ hslot => ih.bind fun _ _ hslots => .pure (.cons hslot hslots)

/-- The fields of an array are its items. -/
theorem editedSlots_of_items {items items' : List Json}
    (h : List.Forall₂ (Edited mayOmit) items items') {fields : List String}
    (hlength : items.length ≤ fields.length) :
    EditedSlots mayOmit fields
      (items.map some ++ List.replicate (fields.length - items.length) none)
      (items'.map some ++ List.replicate (fields.length - items'.length) none) := by
  induction fields generalizing items items' with
  | nil =>
    obtain rfl := List.eq_nil_of_length_eq_zero (Nat.le_zero.mp hlength)
    cases h
    exact .nil
  | cons name fields ih =>
    cases h with
    | nil => exact .cons .empty (ih .nil (Nat.zero_le _))
    | cons h hitems =>
      rw [List.length_cons, List.length_cons, Nat.add_le_add_iff_right] at hlength
      have hrest := ih hitems hlength
      simp only [List.length_cons, Nat.add_sub_add_right]
      exact .cons (.keep h) hrest

/-- **One slot for each field**: a record in another form has its slots in another form. -/
theorem carries_slots? {v w : Json} (h : Edited mayOmit v w) (fields : List String) :
    Carries (EditedSlots mayOmit fields) (slots? fields v) (slots? fields w) := by
  cases v with
  | object members =>
    obtain ⟨kept, members', rfl, hmembers, hperm⟩ := h.exists_object
    exact (carries_named? hmembers hperm).bind fun _ _ hslots => carries_fields hslots fields
  | array items =>
    obtain ⟨items', rfl, hitems⟩ := h.exists_array
    unfold slots?
    dsimp only
    rw [← hitems.length_eq]
    by_cases hlength : items.length ≤ fields.length
    · rw [if_pos hlength, if_pos hlength]
      have hslots := editedSlots_of_items hitems hlength
      rw [← hitems.length_eq] at hslots
      exact .pure hslots
    · rw [if_neg hlength]
      exact .none
  | null => exact .none
  | bool b => exact .none
  | number n => exact .none
  | text s => exact .none

/-! ## Readers -/

/-- **A reader that follows edits**: what it reads from a value has a counterpart in what it reads
from the value in another form. -/
def Follows (mayOmit : String → Json → Prop) (same : β → β → Prop) (read : Json → Option β) :
    Prop :=
  ∀ ⦃v w : Json⦄, Edited mayOmit v w → Carries same (read v) (read w)

/-- The same for what is read from the slot of a field. -/
def FollowsSlot (mayOmit : String → Json → Prop) (name : String) (same : β → β → Prop)
    (read : Option Json → Option β) : Prop :=
  ∀ ⦃slot slot' : Option Json⦄, EditedSlot mayOmit name slot slot' →
    Carries same (read slot) (read slot')

/-- What is no array and no object has no other form. -/
theorem follows_of_plain {same : β → β → Prop} (hsame : ∀ b, same b b) {read : Json → Option β}
    (harray : ∀ items, read (.array items) = none)
    (hobject : ∀ members, read (.object members) = none) : Follows mayOmit same read := by
  intro v w h
  cases h with
  | refl => exact .refl hsame
  | array _ =>
    rw [harray]
    exact .none
  | object _ _ =>
    rw [hobject]
    exact .none

theorem follows_text? : Follows mayOmit Eq text? :=
  follows_of_plain Eq.refl (fun _ => rfl) fun _ => rfl

theorem follows_natBelow? (bound : ℕ) : Follows mayOmit Eq (natBelow? bound) :=
  follows_of_plain Eq.refl (fun _ => rfl) fun _ => rfl

theorem follows_scalar? {α : Type} [DecimalScalar α] {same : α → α → Prop}
    (hsame : ∀ x, same x x) : Follows mayOmit same scalar? :=
  follows_of_plain hsame (fun _ => rfl) fun _ => rfl

namespace Follows

variable {γ : Type} {same : β → β → Prop} {read : Json → Option β}

/-- A list is read item by item. -/
theorem list? (h : Follows mayOmit same read) :
    Follows mayOmit (List.Forall₂ same) (Json.list? read) := by
  intro v w hedited
  cases v with
  | array vs =>
    obtain ⟨ws, rfl, hitems⟩ := hedited.exists_array
    exact .mapM hitems fun _ _ hitem => h hitem
  | object members => exact .none
  | null => exact .none
  | bool b => exact .none
  | number n => exact .none
  | text s => exact .none

theorem list?_eq {read : Json → Option β} (h : Follows mayOmit Eq read) :
    Follows mayOmit Eq (Json.list? read) := by
  have hlist := h.list?
  rwa [List.forall₂_eq_eq_eq] at hlist

theorem vector? {read : Json → Option β} (h : Follows mayOmit Eq read) (n : ℕ) :
    Follows mayOmit Eq (Json.vector? n read) := by
  intro v w hedited
  unfold Json.vector?
  cases hv : Json.list? read v with
  | none => exact .none
  | some items =>
    obtain ⟨items', hw, rfl⟩ := h.list?_eq hedited items hv
    rw [hw]
    exact .refl Eq.refl

theorem map (h : Follows mayOmit same read) {same' : γ → γ → Prop} {f : β → γ}
    (hf : ∀ b b', same b b' → same' (f b) (f b')) :
    Follows mayOmit same' fun v => (read v).map f :=
  fun _ _ hedited => (h hedited).map hf

/-! ### Fields -/

section Fields

variable {name : String}

/-- A field that has to be there is not left out. -/
theorem required (h : Follows mayOmit same read) (hkept : ∀ v, ¬ mayOmit name v) :
    FollowsSlot mayOmit name same (Json.required read) := by
  intro slot slot' hslot
  cases hslot with
  | empty => exact .none
  | keep hedited => exact h hedited
  | leaveOut homit => exact absurd homit (hkept _)

/-- **A field that has a default may be left out where it has it.** -/
theorem orElse (h : Follows mayOmit same read) {default : β} (hrefl : same default default)
    (hdefault : ∀ v b, mayOmit name v → read v = some b → same b default) :
    FollowsSlot mayOmit name same (Json.orElse read default) := by
  intro slot slot' hslot
  cases hslot with
  | empty => exact .pure hrefl
  | keep hedited => exact h hedited
  | leaveOut homit => exact fun b hread => ⟨default, rfl, hdefault _ b homit hread⟩

/-- A field that may be absent is not left out where it is there. -/
theorem optional {read : Json → Option β} (h : Follows mayOmit Eq read)
    (hkept : ∀ v, ¬ mayOmit name v) :
    FollowsSlot mayOmit name Eq (Json.optional read) := by
  intro slot slot' hslot
  cases hslot with
  | empty => exact .refl Eq.refl
  | keep hedited =>
    cases hedited with
    | refl => exact .refl Eq.refl
    | array hitems => exact (h (.array hitems)).map fun _ _ => congrArg some
    | object hmembers hperm => exact (h (.object hmembers hperm)).map fun _ _ => congrArg some
  | leaveOut homit => exact absurd homit (hkept _)

end Fields

end Follows

/-! ## Tagged records -/

section Tagged

variable {α : Type} [DecimalScalar α]

theorem storableMembers_eq_all (room : ℕ) (members : List (Option String × Json)) :
    storableMembers α room members
      = members.all fun member => member.1.isSome && storable α room member.2 := by
  induction members with
  | nil => rw [storableMembers, List.all_nil]
  | cons member members ih => rw [storableMembers, List.all_cons, ih]

theorem storableMembers_of_perm {members members' : List (Option String × Json)}
    (hperm : members.Perm members') {room : ℕ} (h : storableMembers α room members = true) :
    storableMembers α room members' = true := by
  rw [storableMembers_eq_all] at h ⊢
  rwa [← hperm.all_eq]

mutual

/-- **What can be stored can be stored in another form.** -/
theorem storable_of_edited {v w : Json} (h : Edited mayOmit v w) {room : ℕ}
    (hv : storable α room v = true) : storable α room w = true := by
  cases h with
  | refl => exact hv
  | array h =>
    cases room with
    | zero =>
      rw [storable] at hv
      cases hv
    | succ room =>
      rw [storable] at hv ⊢
      exact storableItems_of_edited h hv
  | object h hperm =>
    cases room with
    | zero =>
      rw [storable] at hv
      cases hv
    | succ room =>
      rw [storable] at hv ⊢
      exact storableMembers_of_perm hperm (storableMembers_of_kept h hv)

theorem storableItems_of_edited {items items' : List Json} (h : EditedItems mayOmit items items')
    {room : ℕ} (hitems : storableItems α room items = true) :
    storableItems α room items' = true := by
  cases h with
  | nil => exact hitems
  | cons h hrest =>
    rw [storableItems, Bool.and_eq_true] at hitems ⊢
    exact ⟨storable_of_edited h hitems.1, storableItems_of_edited hrest hitems.2⟩

theorem storableMembers_of_kept {members kept : List (Option String × Json)}
    (h : EditedMembers mayOmit members kept) {room : ℕ}
    (hmembers : storableMembers α room members = true) : storableMembers α room kept = true := by
  cases h with
  | nil => exact hmembers
  | keep name h hrest =>
    rw [storableMembers, Bool.and_eq_true, Bool.and_eq_true] at hmembers ⊢
    exact ⟨⟨hmembers.1.1, storable_of_edited h hmembers.1.2⟩,
      storableMembers_of_kept hrest hmembers.2⟩
  | leaveOut h hrest =>
    rw [storableMembers, Bool.and_eq_true] at hmembers
    exact storableMembers_of_kept hrest hmembers.2

end

/-- **A tagged record in another form is taken apart into its tag and the rest in another form**,
wherever the tag stands. -/
theorem carries_tagged? {v w : Json} (h : Edited mayOmit v w) (depth : ℕ) {tag : String}
    (htag : ∀ v, ¬ mayOmit tag v) :
    Carries (fun p q => Edited mayOmit p.1 q.1 ∧ Edited mayOmit p.2 q.2)
      (tagged? α depth tag v) (tagged? α depth tag w) := by
  cases v with
  | object members =>
    obtain ⟨kept, members', rfl, hmembers, hperm⟩ := h.exists_object
    refine (carries_named? hmembers hperm).bind fun named named' hslots =>
      (hslots tag).bind fun slot slot' hslot => ?_
    cases hslot with
    | empty => exact .none
    | leaveOut homit => exact absurd homit (htag _)
    | keep hkind =>
      have hrest := hmembers.filter fun name => decide (name ≠ some tag)
      have hrestPerm := hperm.filter fun member => decide (member.1 ≠ some tag)
      dsimp only [Option.bind_eq_bind, Option.bind_some]
      split
      · next hstorable =>
        rw [if_pos (storableMembers_of_perm hrestPerm (storableMembers_of_kept hrest hstorable))]
        exact .pure ⟨hkind, .object hrest hrestPerm⟩
      · exact .none
  | array items =>
    cases h with
    | refl => exact .refl fun _ => ⟨.refl _, .refl _⟩
    | array hitems =>
      cases hitems with
      | nil => exact .none
      | cons hkind hitems =>
        unfold tagged?
        dsimp only
        split
        · next hstorable =>
          rw [if_pos (storableItems_of_edited hitems hstorable)]
          exact .pure ⟨hkind, .array hitems⟩
        · exact .none
  | null => exact .none
  | bool b => exact .none
  | number n => exact .none
  | text s => exact .none

end Tagged

end Json

end WeakForm
