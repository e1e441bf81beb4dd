import WeakForm.Decimal.Binary64
import WeakForm.Format.Basic
import WeakForm.Proofs.Runs

/-!
# Reading stored records

A number without decimal digits is stored as `null`, and no reader of numbers accepts that. So what
is read from a stored value depends on the numbers in it, and the readers say it in one form
(`GivesIf`): **what was stored, if all of them are finite, and nothing otherwise**. The exception
are numbers that may be absent: there `null` means absence, and the number is lost
(`givesIf_optional_scalar`).

A stored record has one member for each of its slots that is not empty (`present`). Its names are
different, so a field is read from the slot that has its name (`slots?_present`), whatever stands
around it.
-/

namespace WeakForm

namespace Json

variable {β γ : Type}

/-! ## Readers that may give nothing -/

/-- **A reader gives a value under a condition**, and nothing otherwise. -/
def GivesIf (p : Prop) (b : β) (o : Option β) : Prop := (p → o = some b) ∧ (¬p → o = none)

namespace GivesIf

variable {p q : Prop} {b : β} {c : γ} {o : Option β} {f : β → Option γ}

theorem of_eq (h : o = some b) : GivesIf True b o := ⟨fun _ => h, fun hp => absurd trivial hp⟩

theorem pure (b : β) : GivesIf True b (some b) := of_eq rfl

theorem congr (h : GivesIf p b o) (hpq : p ↔ q) : GivesIf q b o :=
  ⟨fun hq => h.1 (hpq.mpr hq), fun hq => h.2 (mt hpq.mp hq)⟩

/-- One reader after another gives a value if both of them do. -/
theorem bind (h : GivesIf p b o) (hf : GivesIf q c (f b)) : GivesIf (p ∧ q) c (o.bind f) := by
  refine ⟨fun ⟨hp, hq⟩ => ?_, fun hn => ?_⟩
  · rw [h.1 hp]
    exact hf.1 hq
  · by_cases hp : p
    · rw [h.1 hp]
      exact hf.2 fun hq => hn ⟨hp, hq⟩
    · rw [h.2 hp]
      rfl

theorem map (h : GivesIf p b o) (f : β → γ) : GivesIf p (f b) (o.map f) := by
  refine ⟨fun hp => ?_, fun hp => ?_⟩
  · rw [h.1 hp, Option.map_some]
  · rw [h.2 hp, Option.map_none]

/-- What is read is the value, and the condition holds. -/
theorem of_eq_some (h : GivesIf p b o) {b' : β} (ho : o = some b') : p ∧ b' = b := by
  have hp : p := by
    by_contra hn
    rw [h.2 hn] at ho
    cases ho
  rw [h.1 hp] at ho
  exact ⟨hp, (Option.some.inj ho).symm⟩

/-- A list is read if each of its items is. -/
theorem mapM {p : γ → Prop} {b : γ → β} {read : γ → Option β} (items : List γ)
    (h : ∀ item ∈ items, GivesIf (p item) (b item) (read item)) :
    GivesIf (∀ item ∈ items, p item) (items.map b) (items.mapM read) := by
  induction items with
  | nil => exact (of_eq rfl).congr (by simp)
  | cons item items ih =>
    have hitems := ih fun i hi => h i (List.mem_cons_of_mem _ hi)
    simp only [List.mapM_cons, Option.bind_eq_bind, Option.pure_def]
    refine congr (bind (h item List.mem_cons_self) (bind hitems (pure _))) ?_
    rw [List.forall_mem_cons, and_true]

end GivesIf

/-! ## Plain values -/

/-- A stored list is read if each of its items is. -/
theorem givesIf_list {p : γ → Prop} {b : γ → β} {item : γ → Json} {read : Json → Option β}
    (xs : List γ) (h : ∀ x ∈ xs, GivesIf (p x) (b x) (read (item x))) :
    GivesIf (∀ x ∈ xs, p x) (xs.map b) (list? read (ofList item xs)) := by
  unfold ofList list?
  dsimp only
  rw [List.mapM_map]
  exact GivesIf.mapM xs h

section Plain

variable {α : Type} [DecimalScalar α]

/-- The digits of a number, if it has any: a finite number has. -/
def digits? (x : α) : Option Decimal :=
  match DecimalScalar.shortest .toEven x with
  | .finite d => some d
  | _ => none

/-- Whether a number has digits, so that there is a literal for it. -/
def isFinite (x : α) : Bool := (digits? x).isSome

/-- **Decimal printing and reading are inverse at a number**: the digits of the number denote it. -/
def ReadsBack (x : α) : Prop := ∀ d ∈ digits? x, (Number.ofDecimal d).value? α = some x

instance [DecidableEq α] (x : α) : Decidable (ReadsBack x) :=
  inferInstanceAs (Decidable (∀ d ∈ digits? x, (Number.ofDecimal d).value? α = some x))

theorem ofScalar_eq (x : α) :
    ofScalar x = (digits? x).elim .null fun d => .number (.ofDecimal d) := by
  unfold ofScalar digits?
  cases DecimalScalar.shortest .toEven x <;> rfl

/-- A number is written as a literal that denotes it, or as `null`. -/
theorem ofScalar_cases {x : α} (h : ReadsBack x) :
    (isFinite x = true ∧ ∃ n, ofScalar x = .number n ∧ n.value? α = some x)
      ∨ isFinite x = false ∧ ofScalar x = .null := by
  rw [ofScalar_eq, isFinite]
  cases hx : digits? x with
  | some d => exact Or.inl ⟨rfl, _, rfl, h d hx⟩
  | none => exact Or.inr ⟨rfl, rfl⟩

theorem givesIf_scalar {x : α} (h : ReadsBack x) :
    GivesIf (isFinite x = true) x (scalar? (ofScalar x)) := by
  obtain ⟨hx, n, heq, hn⟩ | ⟨hx, heq⟩ := ofScalar_cases h
  · rw [heq, hx]
    exact (GivesIf.of_eq hn).congr (by simp)
  · rw [heq, hx]
    exact ⟨fun hf => Bool.noConfusion hf, fun _ => rfl⟩

theorem givesIf_scalars {xs : List α} (h : ∀ x ∈ xs, ReadsBack x) :
    GivesIf (∀ x ∈ xs, isFinite x = true) xs (list? scalar? (ofScalars xs)) := by
  have hlist := givesIf_list xs fun x hx => givesIf_scalar (h x hx)
  rwa [List.map_id'] at hlist

theorem givesIf_vector {n : ℕ} {v : Vector α n} (h : ∀ x ∈ v.toList, ReadsBack x) :
    GivesIf (∀ x ∈ v.toList, isFinite x = true) v (vector? n scalar? (ofScalarVector v)) := by
  have hlist := givesIf_scalars h
  unfold ofScalarVector vector?
  refine ⟨fun hx => ?_, fun hx => ?_⟩
  · rw [hlist.1 hx]
    exact dif_pos v.length_toList
  · rw [hlist.2 hx]

/-- A literal can be stored before it is known what it is for. -/
theorem storable_ofScalar {x : α} (h : ReadsBack x) (room : ℕ) :
    storable α room (ofScalar x) = true := by
  obtain ⟨-, n, heq, hn⟩ | ⟨-, heq⟩ := ofScalar_cases h
  · rw [heq, storable, hn]
    rfl
  · rw [heq, storable]

theorem storable_ofScalarVector {n : ℕ} {v : Vector α n} (h : ∀ x ∈ v.toList, ReadsBack x)
    (room : ℕ) : storable α (room + 1) (ofScalarVector v) = true := by
  unfold ofScalarVector ofScalars ofList
  rw [storable]
  generalize v.toList = xs at h ⊢
  induction xs with
  | nil => rw [List.map_nil, storableItems]
  | cons x xs ih =>
    rw [List.forall_mem_cons] at h
    rw [List.map_cons, storableItems, storable_ofScalar h.1, ih h.2, Bool.and_true]

end Plain

/-! ## Finite floating-point numbers -/

/-- A double has digits unless all bits of its exponent are set. -/
theorem exists_numeral_ofBits (bits : ℕ) (digits : Binary → List Digit × Int)
    (zero : List Digit) :
    (∃ d, (Double.ofBits bits).numeral digits zero = .finite d)
      ↔ bits / Nat.pow 2 52 % Nat.pow 2 11 ≠ 2047 := by
  unfold Double.ofBits
  dsimp only
  by_cases h : bits / Nat.pow 2 52 % Nat.pow 2 11 = 2047
  · rw [if_pos h]
    refine iff_of_false ?_ (not_not.mpr h)
    split <;> exact nofun
  · rw [if_neg h]
    refine iff_of_true ?_ h
    split
    · split <;> exact ⟨_, rfl⟩
    · exact ⟨_, rfl⟩

theorem toNat_unpackExponent (x : Float) :
    (@Float.Model.UnpackedFloat.unpackExponent .binary64 x.toModel.toBits.toBitVec).toNat
      = x.toBits.toNat / Nat.pow 2 52 % Nat.pow 2 11 := by
  unfold Float.Model.UnpackedFloat.unpackExponent
  simp only [BitVec.toNat_cast, BitVec.extractLsb_toNat]
  rw [Nat.shiftRight_eq_div_pow]
  rfl

theorem float_isFinite_iff (x : Float) :
    x.isFinite = true ↔ x.toBits.toNat / Nat.pow 2 52 % Nat.pow 2 11 ≠ 2047 := by
  rw [← toNat_unpackExponent]
  show (Float.Model.UnpackedFloat.unpack .binary64 x.toModel.toBits.toBitVec).isFinite = true ↔ _
  unfold Float.Model.UnpackedFloat.unpack
  dsimp only
  split
  · next h =>
    rw [h]
    refine iff_of_false ?_ (not_not.mpr rfl)
    split <;> exact Bool.false_ne_true
  · next h =>
    refine iff_of_true ?_ fun heq => h (BitVec.eq_of_toNat_eq heq)
    split
    · split <;> rfl
    · rfl

/-- **The floating-point numbers that have digits are the finite ones.** -/
theorem isFinite_float (x : Float) : isFinite x = x.isFinite := by
  have hdigits := exists_numeral_ofBits x.toBits.toNat (Binary.shortest .toEven) [.zero]
  rw [Bool.eq_iff_iff, float_isFinite_iff, ← hdigits, isFinite, Option.isSome_iff_exists]
  unfold digits?
  show (∃ d, (match (Double.ofBits x.toBits.toNat).numeral (Binary.shortest .toEven) [.zero] with
    | .finite d => some d
    | _ => none) = some d) ↔ _
  cases (Double.ofBits x.toBits.toNat).numeral (Binary.shortest .toEven) [.zero] <;> simp

theorem natBelow?_ofNat {bound n : ℕ} (h : n < bound) : natBelow? bound (ofNat n) = some n := by
  unfold ofNat natBelow?
  dsimp only
  rw [Number.natural?_ofNat]
  exact if_pos h

theorem list?_ofList {item : β → Json} {read : Json → Option β} (xs : List β)
    (h : ∀ x ∈ xs, read (item x) = some x) : list? read (ofList item xs) = some xs := by
  have hlist := givesIf_list xs fun x hx => GivesIf.of_eq (h x hx)
  rw [List.map_id'] at hlist
  exact hlist.1 fun _ _ => trivial

/-! ## Fields that may be absent -/

/-- A value that is not written as `null` is there if it can be read. -/
theorem givesIf_optional {p : β → Prop} {item : β → Json} {read : Json → Option β} (x : Option β)
    (h : ∀ b ∈ x, item b ≠ .null ∧ GivesIf (p b) b (read (item b))) :
    GivesIf (∀ b ∈ x, p b) x (optional read (x.map item)) := by
  cases x with
  | none => exact (GivesIf.of_eq rfl).congr (by simp)
  | some b =>
    obtain ⟨hnull, hread⟩ := h b rfl
    have hsome : optional read (some (item b)) = (read (item b)).map some := by
      unfold optional
      split
      · next heq => cases heq
      · next heq => exact absurd (Option.some.inj heq) hnull
      · next heq => rw [Option.some.inj heq]
    rw [Option.map_some, hsome]
    exact (hread.map some).congr (by simp)

/-- **A number that may be absent is lost if it is not finite**, and nothing fails. -/
theorem givesIf_optional_scalar {α : Type} [DecimalScalar α] (x : Option α)
    (h : ∀ a ∈ x, ReadsBack a) :
    GivesIf True (x.filter isFinite) (optional scalar? (x.map ofScalar)) := by
  cases x with
  | none => exact .of_eq rfl
  | some a =>
    obtain ⟨ha, n, heq, hn⟩ | ⟨ha, heq⟩ := ofScalar_cases (h a rfl)
    · rw [Option.map_some, heq, Option.filter_some_pos ha]
      have hread : optional scalar? (some (.number n)) = (n.value? α).map some := rfl
      exact .of_eq (by rw [hread, hn]; rfl)
    · rw [Option.map_some, heq, Option.filter_some_neg ha]
      exact .of_eq rfl

/-- A vector that may be absent is not lost: it is no `null`, whatever its numbers are. -/
theorem givesIf_optional_vector {α : Type} [DecimalScalar α] {n : ℕ} {v : Option (Vector α n)}
    (h : ∀ x ∈ v.elim [] Vector.toList, ReadsBack x) :
    GivesIf (∀ x ∈ v.elim [] Vector.toList, isFinite x = true) v
      (optional (vector? n scalar?) (v.map ofScalarVector)) := by
  cases v with
  | none => exact (GivesIf.of_eq rfl).congr (by simp)
  | some v =>
    refine (givesIf_optional (some v) fun b hb => ⟨Json.noConfusion, givesIf_vector ?_⟩).congr
      (by simp)
    rwa [← Option.some.inj hb]

/-! ## Records -/

/-- The slots of members that are all there. -/
def full (members : List (String × Json)) : List (String × Option Json) :=
  members.map fun member => (member.1, some member.2)

/-- The members of the slots that are not empty. -/
def present (slots : List (String × Option Json)) : List (String × Json) :=
  slots.filterMap fun (name, slot) => slot.map fun value => (name, value)

theorem memberIf_eq_present (name : String) (item : β → Json) (x : Option β) :
    memberIf name item x = present [(name, x.map item)] := by
  cases x <;> rfl

theorem present_full (members : List (String × Json)) : present (full members) = members := by
  induction members with
  | nil => rfl
  | cons member members ih => exact congrArg (member :: ·) ih

theorem present_append (a b : List (String × Option Json)) :
    present (a ++ b) = present a ++ present b := List.filterMap_append

theorem named?_record (members : List (String × Json)) :
    named? (members.map fun member => (some member.1, member.2)) = some members := by
  induction members with
  | nil => rfl
  | cons member members ih =>
    unfold named? at ih ⊢
    rw [List.map_cons, List.mapM_cons, ih]
    rfl

theorem present_cons (name : String) (slot : Option Json) (slots : List (String × Option Json)) :
    present ((name, slot) :: slots)
      = (slot.map fun value => (name, value)).toList ++ present slots := by
  cases slot <;> rfl

theorem filter_present (p : String → Bool) (slots : List (String × Option Json)) :
    (present slots).filter (fun member => p member.1)
      = present (slots.filter fun slot => p slot.1) := by
  induction slots with
  | nil => rfl
  | cons first slots ih =>
    obtain ⟨name, slot⟩ := first
    rw [present_cons, List.filter_append, ih, List.filter_cons]
    cases hp : p name with
    | true =>
      rw [if_pos rfl, present_cons]
      cases slot <;> simp [hp]
    | false =>
      rw [if_neg Bool.false_ne_true]
      cases slot <;> simp [hp]

/-- Members are picked from a record by their names. -/
theorem filter_record (p : Option String → Bool) (slots : List (String × Option Json)) :
    ((present slots).map fun member => (some member.1, member.2)).filter (fun member => p member.1)
      = (present (slots.filter fun slot => p (some slot.1))).map
          fun member => (some member.1, member.2) := by
  rw [List.filter_map, ← filter_present fun name => p (some name)]
  rfl

section Slots

variable {slots : List (String × Option Json)} (hnodup : (slots.map Prod.fst).Nodup)
include hnodup

theorem filter_eq_of_mem {name : String} {slot : Option Json} (h : (name, slot) ∈ slots) :
    slots.filter (fun s => decide (s.1 = name)) = [(name, slot)] := by
  induction slots with
  | nil => exact absurd h List.not_mem_nil
  | cons first slots ih =>
    rw [List.map_cons, List.nodup_cons] at hnodup
    rcases List.mem_cons.mp h with rfl | hmem
    · have hrest : slots.filter (fun s => decide (s.1 = name)) = [] := by
        rw [List.filter_eq_nil_iff]
        intro s hs heq
        exact hnodup.1 (List.mem_map.mpr ⟨s, hs, of_decide_eq_true heq⟩)
      rw [List.filter_cons_of_pos (by simp), hrest]
    · have hne : first.1 ≠ name := fun heq =>
        hnodup.1 (heq ▸ List.mem_map.mpr ⟨(name, slot), hmem, rfl⟩)
      rw [List.filter_cons_of_neg (by simpa using hne), ih hnodup.2 hmem]

/-- A field is read from the slot that has its name. -/
theorem slot?_present {name : String} {slot : Option Json} (h : (name, slot) ∈ slots) :
    slot? name (present slots) = some slot := by
  unfold slot?
  rw [filter_present fun n => decide (n = name), filter_eq_of_mem hnodup h]
  cases slot <;> rfl

/-- **Fields are read from the slots that have their names**, in the order of the fields. -/
theorem slots?_present {fields : List String} {results : List (Option Json)}
    (h : List.Forall₂ (fun name slot => (name, slot) ∈ slots) fields results) :
    slots? fields (record (present slots)) = some results := by
  unfold record slots?
  dsimp only
  rw [named?_record, Option.bind_eq_bind, Option.bind_some]
  induction h with
  | nil => rfl
  | cons hmem _ ih =>
    rw [List.mapM_cons, slot?_present hnodup hmem, ih]
    rfl

end Slots

/-- **A tagged record is taken apart into its tag and its other fields.** -/
theorem tagged?_record {α : Type} [DecimalScalar α] {tag : String} {kind : Json}
    {fields : List (String × Json)} (hnodup : (tag :: fields.map Prod.fst).Nodup) {depth : ℕ}
    (hstorable : ∀ field ∈ fields, storable α (nestingLimit - depth) field.2 = true) :
    tagged? α depth tag (record ((tag, kind) :: fields)) = some (kind, record fields) := by
  have hslots : (full ((tag, kind) :: fields)).map Prod.fst = tag :: fields.map Prod.fst := by
    simp [full, Function.comp_def]
  have hkind : slot? tag ((tag, kind) :: fields) = some (some kind) := by
    rw [← present_full (_ :: fields)]
    exact slot?_present (by rwa [hslots]) List.mem_cons_self
  have hrest : (((tag, kind) :: fields).map fun member => (some member.1, member.2)).filter
        (fun member => member.1 ≠ some tag)
      = fields.map fun member => (some member.1, member.2) := by
    rw [List.map_cons, List.filter_cons_of_neg (by simp), List.filter_eq_self]
    intro member hmember
    obtain ⟨field, hfield, rfl⟩ := List.mem_map.mp hmember
    refine decide_eq_true fun heq => (List.nodup_cons.mp hnodup).1 ?_
    rw [← Option.some.inj heq]
    exact List.mem_map_of_mem hfield
  have hstored : storableMembers α (nestingLimit - depth)
      (fields.map fun member => (some member.1, member.2)) = true := by
    clear hnodup hslots hkind hrest
    induction fields with
    | nil => rw [List.map_nil, storableMembers]
    | cons field fields ih =>
      rw [List.forall_mem_cons] at hstorable
      rw [List.map_cons, storableMembers, hstorable.1, ih hstorable.2]
      rfl
  unfold tagged? record
  dsimp only
  rw [named?_record]
  simp only [Option.bind_eq_bind, Option.bind_some, hkind]
  rw [hrest, if_pos hstored]

end Json

end WeakForm
