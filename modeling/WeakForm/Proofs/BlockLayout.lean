import WeakForm.Proofs.BufferAccesses
import WeakForm.Proofs.Slots

/-!
# The layout of blocks

The data of a variable is laid out three times: three places by time, one and as many as there are
directions by space, and a block of both in the Jacobian, where the two values of the variable share
a row. **Each layout fills its range without gaps and without overlaps** (`bijOn_rowIndex`,
`bijOn_spaceIndex`), and division takes a row apart into its variable and its slot again.

What stands behind a row is a list of addresses (`Dims.behind`): two for the first row of a block,
one for every other row. They lie in their buffers exactly if the row is one of the Jacobian
(`forall_has_behind_iff`), and no two rows share an address, nor is one left out
(`existsUnique_behind`).
-/

namespace WeakForm

namespace Dims

variable {α : Type} {d : Dims}

/-- Dimensions are those that are asked for. -/
theorem of?_eq_ok_iff {spatialDim varsPerNode : ℕ} :
    of? (α := α) spatialDim varsPerNode = .ok d ↔
      d.spatialDim = spatialDim ∧ d.varsPerNode = varsPerNode := by
  unfold of?
  constructor
  · intro h
    split at h
    · cases h
      exact ⟨rfl, rfl⟩
    · cases h
  · rintro ⟨rfl, rfl⟩
    exact dif_pos ⟨⟨d.one_le_spatialDim, d.spatialDim_le_three⟩, d.one_le_varsPerNode⟩

/-- There are dimensions for one to three directions and any number of variables but none. -/
theorem exists_of?_eq_ok_iff {spatialDim varsPerNode : ℕ} :
    (∃ d, of? (α := α) spatialDim varsPerNode = .ok d) ↔
      (1 ≤ spatialDim ∧ spatialDim ≤ 3) ∧ 1 ≤ varsPerNode := by
  simp only [of?_eq_ok_iff]
  constructor
  · rintro ⟨d, rfl, rfl⟩
    exact ⟨⟨d.one_le_spatialDim, d.spatialDim_le_three⟩, d.one_le_varsPerNode⟩
  · rintro ⟨⟨h1, h3⟩, hn⟩
    exact ⟨⟨spatialDim, varsPerNode, h1, h3, hn⟩, rfl, rfl⟩

/-! ## Rows and places by space -/

theorem bijOn_rowIndex : Set.BijOn (rowIndex (d := d)) Set.univ (Set.Iio d.jacobianSize) :=
  ⟨fun slot _ => rowIndex_lt slot, rowIndex_injective.injOn,
    fun r hr => ⟨slotOf ⟨r, hr⟩, trivial, congrArg Fin.val (row_slotOf ⟨r, hr⟩)⟩⟩

/-- The place by space of the value of a variable, or of one of its derivatives. -/
def spaceIndex : Fin d.varsPerNode × Option (Fin d.spatialDim) → ℕ
  | (k, none) => d.uxValueIndex k
  | (k, some j) => d.uxIndex k j

theorem spaceIndex_injective : Function.Injective (spaceIndex (d := d)) := by
  rintro ⟨k, i⟩ ⟨l, j⟩ h
  cases i with
  | none =>
    cases j with
    | none =>
      have hpos : 0 < d.spatialDim + 1 := Nat.succ_pos _
      obtain ⟨hk, -⟩ := block_injective (i := 0) (j := 0) hpos hpos h
      rw [Fin.ext hk]
    | some j => exact absurd (Fin.ext h) (valuePlace_ne_spacePlace k l j)
  | some i =>
    cases j with
    | none => exact absurd (Fin.ext h.symm) (valuePlace_ne_spacePlace l k i)
    | some j =>
      obtain ⟨rfl, rfl⟩ := spacePlace_inj.mp (Fin.ext h : spacePlace k i = spacePlace l j)
      rfl

theorem bijOn_spaceIndex : Set.BijOn (spaceIndex (d := d)) Set.univ (Set.Iio d.uxLen) := by
  refine ⟨?_, spaceIndex_injective.injOn, fun i hi => ?_⟩
  · rintro ⟨k, _ | j⟩ -
    · exact (valuePlace k).isLt
    · exact (spacePlace k j).isLt
  · obtain ⟨k, hk⟩ | ⟨k, j, hj⟩ := exists_spacePlace ⟨i, hi⟩
    · exact ⟨(k, none), trivial, (congrArg Fin.val hk).symm⟩
    · exact ⟨(k, some j), trivial, (congrArg Fin.val hj).symm⟩

/-! ## Addresses -/

theorem gradientIndex_lt (k : Fin d.varsPerNode) (j : Fin d.spatialDim) :
    k.val * d.spatialDim + j.val < d.varsPerNode * d.spatialDim :=
  d.psixIndex_lt k.isLt j.isLt

/-- The place of an adjoint gradient. -/
def gradientPlace (k : Fin d.varsPerNode) (j : Fin d.spatialDim) :
    Fin (d.varsPerNode * d.spatialDim) :=
  ⟨k.val * d.spatialDim + j.val, gradientIndex_lt k j⟩

section Addresses

variable (d : Dims)

/-- **The addresses behind a row of the Jacobian**, or behind a column. -/
def behind (row : ℕ) : List Address :=
  let k := d.var row
  let slot := d.slot row
  if slot = 0 then [⟨.time, 3 * k⟩, ⟨.space, d.uxValueIndex k⟩]
  else if slot < 3 then [⟨.time, 3 * k + slot⟩]
  else [⟨.space, d.uxIndex k (slot - 3)⟩]

/-- The addresses that a variable is paired at. -/
def pairedAt (k : Fin d.varsPerNode) : List Address :=
  [⟨.adjoint, k⟩, ⟨.time, 3 * k⟩, ⟨.time, 3 * k + 1⟩, ⟨.time, 3 * k + 2⟩,
    ⟨.space, d.uxValueIndex k⟩]
    ++ (List.finRange d.spatialDim).flatMap fun j =>
      [⟨.gradient, k * d.spatialDim + j⟩, ⟨.space, d.uxIndex k j⟩]

/-- The number of addresses of a buffer. -/
def length : Buffer → ℕ
  | .time => d.utLen
  | .space => d.uxLen
  | .adjoint => d.varsPerNode
  | .gradient => d.varsPerNode * d.spatialDim

/-- An address of a buffer. -/
def Has (a : Address) : Prop := a.index < d.length a.buffer

/-- No buffer is longer than the Jacobian has rows. -/
theorem length_le_jacobianSize (buffer : Buffer) : d.length buffer ≤ d.jacobianSize := by
  have h1 := d.one_le_spatialDim
  unfold jacobianSize blockSize
  cases buffer with
  | time => exact Nat.mul_le_mul_right _ (by omega)
  | space => exact Nat.mul_le_mul_right _ (by omega)
  | adjoint => exact Nat.le_mul_of_pos_left _ (by omega)
  | gradient =>
    rw [Nat.mul_comm (3 + d.spatialDim)]
    exact Nat.mul_le_mul_left _ (by omega)

end Addresses

theorem lt_jacobianSize_iff {row : ℕ} : row < d.jacobianSize ↔ d.var row < d.varsPerNode := by
  rw [jacobianSize, Nat.mul_comm]
  exact (Nat.div_lt_iff_lt_mul d.blockSize_pos).symm

theorem has_time_iff {k s : ℕ} (hs : s < 3) :
    d.Has ⟨.time, 3 * k + s⟩ ↔ k < d.varsPerNode := by
  show 3 * k + s < 3 * d.varsPerNode ↔ k < d.varsPerNode
  omega

theorem has_space_iff {k i : ℕ} (hi : i < d.spatialDim + 1) :
    d.Has ⟨.space, k * (d.spatialDim + 1) + i⟩ ↔ k < d.varsPerNode := by
  show k * (d.spatialDim + 1) + i < (d.spatialDim + 1) * d.varsPerNode ↔ k < d.varsPerNode
  rw [Nat.mul_comm _ d.varsPerNode, ← Nat.div_lt_iff_lt_mul (Nat.zero_lt_of_lt hi),
    block_div hi]

/-- **The rows of the Jacobian are those with all addresses behind them in the buffers.** -/
theorem forall_has_behind_iff {row : ℕ} :
    (∀ a ∈ d.behind row, d.Has a) ↔ row < d.jacobianSize := by
  have hs : d.slot row < 3 + d.spatialDim := d.slot_lt row
  rw [lt_jacobianSize_iff]
  unfold behind
  by_cases h0 : d.slot row = 0
  · simp only [h0, if_true]
    rw [List.forall_mem_cons, List.forall_mem_singleton]
    exact (and_congr (has_time_iff (s := 0) three_pos)
      (has_space_iff (i := 0) (Nat.succ_pos _))).trans and_self_iff
  · by_cases h3 : d.slot row < 3
    · simp only [h0, h3, if_true, if_false, List.forall_mem_singleton]
      exact has_time_iff h3
    · simp only [h0, h3, if_false, List.forall_mem_singleton]
      rw [uxIndex, Nat.add_assoc]
      exact has_space_iff (by omega)

/-- The addresses that a variable is paired at lie in their buffers. -/
theorem has_of_mem_pairedAt {k : Fin d.varsPerNode} {a : Address} (ha : a ∈ d.pairedAt k) :
    d.Has a := by
  unfold pairedAt at ha
  rcases List.mem_append.mp ha with ha | ha
  · simp only [List.mem_cons, List.not_mem_nil, or_false] at ha
    obtain rfl | rfl | rfl | rfl | rfl := ha
    · exact k.isLt
    · exact (timePlace k 0).isLt
    · exact (timePlace k 1).isLt
    · exact (timePlace k 2).isLt
    · exact (valuePlace k).isLt
  · obtain ⟨j, -, ha⟩ := List.mem_flatMap.mp ha
    simp only [List.mem_cons, List.not_mem_nil, or_false] at ha
    obtain rfl | rfl := ha
    · exact (gradientPlace k j).isLt
    · exact (spacePlace k j).isLt

/-! ## The row behind which an address stands -/

/-- The value by time among the slots of a variable. -/
def value : Fin 3 := (Fin.last 0).castSucc.castSucc

/-- The slot in whose row a place by space is read. The value of a variable by space is read
together with its value by time. -/
def spaceSlot : Fin d.varsPerNode × Option (Fin d.spatialDim) → d.Slot
  | (k, none) => (k, .inl value)
  | (k, some j) => (k, .inr j)

theorem behind_timeIndex (k : Fin d.varsPerNode) (s : Fin 3) :
    d.behind (rowIndex (d := d) (k, .inl s))
      = ⟨.time, timePlace k s⟩ :: if s.val = 0 then [⟨.space, spaceIndex (k, none)⟩] else [] := by
  unfold behind
  simp only [var_rowIndex, slot_rowIndex, offset, s.isLt, if_true]
  by_cases h0 : s.val = 0
  · obtain rfl : s = 0 := Fin.ext h0
    rfl
  · rw [if_neg h0, if_neg h0]
    rfl

theorem behind_spatialIndex (k : Fin d.varsPerNode) (j : Fin d.spatialDim) :
    d.behind (rowIndex (d := d) (k, .inr j)) = [⟨.space, spaceIndex (k, some j)⟩] := by
  unfold behind
  simp only [var_rowIndex, slot_rowIndex, offset]
  rw [if_neg (by omega), if_neg (by omega), Nat.add_sub_cancel_left]
  rfl

/-- A place by time is behind the row of its own slot and of no other. -/
theorem time_mem_behind_iff {k : Fin d.varsPerNode} {s : Fin 3} {slot : d.Slot} :
    ⟨.time, timePlace k s⟩ ∈ d.behind (rowIndex slot) ↔ slot = (k, .inl s) := by
  obtain ⟨l, t | j⟩ := slot
  · have hplace : (timePlace k s).val = timePlace l t ↔ l = k ∧ t = s := by
      rw [Fin.val_inj, timePlace_inj, eq_comm, @eq_comm _ s]
    rw [behind_timeIndex, List.mem_cons, Address.mk.injEq, and_iff_right rfl, hplace,
      Prod.mk.injEq, Sum.inl.injEq, or_iff_left]
    split <;> simp
  · simp [behind_spatialIndex]

/-- A place by space is behind the row of its slot and of no other. -/
theorem space_mem_behind_iff {x : Fin d.varsPerNode × Option (Fin d.spatialDim)} {slot : d.Slot} :
    ⟨.space, spaceIndex x⟩ ∈ d.behind (rowIndex slot) ↔ slot = spaceSlot x := by
  obtain ⟨k, i⟩ := x
  obtain ⟨l, t | j⟩ := slot
  · rw [behind_timeIndex]
    by_cases h0 : t.val = 0
    · obtain rfl : t = value := Fin.ext h0
      cases i <;> simp [h0, spaceIndex_injective.eq_iff, spaceSlot, eq_comm]
    · have h0' : t ≠ value := fun h => h0 (congrArg Fin.val h)
      cases i <;> simp [h0, h0', spaceSlot]
  · rw [behind_spatialIndex]
    cases i <;> simp [spaceIndex_injective.eq_iff, spaceSlot, eq_comm]

/-- What holds of the row of one slot only holds of one row only. -/
theorem existsUnique_row {p : ℕ → Prop} {slot : d.Slot}
    (h : ∀ slot' : d.Slot, p (rowIndex slot') ↔ slot' = slot) :
    ∃! r : Fin d.jacobianSize, p r := by
  refine ⟨row slot, (h slot).mpr rfl, fun r hr => ?_⟩
  have hr' : p (row (slotOf r)) := (row_slotOf r).symm ▸ hr
  rw [← (h (slotOf r)).mp hr', row_slotOf]

/-- **Each place by time and by space is behind exactly one row.** -/
theorem existsUnique_behind {a : Address} (hbuffer : a.buffer = .time ∨ a.buffer = .space)
    (h : d.Has a) : ∃! r : Fin d.jacobianSize, a ∈ d.behind r := by
  obtain ⟨buffer, i⟩ := a
  obtain rfl | rfl : buffer = .time ∨ buffer = .space := hbuffer
  · obtain ⟨k, s, hplace⟩ := exists_timePlace ⟨i, h⟩
    obtain rfl : i = timePlace k s := congrArg Fin.val hplace
    exact existsUnique_row (p := fun r => _ ∈ d.behind r) fun _ => time_mem_behind_iff
  · obtain ⟨x, -, rfl⟩ := bijOn_spaceIndex.surjOn h
    exact existsUnique_row (p := fun r => _ ∈ d.behind r) fun _ => space_mem_behind_iff

/-! ## Blocks -/

/-- **The blocks of the variables**: rows and places by space are numbered without gaps and without
overlaps, division takes the number of a row apart, and no number is too large for a word. -/
structure IsBlockwise (d : Dims) : Prop where
  /-- The rows of the slots are the rows of the Jacobian, each once. -/
  bijOn_rowIndex : Set.BijOn (rowIndex (d := d)) Set.univ (Set.Iio d.jacobianSize)
  /-- Division gives back the variable of a row, and its remainder the slot. -/
  var_rowIndex : ∀ slot : d.Slot, d.var (rowIndex slot) = slot.1
  slot_rowIndex : ∀ slot : d.Slot, d.slot (rowIndex slot) = offset slot.2
  /-- The values and the derivatives by space fill the places by space, each once. -/
  bijOn_spaceIndex : Set.BijOn (spaceIndex (d := d)) Set.univ (Set.Iio d.uxLen)
  /-- The numbers are words. -/
  asIndex?_rowIndex : ∀ slot : d.Slot, asIndex? (rowIndex slot) = some (rowIndex slot)
  asIndex?_spaceIndex : ∀ x, asIndex? (spaceIndex (d := d) x) = some (spaceIndex x)

theorem isBlockwise (hwords : d.jacobianSize < UInt64.size) : d.IsBlockwise where
  bijOn_rowIndex := bijOn_rowIndex
  var_rowIndex := var_rowIndex
  slot_rowIndex := slot_rowIndex
  bijOn_spaceIndex := bijOn_spaceIndex
  asIndex?_rowIndex slot := if_pos ((rowIndex_lt slot).trans hwords)
  asIndex?_spaceIndex x :=
    if_pos (((bijOn_spaceIndex.mapsTo (Set.mem_univ x)).trans_le
      (d.length_le_jacobianSize .space)).trans hwords)

end Dims

end WeakForm
