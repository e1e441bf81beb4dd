import Mathlib
import WeakForm.Check.Element
import WeakForm.Proofs.ExactNumbers

/-!
# The slots of a Jacobian

The rows and columns of a Jacobian are numbered, and everything that looks at a row takes its number
apart by division. Behind a number there is a *slot*: a variable together with one of its three
places by time or one of its derivatives by space. This module puts the slots in the place of the
numbers. `rowEquiv` says that **each row is the row of exactly one slot**, and from then on a matrix
is a `Matrix d.Slot d.Slot ℝ` and a sum over columns is a sum over slots.

A slot is used in two ways. As a *component* (`component`) it picks its own place out of the values
at a point. In the Jacobian that the checks look at, the first slot of a variable stands for both of
its values, by time and by space: there a row adds up two coefficients (`rowValue`), and a column
moves two values (`direction`).
-/

namespace WeakForm

namespace Dims

variable (d : Dims)

/-- **The values at a point**, by time and by space, as a vector space. -/
abbrev Values : Type := (Fin d.utLen → ℝ) × (Fin d.uxLen → ℝ)

/-- **A slot**: of a variable, a place by time or a derivative by space. -/
abbrev Slot : Type := Fin d.varsPerNode × (Fin 3 ⊕ Fin d.spatialDim)

variable {d}

/-- The place by time of a slot. -/
def timePlace (k : Fin d.varsPerNode) (s : Fin 3) : Fin d.utLen :=
  ⟨3 * k.val + s.val, d.utIndex_lt k.isLt s.isLt⟩

/-- The place by space of a derivative. -/
def spacePlace (k : Fin d.varsPerNode) (j : Fin d.spatialDim) : Fin d.uxLen :=
  ⟨d.uxIndex k j, d.uxIndex_lt k.isLt j.isLt⟩

/-- The place by space of the value of a variable. -/
def valuePlace (k : Fin d.varsPerNode) : Fin d.uxLen :=
  ⟨d.uxValueIndex k, d.uxValueIndex_lt k.isLt⟩

/-- The places by time are those of the slots by time. -/
theorem exists_timePlace (i : Fin d.utLen) : ∃ k s, i = timePlace (d := d) k s := by
  have hi := i.isLt
  unfold utLen at hi
  refine ⟨⟨i / 3, by omega⟩, ⟨i % 3, by omega⟩, Fin.ext ?_⟩
  show i.val = 3 * (i.val / 3) + i.val % 3
  omega

/-- The places by space are the values and the derivatives of the variables. -/
theorem exists_spacePlace (i : Fin d.uxLen) :
    (∃ k, i = valuePlace (d := d) k) ∨ ∃ k j, i = spacePlace (d := d) k j := by
  have hpos : 0 < d.spatialDim + 1 := Nat.succ_pos _
  have hk : i.val / (d.spatialDim + 1) < d.varsPerNode := Nat.div_lt_of_lt_mul i.isLt
  have hdm := Nat.div_add_mod' i.val (d.spatialDim + 1)
  have hm := Nat.mod_lt i.val hpos
  -- the value of a variable stands before its derivatives
  rcases Nat.eq_zero_or_pos (i.val % (d.spatialDim + 1)) with h0 | h1
  · refine Or.inl ⟨⟨_, hk⟩, Fin.ext ?_⟩
    show i.val = i.val / (d.spatialDim + 1) * (d.spatialDim + 1)
    omega
  · refine Or.inr ⟨⟨_, hk⟩, ⟨i.val % (d.spatialDim + 1) - 1, by omega⟩, Fin.ext ?_⟩
    show i.val = i.val / (d.spatialDim + 1) * (d.spatialDim + 1) + 1
      + (i.val % (d.spatialDim + 1) - 1)
    omega

/-- In rows of one length, division by the length gives the row of a place. -/
theorem block_div {n a i : ℕ} (hi : i < n) : (a * n + i) / n = a := by
  rw [Nat.mul_comm, Nat.mul_add_div (Nat.zero_lt_of_lt hi), Nat.div_eq_of_lt hi, Nat.add_zero]

/-- A place in rows of one length determines the row and the place in it. -/
theorem block_injective {n a b i j : ℕ} (hi : i < n) (hj : j < n)
    (h : a * n + i = b * n + j) : a = b ∧ i = j := by
  obtain rfl : a = b := by
    have hdiv := congrArg (· / n) h
    rwa [block_div hi, block_div hj] at hdiv
  exact ⟨rfl, Nat.add_left_cancel h⟩

theorem valuePlace_ne_spacePlace (k l : Fin d.varsPerNode) (j : Fin d.spatialDim) :
    valuePlace k ≠ spacePlace l j := by
  intro h
  have hv : k.val * (d.spatialDim + 1) + 0 = l.val * (d.spatialDim + 1) + (1 + j.val) :=
    (congrArg Fin.val h).trans (Nat.add_assoc _ _ _)
  have h0 := (block_injective (Nat.succ_pos _) (by omega) hv).2
  omega

theorem spacePlace_inj {k l : Fin d.varsPerNode} {i j : Fin d.spatialDim} :
    spacePlace k i = spacePlace l j ↔ k = l ∧ i = j := by
  constructor
  · intro h
    have hv : k.val * (d.spatialDim + 1) + (1 + i.val)
        = l.val * (d.spatialDim + 1) + (1 + j.val) :=
      ((Nat.add_assoc _ _ _).symm.trans (congrArg Fin.val h)).trans (Nat.add_assoc _ _ _)
    obtain ⟨hk, hi⟩ := block_injective (by omega) (by omega) hv
    exact ⟨Fin.ext hk, Fin.ext (Nat.add_left_cancel hi)⟩
  · rintro ⟨rfl, rfl⟩
    rfl

theorem timePlace_inj {k l : Fin d.varsPerNode} {s t : Fin 3} :
    timePlace k s = timePlace l t ↔ k = l ∧ s = t := by
  simp only [timePlace, Fin.ext_iff]
  omega

/-! ## Rows -/

/-- The number of a slot in its block. -/
def offset : Fin 3 ⊕ Fin d.spatialDim → ℕ
  | .inl s => s.val
  | .inr j => 3 + j.val

theorem offset_lt (s : Fin 3 ⊕ Fin d.spatialDim) : offset (d := d) s < d.blockSize := by
  unfold offset blockSize
  cases s with
  | inl s => exact s.isLt.trans_le (Nat.le_add_right _ _)
  | inr j => exact Nat.add_lt_add_left j.isLt 3

/-- **The row of a slot**: time slots come first in the block of a variable, then its
derivatives. -/
def rowIndex : d.Slot → ℕ
  | (k, .inl s) => d.timeIndex k s
  | (k, .inr j) => d.spatialIndex k j

theorem rowIndex_eq (slot : d.Slot) :
    rowIndex slot = slot.1.val * d.blockSize + offset slot.2 := by
  obtain ⟨k, s | j⟩ := slot
  · rfl
  · exact Nat.add_assoc _ _ _

theorem rowIndex_lt (slot : d.Slot) : rowIndex slot < d.jacobianSize := by
  have hk : (slot.1.val + 1) * d.blockSize ≤ d.varsPerNode * d.blockSize :=
    Nat.mul_le_mul_right _ slot.1.isLt
  have ho := offset_lt slot.2
  rw [Nat.succ_mul] at hk
  rw [rowIndex_eq, jacobianSize, Nat.mul_comm d.blockSize]
  omega

/-- Division takes a row apart into the variable and the place in its block. -/
theorem var_rowIndex (slot : d.Slot) : d.var (rowIndex slot) = slot.1.val := by
  rw [rowIndex_eq]
  exact block_div (offset_lt slot.2)

theorem slot_rowIndex (slot : d.Slot) : d.slot (rowIndex slot) = offset slot.2 := by
  rw [rowIndex_eq, Dims.slot, Nat.mul_comm, Nat.mul_add_mod, Nat.mod_eq_of_lt (offset_lt slot.2)]

/-- The row of a slot among the rows of the Jacobian. -/
def row (slot : d.Slot) : Fin d.jacobianSize := ⟨rowIndex slot, rowIndex_lt slot⟩

@[simp] theorem val_row (slot : d.Slot) : (row slot).val = rowIndex slot := rfl

theorem var_lt_varsPerNode (r : Fin d.jacobianSize) : d.var r < d.varsPerNode := d.var_lt r.isLt

theorem slot_sub_lt_spatialDim (r : Fin d.jacobianSize) (h : ¬ d.slot r < 3) :
    d.slot r - 3 < d.spatialDim := by
  have hs := d.slot_lt r
  unfold blockSize at hs
  omega

/-- The slot of a row. -/
def slotOf (r : Fin d.jacobianSize) : d.Slot :=
  (⟨d.var r, var_lt_varsPerNode r⟩,
    if h : d.slot r < 3 then .inl ⟨d.slot r, h⟩
    else .inr ⟨d.slot r - 3, slot_sub_lt_spatialDim r h⟩)

theorem slotOf_row (slot : d.Slot) : slotOf (row slot) = slot := by
  have hv := var_rowIndex slot
  have hs := slot_rowIndex slot
  obtain ⟨k, s | j⟩ := slot
  · have hlt : d.slot (row (d := d) (k, .inl s)) < 3 := by
      rw [show d.slot (row (d := d) (k, .inl s)) = s.val from hs]
      exact s.isLt
    refine Prod.ext (Fin.ext hv) ?_
    unfold slotOf
    dsimp only
    rw [dif_pos hlt]
    exact congrArg Sum.inl (Fin.ext hs)
  · have hlt : ¬ d.slot (row (d := d) (k, .inr j)) < 3 := by
      rw [show d.slot (row (d := d) (k, .inr j)) = 3 + j.val from hs]
      omega
    refine Prod.ext (Fin.ext hv) ?_
    unfold slotOf
    dsimp only
    rw [dif_neg hlt]
    refine congrArg Sum.inr (Fin.ext ?_)
    show d.slot (row (d := d) (k, .inr j)) - 3 = j.val
    rw [show d.slot (row (d := d) (k, .inr j)) = 3 + j.val from hs]
    omega

theorem row_slotOf (r : Fin d.jacobianSize) : row (slotOf r) = r := by
  refine Fin.ext ?_
  show rowIndex (slotOf r) = r.val
  have hdm : d.var r * d.blockSize + d.slot r = r.val := Nat.div_add_mod' _ _
  rw [rowIndex_eq]
  unfold slotOf
  dsimp only
  by_cases h : d.slot r < 3
  · rw [dif_pos h]
    exact hdm
  · rw [dif_neg h]
    show d.var r * d.blockSize + (3 + (d.slot r - 3)) = r.val
    omega

/-- **Each row is the row of exactly one slot.** -/
def rowEquiv : d.Slot ≃ Fin d.jacobianSize := ⟨row, slotOf, slotOf_row, row_slotOf⟩

theorem row_injective : Function.Injective (row (d := d)) := rowEquiv.injective

theorem rowIndex_injective : Function.Injective (rowIndex (d := d)) :=
  fun _ _ h => row_injective (Fin.ext h)

/-- **The place of an entry in a matrix that is stored row by row.** -/
def position (r c : d.Slot) : ℕ := rowIndex r * d.jacobianSize + rowIndex c

theorem position_lt (r c : d.Slot) : position r c < d.jacobianSize * d.jacobianSize := by
  have hr : (rowIndex r + 1) * d.jacobianSize ≤ d.jacobianSize * d.jacobianSize :=
    Nat.mul_le_mul_right _ (rowIndex_lt r)
  have hc := rowIndex_lt c
  rw [Nat.succ_mul] at hr
  unfold position
  omega

/-- Every place of the stored matrix is the place of an entry. -/
theorem exists_position {i : ℕ} (h : i < d.jacobianSize * d.jacobianSize) :
    ∃ r c : d.Slot, position r c = i := by
  have hpos : 0 < d.jacobianSize := Nat.pos_of_ne_zero (by rintro h0; simp [h0] at h)
  refine ⟨slotOf ⟨i / d.jacobianSize, Nat.div_lt_of_lt_mul h⟩,
    slotOf ⟨i % d.jacobianSize, Nat.mod_lt _ hpos⟩, ?_⟩
  have hr := congrArg Fin.val (row_slotOf (d := d) ⟨i / d.jacobianSize, Nat.div_lt_of_lt_mul h⟩)
  have hc := congrArg Fin.val (row_slotOf (d := d) ⟨i % d.jacobianSize, Nat.mod_lt _ hpos⟩)
  unfold position
  rw [show rowIndex (slotOf (d := d) ⟨i / d.jacobianSize, _⟩) = i / d.jacobianSize from hr,
    show rowIndex (slotOf (d := d) ⟨i % d.jacobianSize, _⟩) = i % d.jacobianSize from hc]
  exact Nat.div_add_mod' _ _

/-! ## Components, rows and columns -/

/-- The first derivative by time among the slots of a variable. -/
def rate : Fin 3 := (Fin.last 1).castSucc

/-- The second derivative by time among the slots of a variable. -/
def acceleration : Fin 3 := Fin.last 2

/-- The component of a slot. -/
def component : d.Slot → d.Values → ℝ
  | (k, .inl s), u => u.1 (timePlace k s)
  | (k, .inr j), u => u.2 (spacePlace k j)

/-- **What a row of the Jacobian reads**: the component of its slot, to which the first slot of a
variable adds the coefficient of its value by space. -/
def rowValue : d.Slot → d.Values → ℝ
  | (k, .inl s), c => c.1 (timePlace k s) + if s.val = 0 then c.2 (valuePlace k) else 0
  | (k, .inr j), c => c.2 (spacePlace k j)

/-- **What a column of the Jacobian moves**: the component of its slot, with which the first slot of
a variable moves its value by space. -/
def direction : d.Slot → d.Values
  | (k, .inl s) =>
    (Pi.single (timePlace k s) 1, if s.val = 0 then Pi.single (valuePlace k) 1 else 0)
  | (k, .inr j) => (0, Pi.single (spacePlace k j) 1)

/-- Values are their components and the values by space. -/
theorem Values.ext {u v : d.Values} (hc : ∀ slot, component slot u = component slot v)
    (hv : ∀ k, u.2 (valuePlace k) = v.2 (valuePlace k)) : u = v := by
  refine Prod.ext (funext (fun i => ?_)) (funext (fun i => ?_))
  · obtain ⟨k, s, rfl⟩ := exists_timePlace i
    exact hc (k, .inl s)
  · obtain ⟨k, rfl⟩ | ⟨k, j, rfl⟩ := exists_spacePlace i
    · exact hv k
    · exact hc (k, .inr j)

@[simp] theorem component_add (slot : d.Slot) (u v : d.Values) :
    component slot (u + v) = component slot u + component slot v := by
  obtain ⟨k, s | j⟩ := slot <;> rfl

@[simp] theorem component_smul (slot : d.Slot) (t : ℝ) (u : d.Values) :
    component slot (t • u) = t * component slot u := by
  obtain ⟨k, s | j⟩ := slot <;> rfl

@[simp] theorem component_sub (slot : d.Slot) (u v : d.Values) :
    component slot (u - v) = component slot u - component slot v := by
  obtain ⟨k, s | j⟩ := slot <;> rfl

@[simp] theorem rowValue_add (slot : d.Slot) (u v : d.Values) :
    rowValue slot (u + v) = rowValue slot u + rowValue slot v := by
  obtain ⟨k, s | j⟩ := slot
  · by_cases hs : s.val = 0
    · simp only [rowValue, hs, if_true, Prod.fst_add, Prod.snd_add, Pi.add_apply]
      ring
    · simp only [rowValue, hs, if_false, Prod.fst_add, Pi.add_apply, add_zero]
  · rfl

@[simp] theorem rowValue_smul (slot : d.Slot) (t : ℝ) (u : d.Values) :
    rowValue slot (t • u) = t * rowValue slot u := by
  obtain ⟨k, s | j⟩ := slot
  · by_cases hs : s.val = 0
    · simp only [rowValue, hs, if_true, Prod.smul_fst, Prod.smul_snd, Pi.smul_apply, smul_eq_mul]
      ring
    · simp only [rowValue, hs, if_false, Prod.smul_fst, Pi.smul_apply, smul_eq_mul, add_zero]
  · rfl

/-- Where no coefficient belongs to the values by space, a row reads the component of its slot. -/
theorem rowValue_eq_component (slot : d.Slot) {c : d.Values} (h : ∀ k, c.2 (valuePlace k) = 0) :
    rowValue slot c = component slot c := by
  obtain ⟨k, s | j⟩ := slot
  · simp only [rowValue, component, h, ite_self, add_zero]
  · rfl

/-- A column moves the component of its own slot and of no other. -/
theorem component_direction (r c : d.Slot) :
    component r (direction c) = if r = c then 1 else 0 := by
  obtain ⟨k, s | j⟩ := r <;> obtain ⟨l, s' | j'⟩ := c
  · simp only [component, direction, Pi.single_apply, timePlace_inj, Prod.mk.injEq, Sum.inl.injEq]
  · simp [component, direction]
  · have hvalue : spacePlace k j ≠ valuePlace l := (valuePlace_ne_spacePlace l k j).symm
    by_cases hs : s'.val = 0
    · simp [component, direction, hs, hvalue]
    · simp [component, direction, hs]
  · simp only [component, direction, Pi.single_apply, spacePlace_inj, Prod.mk.injEq,
      Sum.inr.injEq]

end Dims

end WeakForm
