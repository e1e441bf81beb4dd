import WeakForm.Proofs.Slots

/-!
# The dense form of a Jacobian

A view lists its entries, and its dense form adds them one after the other to a matrix of zeros. At
each place of the matrix stands the sum of the entries that belong there, from the first to the last
(`getElem?_toDense`). That is all there is to the dense form, so a matrix over the slots is *the*
dense form of a view (`IsDenseOf`) as soon as it has these sums as entries.
-/

namespace WeakForm

namespace JacobianView

section Places

variable {α : Type} [Scalar α]

/-- The values of the entries that belong to a place, in their order. -/
def valuesAt (n : ℕ) (entries : List (ℕ × ℕ × α)) (place : ℕ) : List α :=
  (entries.filter fun e => e.1 * n + e.2.1 = place).map (·.2.2)

/-- Adding entries to cells adds to each cell the values that belong to its place. -/
theorem getElem?_foldl_modify (n : ℕ) (entries : List (ℕ × ℕ × α)) (cells : Array α) (i : ℕ) :
    (entries.foldl (fun cells e => cells.modify (e.1 * n + e.2.1) (· + e.2.2)) cells)[i]?
      = cells[i]?.map fun x => (valuesAt n entries i).foldl (· + ·) x := by
  induction entries generalizing cells with
  | nil => simp [valuesAt]
  | cons e entries ih =>
    rw [List.foldl_cons, ih, Array.getElem?_modify]
    by_cases h : e.1 * n + e.2.1 = i
    · rw [if_pos h, Option.map_map]
      congr 1
      funext x
      simp [valuesAt, h]
    · rw [if_neg h]
      congr 2
      simp [valuesAt, h]

theorem toDense_eq_foldl (v : JacobianView α) :
    v.toDense = v.entries.foldl (fun cells e => cells.modify (e.1 * v.size + e.2.1) (· + e.2.2))
      (Array.replicate (v.size * v.size) 0) := rfl

/-- **Each place of the dense form holds the sum of its entries.** -/
theorem getElem?_toDense (v : JacobianView α) {i : ℕ} (h : i < v.size * v.size) :
    v.toDense[i]? = some (Scalar.sum (valuesAt v.size v.entries i)) := by
  rw [toDense_eq_foldl, getElem?_foldl_modify, Array.getElem?_replicate, if_pos h]
  rfl

@[simp] theorem size_toDense (v : JacobianView α) : v.toDense.size = v.size * v.size := by
  rw [toDense_eq_foldl]
  -- of the cells only their number matters, which no entry changes
  generalize hcells : Array.replicate (v.size * v.size) (0 : α) = cells
  have hsize : cells.size = v.size * v.size := by rw [← hcells, Array.size_replicate]
  clear hcells
  induction v.entries generalizing cells with
  | nil => exact hsize
  | cons e entries ih =>
    rw [List.foldl_cons]
    exact ih _ (by rw [Array.size_modify, hsize])

end Places

/-- What a successful view holds. -/
theorem of?_eq_ok {α : Type} {size : ℕ} {pattern : JacobianPattern} {values : Array α}
    {view : JacobianView α} (h : of? size pattern values = .ok view) :
    view = ⟨size, pattern, values.take (pattern.nnz size)⟩ := by
  unfold of? at h
  cases hv : pattern.validate (α := α) size with
  | error e =>
    rw [hv] at h
    cases h
  | ok _ =>
    rw [hv] at h
    by_cases hlt : values.size < pattern.nnz size
    · simp only [bind, Except.bind, hlt, if_true] at h
      cases h
    · simp only [bind, Except.bind, hlt, if_false] at h
      cases h
      rfl

/-- A pattern of pairs inside of the matrix, with enough values, makes a view. -/
theorem of?_sparse {α : Type} {size : ℕ} {pairs : List (ℕ × ℕ)} {values : Array α}
    (hin : ∀ p ∈ pairs, p.1 < size ∧ p.2 < size) (hle : pairs.length ≤ values.size) :
    of? size (.sparse pairs) values = .ok ⟨size, .sparse pairs, values.take pairs.length⟩ := by
  have hfind : pairs.find? (JacobianPattern.outside size) = none := by
    rw [List.find?_eq_none]
    intro p hp
    have := hin p hp
    simp only [JacobianPattern.outside, decide_eq_true_eq]
    omega
  have hvalid : (JacobianPattern.sparse pairs).validate (α := α) size = .ok () := by
    unfold JacobianPattern.validate
    dsimp only
    rw [hfind]
  unfold of?
  rw [hvalid]
  show (if values.size < pairs.length then _ else _) = _
  rw [if_neg (not_lt.mpr hle)]
  rfl

end JacobianView

/-! ## Matrices over the slots -/

namespace Dims

variable {d : Dims}

/-- **A list stores a matrix** over the slots, row by row. -/
structure IsStored (l : List ℝ) (J : Matrix d.Slot d.Slot ℝ) : Prop where
  length_eq : l.length = d.jacobianSize * d.jacobianSize
  getElem? : ∀ r c, l[position r c]? = some (J r c)

/-- There is one way to store a matrix. -/
theorem IsStored.unique {l l' : List ℝ} {J : Matrix d.Slot d.Slot ℝ} (h : IsStored l J)
    (h' : IsStored l' J) : l = l' := by
  refine List.ext_getElem? (fun i => ?_)
  by_cases hi : i < d.jacobianSize * d.jacobianSize
  · obtain ⟨r, c, rfl⟩ := exists_position hi
    rw [h.getElem?, h'.getElem?]
  · rw [List.getElem?_eq_none (by rw [h.length_eq]; exact not_lt.mp hi),
      List.getElem?_eq_none (by rw [h'.length_eq]; exact not_lt.mp hi)]

/-- What stands at a place of a stored matrix is one of its entries. -/
theorem IsStored.exists_of_getElem? {l : List ℝ} {J : Matrix d.Slot d.Slot ℝ} (h : IsStored l J)
    {i : ℕ} {x : ℝ} (hx : l[i]? = some x) : ∃ r c, position r c = i ∧ J r c = x := by
  have hi : i < d.jacobianSize * d.jacobianSize := by
    rw [← h.length_eq]
    exact (List.getElem?_eq_some_iff.mp hx).1
  obtain ⟨r, c, rfl⟩ := exists_position hi
  rw [h.getElem?] at hx
  exact ⟨r, c, rfl, Option.some.inj hx⟩

/-- The errors between two stored matrices are stored like them. -/
theorem IsStored.errors [Waves] {l l' : List ℝ} {J D : Matrix d.Slot d.Slot ℝ} (h : IsStored l J)
    (h' : IsStored l' D) :
    IsStored (CheckResult.errors l l') (fun r c => |J r c - D r c| : Matrix d.Slot d.Slot ℝ) where
  length_eq := by
    unfold CheckResult.errors
    rw [List.length_zipWith, h.length_eq, h'.length_eq, min_self]
  getElem? := fun r c => by
    unfold CheckResult.errors
    rw [List.getElem?_zipWith, h.getElem?, h'.getElem?]
    rfl

/-- Rows of one length, one after the other. -/
theorem getElem?_flatMap_range {α : Type} {n m : ℕ} {g : ℕ → List α}
    (hg : ∀ i, (g i).length = m) {i j : ℕ} (hi : i < n) (hj : j < m) :
    ((List.range n).flatMap g)[i * m + j]? = (g i)[j]? := by
  have hlen : ∀ n, ((List.range n).flatMap g).length = n * m := by
    intro n
    simp [List.length_flatMap, hg]
  induction n with
  | zero => exact absurd hi (Nat.not_lt_zero i)
  | succ n ih =>
    rw [List.range_succ, List.flatMap_append, List.flatMap_singleton]
    rcases Nat.lt_succ_iff_lt_or_eq.mp hi with hlt | rfl
    · have hrow : (i + 1) * m ≤ n * m := Nat.mul_le_mul_right m hlt
      rw [Nat.succ_mul] at hrow
      rw [List.getElem?_append_left (by rw [hlen]; omega)]
      exact ih hlt
    · rw [List.getElem?_append_right (by rw [hlen]; omega), hlen, Nat.add_sub_cancel_left]

/-- A matrix that is given by its columns is stored row by row. -/
theorem isStored_rowMajor [Waves] (D : Matrix d.Slot d.Slot ℝ) :
    IsStored (rowMajor d.jacobianSize ((List.finRange d.jacobianSize).map fun c =>
      (List.finRange d.jacobianSize).map fun r => D (slotOf r) (slotOf c))) D where
  length_eq := by
    unfold rowMajor
    simp [List.length_flatMap]
  getElem? := fun r c => by
    unfold rowMajor position
    rw [getElem?_flatMap_range (by simp) (rowIndex_lt r) (rowIndex_lt c)]
    have hr : (List.finRange d.jacobianSize)[rowIndex r]? = some (row r) := by
      simp [rowIndex_lt r, row]
    have hc : (List.finRange d.jacobianSize)[rowIndex c]? = some (row c) := by
      simp [rowIndex_lt c, row]
    rw [List.getElem?_map, List.getElem?_map, hc]
    simp only [Option.map_some, List.getD_eq_getElem?_getD, List.getElem?_map, hr, slotOf_row,
      Option.getD_some]

/-- **The matrix of listed entries**: at two slots, the sum of the values listed for them. -/
def listedMatrix (listed : List (d.Slot × d.Slot × ℝ)) : Matrix d.Slot d.Slot ℝ :=
  fun r c => (listed.map fun e => if e.1 = r ∧ e.2.1 = c then e.2.2 else 0).sum

/-- A row of listed entries times a vector: each entry of the row meets the component of its
column. -/
theorem sum_listedMatrix_mul (listed : List (d.Slot × d.Slot × ℝ)) (r : d.Slot) (z : d.Slot → ℝ) :
    ∑ c, listedMatrix listed r c * z c
      = (listed.map fun e => if e.1 = r then e.2.2 * z e.2.1 else 0).sum := by
  unfold listedMatrix
  induction listed with
  | nil => simp
  | cons e listed ih =>
    simp only [List.map_cons, List.sum_cons, add_mul, Finset.sum_add_distrib, ih]
    congr 1
    by_cases h : e.1 = r
    · simp [h]
    · simp [h]

end Dims

namespace JacobianView

variable [Waves] {d : Dims}

/-- **The dense form of a view is a matrix over the slots**, stored row by row. -/
def IsDenseOf (v : JacobianView ℝ) (J : Matrix d.Slot d.Slot ℝ) : Prop :=
  ∀ r c : d.Slot, v.toDense[Dims.position r c]? = some (J r c)

theorem IsDenseOf.isStored {v : JacobianView ℝ} {J : Matrix d.Slot d.Slot ℝ} (h : v.IsDenseOf J)
    (hsize : v.size = d.jacobianSize) : Dims.IsStored v.toDense.toList J where
  length_eq := by rw [Array.length_toList, size_toDense, hsize]
  getElem? := fun r c => by rw [Array.getElem?_toList]; exact h r c

/-- A view has one dense form. -/
theorem IsDenseOf.unique {v : JacobianView ℝ} {J J' : Matrix d.Slot d.Slot ℝ} (h : v.IsDenseOf J)
    (h' : v.IsDenseOf J') : J = J' := by
  ext r c
  exact Option.some.inj ((h r c).symm.trans (h' r c))

/-- Each view of the size of the Jacobian has a dense form over the slots. -/
theorem exists_isDenseOf (v : JacobianView ℝ) (h : v.size = d.jacobianSize) :
    ∃ J : Matrix d.Slot d.Slot ℝ, v.IsDenseOf J :=
  ⟨fun r c => Scalar.sum (valuesAt v.size v.entries (Dims.position r c)),
    fun r c => v.getElem?_toDense (by rw [h]; exact Dims.position_lt r c)⟩

/-- **The dense form of entries that are listed by their slots.** -/
theorem isDenseOf_of_entries {v : JacobianView ℝ} (hsize : v.size = d.jacobianSize)
    {listed : List (d.Slot × d.Slot × ℝ)}
    (hentries : v.entries
      = listed.map fun e => (Dims.rowIndex e.1, Dims.rowIndex e.2.1, e.2.2)) :
    v.IsDenseOf (Dims.listedMatrix listed) := by
  intro r c
  have hlt : Dims.position r c < v.size * v.size := by rw [hsize]; exact Dims.position_lt r c
  -- two pairs of slots that share a place are the same pair
  have hplace : ∀ e : d.Slot × d.Slot × ℝ,
      Dims.rowIndex e.1 * v.size + Dims.rowIndex e.2.1 = Dims.position r c
        ↔ e.1 = r ∧ e.2.1 = c := by
    intro e
    rw [hsize]
    constructor
    · intro h
      obtain ⟨hr, hc⟩ := Dims.block_injective (Dims.rowIndex_lt _) (Dims.rowIndex_lt _) h
      exact ⟨Dims.rowIndex_injective hr, Dims.rowIndex_injective hc⟩
    · rintro ⟨rfl, rfl⟩
      rfl
  rw [v.getElem?_toDense hlt, Scalar.sum_real, hentries]
  refine congrArg some ?_
  unfold valuesAt Dims.listedMatrix
  have hsum : (listed.map fun e => if e.1 = r ∧ e.2.1 = c then e.2.2 else 0).sum
      = ((listed.filter fun e => e.1 = r ∧ e.2.1 = c).map fun e => e.2.2).sum := by
    rw [List.sum_map_ite]
    simp
  rw [hsum, List.filter_map, List.map_map]
  refine congrArg (fun l : List (d.Slot × d.Slot × ℝ) => (l.map fun e => e.2.2).sum) ?_
  exact List.filter_congr (fun e _ => decide_eq_decide.mpr (hplace e))

end JacobianView

end WeakForm
