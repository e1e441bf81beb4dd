import WeakForm.Proofs.DenseJacobian
import WeakForm.Proofs.NeutralZero

/-!
# The readers of a Jacobian

There are four ways of reading a view: entry by entry in the order of the pattern, one place at a
time, as a dense matrix, and in coordinate format. The last two are filled by a library for
matrices, of which only this is known: a matrix starts with zeros, and a value can be added at each
place inside of it (`MatrixFormat.IsDense`, `MatrixFormat.IsCoordinate`).

A view is whole (`JacobianView.IsWhole`) if its pattern lies inside of the matrix and has one value
for each of its cells; those are the views that can be built (`of?_eq_ok_iff`). **No reader of a
whole view ever looks outside**, and all of them agree: at each place inside of the matrix stands
the sum of the entries that are listed there, from the first to the last
(`JacobianView.ReadersAgree`). A sum starts at zero, so this holds up to the sign of zero.
-/

namespace WeakForm

/-! ## Formats -/

namespace MatrixFormat

variable {M α : Type} [MatrixFormat M α]

/-- **A dense format.** It starts with zeros, and a value that is added at a place is added to the
entry there and to no other. -/
structure IsDense [Scalar α] (value? : M → ℕ → ℕ → Option α) : Prop where
  value?_zeros : ∀ {rows cols row col}, row < rows → col < cols →
    value? (zeros rows cols) row col = some 0
  exists_add? : ∀ {m row col x} (value : α), value? m row col = some x →
    ∃ m', add? m row col value = some m' ∧ value? m' row col = some (x + value)
      ∧ ∀ r c, (r, c) ≠ (row, col) → value? m' r c = value? m r c

/-- **A coordinate format.** It starts with nothing, and a value that is added at a place of the
matrix comes last. -/
structure IsCoordinate (shape : M → ℕ × ℕ) (triplets : M → List (ℕ × ℕ × α)) : Prop where
  shape_zeros : ∀ rows cols, shape (zeros rows cols) = (rows, cols)
  triplets_zeros : ∀ rows cols, triplets (zeros rows cols) = []
  exists_add? : ∀ {m row col} (value : α), row < (shape m).1 → col < (shape m).2 →
    ∃ m', add? m row col value = some m' ∧ shape m' = shape m
      ∧ triplets m' = triplets m ++ [(row, col, value)]

end MatrixFormat

/-- A dense matrix that is stored row by row. -/
theorem DenseMatrix.isDense {α : Type} [Scalar α] :
    MatrixFormat.IsDense (DenseMatrix.value? : DenseMatrix α → ℕ → ℕ → Option α) where
  value?_zeros := by
    intro rows cols row col hrow hcol
    have hplace : row * cols + col < rows * cols := by
      rw [Nat.mul_comm row]
      exact Nat.mul_add_lt_mul_of_lt_of_lt hrow hcol
    show (if row < rows ∧ col < cols then
      (Array.replicate (rows * cols) (0 : α))[row * cols + col]? else none) = some 0
    rw [if_pos ⟨hrow, hcol⟩, Array.getElem?_replicate, if_pos hplace]
  exists_add? := by
    intro m row col x value hx
    unfold value? at hx
    by_cases hin : row < m.rows ∧ col < m.cols
    · rw [if_pos hin] at hx
      refine ⟨{ m with cells := m.cells.modify (row * m.cols + col) (· + value) }, if_pos hin, ?_,
        fun r c hne => ?_⟩
      · show (if row < m.rows ∧ col < m.cols then _ else _) = _
        rw [if_pos hin, Array.getElem?_modify, if_pos rfl, hx]
        rfl
      · unfold value?
        by_cases hother : r < m.rows ∧ c < m.cols
        · -- two places inside of the matrix are stored apart
          have hplace : row * m.cols + col ≠ r * m.cols + c := fun h => by
            obtain ⟨hr, hc⟩ := Dims.block_injective hin.2 hother.2 h
            exact hne (Prod.ext hr.symm hc.symm)
          rw [if_pos hother, if_pos hother, Array.getElem?_modify, if_neg hplace]
        · rw [if_neg hother, if_neg hother]
    · rw [if_neg hin] at hx
      cases hx

theorem CoordinateMatrix.isCoordinate {α : Type} :
    MatrixFormat.IsCoordinate (CoordinateMatrix.shape : CoordinateMatrix α → ℕ × ℕ)
      fun m => m.triplets.toList where
  shape_zeros _ _ := rfl
  triplets_zeros _ _ := rfl
  exists_add? {m row col} value hrow hcol :=
    ⟨{ m with triplets := m.triplets.push (row, col, value) }, if_pos ⟨hrow, hcol⟩, rfl,
      Array.toList_push⟩

/-! ## Filling a matrix -/

/-- **The values listed for a cell**, in their order. -/
def cellValues {α : Type} (entries : List (ℕ × ℕ × α)) (row col : ℕ) : List α :=
  (entries.filter fun e => e.1 = row ∧ e.2.1 = col).map (·.2.2)

namespace MatrixFormat

variable {M α : Type} [MatrixFormat M α] {entries : List (ℕ × ℕ × α)} {n : ℕ}

/-- **Entries inside of a dense matrix can be added**, and what is added to each entry is what is
listed for its cell. -/
theorem IsDense.exists_foldlM [Scalar α] {value? : M → ℕ → ℕ → Option α} (h : IsDense value?)
    (hin : ∀ e ∈ entries, e.1 < n ∧ e.2.1 < n) {m : M} {start : ℕ → ℕ → α}
    (hm : ∀ r < n, ∀ c < n, value? m r c = some (start r c)) :
    ∃ m', entries.foldlM (fun m e => add? m e.1 e.2.1 e.2.2) m = some m'
      ∧ ∀ r < n, ∀ c < n,
        value? m' r c = some ((cellValues entries r c).foldl (· + ·) (start r c)) := by
  -- by induction on the entries that are left, for whatever the matrix holds by then
  induction entries generalizing m start with
  | nil => exact ⟨m, rfl, hm⟩
  | cons e entries ih =>
    rw [List.forall_mem_cons] at hin
    obtain ⟨⟨hrow, hcol⟩, hin⟩ := hin
    obtain ⟨m₁, hadd, hself, hother⟩ := h.exists_add? e.2.2 (hm e.1 hrow e.2.1 hcol)
    have hm₁ : ∀ r < n, ∀ c < n, value? m₁ r c
        = some (if e.1 = r ∧ e.2.1 = c then start r c + e.2.2 else start r c) := by
      intro r hr c hc
      by_cases hcell : e.1 = r ∧ e.2.1 = c
      · obtain ⟨rfl, rfl⟩ := hcell
        rw [if_pos ⟨rfl, rfl⟩, hself]
      · have hne : (r, c) ≠ (e.1, e.2.1) := fun heq =>
          hcell ⟨(Prod.ext_iff.mp heq).1.symm, (Prod.ext_iff.mp heq).2.symm⟩
        rw [if_neg hcell, hother r c hne, hm r hr c hc]
    obtain ⟨m', hrest, hentries⟩ := ih hin hm₁
    refine ⟨m', ?_, fun r hr c hc => ?_⟩
    · rw [List.foldlM_cons, hadd]
      exact hrest
    · rw [hentries r hr c hc]
      by_cases hcell : e.1 = r ∧ e.2.1 = c
      · simp [cellValues, hcell]
      · simp [cellValues, hcell]

/-- **Entries inside of a matrix in coordinate format are kept in their order.** -/
theorem IsCoordinate.exists_foldlM {shape : M → ℕ × ℕ} {triplets : M → List (ℕ × ℕ × α)}
    (h : IsCoordinate shape triplets) (hin : ∀ e ∈ entries, e.1 < n ∧ e.2.1 < n) {m : M}
    (hm : shape m = (n, n)) :
    ∃ m', entries.foldlM (fun m e => add? m e.1 e.2.1 e.2.2) m = some m' ∧ shape m' = (n, n)
      ∧ triplets m' = triplets m ++ entries := by
  induction entries generalizing m with
  | nil => exact ⟨m, rfl, hm, (List.append_nil _).symm⟩
  | cons e entries ih =>
    rw [List.forall_mem_cons] at hin
    obtain ⟨⟨hrow, hcol⟩, hin⟩ := hin
    obtain ⟨m₁, hadd, hshape, htriplets⟩ :=
      h.exists_add? (m := m) e.2.2 (by rw [hm]; exact hrow) (by rw [hm]; exact hcol)
    obtain ⟨m', hrest, hshape', htriplets'⟩ := ih hin (hshape.trans hm)
    refine ⟨m', ?_, hshape', ?_⟩
    · rw [List.foldlM_cons, hadd]
      exact hrest
    · rw [htriplets', htriplets, List.append_assoc]
      rfl

end MatrixFormat

/-! ## Patterns -/

namespace JacobianPattern

variable {size : ℕ} {pattern : JacobianPattern}

/-- **A pattern inside of a matrix**: each of its pairs is. -/
def IsInside (size : ℕ) : JacobianPattern → Prop
  | .dense => True
  | .sparse pairs => ∀ cell ∈ pairs, cell.1 < size ∧ cell.2 < size

theorem validate_eq_ok_iff {α : Type} :
    pattern.validate (α := α) size = .ok () ↔ pattern.IsInside size := by
  cases pattern with
  | dense => exact iff_of_true rfl trivial
  | sparse pairs =>
    have hfind : pairs.find? (outside size) = none ↔ IsInside size (.sparse pairs) := by
      rw [List.find?_eq_none]
      refine forall₂_congr fun cell _ => ?_
      simp only [outside, decide_eq_true_eq]
      omega
    rw [← hfind]
    unfold validate
    dsimp only
    cases pairs.find? (outside size) with
    | none => exact iff_of_true rfl rfl
    | some cell => exact iff_of_false (fun h => by cases h) (fun h => by cases h)

/-- Each value has a cell. -/
theorem cell?_eq_getElem? {k : ℕ} (hk : k < pattern.nnz size) :
    pattern.cell? size k = (pattern.cells size)[k]? := by
  cases pattern with
  | dense =>
    have hk' : k < size * size := hk
    have hsize : size ≠ 0 := by
      rintro rfl
      exact absurd hk' (Nat.not_lt_zero k)
    unfold cell? cells
    rw [if_neg hsize, List.getElem?_map, List.getElem?_range hk']
    rfl
  | sparse pairs => rfl

/-- **The cells of a pattern are inside of the matrix.** -/
theorem IsInside.cells (h : pattern.IsInside size) :
    ∀ cell ∈ pattern.cells size, cell.1 < size ∧ cell.2 < size := by
  cases pattern with
  | dense =>
    intro cell hcell
    obtain ⟨k, hk, rfl⟩ := List.mem_map.mp hcell
    have hk' : k < size * size := List.mem_range.mp hk
    exact ⟨Nat.div_lt_of_lt_mul hk', Nat.mod_lt k (Nat.pos_of_lt_mul_left hk')⟩
  | sparse pairs => exact h

end JacobianPattern

/-! ## Whole views -/

namespace JacobianView

section Whole

variable {α : Type} {v : JacobianView α}

/-- **A view is whole** if its pattern is inside of the matrix and has a value for each cell. -/
structure IsWhole (v : JacobianView α) : Prop where
  inside : v.pattern.IsInside v.size
  size_values : v.values.size = v.pattern.nnz v.size

/-- **When there is a view, and which.** -/
theorem of?_eq_ok_iff {size : ℕ} {pattern : JacobianPattern} {values : Array α} :
    of? size pattern values = .ok v ↔ pattern.IsInside size ∧ pattern.nnz size ≤ values.size
      ∧ v = ⟨size, pattern, values.take (pattern.nnz size)⟩ := by
  rw [← JacobianPattern.validate_eq_ok_iff (α := α)]
  unfold of?
  cases pattern.validate (α := α) size with
  | error e => exact iff_of_false (fun h => by cases h) (fun h => by cases h.1)
  | ok _ =>
    show (if values.size < pattern.nnz size then _ else _) = _ ↔ _
    by_cases hlt : values.size < pattern.nnz size
    · rw [if_pos hlt]
      exact iff_of_false (fun h => by cases h) fun h => absurd hlt (not_lt.mpr h.2.1)
    · rw [if_neg hlt]
      refine ⟨fun h => ⟨rfl, not_lt.mp hlt, ?_⟩, fun h => ?_⟩
      · cases h
        rfl
      · rw [h.2.2]
        rfl

theorem isWhole_of_of? {size : ℕ} {pattern : JacobianPattern} {values : Array α}
    (h : of? size pattern values = .ok v) : v.IsWhole := by
  obtain ⟨hinside, hle, rfl⟩ := of?_eq_ok_iff.mp h
  exact ⟨hinside, by simpa using hle⟩

theorem entries_eq_zipWith (v : JacobianView α) :
    v.entries = List.zipWith (fun cell value => (cell.1, cell.2, value)) (v.pattern.cells v.size)
      v.values.toList := rfl

/-- An entry is a cell with its value. -/
theorem getElem?_entries (v : JacobianView α) (k : ℕ) :
    v.entries[k]? = (v.pattern.cells v.size)[k]?.bind fun cell =>
      v.values[k]?.map fun value => (cell.1, cell.2, value) := by
  rw [entries_eq_zipWith, List.getElem?_zipWith, ← Array.getElem?_toList]
  cases (v.pattern.cells v.size)[k]? <;> cases v.values.toList[k]? <;> rfl

theorem IsWhole.length_entries (h : v.IsWhole) : v.entries.length = v.pattern.nnz v.size := by
  rw [entries_eq_zipWith, List.length_zipWith, JacobianPattern.length_cells, Array.length_toList,
    h.size_values, min_self]

/-- **The entries of a whole view are inside of the matrix.** -/
theorem IsWhole.entries_inside (h : v.IsWhole) : ∀ e ∈ v.entries, e.1 < v.size ∧ e.2.1 < v.size := by
  intro e he
  obtain ⟨k, hk⟩ := List.mem_iff_getElem?.mp he
  rw [getElem?_entries, Option.bind_eq_some_iff] at hk
  obtain ⟨cell, hcell, hvalue⟩ := hk
  obtain ⟨value, -, rfl⟩ := Option.map_eq_some_iff.mp hvalue
  exact h.inside.cells cell (List.mem_of_getElem? hcell)

/-- Looking up the cell of each value, the values being counted from some number on. -/
theorem mapM_zipIdx (cell? : ℕ → Option (ℕ × ℕ)) (cells : List (ℕ × ℕ)) (values : List α)
    (first : ℕ) (hlength : cells.length = values.length)
    (hcells : ∀ k < cells.length, cell? (first + k) = cells[k]?) :
    ((values.zipIdx first).mapM fun item => do
        let cell ← cell? item.2
        return (cell.1, cell.2, item.1))
      = some (List.zipWith (fun cell value => (cell.1, cell.2, value)) cells values) := by
  induction values generalizing cells first with
  | nil =>
    rw [List.length_eq_zero_iff.mp hlength]
    rfl
  | cons value values ih =>
    cases cells with
    | nil => cases hlength
    | cons cell cells =>
      have hfirst : cell? first = some cell := hcells 0 (Nat.zero_lt_succ _)
      have hrest := ih cells (first + 1) (Nat.succ.inj hlength) fun k hk => by
        rw [Nat.add_assoc, Nat.add_comm 1 k]
        exact hcells (k + 1) (Nat.succ_lt_succ hk)
      rw [List.zipIdx_cons, List.mapM_cons, hfirst]
      dsimp only [Option.bind_eq_bind, Option.bind_some, Option.pure_def]
      exact (congrArg (Option.bind · _) hrest).trans rfl

/-- **Every look-up of a whole view succeeds.** -/
theorem IsWhole.entries?_eq (h : v.IsWhole) : v.entries? = some v.entries := by
  unfold entries?
  rw [entries_eq_zipWith]
  refine mapM_zipIdx (v.pattern.cell? v.size ·) _ _ 0 ?_ fun k hk => ?_
  · rw [JacobianPattern.length_cells, Array.length_toList, h.size_values]
  · rw [JacobianPattern.length_cells] at hk
    rw [Nat.zero_add, JacobianPattern.cell?_eq_getElem? hk]

/-- A whole view fills a matrix with its entries. -/
theorem IsWhole.toMatrix?_eq {M : Type} [MatrixFormat M α] (h : v.IsWhole) :
    v.toMatrix? M = v.entries.foldlM (fun m e => MatrixFormat.add? m e.1 e.2.1 e.2.2)
      (MatrixFormat.zeros v.size v.size) := by
  unfold toMatrix?
  rw [h.entries?_eq]
  rfl

end Whole

/-! ## One place at a time -/

section Places

variable {α : Type} {v : JacobianView α}

/-- A list with one item of a kind. -/
theorem filter_eq_singleton {β : Type} {items : List β} {p : β → Bool} {k : ℕ} {x : β}
    (hx : items[k]? = some x) (hp : p x = true)
    (hunique : ∀ j y, items[j]? = some y → p y = true → j = k) : items.filter p = [x] := by
  induction items generalizing k with
  | nil => cases hx
  | cons y items ih =>
    cases k with
    | zero =>
      obtain rfl : y = x := Option.some.inj hx
      rw [List.filter_cons_of_pos hp]
      refine congrArg (y :: ·) (List.filter_eq_nil_iff.mpr fun z hz hpz => ?_)
      obtain ⟨j, hj⟩ := List.mem_iff_getElem?.mp hz
      exact absurd (hunique (j + 1) z hj hpz) (Nat.succ_ne_zero j)
    | succ k =>
      have hy : ¬ p y = true := fun hpy => absurd (hunique 0 y rfl hpy) (Nat.succ_ne_zero k).symm
      rw [List.filter_cons_of_neg hy]
      exact ih hx fun j z hj hpz => Nat.succ.inj (hunique (j + 1) z hj hpz)

/-- **A dense view lists one value for each cell**: the one at the place of the cell. -/
theorem IsWhole.cellValues_of_dense (h : v.IsWhole) (hdense : v.pattern = .dense) {k : ℕ} {x : α}
    (hx : v.values[k]? = some x) : cellValues v.entries (k / v.size) (k % v.size) = [x] := by
  have hentry : ∀ j y, v.values[j]? = some y →
      v.entries[j]? = some (j / v.size, j % v.size, y) := by
    intro j y hy
    have hj : j < v.size * v.size := by
      have hlt := (Array.getElem?_eq_some_iff.mp hy).1
      rwa [h.size_values, hdense] at hlt
    rw [getElem?_entries, hdense, hy]
    unfold JacobianPattern.cells
    rw [List.getElem?_map, List.getElem?_range hj]
    rfl
  unfold cellValues
  rw [filter_eq_singleton (hentry k x hx) (decide_eq_true ⟨rfl, rfl⟩)]
  · rfl
  · intro j y hj hcell
    obtain ⟨hrow, hcol⟩ := of_decide_eq_true hcell
    obtain ⟨z, hz⟩ : ∃ z, v.values[j]? = some z := by
      rw [getElem?_entries, Option.bind_eq_some_iff] at hj
      obtain ⟨_, -, hvalue⟩ := hj
      obtain ⟨z, hz, -⟩ := Option.map_eq_some_iff.mp hvalue
      exact ⟨z, hz⟩
    obtain rfl := Option.some.inj ((hentry j z hz).symm.trans hj)
    rw [← Nat.div_add_mod j v.size, ← Nat.div_add_mod k v.size]
    exact congrArg₂ (fun r c => v.size * r + c) hrow hcol

variable [Scalar α]

theorem get?_of_dense (hdense : v.pattern = .dense) (row col : ℕ) :
    v.get? row col = v.values[row * v.size + col]? := by
  unfold get?
  rw [hdense]

theorem get?_of_sparse {pairs : List (ℕ × ℕ)} (hsparse : v.pattern = .sparse pairs) (row col : ℕ) :
    v.get? row col = some (Scalar.sum (cellValues v.entries row col)) := by
  unfold get?
  rw [hsparse]
  rfl

omit [Scalar α] in
/-- **The cell whose value is read** at a row and column. A dense view does not look at the column,
and a column behind the last one is a column of a later row. -/
def cellRead (v : JacobianView α) (row col : ℕ) : ℕ × ℕ :=
  match v.pattern with
  | .dense => (row + col / v.size, col % v.size)
  | .sparse _ => (row, col)

omit [Scalar α] in
theorem cellRead_of_dense (hdense : v.pattern = .dense) (row col : ℕ) :
    v.cellRead row col = (row + col / v.size, col % v.size) := by
  unfold cellRead
  rw [hdense]

omit [Scalar α] in
theorem cellRead_of_sparse {pairs : List (ℕ × ℕ)} (hsparse : v.pattern = .sparse pairs)
    (row col : ℕ) : v.cellRead row col = (row, col) := by
  unfold cellRead
  rw [hsparse]

omit [Scalar α] in
theorem cellRead_of_lt {col : ℕ} (hcol : col < v.size) (row : ℕ) :
    v.cellRead row col = (row, col) := by
  cases hpattern : v.pattern with
  | dense =>
    rw [cellRead_of_dense hpattern, Nat.div_eq_of_lt hcol, Nat.mod_eq_of_lt hcol, Nat.add_zero]
  | sparse pairs => exact cellRead_of_sparse hpattern row col

/-- **There is nothing to read behind the last value of a dense view.** -/
theorem IsWhole.get?_eq_none_iff (h : v.IsWhole) {row col : ℕ} :
    v.get? row col = none ↔ v.pattern = .dense ∧ v.size * v.size ≤ row * v.size + col := by
  cases hpattern : v.pattern with
  | dense =>
    have hsize : v.values.size = v.size * v.size := by
      rw [h.size_values, hpattern]
      rfl
    rw [get?_of_dense hpattern, Array.getElem?_eq_none_iff, hsize]
    exact (and_iff_right rfl).symm
  | sparse pairs =>
    rw [get?_of_sparse hpattern]
    exact iff_of_false nofun nofun

/-- **What is read is the sum of the values listed for one cell.** -/
theorem IsWhole.same_of_get? [Scalar.HasNeutralZero α] (h : v.IsWhole) {row col : ℕ} {x : α}
    (hx : v.get? row col = some x) :
    Scalar.Same
      (Scalar.sum (cellValues v.entries (v.cellRead row col).1 (v.cellRead row col).2)) x := by
  cases hpattern : v.pattern with
  | dense =>
    rw [get?_of_dense hpattern] at hx
    have hsize : 0 < v.size := by
      have hlt := (Array.getElem?_eq_some_iff.mp hx).1
      rw [h.size_values, hpattern] at hlt
      exact Nat.pos_of_mul_pos_left (Nat.zero_lt_of_lt hlt)
    have hvalues := h.cellValues_of_dense hpattern hx
    rw [Nat.mul_comm, Nat.mul_add_div hsize, Nat.mul_add_mod] at hvalues
    rw [cellRead_of_dense hpattern, hvalues]
    exact Scalar.HasNeutralZero.same_zero_add x
  | sparse pairs =>
    rw [get?_of_sparse hpattern] at hx
    rw [cellRead_of_sparse hpattern, Option.some.inj hx]
    exact Scalar.Same.refl x

/-- **At a place inside of the matrix stands the sum of the values listed for it.** -/
theorem IsWhole.exists_get? [Scalar.HasNeutralZero α] (h : v.IsWhole) {row col : ℕ}
    (hrow : row < v.size) (hcol : col < v.size) :
    ∃ x, v.get? row col = some x ∧ Scalar.Same (Scalar.sum (cellValues v.entries row col)) x := by
  have hplace : row * v.size + col < v.size * v.size := by
    rw [Nat.mul_comm row]
    exact Nat.mul_add_lt_mul_of_lt_of_lt hrow hcol
  obtain ⟨x, hx⟩ : ∃ x, v.get? row col = some x :=
    Option.ne_none_iff_exists'.mp fun hnone =>
      absurd (h.get?_eq_none_iff.mp hnone).2 (not_le.mpr hplace)
  have hsame := h.same_of_get? hx
  rw [cellRead_of_lt hcol] at hsame
  exact ⟨x, hx, hsame⟩

/-- The checked dense form is the unchecked one. -/
theorem IsWhole.toMatrix?_denseMatrix (h : v.IsWhole) :
    v.toMatrix? (DenseMatrix α) = some ⟨v.size, v.size, v.toDense⟩ := by
  have hfill : ∀ (entries : List (ℕ × ℕ × α)) (cells : Array α),
      (∀ e ∈ entries, e.1 < v.size ∧ e.2.1 < v.size) →
      entries.foldlM (fun m e => MatrixFormat.add? m e.1 e.2.1 e.2.2)
          (⟨v.size, v.size, cells⟩ : DenseMatrix α)
        = some ⟨v.size, v.size,
            entries.foldl (fun cells e => cells.modify (e.1 * v.size + e.2.1) (· + e.2.2)) cells⟩ := by
    intro entries
    induction entries with
    | nil => exact fun _ _ => rfl
    | cons e entries ih =>
      intro cells hin
      rw [List.forall_mem_cons] at hin
      have hadd : MatrixFormat.add? (⟨v.size, v.size, cells⟩ : DenseMatrix α) e.1 e.2.1 e.2.2
          = some ⟨v.size, v.size, cells.modify (e.1 * v.size + e.2.1) (· + e.2.2)⟩ := if_pos hin.1
      rw [List.foldlM_cons, hadd]
      exact ih _ hin.2
  rw [h.toMatrix?_eq, toDense_eq_foldl]
  exact hfill _ _ h.entries_inside

end Places

/-! ## Agreement -/

section Agreement

variable {α D C : Type} [Scalar α] [MatrixFormat D α] [MatrixFormat C α]

/-- **The readers of a view agree** on a list of entries. -/
structure ReadersAgree (value? : D → ℕ → ℕ → Option α) (shape : C → ℕ × ℕ)
    (triplets : C → List (ℕ × ℕ × α)) (v : JacobianView α) (values : Array α)
    (entries : List (ℕ × ℕ × α)) : Prop where
  entries?_eq : v.entries? = some entries
  length_eq : entries.length = v.pattern.nnz v.size
  /-- An entry is a cell of the pattern with its value. -/
  getElem?_eq : ∀ k < v.pattern.nnz v.size, ∃ cell value, v.pattern.cell? v.size k = some cell
    ∧ values[k]? = some value ∧ entries[k]? = some (cell.1, cell.2, value)
  get? : ∀ row < v.size, ∀ col < v.size, ∃ x, v.get? row col = some x
    ∧ Scalar.Same (Scalar.sum (cellValues entries row col)) x
  dense : ∃ m : D, v.toMatrix? D = some m ∧ ∀ row < v.size, ∀ col < v.size,
    value? m row col = some (Scalar.sum (cellValues entries row col))
  /-- The matrix that is computed without looking for the end of a row is the dense one. -/
  unchecked : v.toMatrix? (DenseMatrix α) = some ⟨v.size, v.size, v.toDense⟩
  coordinate : ∃ m : C, v.toMatrix? C = some m ∧ shape m = (v.size, v.size) ∧ triplets m = entries

variable {value? : D → ℕ → ℕ → Option α} {shape : C → ℕ × ℕ} {triplets : C → List (ℕ × ℕ × α)}

/-- The readers of a whole view agree on its entries. -/
theorem IsWhole.readersAgree [Scalar.HasNeutralZero α] {v : JacobianView α} (h : v.IsWhole)
    (hdense : MatrixFormat.IsDense value?) (hcoordinate : MatrixFormat.IsCoordinate shape triplets)
    {values : Array α} (hvalues : v.values = values.take (v.pattern.nnz v.size)) :
    ReadersAgree value? shape triplets v values v.entries where
  entries?_eq := h.entries?_eq
  length_eq := h.length_entries
  getElem?_eq k hk := by
    obtain ⟨cell, hcell⟩ : ∃ cell, (v.pattern.cells v.size)[k]? = some cell :=
      ⟨_, List.getElem?_eq_getElem (by rwa [JacobianPattern.length_cells])⟩
    obtain ⟨value, hvalue⟩ : ∃ value, v.values[k]? = some value :=
      ⟨_, Array.getElem?_eq_getElem (by rwa [h.size_values])⟩
    refine ⟨cell, value, (JacobianPattern.cell?_eq_getElem? hk).trans hcell, ?_, ?_⟩
    · rw [hvalues, Array.take_eq_extract, Array.getElem?_extract] at hvalue
      split at hvalue
      · rwa [Nat.zero_add] at hvalue
      · cases hvalue
    · rw [getElem?_entries, hcell, hvalue]
      rfl
  get? _ hrow _ hcol := h.exists_get? hrow hcol
  dense := by
    rw [h.toMatrix?_eq]
    exact hdense.exists_foldlM h.entries_inside fun _ hr _ hc => hdense.value?_zeros hr hc
  unchecked := h.toMatrix?_denseMatrix
  coordinate := by
    rw [h.toMatrix?_eq]
    obtain ⟨m, hm, hshape, htriplets⟩ :=
      hcoordinate.exists_foldlM h.entries_inside (hcoordinate.shape_zeros v.size v.size)
    rw [hcoordinate.triplets_zeros, List.nil_append] at htriplets
    exact ⟨m, hm, hshape, htriplets⟩

/-- **There is a view exactly if the pattern is inside of the matrix and there are enough values**,
more values make no difference, and all readers of the view agree. -/
theorem readersAgree_of? [Scalar.HasNeutralZero α] (hdense : MatrixFormat.IsDense value?)
    (hcoordinate : MatrixFormat.IsCoordinate shape triplets) (size : ℕ) (pattern : JacobianPattern)
    (values : Array α) :
    ((∃ v, of? size pattern values = .ok v)
        ↔ pattern.IsInside size ∧ pattern.nnz size ≤ values.size)
      ∧ ∀ v, of? size pattern values = .ok v →
        v.size = size ∧ v.pattern = pattern
          ∧ (∀ surplus, of? size pattern (values ++ surplus) = .ok v)
          ∧ ∃ entries, ReadersAgree value? shape triplets v values entries := by
  constructor
  · constructor
    · rintro ⟨v, hv⟩
      obtain ⟨hinside, hle, -⟩ := of?_eq_ok_iff.mp hv
      exact ⟨hinside, hle⟩
    · rintro ⟨hinside, hle⟩
      exact ⟨_, of?_eq_ok_iff.mpr ⟨hinside, hle, rfl⟩⟩
  · intro v hv
    have hwhole := isWhole_of_of? hv
    obtain ⟨hinside, hle, rfl⟩ := of?_eq_ok_iff.mp hv
    refine ⟨rfl, rfl, fun surplus => ?_, _, hwhole.readersAgree hdense hcoordinate rfl⟩
    have hlength : pattern.nnz size ≤ (values ++ surplus).size := by
      rw [Array.size_append]
      omega
    have htake : (values ++ surplus).take (pattern.nnz size) = values.take (pattern.nnz size) := by
      rw [Array.take_eq_extract, Array.take_eq_extract, Array.extract_append,
        Nat.sub_eq_zero_of_le hle, Nat.zero_sub, Array.extract_zero, Array.append_empty]
    exact of?_eq_ok_iff.mpr ⟨hinside, hlength, by rw [htake]⟩

end Agreement

/-- Two values for one cell, and one value more than there are cells. -/
theorem readersAgree_of?_sample :
    MatrixFormat.IsDense (DenseMatrix.value? : DenseMatrix Float → ℕ → ℕ → Option Float)
      ∧ MatrixFormat.IsCoordinate (CoordinateMatrix.shape : CoordinateMatrix Float → ℕ × ℕ)
          (fun m => m.triplets.toList)
      ∧ of? 3 (.sparse [(0, 0), (2, 1), (0, 0)]) #[(1 : Float), 5, 0.5, 99]
          = .ok ⟨3, .sparse [(0, 0), (2, 1), (0, 0)], #[1, 5, 0.5]⟩
      ∧ ∃ entries, ReadersAgree DenseMatrix.value? CoordinateMatrix.shape
          (fun m : CoordinateMatrix Float => m.triplets.toList)
          ⟨3, .sparse [(0, 0), (2, 1), (0, 0)], #[1, 5, 0.5]⟩ #[(1 : Float), 5, 0.5, 99] entries := by
  have hview : of? 3 (.sparse [(0, 0), (2, 1), (0, 0)]) #[(1 : Float), 5, 0.5, 99]
      = .ok ⟨3, .sparse [(0, 0), (2, 1), (0, 0)], #[1, 5, 0.5]⟩ := rfl
  obtain ⟨-, hagree⟩ := readersAgree_of? DenseMatrix.isDense CoordinateMatrix.isCoordinate 3
    (.sparse [(0, 0), (2, 1), (0, 0)]) #[(1 : Float), 5, 0.5, 99]
  obtain ⟨-, -, -, hentries⟩ := hagree _ hview
  exact ⟨DenseMatrix.isDense, CoordinateMatrix.isCoordinate, hview, hentries⟩

end JacobianView

end WeakForm
