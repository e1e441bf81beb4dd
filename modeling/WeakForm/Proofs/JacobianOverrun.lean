import WeakForm.Proofs.JacobianReaders

/-!
# Reading outside of a Jacobian

The reader of single places takes any row and column. A sparse view compares them with the pairs of
its pattern, so nothing is found outside of the matrix. A dense view only computes where the value
stands in the run of values. **Behind the last value there is none, but behind the last column
stands the next row**: what is read there is the entry of a cell that was not asked for
(`JacobianView.cellRead`), while no value is listed for the place itself.

That is the only way in which a view can mistake a place for another one
(`JacobianView.ReadsCells`), and the only one in which a dense view differs from the sparse view
with the same entries.
-/

namespace WeakForm

namespace JacobianView

variable {α : Type} {v : JacobianView α}

/-- Nothing is listed outside of the matrix. -/
theorem IsWhole.cellValues_eq_nil (h : v.IsWhole) {row col : ℕ}
    (hout : v.size ≤ row ∨ v.size ≤ col) : cellValues v.entries row col = [] := by
  have hnone : v.entries.filter (fun e => e.1 = row ∧ e.2.1 = col) = [] := by
    refine List.filter_eq_nil_iff.mpr fun e he hcell => ?_
    obtain ⟨hrow, hcol⟩ := h.entries_inside e he
    obtain ⟨rfl, rfl⟩ := of_decide_eq_true hcell
    omega
  unfold cellValues
  rw [hnone, List.map_nil]

/-- **The sparse view with the cells and values of a view.** -/
def toSparse (v : JacobianView α) : JacobianView α :=
  { v with pattern := .sparse (v.pattern.cells v.size) }

@[simp] theorem entries_toSparse (v : JacobianView α) : v.toSparse.entries = v.entries := rfl

/-- It can be built wherever the view can. -/
theorem of?_toSparse {size : ℕ} {pattern : JacobianPattern} {values : Array α}
    (h : of? size pattern values = .ok v) :
    of? size (.sparse (pattern.cells size)) values = .ok v.toSparse := by
  obtain ⟨hinside, hle, rfl⟩ := of?_eq_ok_iff.mp h
  have hnnz : (JacobianPattern.sparse (pattern.cells size)).nnz size = pattern.nnz size :=
    JacobianPattern.length_cells size pattern
  refine of?_eq_ok_iff.mpr ⟨hinside.cells, hnnz.trans_le hle, ?_⟩
  rw [hnnz]
  rfl

section Reading

variable [Scalar α]

/-- **The cell that is read is the one asked for**, unless the view is dense and the column is
behind the last one. -/
theorem IsWhole.cellRead_eq_iff (h : v.IsWhole) {row col : ℕ} (hread : v.get? row col ≠ none) :
    v.cellRead row col = (row, col) ↔ (v.pattern = .dense → col < v.size) := by
  cases hpattern : v.pattern with
  | dense =>
    -- a matrix without rows has nothing to read
    have hsize : 0 < v.size := by
      rw [Ne, h.get?_eq_none_iff, hpattern, and_iff_right rfl, not_le] at hread
      exact Nat.pos_of_mul_pos_left (Nat.zero_lt_of_lt hread)
    refine ⟨fun hcell _ => ?_, fun hcol => cellRead_of_lt (hcol rfl) row⟩
    rw [cellRead_of_dense hpattern] at hcell
    have hrow : row + col / v.size = row := congrArg Prod.fst hcell
    exact (Nat.div_eq_zero_iff_lt hsize).mp (Nat.add_eq_left.mp hrow)
  | sparse pairs => exact iff_of_true (cellRead_of_sparse hpattern row col) nofun

/-- **What is read at a row and column**, inside of the matrix or not. -/
structure ReadsCells (v : JacobianView α) : Prop where
  /-- There is nothing to read exactly if the view is dense and the place is behind its last
  value. -/
  get?_eq_none_iff : ∀ row col,
    v.get? row col = none ↔ v.pattern = .dense ∧ v.size * v.size ≤ row * v.size + col
  /-- Else the sum of the values that are listed for one cell is read. -/
  same_get? : ∀ row col x, v.get? row col = some x → Scalar.Same
    (Scalar.sum (cellValues v.entries (v.cellRead row col).1 (v.cellRead row col).2)) x
  /-- It is the cell that was asked for, unless the view is dense and has no such column. -/
  cellRead_eq_iff : ∀ row col, v.get? row col ≠ none →
    (v.cellRead row col = (row, col) ↔ (v.pattern = .dense → col < v.size))
  /-- Nothing is listed outside of the matrix. -/
  cellValues_eq_nil : ∀ row col, v.size ≤ row ∨ v.size ≤ col → cellValues v.entries row col = []

variable [Scalar.HasNeutralZero α]

theorem IsWhole.readsCells (h : v.IsWhole) : v.ReadsCells where
  get?_eq_none_iff _ _ := h.get?_eq_none_iff
  same_get? _ _ _ hx := h.same_of_get? hx
  cellRead_eq_iff _ _ hread := h.cellRead_eq_iff hread
  cellValues_eq_nil _ _ hout := h.cellValues_eq_nil hout

/-- What is read at the cell that was asked for is the sum of the values listed for it. -/
theorem IsWhole.same_cellValues_of_get? (h : v.IsWhole) {row col : ℕ} {x : α}
    (hx : v.get? row col = some x) (hcol : v.pattern = .dense → col < v.size) :
    Scalar.Same (Scalar.sum (cellValues v.entries row col)) x := by
  have hread : v.get? row col ≠ none := Option.ne_none_iff_exists'.mpr ⟨x, hx⟩
  have hsame := h.same_of_get? hx
  rwa [(h.cellRead_eq_iff hread).mpr hcol] at hsame

/-- **A view reads what is listed for one cell**, and it is the cell that was asked for, unless a
dense view is asked for a column behind its last one. Up to this the sparse view with the same
entries reads the same. -/
theorem readsCells_of? {size : ℕ} {pattern : JacobianPattern} {values : Array α}
    (h : of? size pattern values = .ok v) :
    v.ReadsCells ∧ ∃ w, of? size (.sparse (pattern.cells size)) values = .ok w
      ∧ w.entries = v.entries
      ∧ ∀ row col x, v.get? row col = some x → (pattern = .dense → col < size) →
        Scalar.Same (Scalar.sum (cellValues v.entries row col)) x
          ∧ ∃ y, w.get? row col = some y ∧ Scalar.Same y x := by
  have hwhole := isWhole_of_of? h
  refine ⟨hwhole.readsCells, v.toSparse, of?_toSparse h, entries_toSparse v, ?_⟩
  intro row col x hx hcol
  obtain ⟨-, -, rfl⟩ := of?_eq_ok_iff.mp h
  have hsame := hwhole.same_cellValues_of_get? hx hcol
  exact ⟨hsame, _, get?_of_sparse rfl row col, hsame⟩

end Reading

/-- The last column of the first row of a dense view. -/
theorem readsCells_of?_sample :
    of? 2 .dense #[(1 : Float), 2, 3, 4] = .ok ⟨2, .dense, #[1, 2, 3, 4]⟩
      ∧ (⟨2, .dense, #[(1 : Float), 2, 3, 4]⟩ : JacobianView Float).ReadsCells
      ∧ ∃ w, of? 2 (.sparse [(0, 0), (0, 1), (1, 0), (1, 1)]) #[(1 : Float), 2, 3, 4] = .ok w
        ∧ ∃ y, w.get? 0 1 = some y ∧ Scalar.Same y 2 := by
  have hview : of? 2 .dense #[(1 : Float), 2, 3, 4] = .ok ⟨2, .dense, #[1, 2, 3, 4]⟩ := rfl
  obtain ⟨hreads, w, hw, -, hsame⟩ := readsCells_of? hview
  obtain ⟨-, hvalue⟩ := hsame 0 1 2 rfl fun _ => by decide
  exact ⟨hview, hreads, w, hw, hvalue⟩

/-- **A dense view mistakes the place behind its first row for the start of the second one**, where
no value is listed and the sparse view with the same entries reads zero. -/
theorem not_forall_same_get? :
    (¬ ∀ (size : ℕ) (pattern : JacobianPattern) (values : Array Float) (v : JacobianView Float),
        of? size pattern values = .ok v → ∀ row col x, v.get? row col = some x →
          Scalar.Same (Scalar.sum (cellValues v.entries row col)) x)
      ∧ ¬ ∀ (size : ℕ) (values : Array Float) (v w : JacobianView Float),
        of? size .dense values = .ok v →
          of? size (.sparse (JacobianPattern.dense.cells size)) values = .ok w →
          ∀ row col x y, v.get? row col = some x → w.get? row col = some y → Scalar.Same x y := by
  constructor
  · intro h
    have hsame := h 2 .dense #[1, 2, 3, 4] _ rfl 0 2 3 rfl
    exact absurd hsame (by decide +kernel)
  · intro h
    have hsame := h 2 #[1, 2, 3, 4] _ _ rfl rfl 0 2 3 0 rfl rfl
    exact absurd hsame (by decide +kernel)

end JacobianView

end WeakForm
