import WeakForm.Proofs.Comparison
import WeakForm.Proofs.DenseJacobian
import WeakForm.Proofs.Runs

/-!
# The check of a Jacobian

The check of a Jacobian moves the values at a point along one column after the other, up and down,
and divides the difference of what each row reads by twice the step. Where the weak form is affine
in the values at a point (`IsAffineAt`), that quotient is the derivative, whatever the step is
(`jacobianColumn_of_affine`), and the three shifts of a column leave the values as they were, so
that each column starts from the same point (`jacobianColumns_of_affine`).

So **the check compares the dense form of the reported Jacobian with the matrix of derivatives**,
entry by entry and row by row (`checkWeakJacobian_of_affine`).
-/

namespace WeakForm

open Dims ElementModel

/-! ## Points and their values -/

theorem ofFn_get {n : ℕ} (v : Vector ℝ n) : Vector.ofFn v.get = v :=
  Vector.ext fun _ _ => Vector.getElem_ofFn _

theorem get_ofFn {n : ℕ} (f : Fin n → ℝ) : (Vector.ofFn f).get = f :=
  funext fun i => Vector.get_ofFn f i

namespace PointData

variable {d : Dims}

/-- The point with given data at a place, which is an element, a time, and a quadrature point. -/
def pointAt {α : Type} (data : PointData d α) (place : Point α) : Point α :=
  { place with x := data.x.toArray, ut := data.ut.toArray, ux := data.ux.toArray }

/-- Where the data is, at a place. -/
def siteAt {α : Type} (x : Vector α 3) (place : Point α) : Site α :=
  ⟨place.elem, place.pt, x.toArray⟩

@[simp] theorem site_pointAt {α : Type} (data : PointData d α) (place : Point α) :
    (data.pointAt place).site = siteAt data.x place := rfl

/-- The values at a point. -/
def values (data : PointData d ℝ) : d.Values := (data.ut.get, data.ux.get)

/-- The data with a position and with given values. -/
def ofValues (x : Vector ℝ 3) (u : d.Values) : PointData d ℝ :=
  ⟨x, Vector.ofFn u.1, Vector.ofFn u.2⟩

@[simp] theorem checkPoint_pointAt {α : Type} (data : PointData d α) (place : Point α) :
    d.checkPoint (data.pointAt place) = .ok data := by
  simp only [Dims.checkPoint, pointAt, numCoords, sized_toArray]
  rfl

@[simp] theorem withData_pointAt {α : Type} (data other : PointData d α) (place : Point α) :
    (data.pointAt place).withData other = { other with x := data.x }.pointAt place := rfl

@[simp] theorem ofValues_values (data : PointData d ℝ) : ofValues data.x data.values = data := by
  cases data
  simp [ofValues, values, ofFn_get]

@[simp] theorem values_ofValues (x : Vector ℝ 3) (u : d.Values) : (ofValues x u).values = u := by
  simp [ofValues, values, get_ofFn]

end PointData

/-- A point is well-formed or it is reported. -/
theorem Dims.checkPoint_cases {α : Type} (d : Dims) (p : Point α) :
    (∃ fault, d.checkPoint p = .error fault)
      ∨ ∃ (place : Point α) (data : PointData d α), p = data.pointAt place := by
  obtain ⟨fault, hx⟩ | ⟨x, hx⟩ := sized_cases "x" numCoords p.x
  · exact Or.inl ⟨fault, by rw [checkPoint, hx]; rfl⟩
  obtain ⟨fault, hut⟩ | ⟨ut, hut⟩ := sized_cases "ut" d.utLen p.ut
  · exact Or.inl ⟨fault, by rw [checkPoint, hx, sized_toArray, hut]; rfl⟩
  obtain ⟨fault, hux⟩ | ⟨ux, hux⟩ := sized_cases "ux" d.uxLen p.ux
  · exact Or.inl ⟨fault, by rw [checkPoint, hx, sized_toArray, hut, sized_toArray, hux]; rfl⟩
  refine Or.inr ⟨p, ⟨x, ut, ux⟩, ?_⟩
  unfold PointData.pointAt
  rw [← hx, ← hut, ← hux]

namespace Coefficients

variable {d : Dims}

/-- The coefficients of the weak form, as values. -/
def values (c : Coefficients ℝ d.utLen d.uxLen) : d.Values := (c.dut.get, c.dux.get)

/-- The coefficients with given values. -/
def ofValues (u : d.Values) : Coefficients ℝ d.utLen d.uxLen := ⟨Vector.ofFn u.1, Vector.ofFn u.2⟩

@[simp] theorem ofValues_values (c : Coefficients ℝ d.utLen d.uxLen) : ofValues c.values = c := by
  cases c
  simp [ofValues, values, ofFn_get]

@[simp] theorem values_ofValues (u : d.Values) : (ofValues u).values = u := by
  simp [ofValues, values, get_ofFn]

end Coefficients

/-! ## Rows and columns by their slots -/

section Layout

/-- Shifting one entry of a vector. -/
theorem set_get_add {n : ℕ} (v : Vector ℝ n) (i : Fin n) (t : ℝ) :
    v.set i (v.get i + t) i.isLt
      = Vector.ofFn fun j => v.get j + t * (Pi.single i 1 : Fin n → ℝ) j := by
  refine Vector.ext (fun j hj => ?_)
  rw [Vector.getElem_set, Vector.getElem_ofFn]
  by_cases h : i.val = j
  · subst h
    simp
  · have hne : (⟨j, hj⟩ : Fin n) ≠ i := fun he => h (congrArg Fin.val he).symm
    simp [h, hne, Vector.get_eq_getElem]

/-- Shifting no entry of a vector. -/
theorem ofFn_get_add_zero {n : ℕ} (v : Vector ℝ n) (t : ℝ) :
    v = Vector.ofFn fun j => v.get j + t * (0 : Fin n → ℝ) j := by
  refine Vector.ext (fun j hj => ?_)
  simp [Vector.get_eq_getElem]

variable [Waves] {d : Dims}

/-- The entry of the residual that a row is checked with is the one that its slot reads. -/
theorem jacobianRow_row (c : Coefficients ℝ d.utLen d.uxLen) (slot : d.Slot) :
    d.jacobianRow c (row slot) = rowValue slot c.values := by
  have hv := var_rowIndex slot
  have hs := slot_rowIndex slot
  unfold jacobianRow
  -- only the first slot of a variable reads a second coefficient
  obtain ⟨k, s | j⟩ := slot
  · by_cases h0 : s = 0
    · subst h0
      simp only [val_row, hv, hs, offset, rowValue]
      rfl
    · have hne : s.val ≠ 0 := fun h => h0 (Fin.ext h)
      simp only [val_row, hv, hs, offset, rowValue, hne, s.isLt, dite_true, dite_false,
        if_false, add_zero]
      rfl
  · have h3 : ¬ 3 + j.val < 3 := by omega
    simp only [val_row, hv, hs, offset, rowValue, h3, dite_false, Nat.add_eq_zero_iff,
      Nat.add_sub_cancel_left]
    rfl

/-- Shifting a column moves the values along the direction of its slot. -/
theorem shiftColumn_row (data : PointData d ℝ) (slot : d.Slot) (t : ℝ) :
    d.shiftColumn data (row slot) t = .ofValues data.x (data.values + t • direction slot) := by
  have hv := var_rowIndex slot
  have hs := slot_rowIndex slot
  unfold shiftColumn
  obtain ⟨k, s | j⟩ := slot
  · by_cases h0 : s = 0
    · subst h0
      simp only [val_row, hv, hs, offset]
      exact congrArg₂ (PointData.mk data.x) (set_get_add data.ut (timePlace k 0) t)
        (set_get_add data.ux (valuePlace k) t)
    · have hne : s.val ≠ 0 := fun h => h0 (Fin.ext h)
      simp only [val_row, hv, hs, offset, direction, hne, s.isLt, dite_true, dite_false,
        if_false]
      exact congrArg₂ (PointData.mk data.x) (set_get_add data.ut (timePlace k s) t)
        (ofFn_get_add_zero data.ux t)
  · have h3 : ¬ 3 + j.val < 3 := by omega
    simp only [val_row, hv, hs, offset, h3, dite_false, Nat.add_eq_zero_iff,
      Nat.add_sub_cancel_left]
    exact congrArg₂ (PointData.mk data.x) (ofFn_get_add_zero data.ut t)
      (set_get_add data.ux (spacePlace k j) t)

/-- Two shifts of a column add up. -/
theorem shiftColumn_ofValues (x : Vector ℝ 3) (u : d.Values) (slot : d.Slot) (s t : ℝ) :
    d.shiftColumn (.ofValues x (u + s • direction slot)) (row slot) t
      = .ofValues x (u + (s + t) • direction slot) := by
  rw [shiftColumn_row, PointData.values_ofValues, add_assoc, ← add_smul]
  rfl

/-- **The derivative of a weak form**: how what a row reads changes along what a column moves. -/
noncomputable def derivative (f : d.Values → d.Values) (u : d.Values) : Matrix d.Slot d.Slot ℝ :=
  fun r c => deriv (fun t : ℝ => rowValue r (f (u + t • direction c))) 0

omit [Waves] in
/-- On a line an affine function grows by its linear part. -/
theorem rowValue_line (f : d.Values →ᵃ[ℝ] d.Values) (u v : d.Values) (r : d.Slot) (t : ℝ) :
    rowValue r (f (u + t • v)) = rowValue r (f u) + t * rowValue r (f.linear v) := by
  have hline : f (u + t • v) = f u + t • f.linear v := by
    rw [add_comm, ← vadd_eq_add, f.map_vadd, f.linear.map_smul, vadd_eq_add, add_comm]
  rw [hline, rowValue_add, rowValue_smul]

omit [Waves] in
/-- The derivative of an affine function is its linear part. -/
theorem derivative_affine (f : d.Values →ᵃ[ℝ] d.Values) (u : d.Values) (r c : d.Slot) :
    derivative f u r c = rowValue r (f.linear (direction c)) := by
  unfold derivative
  simp only [rowValue_line]
  have hderiv : HasDerivAt (fun t : ℝ => rowValue r (f u) + t * rowValue r (f.linear (direction c)))
      (1 * rowValue r (f.linear (direction c))) 0 :=
    ((hasDerivAt_id (0 : ℝ)).mul_const _).const_add _
  rw [hderiv.deriv, one_mul]

end Layout

/-! ## The loop over the columns -/

section Loop

variable [Waves] {M : Type} [ElementModel M ℝ]

/-- **An affine weak form**: at a place, whatever is in the buffers, the evaluation succeeds and
leaves an affine function of the values at the point. -/
def IsAffineAt (model : M) (place : Point ℝ) (x : Vector ℝ 3)
    (f : (dims model).Values →ᵃ[ℝ] (dims model).Values) : Prop :=
  ∀ (u : (dims model).Values) (buffers : Coefficients ℝ (dims model).utLen (dims model).uxLen),
    weakIntegrand model ((PointData.ofValues x u).pointAt place) buffers
      = .ok () (Coefficients.ofValues (f u))

variable {model : M} {place : Point ℝ} {data : PointData (dims model) ℝ}
  {f : (dims model).Values →ᵃ[ℝ] (dims model).Values} {step : ℝ}

theorem coefficients_of_affine {x : Vector ℝ 3} (hf : IsAffineAt model place x f)
    (u : (dims model).Values) :
    coefficients model ((PointData.ofValues x u).pointAt place) = .ok (.ofValues (f u)) :=
  fill_of_ok (hf u _)

/-- **One column**: its quotients are the derivatives along it, and the data is left as it was. -/
theorem jacobianColumn_of_affine (hf : IsAffineAt model place data.x f) (hstep : step ≠ 0)
    (u : (dims model).Values) (c : (dims model).Slot) :
    jacobianColumn model (data.pointAt place) step (.ofValues data.x u) (row c)
      = .ok ((List.finRange (dims model).jacobianSize).map fun r => derivative f u (slotOf r) c,
          .ofValues data.x u) := by
  -- up by one step, down by two and up by one, which is back to where the column began
  have hup : (dims model).shiftColumn (.ofValues data.x u) (row c) step
      = .ofValues data.x (u + step • direction c) := by
    rw [shiftColumn_row, PointData.values_ofValues]
    rfl
  have hdown : (dims model).shiftColumn (.ofValues data.x (u + step • direction c)) (row c)
      (-((2 : ℕ) : ℝ) * step) = .ofValues data.x (u + (-step) • direction c) := by
    rw [shiftColumn_ofValues]
    congr 3
    push_cast
    ring
  have hback : (dims model).shiftColumn (.ofValues data.x (u + (-step) • direction c)) (row c) step
      = .ofValues data.x u := by
    rw [shiftColumn_ofValues, neg_add_cancel, zero_smul, add_zero]
  have hquotient : ∀ r, differenceQuotient step
      ((dims model).jacobianRow (.ofValues (f (u + step • direction c))) r)
      ((dims model).jacobianRow (.ofValues (f (u + (-step) • direction c))) r)
        = derivative f u (slotOf r) c := by
    intro r
    rw [derivative_affine, ← row_slotOf r, jacobianRow_row, jacobianRow_row,
      Coefficients.values_ofValues, Coefficients.values_ofValues, rowValue_line, rowValue_line,
      differenceQuotient_real, row_slotOf]
    field_simp
    ring
  have hpoint : ∀ v : (dims model).Values,
      coefficients model ((data.pointAt place).withData (PointData.ofValues data.x v))
        = .ok (.ofValues (f v)) := fun v => coefficients_of_affine hf v
  unfold jacobianColumn
  simp only [hup, hdown, hback, hpoint, bind, Except.bind, hquotient]
  rfl

/-- **The loop**: each column starts from the same data, so all quotients are derivatives at the
same point. -/
theorem jacobianColumns_of_affine (hf : IsAffineAt model place data.x f) (hstep : step ≠ 0)
    (u : (dims model).Values) (cols : List (Fin (dims model).jacobianSize)) :
    jacobianColumns model (data.pointAt place) step (.ofValues data.x u) cols
      = .ok (cols.map fun c => (List.finRange (dims model).jacobianSize).map fun r =>
          derivative f u (slotOf r) (slotOf c)) := by
  induction cols with
  | nil => rfl
  | cons c cols ih =>
    have hcol := jacobianColumn_of_affine hf hstep u (slotOf c)
    rw [row_slotOf] at hcol
    unfold jacobianColumns
    rw [hcol]
    show (jacobianColumns model _ step (.ofValues data.x u) cols >>= _) = _
    rw [ih]
    rfl

/-- **The check compares the reported Jacobian with the derivatives.** -/
theorem checkWeakJacobian_of_affine (hf : IsAffineAt model place data.x f)
    {config : CheckConfig ℝ} (hstep : config.stepSize ≠ 0) {pattern : JacobianPattern}
    {filled : Linearization ℝ (dims model).utLen (dims model).uxLen
      ((dims model).jacobianSize * (dims model).jacobianSize)}
    (hjac : weakJacobian model (data.pointAt place) ⟨.zero _ _, Vector.replicate _ 0⟩
      = .ok pattern filled)
    {view : JacobianView ℝ}
    (hview : JacobianView.of? (dims model).jacobianSize pattern filled.jac.toArray = .ok view) :
    ∃ differences, IsStored differences (derivative f data.values)
      ∧ checkWeakJacobian model (data.pointAt place) config
        = .ok (.compare "weak jacobian" view.toDense.toList differences config) := by
  refine ⟨_, isStored_rowMajor _, ?_⟩
  have hcols := jacobianColumns_of_affine hf hstep data.values
    (List.finRange (dims model).jacobianSize)
  rw [PointData.ofValues_values] at hcols
  have hans := answer_of_ok hjac
  unfold checkWeakJacobian
  simp only [hans, hview, hcols, PointData.checkPoint_pointAt, liftM_except_ok, except_ok_bind,
    except_pure]

end Loop

end WeakForm
