import WeakForm.Proofs.AdjointProduct
import WeakForm.Proofs.BlockLayout

/-!
# Accesses to blocks

The checks of a model reach into its data by numbers: a row of the Jacobian is taken apart, and from
the variable and the slot it is computed where its coefficients stand. Rows do this in one place
(`readRow`), columns in another (`moveColumn`), and the pairing of an adjoint walks over all
variables (`pairAdjoint`), each with index arithmetic of its own and without a proof that it stays
inside of the buffers.

It does: on buffers of the right lengths each of these runs has a result, which is the one of the
check (`ends_readRow`, `moves_moveColumn`, `pairsInside`). **A column moves exactly the numbers that
the row of the same number reads**: the addresses of both are those behind it.
-/

namespace WeakForm

open Access Dims ElementModel

/-! ## The runs of the checks -/

namespace Dims

variable {α : Type} [Scalar α] (d : Dims)

/-- Reads what belongs to a row of the Jacobian. -/
def readRow (row : ℕ) : Access α α :=
  let k := d.var row
  let slot := d.slot row
  if slot = 0 then do
    let value ← read ⟨.time, 3 * k⟩
    return value + (← read ⟨.space, k * (d.spatialDim + 1)⟩)
  else if slot < 3 then read ⟨.time, 3 * k + slot⟩
  else read ⟨.space, d.uxIndex k (slot - 3)⟩

/-- Moves the values behind a column of the Jacobian by an amount. -/
def moveColumn (col : ℕ) (delta : α) : Access α Unit :=
  let k := d.var col
  let slot := d.slot col
  if slot = 0 then do
    add ⟨.time, 3 * k⟩ delta
    add ⟨.space, k * (d.spatialDim + 1)⟩ delta
  else if slot < 3 then add ⟨.time, 3 * k + slot⟩ delta
  else add ⟨.space, d.uxIndex k (slot - 3)⟩ delta

/-- Adds what an adjoint gradient of a variable is paired with. -/
def pairGradient (k : Fin d.varsPerNode) (r : α) (j : Fin d.spatialDim) : Access α α := do
  let gradient ← read ⟨.gradient, k * d.spatialDim + j⟩
  return r + gradient * (← read ⟨.space, d.uxIndex k j⟩)

/-- Adds what the adjoint value of a variable is paired with, and then its adjoint gradients. -/
def pairVariable (r : α) (k : Fin d.varsPerNode) : Access α α := do
  let psi ← read ⟨.adjoint, k⟩
  let value ← read ⟨.time, 3 * k⟩
  let rate ← read ⟨.time, 3 * k + 1⟩
  let acceleration ← read ⟨.time, 3 * k + 2⟩
  let spatial ← read ⟨.space, k * (d.spatialDim + 1)⟩
  (List.finRange d.spatialDim).foldlM (d.pairGradient k)
    (r + psi * (value + rate + acceleration + spatial))

/-- Pairs an adjoint with coefficients, variable by variable. -/
def pairAdjoint : Access α α := (List.finRange d.varsPerNode).foldlM d.pairVariable 0

end Dims

/-! ## Rows and columns -/

namespace Dims

variable {α : Type} {d : Dims}

section Words

variable (hwords : d.jacobianSize < UInt64.size)
include hwords

theorem Has.isWord {a : Address} (h : d.Has a) : a.index < UInt64.size :=
  (h.trans_le (d.length_le_jacobianSize _)).trans hwords

/-- An address of a buffer that is filled from a vector of its length. -/
theorem ends_read_of_has {b : Buffers α} (buffer : Buffer) {v : Vector α (d.length buffer)}
    (hb : b buffer = v.toArray) (i : Fin (d.length buffer)) :
    Ends (read ⟨buffer, i⟩) b (v.get i) b [⟨buffer, i⟩] :=
  ends_read (Has.isWord hwords i.isLt) (Buffers.find?_toArray hb i)

variable [Scalar α]

/-- **A row is read inside of the buffers**, and what is read is its entry of the residual. -/
theorem ends_readRow (c : Coefficients α d.utLen d.uxLen) (row : Fin d.jacobianSize) :
    Ends (d.readRow row) (.plain c.dut.toArray c.dux.toArray) (d.jacobianRow c row)
      (.plain c.dut.toArray c.dux.toArray) (d.behind row) := by
  have hv := d.var_lt row.isLt
  have hs : d.slot row < 3 + d.spatialDim := d.slot_lt row
  set b : Buffers α := .plain c.dut.toArray c.dux.toArray
  have htime : ∀ i : Fin d.utLen, Ends (read ⟨.time, i⟩) b (c.dut.get i) b [⟨.time, i⟩] :=
    ends_read_of_has hwords .time rfl
  have hspace : ∀ i : Fin d.uxLen, Ends (read ⟨.space, i⟩) b (c.dux.get i) b [⟨.space, i⟩] :=
    ends_read_of_has hwords .space rfl
  unfold readRow jacobianRow behind
  by_cases h0 : d.slot row = 0
  · simp only [h0, if_true, dite_true]
    exact (htime (timePlace ⟨_, hv⟩ 0)).bind ((hspace (valuePlace ⟨_, hv⟩)).map _)
  · by_cases h3 : d.slot row < 3
    · simp only [h0, h3, if_true, if_false, dite_true, dite_false]
      exact htime ⟨_, d.utIndex_lt hv h3⟩
    · simp only [h0, h3, if_false, dite_false]
      exact hspace ⟨_, d.uxIndex_lt hv (by omega)⟩

/-- **A column is moved inside of the buffers**, which moves the data as the check does. -/
theorem moves_moveColumn (data : PointData d α) (col : Fin d.jacobianSize) (delta : α) :
    Moves (d.moveColumn col delta) (.plain data.ut.toArray data.ux.toArray)
      (.plain (d.shiftColumn data col delta).ut.toArray (d.shiftColumn data col delta).ux.toArray)
      (d.behind col) delta := by
  have hv := d.var_lt col.isLt
  have hs : d.slot col < 3 + d.spatialDim := d.slot_lt col
  have hn : d.utLen ≤ UInt64.size := (d.length_le_jacobianSize .time).trans hwords.le
  have hm : d.uxLen ≤ UInt64.size := (d.length_le_jacobianSize .space).trans hwords.le
  unfold moveColumn shiftColumn behind
  by_cases h0 : d.slot col = 0
  · simp only [h0, if_true, dite_true]
    -- the two values of a variable stand in different buffers
    exact (moves_time data.ut data.ux delta hn (timePlace ⟨_, hv⟩ 0)).bind
      (moves_space _ data.ux delta hm (valuePlace ⟨_, hv⟩)) (by simp)
  · by_cases h3 : d.slot col < 3
    · simp only [h0, h3, if_true, if_false, dite_true, dite_false]
      exact moves_time data.ut data.ux delta hn ⟨_, d.utIndex_lt hv h3⟩
    · simp only [h0, h3, if_false, dite_false]
      exact moves_space data.ut data.ux delta hm ⟨_, d.uxIndex_lt hv (by omega)⟩

end Words

/-- The number behind the last row of two variables in the plane leads out of the buffers. -/
example :
    readRow ⟨2, 2, by decide, by decide, by decide⟩ 10
      ⟨.plain (Array.replicate 6 (1 : Float)) (Array.replicate 6 1), []⟩ = none := rfl

end Dims

/-! ## Adjoints -/

namespace AdjointData

variable {α : Type} {d : Dims}

/-- The buffers of an adjoint and of coefficients. -/
def pairedWith (a : AdjointData d α) (c : Coefficients α d.utLen d.uxLen) : Buffers α :=
  .paired c.dut.toArray c.dux.toArray a.psi.toArray a.psix.toArray

variable [Scalar α] (a : AdjointData d α) (c : Coefficients α d.utLen d.uxLen)

/-- A sum with the term of an adjoint gradient. -/
def addGradient (k : Fin d.varsPerNode) (r : α) (j : Fin d.spatialDim) : α :=
  r + a.psix.get (gradientPlace k j) * c.dux.get (spacePlace k j)

/-- A sum with the terms of a variable. -/
def addVariable (r : α) (k : Fin d.varsPerNode) : α :=
  (List.finRange d.spatialDim).foldl (a.addGradient c k) (r + a.psi.get k
    * (c.dut.get (timePlace k value) + c.dut.get (timePlace k rate)
      + c.dut.get (timePlace k acceleration) + c.dux.get (valuePlace k)))

section Words

variable (hwords : d.jacobianSize < UInt64.size)
include hwords

theorem ends_pairGradient (k : Fin d.varsPerNode) (r : α) (j : Fin d.spatialDim) :
    Ends (d.pairGradient k r j) (a.pairedWith c) (a.addGradient c k r j) (a.pairedWith c)
      [⟨.gradient, k * d.spatialDim + j⟩, ⟨.space, d.uxIndex k j⟩] :=
  Ends.bind (f := fun gradient => read _ >>= fun x => pure (r + gradient * x))
    (ends_read_of_has hwords .gradient rfl (gradientPlace k j))
    ((ends_read_of_has hwords .space rfl (spacePlace k j)).map _)

/-- The terms of a variable are found inside of the buffers. -/
theorem ends_pairVariable (r : α) (k : Fin d.varsPerNode) :
    Ends (d.pairVariable r k) (a.pairedWith c) (a.addVariable c r k) (a.pairedWith c)
      (d.pairedAt k) := by
  have hpsi := ends_read_of_has hwords (b := a.pairedWith c) .adjoint rfl k
  have htime : ∀ i : Fin d.utLen,
      Ends (read ⟨.time, i⟩) (a.pairedWith c) (c.dut.get i) (a.pairedWith c) [⟨.time, i⟩] :=
    ends_read_of_has hwords .time rfl
  have hspatial := ends_read_of_has hwords (b := a.pairedWith c) .space rfl (valuePlace k)
  have hgradients := Ends.foldlM (ends_pairGradient a c hwords k) (List.finRange d.spatialDim)
  exact hpsi.bind <| (htime (timePlace k value)).bind <| (htime (timePlace k rate)).bind <|
    (htime (timePlace k acceleration)).bind <| hspatial.bind (hgradients _)

/-- **An adjoint is paired inside of the buffers**, variable by variable. -/
theorem ends_pairAdjoint :
    Ends d.pairAdjoint (a.pairedWith c) ((List.finRange d.varsPerNode).foldl (a.addVariable c) 0)
      (a.pairedWith c) ((List.finRange d.varsPerNode).flatMap d.pairedAt) :=
  Ends.foldlM (ends_pairVariable a c hwords) _ _

end Words

end AdjointData

section Residual

variable {α M : Type} [Scalar α] [ElementModel M α]

/-- The residual of an adjoint adds up its variables one after the other. -/
theorem ElementModel.adjointResidual_eq_foldl {model : M} {p : Point α}
    {c : Coefficients α (dims model).utLen (dims model).uxLen}
    (hc : coefficients model p = .ok c) (a : AdjointData (dims model) α) :
    adjointResidual model p a.psi.toArray a.psix.toArray
      = .ok ((List.finRange (dims model).varsPerNode).foldl (a.addVariable c) 0) := by
  unfold adjointResidual
  simp only [AdjointData.checkAdjoint_toArray, liftM_except_ok, except_ok_bind, hc, except_pure]
  refine congrArg Except.ok ?_
  -- the terms of a variable are listed one after the other, and added in this order
  rw [Scalar.sum, List.foldl_flatMap]
  simp only [List.foldl_cons, List.foldl_map]
  rfl

/-- **How the residual of an adjoint comes about**: the lengths of the adjoint are refused, or the
weak form is, or all variables are paired inside of the buffers, and the residual is what they come
to. -/
inductive ElementModel.PairsInside (model : M) (p : Point α) (psi psix : Array α) : Prop
  | ofLength (fault : LengthFault) (hfault : (dims model).checkAdjoint psi psix = .error fault)
    (hresidual : adjointResidual model p psi psix = .error (.length fault))
  | ofWeakForm (e : ModelError α) (herror : coefficients model p = .error e)
    (hresidual : adjointResidual model p psi psix = .error e)
  | ofPairing (c : Coefficients α (dims model).utLen (dims model).uxLen) (r : α)
    (hcoefficients : coefficients model p = .ok c)
    (hresidual : adjointResidual model p psi psix = .ok r)
    (hends : Ends (dims model).pairAdjoint (.paired c.dut.toArray c.dux.toArray psi psix) r
      (.paired c.dut.toArray c.dux.toArray psi psix)
      ((List.finRange (dims model).varsPerNode).flatMap (dims model).pairedAt))

theorem ElementModel.pairsInside (model : M) (hwords : (dims model).jacobianSize < UInt64.size)
    (p : Point α) (psi psix : Array α) : PairsInside model p psi psix := by
  obtain ⟨fault, hfault⟩ | ⟨a, rfl, rfl⟩ := (dims model).checkAdjoint_cases psi psix
  · refine .ofLength fault hfault ?_
    unfold adjointResidual
    dsimp only
    rw [hfault]
    rfl
  cases hc : coefficients model p with
  | error e =>
    refine .ofWeakForm e hc ?_
    unfold adjointResidual
    simp only [AdjointData.checkAdjoint_toArray, liftM_except_ok, except_ok_bind, hc]
    rfl
  | ok c =>
    exact .ofPairing c _ hc (adjointResidual_eq_foldl hc a) (a.ends_pairAdjoint c hwords)

end Residual

/-! ## All checks -/

namespace Dims

variable {α : Type} [Scalar α] {d : Dims}

/-- **The checks stay inside of their buffers**: computed without proofs, the places that they reach
for are places of the buffers, and the results are those of the checks. -/
structure StaysInside (d : Dims) (α : Type) [Scalar α] : Prop where
  /-- What is behind a number lies in the buffers exactly if it is a row of the Jacobian. -/
  forall_has_behind_iff : ∀ row, (∀ a ∈ d.behind row, d.Has a) ↔ row < d.jacobianSize
  /-- Each place by time and by space is behind one row. -/
  existsUnique_behind : ∀ a : Address, a.buffer = .time ∨ a.buffer = .space → d.Has a →
    ∃! row : Fin d.jacobianSize, a ∈ d.behind row
  /-- A row reads what is behind it. -/
  ends_readRow : ∀ (c : Coefficients α d.utLen d.uxLen) (row : Fin d.jacobianSize),
    Ends (d.readRow row) (.plain c.dut.toArray c.dux.toArray) (d.jacobianRow c row)
      (.plain c.dut.toArray c.dux.toArray) (d.behind row)
  /-- A column moves what is behind it, and nothing else. -/
  moves_moveColumn : ∀ (data : PointData d α) (col : Fin d.jacobianSize) (delta : α),
    Moves (d.moveColumn col delta) (.plain data.ut.toArray data.ux.toArray)
      (.plain (d.shiftColumn data col delta).ut.toArray (d.shiftColumn data col delta).ux.toArray)
      (d.behind col) delta
  /-- What a variable is paired at lies in the buffers. -/
  has_of_mem_pairedAt : ∀ k, ∀ a ∈ d.pairedAt k, d.Has a
  /-- The residual of an adjoint pairs every variable there. -/
  pairsInside : ∀ (M : Type) [ElementModel M α] (model : M), dims model = d →
    ∀ (p : Point α) (psi psix : Array α), PairsInside model p psi psix

theorem staysInside (hwords : d.jacobianSize < UInt64.size) : d.StaysInside α where
  forall_has_behind_iff _ := forall_has_behind_iff
  existsUnique_behind _ := existsUnique_behind
  ends_readRow := ends_readRow hwords
  moves_moveColumn := moves_moveColumn hwords
  has_of_mem_pairedAt _ _ := has_of_mem_pairedAt
  pairsInside _ _ model h := pairsInside model (h ▸ hwords)

/-- **The data of a model is laid out in blocks, and the checks decode them**, for all dimensions
that there are and whose rows can be counted. -/
theorem hasBlockLayout_of? (spatialDim varsPerNode : ℕ) :
    ((∃ d, of? (α := α) spatialDim varsPerNode = .ok d) ↔
        (1 ≤ spatialDim ∧ spatialDim ≤ 3) ∧ 1 ≤ varsPerNode)
      ∧ ∀ d, of? (α := α) spatialDim varsPerNode = .ok d → d.jacobianSize < UInt64.size →
        (d.spatialDim = spatialDim ∧ d.varsPerNode = varsPerNode)
          ∧ d.IsBlockwise ∧ d.StaysInside α :=
  ⟨exists_of?_eq_ok_iff, fun _ hd hwords =>
    ⟨of?_eq_ok_iff.mp hd, isBlockwise hwords, staysInside hwords⟩⟩

/-- Two variables in the plane. -/
theorem hasBlockLayout_of?_planar :
    of? (α := Float) 2 2 = .ok ⟨2, 2, by decide, by decide, by decide⟩
      ∧ (⟨2, 2, by decide, by decide, by decide⟩ : Dims).jacobianSize < UInt64.size
      ∧ (⟨2, 2, by decide, by decide, by decide⟩ : Dims).IsBlockwise
      ∧ (⟨2, 2, by decide, by decide, by decide⟩ : Dims).StaysInside Float := by
  have hd : of? (α := Float) 2 2 = .ok ⟨2, 2, by decide, by decide, by decide⟩ := rfl
  have hwords : (⟨2, 2, by decide, by decide, by decide⟩ : Dims).jacobianSize < UInt64.size := by
    decide
  obtain ⟨-, hblockwise, hinside⟩ := (hasBlockLayout_of? 2 2).2 _ hd hwords
  exact ⟨hd, hwords, hblockwise, hinside⟩

end Dims

end WeakForm
