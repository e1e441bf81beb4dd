import Mathlib
import WeakForm.Element.Conduction
import WeakForm.Proofs.Linearization

/-!
# The weak form of conduction

Conduction in the plane is linear: the weak form multiplies the rate by the capacity and the
gradient by the tangent conduction. This module runs the evaluations once (`weakIntegrand_of_ok`,
`weakJacobian_of_ok`) and then speaks of what they write, which is a function of the slots. **The
pattern and the values are written apart from each other**, and `listed` pairs them: each entry with
the slots that its row and its column have.
-/

namespace WeakForm

open Dims ElementModel

namespace Conductor

/-- A slot by time. -/
def timeSlot (s : Fin 3) : dims.Slot := ((0 : Fin 1), .inl s)

/-- A slot by space. -/
def gradSlot (j : Fin 2) : dims.Slot := ((0 : Fin 1), .inr j)

theorem timeSlot_fst (s : Fin 3) : (timeSlot s).1 = (0 : Fin 1) := rfl

theorem exists_slot (r : dims.Slot) : (∃ s, r = timeSlot s) ∨ ∃ j, r = gradSlot j := by
  obtain ⟨v, s | j⟩ := r
  · exact Or.inl ⟨s, Prod.ext (Subsingleton.elim (α := Fin 1) v 0) rfl⟩
  · exact Or.inr ⟨j, Prod.ext (Subsingleton.elim (α := Fin 1) v 0) rfl⟩

@[simp] theorem timeSlot_inj {s t : Fin 3} : timeSlot s = timeSlot t ↔ s = t :=
  ⟨fun h => Sum.inl.inj (congrArg Prod.snd h), congrArg timeSlot⟩

@[simp] theorem gradSlot_inj {i j : Fin 2} : gradSlot i = gradSlot j ↔ i = j :=
  ⟨fun h => Sum.inr.inj (congrArg Prod.snd h), congrArg gradSlot⟩

@[simp] theorem timeSlot_ne_gradSlot (s : Fin 3) (j : Fin 2) : timeSlot s ≠ gradSlot j :=
  fun h => Sum.inl_ne_inr (congrArg Prod.snd h)

@[simp] theorem gradSlot_ne_timeSlot (s : Fin 3) (j : Fin 2) : gradSlot j ≠ timeSlot s :=
  (timeSlot_ne_gradSlot s j).symm

/-- The entries of the Jacobian, in the order of the pattern. -/
def listed (capacity : ℝ) (k : Conduction ℝ) : List (dims.Slot × dims.Slot × ℝ) :=
  [(timeSlot rate, timeSlot rate, capacity), (gradSlot 0, gradSlot 0, k.k11),
    (gradSlot 0, gradSlot 1, k.k12), (gradSlot 1, gradSlot 0, k.k12),
    (gradSlot 1, gradSlot 1, k.k22)]

theorem pattern_eq_listed (capacity : ℝ) (k : Conduction ℝ) :
    pattern = (listed capacity k).map fun e => (rowIndex e.1, rowIndex e.2.1) := rfl

variable [Waves]

/-- The temperature gradient of values. -/
def gradientOf (u : dims.Values) : Vector ℝ 2 :=
  #v[component (gradSlot 0) u, component (gradSlot 1) u]

/-- The weak form: what is written for values at a point. -/
noncomputable def form (capacity : ℝ) (k : Conduction ℝ) (u : dims.Values) : dims.Values :=
  let flux := k.mulVec (gradientOf u)
  let dut : Vector ℝ 3 := #v[0, capacity * component (timeSlot rate) u, 0]
  let dux : Vector ℝ 3 := #v[0, flux.get 0, flux.get 1]
  Coefficients.values ⟨dut, dux⟩

/-- **The weak form is the matrix of the listed entries.** -/
theorem component_form (capacity : ℝ) (k : Conduction ℝ) (u : dims.Values) (r : dims.Slot) :
    component r (form capacity k u)
      = ∑ c, listedMatrix (listed capacity k) r c * component c u := by
  rw [sum_listedMatrix_mul _ _ (component · u)]
  unfold listed
  obtain ⟨s, rfl⟩ | ⟨j, rfl⟩ := exists_slot r
  · fin_cases s
    · simp
      rfl
    · simp
      rfl
    · simp
      rfl
  · fin_cases j
    · simp
      rfl
    · simp
      rfl

variable {C : Type} [Constitutive C ℝ] {c : Conductor C} {place : Point ℝ} {k : Conduction ℝ}

/-- Evaluating the weak form. -/
theorem weakIntegrand_of_ok {data : PointData dims ℝ}
    (hk : c.conduction (PointData.siteAt data.x place) = .ok k)
    (buffers : Coefficients ℝ dims.utLen dims.uxLen) :
    c.weakIntegrand (data.pointAt place) buffers
      = .ok () (.ofValues (form (c.capacity (PointData.siteAt data.x place)) k data.values)) := by
  unfold weakIntegrand flux
  simp only [PointData.checkPoint_pointAt, Dims.checkCoefficients_self, liftM_length_ok,
    pure_bind_apply, PointData.site_pointAt, hk, except_ok_bind, except_pure, liftM_ok,
    modify_bind_apply, modify_apply]
  unfold form
  rw [Coefficients.ofValues_values]
  rfl

/-- Evaluating the Jacobian. -/
theorem weakJacobian_of_ok {data : PointData dims ℝ}
    (hk : c.conduction (PointData.siteAt data.x place) = .ok k) {n : ℕ} (hn : pattern.length ≤ n)
    (buffers : Linearization ℝ dims.utLen dims.uxLen n) :
    c.weakJacobian (data.pointAt place) buffers
      = .ok (.sparse pattern)
          ⟨.ofValues (form (c.capacity (PointData.siteAt data.x place)) k data.values),
            overwrite buffers.jac 0 #[c.capacity (PointData.siteAt data.x place), k.k11, k.k12,
              k.k12, k.k22]⟩ := by
  have hform := Linearization.onCoefficients_of_ok buffers
    (weakIntegrand_of_ok hk buffers.coefficients)
  unfold weakJacobian Linearization.writeJacobian
  rw [bind_of_ok hform, lengthAtLeast_of_le hn]
  simp only [liftM_length_ok, pure_bind_apply, PointData.site_pointAt, hk, liftM_ok,
    modify_bind_apply, pure_apply]

/-- **The reported Jacobian of conduction is exact.** -/
theorem isLinearization {x : Vector ℝ 3} (hk : c.conduction (PointData.siteAt x place) = .ok k) :
    IsLinearization c place x (.sparse pattern) (form (c.capacity (PointData.siteAt x place)) k)
      (listedMatrix (listed (c.capacity (PointData.siteAt x place)) k)) where
  weakIntegrand_eq := by
    intro u buffers
    have hform := weakIntegrand_of_ok (show c.conduction (PointData.siteAt
      (PointData.ofValues (d := dims) x u).x place) = .ok k from hk) buffers
    rwa [PointData.values_ofValues] at hform
  weakJacobian_eq := by
    intro u n buffers hn
    obtain ⟨view, hview, hdense⟩ := JacobianView.exists_of?_listed
      (listed (c.capacity (PointData.siteAt x place)) k) (pattern_eq_listed _ _) rfl hn buffers.jac
    have hjac := weakJacobian_of_ok (show c.conduction (PointData.siteAt
      (PointData.ofValues (d := dims) x u).x place) = .ok k from hk) hn buffers
    rw [PointData.values_ofValues] at hjac
    exact ⟨_, view, hjac, hview, hdense⟩
  increment_eq := by
    intro u du r
    rw [component_form, component_form, ← Finset.sum_sub_distrib]
    refine Finset.sum_congr rfl (fun c _ => ?_)
    rw [component_add]
    ring
  value_eq_zero := by
    intro u v
    fin_cases v
    rfl
  fst_congr := by
    intro u v h
    have hrate : component (timeSlot rate) u = component (timeSlot rate) v := congrFun h _
    unfold form
    rw [hrate]
    rfl
  snd_congr := by
    intro u v h
    have hgrad : ∀ j, component (gradSlot j) u = component (gradSlot j) v := fun j => h _ j
    unfold form gradientOf
    rw [hgrad, hgrad]
    rfl

end Conductor

end WeakForm
