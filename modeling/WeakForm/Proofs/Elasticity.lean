import Mathlib
import WeakForm.Element.Elasticity
import WeakForm.Proofs.Linearization
import WeakForm.Proofs.StiffnessMatrix

/-!
# The weak form of elasticity

Three loops have to agree for the Jacobian of elasticity to be exact: one gathers gradients to
strains, one scatters stresses to gradients, and one takes the entries of the Jacobian from the
tangent. They agree because they read the same map of indices, and what that comes to is a single
fact: **gathering is scattering turned around** (`sum_mul_gather`). A row of the tangent times a
gathered strain is a sum over the gradients, each of which meets the entry of its own strain.

The thermal strain is the same for all values at a point, so no increment sees it.
-/

namespace WeakForm

open Dims ElementModel

namespace Elasticity

/-! ## Slots and entries -/

/-- A slot by time. -/
def timeSlot (k s : Fin 3) : dims.Slot := (k, .inl s)

/-- A slot by space: of a displacement, the derivative in a direction. -/
def gradSlot (k j : Fin 3) : dims.Slot := (k, .inr j)

theorem exists_slot (r : dims.Slot) : (∃ k s, r = timeSlot k s) ∨ ∃ k j, r = gradSlot k j := by
  obtain ⟨k, s | j⟩ := r
  · exact Or.inl ⟨k, s, rfl⟩
  · exact Or.inr ⟨k, j, rfl⟩

@[simp] theorem timeSlot_inj {k l s t : Fin 3} :
    timeSlot k s = timeSlot l t ↔ k = l ∧ s = t := by
  constructor
  · intro h
    exact ⟨congrArg Prod.fst h, Sum.inl.inj (congrArg Prod.snd h)⟩
  · rintro ⟨rfl, rfl⟩
    rfl

@[simp] theorem gradSlot_inj {k l i j : Fin 3} :
    gradSlot k i = gradSlot l j ↔ k = l ∧ i = j := by
  constructor
  · intro h
    exact ⟨congrArg Prod.fst h, Sum.inr.inj (congrArg Prod.snd h)⟩
  · rintro ⟨rfl, rfl⟩
    rfl

@[simp] theorem timeSlot_ne_gradSlot (k s l j : Fin 3) : timeSlot k s ≠ gradSlot l j :=
  fun h => Sum.inl_ne_inr (congrArg Prod.snd h)

@[simp] theorem gradSlot_ne_timeSlot (k s l j : Fin 3) : gradSlot l j ≠ timeSlot k s :=
  (timeSlot_ne_gradSlot k s l j).symm

/-- The entries of the Jacobian, in the order of the pattern. -/
def listed (density : ℝ) (K : Stiffness ℝ) : List (dims.Slot × dims.Slot × ℝ) :=
  ((List.finRange 3).map fun k => (timeSlot k acceleration, timeSlot k acceleration, density))
    ++ axes.flatMap fun (k, a) => axes.map fun (l, b) =>
      (gradSlot k a, gradSlot l b, K.get (voigt k a) (voigt l b))

theorem pattern_eq_listed (density : ℝ) (K : Stiffness ℝ) :
    pattern = (listed density K).map fun e => (rowIndex e.1, rowIndex e.2.1) := by
  unfold pattern listed
  rw [List.map_append, List.map_map, List.map_flatMap]
  rfl

theorem patternValues_eq_listed (density : ℝ) (K : Stiffness ℝ) :
    patternValues density K = (listed density K).map (·.2.2) := by
  unfold patternValues listed
  rw [List.map_append, List.map_map, List.map_flatMap]
  rfl

/-- A sum over the pairs of a component and a direction. -/
theorem sum_map_axes (f : Fin 3 × Fin 3 → ℝ) : (axes.map f).sum = ∑ k, ∑ j, f (k, j) := by
  simp [axes, List.finRange_succ, Fin.sum_univ_succ]
  ring

section Entries

variable (density : ℝ) (K : Stiffness ℝ) (z : dims.Slot → ℝ)

/-- A sum over all entries: the masses, then each pair of gradients. -/
theorem sum_map_listed (f : dims.Slot × dims.Slot × ℝ → ℝ) :
    ((listed density K).map f).sum
      = ∑ k, f (timeSlot k acceleration, timeSlot k acceleration, density)
        + ∑ k, ∑ a, ∑ l, ∑ b,
          f (gradSlot k a, gradSlot l b, K.get (voigt k a) (voigt l b)) := by
  unfold listed
  rw [List.map_append, List.sum_append, List.map_map, List.map_flatMap, List.flatMap_def,
    List.sum_flatten, List.map_map]
  refine congrArg₂ (· + ·) ?_ ?_
  · rw [Fin.sum_univ_def]
    rfl
  · rw [sum_map_axes]
    refine Finset.sum_congr rfl (fun k _ => Finset.sum_congr rfl (fun a _ => ?_))
    dsimp only [Function.comp_apply]
    rw [List.map_map, sum_map_axes]
    rfl

/-- A row of the Jacobian by time, times a vector. -/
theorem sum_listedMatrix_timeSlot (k s : Fin 3) :
    ∑ c, listedMatrix (listed density K) (timeSlot k s) c * z c
      = if s = acceleration then density * z (timeSlot k acceleration) else 0 := by
  rw [sum_listedMatrix_mul, sum_map_listed]
  by_cases h : s = acceleration
  · subst h
    simp
  · have h' : acceleration ≠ s := fun e => h e.symm
    simp [h, h']

/-- A row of the Jacobian by space, times a vector. -/
theorem sum_listedMatrix_gradSlot (k j : Fin 3) :
    ∑ c, listedMatrix (listed density K) (gradSlot k j) c * z c
      = ∑ l, ∑ b, K.get (voigt k j) (voigt l b) * z (gradSlot l b) := by
  rw [sum_listedMatrix_mul, sum_map_listed]
  simp [ite_and]

end Entries

/-! ## Strains and stresses -/

variable [Waves]

/-- **Gathering is scattering turned around.** -/
theorem sum_mul_gather (a : Fin 6 → ℝ) (g : Fin 3 → Fin 3 → ℝ) :
    ∑ m : Fin 6, a m * (gather g).get m = ∑ k, ∑ j, a (voigt k j) * g k j := by
  show ∑ m : Fin 6, a m * (gather g)[m] = _
  simp [Fin.sum_univ_succ, gather, voigt]
  ring

/-- Gathering sums the gradients that contribute to a strain. -/
theorem get_gather (g : Fin 3 → Fin 3 → ℝ) (m : Fin 6) :
    (gather g).get m = ∑ k, ∑ j, if voigt k j = m then g k j else 0 := by
  fin_cases m <;> simp [Fin.sum_univ_succ, gather, voigt, Vector.get_eq_getElem]

/-- Gathering is linear. -/
noncomputable def gatherMap : (Fin 3 → Fin 3 → ℝ) →ₗ[ℝ] Fin 6 → ℝ where
  toFun g := (gather g).get
  map_add' g h := by
    ext m
    simp only [Pi.add_apply, get_gather, ite_add_zero, Finset.sum_add_distrib]
  map_smul' c g := by
    ext m
    simp only [Pi.smul_apply, get_gather, smul_ite_zero, Finset.smul_sum, RingHom.id_apply]

theorem gatherMap_apply (g : Fin 3 → Fin 3 → ℝ) : gatherMap g = (gather g).get := rfl

/-- The weak form: what is written for values at a point. -/
noncomputable def form (density : ℝ) (K : Stiffness ℝ) (thermal : Voigt ℝ) (u : dims.Values) :
    dims.Values :=
  let strain := Vector.zipWith (· - ·) (gather fun k j => component (gradSlot k j) u) thermal
  let ut : Fin 9 → ℝ := u.1
  let dut : Vector ℝ 9 := #v[0, 0, density * ut 2, 0, 0, density * ut 5, 0, 0, density * ut 8]
  Coefficients.values ⟨dut, scatter (K.mulVec strain)⟩

section Form

variable (density : ℝ) (K : Stiffness ℝ) (thermal : Voigt ℝ) (u du : dims.Values)

/-- Only the accelerations have coefficients, which are inertia forces. -/
theorem component_timeSlot_form (k s : Fin 3) :
    component (timeSlot k s) (form density K thermal u)
      = if s = acceleration then density * component (timeSlot k acceleration) u else 0 := by
  fin_cases k <;> fin_cases s <;> rfl

/-- A gradient has the stress of the strain that it contributes to. -/
theorem component_gradSlot_form (k j : Fin 3) :
    component (gradSlot k j) (form density K thermal u)
      = (K.mulVec (Vector.zipWith (· - ·) (gather fun k j => component (gradSlot k j) u)
          thermal)).get (voigt k j) := by
  fin_cases k <;> fin_cases j <;> rfl

/-- **Increments of the gradients meet the entries of their strains.** -/
theorem component_gradSlot_increment (k j : Fin 3) :
    component (gradSlot k j) (form density K thermal (u + du))
        - component (gradSlot k j) (form density K thermal u)
      = ∑ l, ∑ b, K.get (voigt k j) (voigt l b) * component (gradSlot l b) du := by
  rw [component_gradSlot_form, component_gradSlot_form, Stiffness.get_mulVec,
    Stiffness.get_mulVec, ← Finset.sum_sub_distrib, ← sum_mul_gather]
  refine Finset.sum_congr rfl (fun m _ => ?_)
  -- gathering is additive, and the thermal strain cancels
  have hgather : (gather fun k j => component (gradSlot k j) (u + du)).get m
      = (gather fun k j => component (gradSlot k j) u).get m
        + (gather fun k j => component (gradSlot k j) du).get m := by
    simp only [component_add]
    exact congrFun (gatherMap.map_add _ _) m
  simp only [Vector.get_eq_getElem, Vector.getElem_zipWith] at hgather ⊢
  rw [hgather]
  ring

end Form

/-! ## Evaluating -/

variable {C : Type} [Constitutive C ℝ]

/-- **What elasticity asks of its law at a site**, and what it is told: a tangent stiffness, and the
strain that the thermal load takes off any other strain. -/
structure Answers (e : Elasticity C ℝ) (site : Site ℝ) (K : Stiffness ℝ) (thermal : Voigt ℝ) :
    Prop where
  tangent : e.tangent site = .ok K
  mechanicalStrain : ∀ ux,
    e.mechanicalStrain site ux = .ok (Vector.zipWith (· - ·) (strain ux) thermal)

/-- A law that gives a tangent and a thermal strain answers what elasticity asks. Without a thermal
load it is not asked for the strain, and none is taken off. -/
theorem answers_of_ok {e : Elasticity C ℝ} {site : Site ℝ} {K : Vector ℝ 21} {thermal : Voigt ℝ}
    (hK : Evaluation.fill (Vector.replicate 21 0)
      (Constitutive.tangentStiffness e.law site) = .ok K)
    (hthermal : Evaluation.fill (Vector.replicate 6 0)
      (Constitutive.thermalStrain e.law site e.thermalLoad) = .ok thermal) :
    e.Answers site ⟨K⟩ (if e.thermalLoad = 0 then Vector.replicate 6 0 else thermal) where
  tangent := by
    unfold tangent
    rw [hK]
    rfl
  mechanicalStrain := by
    intro ux
    unfold mechanicalStrain
    by_cases h0 : e.thermalLoad = 0
    · rw [if_pos (beq_iff_eq.mpr h0), if_pos h0]
      refine congrArg Except.ok (Vector.ext fun i hi => ?_)
      simp
    · rw [if_neg (by simpa using h0), if_neg h0, hthermal]
      rfl

/-- The strain at a point. -/
theorem strain_eq_gather (data : PointData dims ℝ) :
    strain data.ux = gather fun k j => component (gradSlot k j) data.values := by
  refine congrArg gather (funext fun k => funext fun j => ?_)
  fin_cases k <;> fin_cases j <;> rfl

variable {e : Elasticity C ℝ} {place : Point ℝ} {K : Stiffness ℝ} {thermal : Voigt ℝ}

/-- Evaluating the weak form. -/
theorem weakIntegrand_of_answers {data : PointData dims ℝ}
    (h : e.Answers (PointData.siteAt data.x place) K thermal)
    (buffers : Coefficients ℝ dims.utLen dims.uxLen) :
    e.weakIntegrand (data.pointAt place) buffers
      = .ok () (.ofValues (form (Constitutive.density e.law (PointData.siteAt data.x place)) K
          thermal data.values)) := by
  have hmechanical : e.mechanicalStrain (PointData.siteAt data.x place) data.ux
      = .ok (Vector.zipWith (· - ·) (gather fun k j => component (gradSlot k j) data.values)
          thermal) := by
    rw [← strain_eq_gather]
    exact h.mechanicalStrain _
  unfold weakIntegrand resultantStress
  simp only [PointData.checkPoint_pointAt, Dims.checkCoefficients_self, liftM_length_ok,
    pure_bind_apply, PointData.site_pointAt, h.tangent, hmechanical, except_ok_bind, except_pure,
    liftM_ok, modify_bind_apply, modify_apply]
  unfold form
  rw [Coefficients.ofValues_values]
  rfl

/-- Evaluating the Jacobian. -/
theorem weakJacobian_of_answers {data : PointData dims ℝ}
    (h : e.Answers (PointData.siteAt data.x place) K thermal) {n : ℕ} (hn : pattern.length ≤ n)
    (buffers : Linearization ℝ dims.utLen dims.uxLen n) :
    e.weakJacobian (data.pointAt place) buffers
      = .ok (.sparse pattern)
          ⟨.ofValues (form (Constitutive.density e.law (PointData.siteAt data.x place)) K thermal
              data.values),
            overwrite buffers.jac 0 (patternValues
              (Constitutive.density e.law (PointData.siteAt data.x place)) K).toArray⟩ := by
  have hform := Linearization.onCoefficients_of_ok buffers
    (weakIntegrand_of_answers h buffers.coefficients)
  unfold weakJacobian Linearization.writeJacobian
  rw [bind_of_ok hform, lengthAtLeast_of_le hn]
  simp only [liftM_length_ok, pure_bind_apply, PointData.site_pointAt, h.tangent, liftM_ok,
    modify_bind_apply, pure_apply]

/-- **The reported Jacobian of elasticity is exact.** -/
theorem isLinearization {x : Vector ℝ 3} (h : e.Answers (PointData.siteAt x place) K thermal) :
    IsLinearization e place x (.sparse pattern)
      (form (Constitutive.density e.law (PointData.siteAt x place)) K thermal)
      (listedMatrix (listed (Constitutive.density e.law (PointData.siteAt x place)) K)) where
  weakIntegrand_eq := by
    intro u buffers
    have hform := weakIntegrand_of_answers (show e.Answers (PointData.siteAt
      (PointData.ofValues (d := dims) x u).x place) K thermal from h) buffers
    rwa [PointData.values_ofValues] at hform
  weakJacobian_eq := by
    intro u n buffers hn
    obtain ⟨view, hview, hdense⟩ := JacobianView.exists_of?_listed
      (listed (Constitutive.density e.law (PointData.siteAt x place)) K) (pattern_eq_listed _ _)
      (patternValues_eq_listed _ _) hn buffers.jac
    have hjac := weakJacobian_of_answers (show e.Answers (PointData.siteAt
      (PointData.ofValues (d := dims) x u).x place) K thermal from h) hn buffers
    rw [PointData.values_ofValues] at hjac
    exact ⟨_, view, hjac, hview, hdense⟩
  increment_eq := by
    intro u du r
    obtain ⟨k, s, rfl⟩ | ⟨k, j, rfl⟩ := exists_slot r
    · refine Eq.trans ?_ (sum_listedMatrix_timeSlot _ K (component · du) k s).symm
      rw [component_timeSlot_form, component_timeSlot_form, component_add]
      by_cases hs : s = acceleration
      · rw [if_pos hs, if_pos hs, if_pos hs]
        ring
      · rw [if_neg hs, if_neg hs, if_neg hs, sub_zero]
    · exact (component_gradSlot_increment _ K thermal u du k j).trans
        (sum_listedMatrix_gradSlot _ K (component · du) k j).symm
  value_eq_zero := by
    intro u k
    fin_cases k <;> rfl
  fst_congr := by
    intro u v huv
    unfold form
    rw [huv]
    rfl
  snd_congr := by
    intro u v huv
    have hgrad : ∀ k j, component (gradSlot k j) u = component (gradSlot k j) v :=
      fun k j => huv k j
    unfold form
    simp only [hgrad]
    rfl

end Elasticity

end WeakForm
