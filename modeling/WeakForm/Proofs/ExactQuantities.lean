import WeakForm.Proofs.FailureGradient
import WeakForm.Proofs.ThermalQuantities

/-!
# Exact quantities

Both kinds of physics know three quantities each, and report any other as unsupported. For a solid,
with or without a material, **the derivatives of all that are known are exact**, along the state
(`isExactAlongState_solid`) and along the thickness (`isExactAlongThickness_solid`), at every point
and for all weights. Along the state, the failure index is an exception in one respect: it is its
square that has an exact difference.
-/

namespace WeakForm

open Dims ElementModel

variable [Waves]

/-! ## Along the state -/

/-- **A quantity is exact along the state**: in its values, or in the square of its value if it is
the failure index. -/
def ElementModel.IsExactAlongState {M : Type} [ElementModel M ℝ] (model : M) (tag : QuantityTag)
    (place : Point ℝ) (xd : Array ℝ) : Prop :=
  if tag = .failureIndex then
    ∃ q : PointData (dims model) ℝ → Fin 1 → ℝ, IsExactByState model tag place xd .square q
  else
    ∃ n, ∃ q : PointData (dims model) ℝ → Fin n → ℝ,
      IsExactByState model tag place xd (.linear n) q

section State

variable {place : Point ℝ} {xd : Array ℝ} {tag : QuantityTag} {s : Solid ℝ}

theorem Elasticity.isExactAlongState {thermalLoad : ℝ} (h : tag ∈ tags) :
    IsExactAlongState (⟨s, thermalLoad⟩ : Elasticity (Solid ℝ) ℝ) tag place xd := by
  simp only [tags, List.mem_cons, List.not_mem_nil, or_false] at h
  unfold IsExactAlongState
  obtain rfl | rfl | rfl := h
  · rw [if_pos rfl]
    exact ⟨_, evaluates_failure.isExactByState_square (hasGradient_failure_sq s.response)⟩
  · rw [if_neg (by decide)]
    exact ⟨1, _, evaluates_density.isExactByState hasGradient_weighted_density⟩
  · rw [if_neg (by decide)]
    exact ⟨1, _, evaluates_energy.isExactByState hasGradient_weighted_energy⟩

theorem Conductor.isExactAlongState (h : tag ∈ tags) :
    IsExactAlongState (⟨s⟩ : Conductor (Solid ℝ)) tag place xd := by
  simp only [tags, List.mem_cons, List.not_mem_nil, or_false] at h
  unfold IsExactAlongState
  obtain rfl | rfl | rfl := h
  · rw [if_neg (by decide)]
    exact ⟨1, _, evaluates_density.isExactByState hasGradient_weighted_density⟩
  · rw [if_neg (by decide)]
    exact ⟨1, _, evaluates_temperature.isExactByState hasGradient_weighted_temperature⟩
  · rw [if_neg (by decide)]
    exact ⟨2, _, evaluates_heatFlux.isExactByState hasGradient_weighted_heatFlux⟩

/-- **Along the state, every quantity that is known is exact**, and any other is reported. -/
theorem isExactAlongState_solid (s : Solid ℝ) (place : Point ℝ) (xd : Array ℝ) :
    (∀ (thermalLoad : ℝ) (tag : QuantityTag),
        if tag ∈ Elasticity.tags then
          IsExactAlongState (⟨s, thermalLoad⟩ : Elasticity (Solid ℝ) ℝ) tag place xd
        else ∀ data : PointData Elasticity.dims ℝ,
          quantityValues (⟨s, thermalLoad⟩ : Elasticity (Solid ℝ) ℝ) tag (data.pointAt place) xd
            = .error (.unsupportedQuantity tag))
      ∧ ∀ tag : QuantityTag,
        if tag ∈ Conductor.tags then IsExactAlongState (⟨s⟩ : Conductor (Solid ℝ)) tag place xd
        else ∀ data : PointData Conductor.dims ℝ,
          quantityValues (⟨s⟩ : Conductor (Solid ℝ)) tag (data.pointAt place) xd
            = .error (.unsupportedQuantity tag) := by
  refine ⟨fun thermalLoad tag => ?_, fun tag => ?_⟩
  · by_cases hknown : tag ∈ Elasticity.tags
    · rw [if_pos hknown]
      exact Elasticity.isExactAlongState hknown
    · rw [if_neg hknown]
      exact fun data => Elasticity.quantityValues_of_unknown xd hknown
  · by_cases hknown : tag ∈ Conductor.tags
    · rw [if_pos hknown]
      exact Conductor.isExactAlongState hknown
    · rw [if_neg hknown]
      exact fun data => Conductor.quantityValues_of_unknown xd hknown

end State

/-! ## Along the thickness -/

/-- A quantity is exact along the thickness, with as many values as it has. -/
def ElementModel.IsExactAlongThickness {M : Type} [ElementModel M ℝ] (model : Solid ℝ → M)
    (tag : QuantityTag) (p : Point ℝ) (xd : Array ℝ) : Prop :=
  ∃ n, ∃ q : Solid ℝ → Fin n → ℝ, IsExactByThickness model tag p xd q

section Thickness

variable (place : Point ℝ) (xd : Array ℝ) {tag : QuantityTag}

theorem Elasticity.isExactAlongThickness (thermalLoad : ℝ) (data : PointData dims ℝ)
    (h : tag ∈ tags) :
    IsExactAlongThickness (fun s => (⟨s, thermalLoad⟩ : Elasticity (Solid ℝ) ℝ)) tag
      (data.pointAt place) xd := by
  simp only [tags, List.mem_cons, List.not_mem_nil, or_false] at h
  obtain rfl | rfl | rfl := h
  · exact ⟨1, _, isExactByThickness_failure thermalLoad place xd data⟩
  · exact ⟨1, _, isExactByThickness_density thermalLoad place xd data⟩
  · exact ⟨1, _, isExactByThickness_energy thermalLoad place xd data⟩

theorem Conductor.isExactAlongThickness (data : PointData dims ℝ) (h : tag ∈ tags) :
    IsExactAlongThickness (fun s => (⟨s⟩ : Conductor (Solid ℝ))) tag (data.pointAt place) xd := by
  simp only [tags, List.mem_cons, List.not_mem_nil, or_false] at h
  obtain rfl | rfl | rfl := h
  · exact ⟨1, _, isExactByThickness_density place xd data⟩
  · exact ⟨1, _, isExactByThickness_temperature place xd data⟩
  · exact ⟨2, _, isExactByThickness_heatFlux place xd data⟩

/-- **Along the thickness, every quantity that is known is exact.** Nothing at all is added for the
failure index and for the temperature, whatever the solid is. -/
theorem isExactAlongThickness_solid (place : Point ℝ) (xd : Array ℝ) :
    (∀ (thermalLoad : ℝ) (data : PointData Elasticity.dims ℝ),
        (∀ tag ∈ Elasticity.tags,
          IsExactAlongThickness (fun s => (⟨s, thermalLoad⟩ : Elasticity (Solid ℝ) ℝ)) tag
            (data.pointAt place) xd)
          ∧ ∀ (s : Solid ℝ) (scale : ℝ) (dfdq : Array ℝ), 1 ≤ dfdq.size → ∀ n (b : Vector ℝ n),
            addQuantityDesignSens (⟨s, thermalLoad⟩ : Elasticity (Solid ℝ) ℝ) .failureIndex scale
              (data.pointAt place) xd dfdq b = .ok () b)
      ∧ ∀ data : PointData Conductor.dims ℝ,
        (∀ tag ∈ Conductor.tags,
          IsExactAlongThickness (fun s => (⟨s⟩ : Conductor (Solid ℝ))) tag (data.pointAt place) xd)
          ∧ ∀ (s : Solid ℝ) (scale : ℝ) (dfdq : Array ℝ) n (b : Vector ℝ n),
            addQuantityDesignSens (⟨s⟩ : Conductor (Solid ℝ)) .temperature scale
              (data.pointAt place) xd dfdq b = .ok () b :=
  ⟨fun thermalLoad data =>
    ⟨fun _ h => Elasticity.isExactAlongThickness place xd thermalLoad data h,
      fun _ scale _ hq _ b => Elasticity.addQuantityDesignSens_failure scale hq b⟩,
    fun data => ⟨fun _ h => Conductor.isExactAlongThickness place xd data h,
      fun _ scale dfdq _ b => Conductor.addQuantityDesignSens_temperature scale dfdq b⟩⟩

end Thickness

end WeakForm
