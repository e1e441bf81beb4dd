import WeakForm.Proofs.Conduction
import WeakForm.Proofs.Elasticity
import WeakForm.Proofs.Solid

/-!
# Exact Jacobians

Both kinds of physics report the exact Jacobian of their weak form, over any constitutive law that
answers what they ask of it. Elasticity asks for a tangent stiffness and for the strain of its
thermal load, conduction for a tangent conduction; what the law answers is arbitrary, and may depend
on the site. That the stiffness is packed, so that it is symmetric as it is read, plays no part.
-/

namespace WeakForm

open ElementModel

/-- **The Jacobians of both kinds of physics are exact**: whatever the values at a point are, an
increment of them changes the coefficients by the dense form of the reported Jacobian times the
increment. -/
theorem exists_isLinearization [Waves] {C : Type} [Constitutive C ℝ] (law : C) (place : Point ℝ)
    (x : Vector ℝ 3) :
    (∀ thermalLoad : ℝ,
        (∃ K, Evaluation.fill (Vector.replicate 21 0)
            (Constitutive.tangentStiffness law (PointData.siteAt x place)) = .ok K)
        → (∃ thermal, Evaluation.fill (Vector.replicate 6 0)
            (Constitutive.thermalStrain law (PointData.siteAt x place) thermalLoad) = .ok thermal)
        → ∃ f J, IsLinearization (⟨law, thermalLoad⟩ : Elasticity C ℝ) place x
            (.sparse Elasticity.pattern) f J)
      ∧ ((∃ k, Evaluation.fill (Vector.replicate 3 0)
            (Constitutive.tangentConduction law (PointData.siteAt x place)) = .ok k)
        → ∃ f J, IsLinearization (⟨law⟩ : Conductor C) place x (.sparse Conductor.pattern) f
            J) := by
  refine ⟨fun thermalLoad hK hthermal => ?_, ?_⟩
  · obtain ⟨K, hK⟩ := hK
    obtain ⟨thermal, hthermal⟩ := hthermal
    exact ⟨_, _, Elasticity.isLinearization
      (Elasticity.answers_of_ok (e := ⟨law, thermalLoad⟩) hK hthermal)⟩
  · rintro ⟨k, hk⟩
    have hconduction : (⟨law⟩ : Conductor C).conduction (PointData.siteAt x place)
        = .ok (.ofVector k) := by
      unfold Conductor.conduction
      rw [hk]
      rfl
    exact ⟨_, _, Conductor.isLinearization hconduction⟩

/-- A solid answers both kinds of physics. -/
theorem exists_isLinearization_sample :
    (∃ f J, IsLinearization (⟨.sample, 19⟩ : Elasticity (Solid ℝ) ℝ) ⟨0, 0, 0, #[], #[], #[], #[]⟩
        #v[0, 0, 0] (.sparse Elasticity.pattern) f J)
      ∧ ∃ f J, IsLinearization (⟨.sample⟩ : Conductor (Solid ℝ)) ⟨0, 0, 0, #[], #[], #[], #[]⟩
        #v[0, 0, 0] (.sparse Conductor.pattern) f J := by
  obtain ⟨helasticity, hconduction⟩ :=
    exists_isLinearization Solid.sample ⟨0, 0, 0, #[], #[], #[], #[]⟩ #v[0, 0, 0]
  exact ⟨helasticity 19 ⟨_, fill_of_ok (Solid.tangentStiffness_apply _ _ _)⟩
      ⟨_, fill_of_ok (Solid.thermalStrain_apply _ _ _ _)⟩,
    hconduction ⟨_, fill_of_ok (Solid.tangentConduction_apply _ _ _)⟩⟩

end WeakForm
