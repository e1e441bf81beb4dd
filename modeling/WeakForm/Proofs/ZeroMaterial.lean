import WeakForm.Proofs.CaseVerdict
import WeakForm.Proofs.Refusals
import WeakForm.Proofs.ThicknessRuns

/-!
# No material and the zero material

A solid without a material answers with zeros, and so does one of a material whose constants are
zeros. **The two can hardly be told apart**: whatever is called, in any order and with any
arguments, each call has the same result, the same error and the same effect on its buffers and on
the thickness. They differ in one place. Without a material nothing is added to sensitivities, so
nobody asks whether they have a place for the thickness; with a material the question comes first,
and an empty buffer is refused (`Evaluation.EqOrLost`).

The two laws are compared method by method (`Constitutive.Alike`), and so far as they answer alike,
the models over them do, because a model reads nothing but the answers of its law.
-/

namespace WeakForm

open Evaluation

/-! ## Evaluations of which one may be lost -/

namespace Evaluation

variable {α β γ σ : Type} {lost : Prop}

/-- **The second evaluation may be lost**: both do the same, or only the first one succeeds, and
then it is known why. -/
def EqOrLost (lost : Prop) (x y : Evaluation α σ β) : Prop :=
  ∀ s, x s = y s ∨ lost ∧ (∃ b s', x s = .ok b s') ∧ ∃ e s', y s = .error e s'

theorem eqOrLost_of_eq {x y : Evaluation α σ β} (h : x = y) : EqOrLost lost x y :=
  fun s => Or.inl (congrFun h s)

theorem EqOrLost.imp {lost' : Prop} {x y : Evaluation α σ β} (h : EqOrLost lost x y)
    (himp : lost → lost') : EqOrLost lost' x y :=
  fun s => (h s).imp_right fun ⟨hlost, houtcome⟩ => ⟨himp hlost, houtcome⟩

/-- Evaluations that begin with the same. -/
theorem eqOrLost_bind (x : Evaluation α σ β) {f g : β → Evaluation α σ γ}
    (h : ∀ b, EqOrLost lost (f b) (g b)) : EqOrLost lost (x >>= f) (x >>= g) := by
  intro s
  cases hx : x s with
  | ok b s' =>
    rw [bind_of_ok hx, bind_of_ok hx]
    exact h b s'
  | error e s' =>
    rw [bind_of_error hx, bind_of_error hx]
    exact Or.inl rfl

/-- The first evaluation cannot fail, and the second one cannot succeed. -/
theorem eqOrLost_of_lost (hlost : lost) {x y : Evaluation α σ β} (hx : ∀ s, ∃ b s', x s = .ok b s')
    (hy : ∀ s, ∃ e s', y s = .error e s') : EqOrLost lost x y :=
  fun s => Or.inr ⟨hlost, hx s, hy s⟩

end Evaluation

/-! ## Zero materials -/

/-- **A zero material**: its constants are zeros. Its yield stress and its name may be any. -/
structure Material.IsZero [Waves] (Z : Material ℝ) : Prop where
  density : Z.density = 0
  specificHeat : Z.specificHeat = 0
  stiffness : Z.stiffness = .zero
  thermalStrain : Z.thermalStrain = Vector.replicate 6 0
  conduction : Z.conduction = .zero

section Zero

variable [Waves] {Z : Material ℝ}

/-- What is accepted with neither density nor stiffness is a zero material. -/
theorem Material.isZero_of_anisotropic? [Spectral ℝ] {name : String} {yieldStress : ℝ}
    (h : Material.anisotropic? name 0 .zero yieldStress = .ok Z) : Z.IsZero := by
  unfold anisotropic? ofStiffness? at h
  split at h
  · cases h
  · split at h
    · cases h
    · split at h
      · cases h
      · cases h
        exact ⟨rfl, rfl, rfl, rfl, rfl⟩

/-- Without stiffness there is no stress. -/
theorem Material.IsZero.mulVec_eq (hZ : Z.IsZero) (v : Voigt ℝ) :
    Z.stiffness.mulVec v = Vector.replicate 6 0 := by
  rw [hZ.stiffness]
  exact Solid.void_mulVec v

/-- Without stress there is no failure, whatever the yield stress is. -/
theorem Material.IsZero.failure_eq (hZ : Z.IsZero) (v : Voigt ℝ) :
    Z.failure (Z.stiffness.mulVec v) = 0 := by
  rw [hZ.mulVec_eq]
  simp [Material.failure, Material.equivalentStressSquared, Voigt.xx, Voigt.yy, Voigt.zz, Voigt.yz,
    Voigt.xz, Voigt.xy]

end Zero

/-! ## Laws that answer alike -/

variable {n : ℕ}

/-- **Two laws that answer alike.** They add to sensitivities alike if there is a place. -/
structure Constitutive.Alike {C : Type} [Waves] [Constitutive C ℝ] (place : ℕ → Prop)
    (law law' : C) : Prop where
  numStresses : Constitutive.numStresses law = Constitutive.numStresses law'
  designVarNums : ∀ elem n, (Constitutive.designVarNums law elem : Evaluation ℝ
    (Option (Vector ℕ n)) ℕ) = Constitutive.designVarNums law' elem
  designVars : ∀ elem n, (Constitutive.designVars law elem : Evaluation ℝ (Vector ℝ n) Unit)
    = Constitutive.designVars law' elem
  designVarRange : ∀ elem n m, (Constitutive.designVarRange law elem : Evaluation ℝ
    (Vector ℝ n × Vector ℝ m) Unit) = Constitutive.designVarRange law' elem
  density : Constitutive.density law = Constitutive.density law'
  addDensitySens : ∀ site scale n, place n → (Constitutive.addDensitySens law site scale :
    Evaluation ℝ (Vector ℝ n) Unit) = Constitutive.addDensitySens law' site scale
  specificHeat : Constitutive.specificHeat law = Constitutive.specificHeat law'
  addSpecificHeatSens : ∀ site scale n, place n → (Constitutive.addSpecificHeatSens law site scale :
    Evaluation ℝ (Vector ℝ n) Unit) = Constitutive.addSpecificHeatSens law' site scale
  stress : ∀ site strain n, (Constitutive.stress law site strain : Evaluation ℝ (Vector ℝ n) Unit)
    = Constitutive.stress law' site strain
  tangentStiffness : ∀ site n, (Constitutive.tangentStiffness law site : Evaluation ℝ
    (Vector ℝ n) Unit) = Constitutive.tangentStiffness law' site
  addStressSens : ∀ site scale strain psi n, place n →
    (Constitutive.addStressSens law site scale strain psi : Evaluation ℝ (Vector ℝ n) Unit)
      = Constitutive.addStressSens law' site scale strain psi
  thermalStrain : ∀ site theta n, (Constitutive.thermalStrain law site theta : Evaluation ℝ
    (Vector ℝ n) Unit) = Constitutive.thermalStrain law' site theta
  heatFlux : ∀ site grad n, (Constitutive.heatFlux law site grad : Evaluation ℝ (Vector ℝ n) Unit)
    = Constitutive.heatFlux law' site grad
  tangentConduction : ∀ site n, (Constitutive.tangentConduction law site : Evaluation ℝ
    (Vector ℝ n) Unit) = Constitutive.tangentConduction law' site
  addHeatFluxSens : ∀ site scale grad psi n, place n →
    (Constitutive.addHeatFluxSens law site scale grad psi : Evaluation ℝ (Vector ℝ n) Unit)
      = Constitutive.addHeatFluxSens law' site scale grad psi
  failure : Constitutive.failure law = Constitutive.failure law'
  failureGradient : ∀ site strain n, (Constitutive.failureGradient law site strain : Evaluation ℝ
    (Vector ℝ n) ℝ) = Constitutive.failureGradient law' site strain
  addFailureSens : ∀ site scale strain n, place n →
    (Constitutive.addFailureSens law site scale strain : Evaluation ℝ (Vector ℝ n) Unit)
      = Constitutive.addFailureSens law' site scale strain

namespace Constitutive

variable [Waves] {C : Type} [Constitutive C ℝ] {place : ℕ → Prop} {law law' : C}

/-- Laws that answer alike have the same answer to a question. -/
theorem Alike.ask_eq (h : Alike place law law') {σ β : Type} (question : Question ℝ σ β)
    (hplace : ∀ n, question.sensLength? = some n → place n) :
    question.ask law = question.ask law' := by
  cases question with
  | numStresses => exact congrArg pure h.numStresses
  | designVarNums elem n => exact h.designVarNums elem n
  | designVars elem n => exact h.designVars elem n
  | designVarRange elem n m => exact h.designVarRange elem n m
  | density site => exact congrArg pure (congrFun h.density site)
  | addDensitySens site scale n => exact h.addDensitySens site scale n (hplace n rfl)
  | specificHeat site => exact congrArg pure (congrFun h.specificHeat site)
  | addSpecificHeatSens site scale n => exact h.addSpecificHeatSens site scale n (hplace n rfl)
  | stress site strain n => exact h.stress site strain n
  | tangentStiffness site n => exact h.tangentStiffness site n
  | addStressSens site scale strain psi n =>
    exact h.addStressSens site scale strain psi n (hplace n rfl)
  | thermalStrain site theta n => exact h.thermalStrain site theta n
  | heatFlux site grad n => exact h.heatFlux site grad n
  | tangentConduction site n => exact h.tangentConduction site n
  | addHeatFluxSens site scale grad psi n =>
    exact h.addHeatFluxSens site scale grad psi n (hplace n rfl)
  | failure site strain => exact congrArg liftM (congrFun (congrFun h.failure site) strain)
  | failureGradient site strain n => exact h.failureGradient site strain n
  | addFailureSens site scale strain n =>
    exact h.addFailureSens site scale strain n (hplace n rfl)

end Constitutive

/-! ## Solids -/

namespace Solid

/-- The solid with another material, or with none. -/
def withMaterial (s : Solid ℝ) (material : Option (Material ℝ)) : Solid ℝ := { s with material }

variable [Waves] {s : Solid ℝ} {Z : Material ℝ} {amount : Material ℝ → ℝ}

/-- What a zero material writes are the zeros that are written without a material. -/
theorem write_withMaterial (s : Solid ℝ) {k : ℕ} (h : n = k) {value : Material ℝ → Vector ℝ k}
    (hvalue : value Z = Vector.replicate k 0) :
    (s.withMaterial none).write h value = (s.withMaterial (some Z)).write h value := by
  subst h
  show set (Vector.replicate n 0) = set ((value Z).cast rfl)
  rw [hvalue, Vector.cast_rfl]

/-- **Adding zero changes nothing**, if there is a place for it. -/
theorem addSens_withMaterial (hs : s.HasPlace n) (hamount : amount Z = 0) :
    ((s.withMaterial none).addSens amount : Evaluation ℝ (Vector ℝ n) Unit)
      = (s.withMaterial (some Z)).addSens amount := by
  funext b
  show EStateM.Result.ok () b = _
  unfold addSens designSlot withMaterial
  dsimp only
  cases hd : s.designVar with
  | none => rfl
  | some index =>
    have hn : 1 ≤ n := hs (by rw [hd]; rfl)
    simp only [lengthAtLeast_of_le hn, hamount, add_zero]
    exact congrArg (EStateM.Result.ok ()) (Vector.set_getElem_self _).symm

/-- **Without a place even zero is refused.** -/
theorem addSens_withMaterial_of_not_hasPlace (hs : ¬ s.HasPlace n) (amount : Material ℝ → ℝ)
    (b : Vector ℝ n) : (s.withMaterial (some Z)).addSens amount b
      = .error (.length (.tooShort "dfdx" 1 n)) b := by
  obtain ⟨hd, hn⟩ := Classical.not_imp.mp hs
  obtain ⟨index, hd⟩ := Option.isSome_iff_exists.mp hd
  unfold addSens designSlot withMaterial
  simp only [hd, lengthAtLeast_of_lt (not_le.mp hn)]
  rfl

variable (s) in
/-- **A solid without a material and one of a zero material answer alike.** -/
theorem alike_withMaterial (hZ : Z.IsZero) :
    Constitutive.Alike s.HasPlace (s.withMaterial none) (s.withMaterial (some Z)) where
  numStresses := rfl
  designVarNums _ _ := rfl
  designVars _ _ := rfl
  designVarRange _ _ _ := rfl
  density := funext fun _ => by
    show 0 = s.thickness * Z.density
    rw [hZ.density, mul_zero]
  addDensitySens _ scale _ hplace :=
    addSens_withMaterial hplace (by rw [hZ.density, mul_zero])
  specificHeat := funext fun _ => by
    show 0 = s.thickness * Z.specificHeat
    rw [hZ.specificHeat, mul_zero]
  addSpecificHeatSens _ scale _ hplace :=
    addSens_withMaterial hplace (by rw [hZ.specificHeat, mul_zero])
  stress _ _ _ := bind_congr fun strain => bind_congr fun ⟨h⟩ =>
    s.write_withMaterial h (hZ.mulVec_eq strain)
  tangentStiffness _ _ := bind_congr fun ⟨h⟩ => s.write_withMaterial h <| by
    rw [hZ.stiffness]
    simp [Stiffness.scale, Stiffness.zero]
  addStressSens _ scale _ _ _ hplace := bind_congr fun strain => bind_congr fun psi =>
    addSens_withMaterial hplace (by rw [hZ.mulVec_eq, Scalar.dot_toList]; simp)
  thermalStrain _ theta _ := bind_congr fun ⟨h⟩ => s.write_withMaterial h <| by
    rw [hZ.thermalStrain]
    simp
  heatFlux _ _ _ := bind_congr fun grad => bind_congr fun ⟨h⟩ => s.write_withMaterial h <| by
    rw [hZ.conduction]
    simp [Conduction.mulVec, Conduction.zero]
    rfl
  tangentConduction _ _ := bind_congr fun ⟨h⟩ => s.write_withMaterial h <| by
    rw [hZ.conduction]
    simp [Conduction.scale, Conduction.toVector, Conduction.zero]
    rfl
  addHeatFluxSens _ scale _ _ _ hplace := bind_congr fun grad => bind_congr fun psi =>
    addSens_withMaterial hplace <| by
      rw [hZ.conduction]
      simp [Conduction.mulVec, Conduction.pairing, Conduction.zero]
  failure := funext fun _ => funext fun _ => bind_congr fun strain => by
    show Except.ok 0 = Except.ok (Z.failure (Z.stiffness.mulVec strain))
    rw [hZ.failure_eq]
  failureGradient _ _ _ := bind_congr fun strain => bind_congr fun ⟨h⟩ => by
    refine (congrArg (· >>= fun _ => pure 0) (s.write_withMaterial h (hZ.mulVec_eq _))).trans ?_
    show _ = _ >>= fun _ => pure (Z.failure (Z.stiffness.mulVec strain))
    rw [hZ.failure_eq]
  addFailureSens _ _ _ _ _ := rfl

end Solid

/-! ## Models over laws that answer alike -/

namespace Elasticity

variable [Waves] {C : Type} [Constitutive C ℝ] {place : ℕ → Prop} {law law' : C}

section Alike

variable (h : Constitutive.Alike place law law') (load : ℝ)

include h

theorem mechanicalStrain_of_alike : (⟨law, load⟩ : Elasticity C ℝ).mechanicalStrain
    = (⟨law', load⟩ : Elasticity C ℝ).mechanicalStrain := by
  unfold mechanicalStrain
  simp only [h.thermalStrain]

theorem tangent_of_alike :
    (⟨law, load⟩ : Elasticity C ℝ).tangent = (⟨law', load⟩ : Elasticity C ℝ).tangent := by
  unfold tangent
  simp only [h.tangentStiffness]

theorem resultantStress_of_alike : (⟨law, load⟩ : Elasticity C ℝ).resultantStress
    = (⟨law', load⟩ : Elasticity C ℝ).resultantStress := by
  unfold resultantStress
  rw [tangent_of_alike h]

theorem weakIntegrand_of_alike (n m : ℕ) :
    (weakIntegrand ⟨law, load⟩ : Point ℝ → Evaluation ℝ (Coefficients ℝ n m) Unit)
      = weakIntegrand ⟨law', load⟩ := by
  unfold weakIntegrand
  simp only [h.density, mechanicalStrain_of_alike h, resultantStress_of_alike h]

/-- **Elasticity over laws that answer alike** has the same answer to a question. -/
theorem ask_of_alike {σ β : Type} (question : ElementModel.Question ℝ σ β)
    (hplace : ∀ n, question.sensLength? = some n → place n) :
    question.ask (⟨law, load⟩ : Elasticity C ℝ) = question.ask (⟨law', load⟩ : Elasticity C ℝ) := by
  have hstrain := mechanicalStrain_of_alike h load
  have hstress := resultantStress_of_alike h load
  cases question with
  | dims => rfl
  | elementType => rfl
  | checkPoint p => rfl
  | checkCoefficients n m => rfl
  | checkAdjoint psi psix => rfl
  | designVarNums elem n => exact h.designVarNums elem n
  | designVars elem n => exact h.designVars elem n
  | designVarRange elem n m => exact h.designVarRange elem n m
  | weakIntegrand p n m => exact congrFun (weakIntegrand_of_alike h load n m) p
  | weakJacobian p n m k =>
    show weakJacobian _ p = weakJacobian _ p
    unfold weakJacobian
    simp only [weakIntegrand_of_alike h load, h.density, tangent_of_alike h load]
  | addWeakAdjoint p psi psix scale n =>
    have hn := hplace n rfl
    show addWeakAdjoint _ p psi psix scale = addWeakAdjoint _ p psi psix scale
    unfold addWeakAdjoint
    simp only [hstrain, h.addDensitySens _ _ n hn, h.addStressSens _ _ _ _ n hn]
  | quantity tag p xd n =>
    show quantity _ tag p = quantity _ tag p
    unfold quantity quantityValue
    simp only [hstrain, hstress, h.density, h.failure]
  | addQuantityDesignSens tag scale p xd dfdq n =>
    have hn := hplace n rfl
    show addQuantityDesignSens _ tag scale p dfdq = addQuantityDesignSens _ tag scale p dfdq
    unfold addQuantityDesignSens
    simp only [hstrain, h.addDensitySens _ _ n hn, h.addStressSens _ _ _ _ n hn,
      h.addFailureSens _ _ _ n hn]
  | quantitySens tag p xd dfdq a b c d =>
    show quantitySens _ tag p dfdq = quantitySens _ tag p dfdq
    unfold quantitySens quantityStrainGradient
    simp only [hstrain, hstress, h.failureGradient]
  | output p etype flags stride n =>
    show output _ p etype flags stride = output _ p etype flags stride
    unfold output
    simp only [hstrain, h.stress, h.failure, h.density]

end Alike

end Elasticity

namespace Conductor

variable [Waves] {C : Type} [Constitutive C ℝ] {place : ℕ → Prop} {law law' : C}

section Alike

variable (h : Constitutive.Alike place law law')

include h

theorem conduction_of_alike :
    (⟨law⟩ : Conductor C).conduction = (⟨law'⟩ : Conductor C).conduction := by
  unfold conduction
  simp only [h.tangentConduction]

theorem flux_of_alike : (⟨law⟩ : Conductor C).flux = (⟨law'⟩ : Conductor C).flux := by
  unfold flux
  rw [conduction_of_alike h]

theorem capacity_of_alike : (⟨law⟩ : Conductor C).capacity = (⟨law'⟩ : Conductor C).capacity := by
  unfold capacity
  simp only [h.density, h.specificHeat]

theorem weakIntegrand_of_alike (n m : ℕ) :
    (weakIntegrand ⟨law⟩ : Point ℝ → Evaluation ℝ (Coefficients ℝ n m) Unit)
      = weakIntegrand ⟨law'⟩ := by
  unfold weakIntegrand
  simp only [capacity_of_alike h, flux_of_alike h]

/-- **Conduction over laws that answer alike** has the same answer to a question. -/
theorem ask_of_alike {σ β : Type} (question : ElementModel.Question ℝ σ β)
    (hplace : ∀ n, question.sensLength? = some n → place n) :
    question.ask (⟨law⟩ : Conductor C) = question.ask (⟨law'⟩ : Conductor C) := by
  have hflux := flux_of_alike h
  cases question with
  | dims => rfl
  | elementType => rfl
  | checkPoint p => rfl
  | checkCoefficients n m => rfl
  | checkAdjoint psi psix => rfl
  | designVarNums elem n => exact h.designVarNums elem n
  | designVars elem n => exact h.designVars elem n
  | designVarRange elem n m => exact h.designVarRange elem n m
  | weakIntegrand p n m => exact congrFun (weakIntegrand_of_alike h n m) p
  | weakJacobian p n m k =>
    show weakJacobian _ p = weakJacobian _ p
    unfold weakJacobian
    simp only [weakIntegrand_of_alike h, capacity_of_alike h, conduction_of_alike h]
  | addWeakAdjoint p psi psix scale n =>
    have hn := hplace n rfl
    show addWeakAdjoint _ p psi psix scale = addWeakAdjoint _ p psi psix scale
    unfold addWeakAdjoint
    simp only [h.density, h.specificHeat, h.addDensitySens _ _ n hn,
      h.addSpecificHeatSens _ _ n hn, h.addHeatFluxSens _ _ _ _ n hn]
  | quantity tag p xd n =>
    show quantity _ tag p = quantity _ tag p
    unfold quantity
    simp only [hflux, h.density]
  | addQuantityDesignSens tag scale p xd dfdq n =>
    have hn := hplace n rfl
    show addQuantityDesignSens _ tag scale p dfdq = addQuantityDesignSens _ tag scale p dfdq
    unfold addQuantityDesignSens
    simp only [h.addDensitySens _ _ n hn, h.addHeatFluxSens _ _ _ _ n hn]
  | quantitySens tag p xd dfdq a b c d =>
    show quantitySens _ tag p dfdq = quantitySens _ tag p dfdq
    unfold quantitySens
    simp only [conduction_of_alike h]
  | output p etype flags stride n =>
    show output _ p etype flags stride = output _ p etype flags stride
    unfold output
    simp only [h.heatFlux, h.density]

end Alike

end Conductor

/-! ## Sensitivities without a place -/

section Lost

variable [Waves] {s : Solid ℝ} {Z : Material ℝ} (hs : ¬ s.HasPlace n)

include hs

/-- **What is added to no place**: nothing is added without a material, and the zero of a material
is refused. -/
theorem Solid.eqOrLost_addSens (amount : Material ℝ → ℝ) :
    EqOrLost True ((s.withMaterial none).addSens amount : Evaluation ℝ (Vector ℝ n) Unit)
      ((s.withMaterial (some Z)).addSens amount) :=
  eqOrLost_of_lost trivial (fun b => ⟨(), b, rfl⟩)
    fun b => ⟨_, b, addSens_withMaterial_of_not_hasPlace hs amount b⟩

theorem Solid.eqOrLost_addStressSens (site : Site ℝ) (scale : ℝ) (strain psi : Array ℝ) :
    EqOrLost True (Constitutive.addStressSens (s.withMaterial none) site scale strain psi :
        Evaluation ℝ (Vector ℝ n) Unit)
      (Constitutive.addStressSens (s.withMaterial (some Z)) site scale strain psi) :=
  eqOrLost_bind _ fun _ => eqOrLost_bind _ fun _ => eqOrLost_addSens hs _

theorem Solid.eqOrLost_addHeatFluxSens (site : Site ℝ) (scale : ℝ) (grad psi : Array ℝ) :
    EqOrLost True (Constitutive.addHeatFluxSens (s.withMaterial none) site scale grad psi :
        Evaluation ℝ (Vector ℝ n) Unit)
      (Constitutive.addHeatFluxSens (s.withMaterial (some Z)) site scale grad psi) :=
  eqOrLost_bind _ fun _ => eqOrLost_bind _ fun _ => eqOrLost_addSens hs _

/-- Inertia forces come first and are refused; without a material the stresses are not. -/
theorem Elasticity.eqOrLost_addWeakAdjoint (load : ℝ) (p : Point ℝ) (psi psix : Array ℝ)
    (scale : ℝ) :
    EqOrLost True (addWeakAdjoint (⟨s.withMaterial none, load⟩ : Elasticity (Solid ℝ) ℝ) p psi psix
        scale : Evaluation ℝ (Vector ℝ n) Unit)
      (addWeakAdjoint ⟨s.withMaterial (some Z), load⟩ p psi psix scale) := by
  unfold addWeakAdjoint
  refine eqOrLost_bind _ fun data => eqOrLost_bind _ fun adjoint => ?_
  refine eqOrLost_of_lost trivial (fun b => ?_) fun b =>
    ⟨_, b, bind_of_error (Solid.addSens_withMaterial_of_not_hasPlace hs _ b)⟩
  refine ⟨(), b, ?_⟩
  rw [mechanicalStrain_solid]
  simp only [Constitutive.addStressSens, sized_toArray, liftM_length_ok, liftM_ok, pure_bind]
  rfl

/-- The stored heat comes first and is refused; without a material the flux is not. -/
theorem Conductor.eqOrLost_addWeakAdjoint (p : Point ℝ) (psi psix : Array ℝ) (scale : ℝ) :
    EqOrLost True (addWeakAdjoint (⟨s.withMaterial none⟩ : Conductor (Solid ℝ)) p psi psix scale :
        Evaluation ℝ (Vector ℝ n) Unit)
      (addWeakAdjoint ⟨s.withMaterial (some Z)⟩ p psi psix scale) := by
  unfold addWeakAdjoint
  refine eqOrLost_bind _ fun data => ?_
  -- the gradients are handed on as they are given, so that they have a length is read off the test
  obtain ⟨fault, hfault⟩ | ⟨adjoint, rfl, rfl⟩ := dims.checkAdjoint_cases psi psix
  · rw [hfault]
    exact eqOrLost_of_eq rfl
  · simp only [AdjointData.checkAdjoint_toArray, liftM_length_ok, pure_bind]
    refine eqOrLost_of_lost trivial (fun b => ⟨(), b, ?_⟩) fun b =>
      ⟨_, b, bind_of_error (Solid.addSens_withMaterial_of_not_hasPlace hs _ b)⟩
    have hpsix : sized "psi" 2 adjoint.psix.toArray = .ok adjoint.psix := sized_toArray (n := 2) _ _
    simp only [Constitutive.addHeatFluxSens, hpsix, sized_toArray, liftM_length_ok, pure_bind]
    rfl

theorem Elasticity.eqOrLost_addQuantityDesignSens (hZ : Z.IsZero) (load : ℝ) (tag : QuantityTag)
    (scale : ℝ) (p : Point ℝ) (dfdq : Array ℝ) :
    EqOrLost True (addQuantityDesignSens (⟨s.withMaterial none, load⟩ : Elasticity (Solid ℝ) ℝ) tag
        scale p dfdq : Evaluation ℝ (Vector ℝ n) Unit)
      (addQuantityDesignSens ⟨s.withMaterial (some Z), load⟩ tag scale p dfdq) := by
  unfold addQuantityDesignSens
  simp only [mechanicalStrain_of_alike (s.alike_withMaterial hZ) load]
  refine eqOrLost_bind _ fun data => ?_
  split
  · exact eqOrLost_of_eq rfl
  · exact eqOrLost_bind _ fun _ => Solid.eqOrLost_addSens hs _
  · exact eqOrLost_bind _ fun _ => eqOrLost_bind _ fun _ =>
      Solid.eqOrLost_addStressSens hs _ _ _ _
  · exact eqOrLost_of_eq rfl

theorem Conductor.eqOrLost_addQuantityDesignSens (tag : QuantityTag) (scale : ℝ) (p : Point ℝ)
    (dfdq : Array ℝ) :
    EqOrLost True (addQuantityDesignSens (⟨s.withMaterial none⟩ : Conductor (Solid ℝ)) tag scale p
        dfdq : Evaluation ℝ (Vector ℝ n) Unit)
      (addQuantityDesignSens ⟨s.withMaterial (some Z)⟩ tag scale p dfdq) := by
  unfold addQuantityDesignSens
  refine eqOrLost_bind _ fun data => ?_
  split
  · exact eqOrLost_bind _ fun _ => Solid.eqOrLost_addSens hs _
  · exact eqOrLost_of_eq rfl
  · exact eqOrLost_bind _ fun _ => Solid.eqOrLost_addHeatFluxSens hs _ _ _ _
  · exact eqOrLost_of_eq rfl

end Lost

/-! ## Runs -/

namespace Interface

variable {S : Type} {Q : Type → Type → Type}

/-- **Two exchanges, without a material and with a zero material.** Their answers are the same if
the material's is a success, and if the other one is a failure. Only a question that adds to the
sensitivities of an active thickness, in an empty buffer, is answered without a material and refused
with it. -/
structure Agrees (i : Interface S Q ℝ) (active : Bool) (without zero : Exchange Q ℝ) : Prop where
  call_eq : without.call = zero.call
  of_succeeded : zero.answer.succeeded = true → without.answer = zero.answer
  of_failed : without.answer.succeeded = false → without.answer = zero.answer
  lost : without.answer.succeeded = true → zero.answer.succeeded = false →
    active = true ∧ ∃ (σ β : Type) (question : Q σ β) (buffers : σ),
      without.call = .ask question buffers ∧ i.sensLength? question = some 0

/-- **A material that acts like none**: every run of calls goes as it goes without a material, and
leaves the same thickness and the same journal. -/
structure ActsLikeNone (i : Interface S Q ℝ) (make : Solid ℝ → S) (Z : Material ℝ) : Prop where
  transcript : ∀ (s : Solid ℝ) (journal : List (Event ℝ)) (calls : List (Call Q ℝ)),
    List.Forall₂ (i.Agrees s.designVar.isSome)
      (i.transcript ⟨make (s.withMaterial none), journal⟩ calls)
      (i.transcript ⟨make (s.withMaterial (some Z)), journal⟩ calls)
  after : ∀ (s : Solid ℝ) (journal : List (Event ℝ)) (calls : List (Call Q ℝ)),
    ∃ (t : ℝ) (journal' : List (Event ℝ)), ∀ material,
      i.after ⟨make (s.withMaterial material), journal⟩ calls
        = ⟨make ({ s with thickness := t }.withMaterial material), journal'⟩

variable [Waves] {i : Interface S Q ℝ} {make : Solid ℝ → S} {Z : Material ℝ}

omit [Waves] in
theorem Agrees.of_eq (active : Bool) (call : Call Q ℝ) (answer : Answer ℝ) :
    i.Agrees active ⟨call, answer⟩ ⟨call, answer⟩ where
  call_eq := rfl
  of_succeeded _ := rfl
  of_failed _ := rfl
  lost h h' := by
    rw [h] at h'
    cases h'

omit [Waves] in
/-- A question of which the answer is the same or lost. -/
theorem Agrees.of_eqOrLost {active : Bool} {σ β : Type} {question : Q σ β} {x y : Evaluation ℝ σ β}
    (h : EqOrLost (active = true ∧ i.sensLength? question = some 0) x y) (buffers : σ) :
    i.Agrees active ⟨.ask question buffers, ⟨x buffers⟩⟩ ⟨.ask question buffers, ⟨y buffers⟩⟩ := by
  obtain heq | ⟨⟨hactive, hlength⟩, ⟨b, s', hx⟩, e, s'', hy⟩ := h buffers
  · rw [heq]
    exact .of_eq active _ _
  · rw [hx, hy]
    exact ⟨rfl, nofun, nofun, fun _ _ => ⟨hactive, σ, β, question, buffers, rfl, hlength⟩⟩

/-- **Setting goes without a look at the material**: it stores the same thickness with any of them,
or it is refused with all of them. -/
theorem IsMadeOfSolid.set_withMaterial (h : i.IsMadeOfSolid make) (s : Solid ℝ)
    (journal : List (Event ℝ)) (elem : ℕ) (values : Array ℝ) :
    (∃ (t : ℝ) (journal' : List (Event ℝ)), ∀ material,
        i.set elem values ⟨make (s.withMaterial material), journal⟩
          = .ok () ⟨make ({ s with thickness := t }.withMaterial material), journal'⟩)
      ∨ ∃ e, ∀ material, i.set elem values ⟨make (s.withMaterial material), journal⟩
          = .error e ⟨make (s.withMaterial material), journal⟩ := by
  obtain hs | ⟨index, hs⟩ := s.designVar.eq_none_or_eq_some
  · exact Or.inl ⟨s.thickness, journal, fun material =>
      h.set_of_none (s := s.withMaterial material) hs elem values journal⟩
  · obtain ht | ⟨t, ht⟩ := values[0]?.eq_none_or_eq_some
    · obtain rfl : values = #[] := by simpa using ht
      exact Or.inr ⟨_, fun material =>
        h.set_of_empty (s := s.withMaterial material) hs elem journal⟩
    · exact Or.inl ⟨t, journal ++ s.settingEvents index t, fun material =>
        h.set_of_some (s := s.withMaterial material) hs ht elem journal⟩

/-- **A subject whose questions may be lost** for want of a place, and are answered alike
otherwise. -/
def MayLose (i : Interface S Q ℝ) (make : Solid ℝ → S) (Z : Material ℝ) : Prop :=
  ∀ (s : Solid ℝ) {σ β : Type} (question : Q σ β),
    EqOrLost (s.designVar.isSome = true ∧ i.sensLength? question = some 0)
      (i.ask question (make (s.withMaterial none)))
      (i.ask question (make (s.withMaterial (some Z))))

/-- **One call** is answered alike, and leaves the same thickness. -/
theorem IsMadeOfSolid.agrees_next (h : i.IsMadeOfSolid make) (hask : i.MayLose make Z) (s : Solid ℝ)
    (journal : List (Event ℝ)) (call : Call Q ℝ) :
    i.Agrees s.designVar.isSome ⟨call, i.answer ⟨make (s.withMaterial none), journal⟩ call⟩
        ⟨call, i.answer ⟨make (s.withMaterial (some Z)), journal⟩ call⟩
      ∧ ∃ (t : ℝ) (journal' : List (Event ℝ)), ∀ material,
        i.next ⟨make (s.withMaterial material), journal⟩ call
          = ⟨make ({ s with thickness := t }.withMaterial material), journal'⟩ := by
  cases call with
  | ask question buffers =>
    exact ⟨.of_eqOrLost (hask s question) buffers, s.thickness, journal, fun _ => rfl⟩
  | set elem values =>
    obtain ⟨t, journal', hset⟩ | ⟨e, hset⟩ := h.set_withMaterial s journal elem values
    · rw [answer_set_of_ok (hset none), answer_set_of_ok (hset (some Z))]
      exact ⟨.of_eq _ _ _, t, journal', fun material => next_set_of_ok (hset material)⟩
    · rw [answer_set_of_error (hset none), answer_set_of_error (hset (some Z))]
      exact ⟨.of_eq _ _ _, s.thickness, journal, fun material => next_set_of_error (hset material)⟩

/-- **A run** goes as its calls go. -/
theorem IsMadeOfSolid.actsLikeNone (h : i.IsMadeOfSolid make) (hask : i.MayLose make Z) :
    i.ActsLikeNone make Z where
  transcript s journal calls := by
    -- by induction on the calls that are left; the design variable is the same before each of them
    induction calls generalizing s journal with
    | nil => exact .nil
    | cons call calls ih =>
      obtain ⟨hagrees, t, journal', hnext⟩ := h.agrees_next hask s journal call
      rw [transcript_cons, transcript_cons, hnext none, hnext (some Z)]
      exact .cons hagrees (ih { s with thickness := t } journal')
  after s journal calls := by
    induction calls generalizing s journal with
    | nil => exact ⟨s.thickness, journal, fun _ => rfl⟩
    | cons call calls ih =>
      obtain ⟨-, t, journal', hnext⟩ := h.agrees_next hask s journal call
      simp only [after_cons, hnext]
      exact ih { s with thickness := t } journal'

omit [Waves] in
/-- Questions are answered alike if there is a place, and are lost at most if there is none. -/
theorem mayLose_of_hasPlace
    (halike : ∀ (s : Solid ℝ) {σ β : Type} (question : Q σ β),
      (∀ n, i.sensLength? question = some n → s.HasPlace n) →
        i.ask question (make (s.withMaterial none))
          = i.ask question (make (s.withMaterial (some Z))))
    (hlost : ∀ (s : Solid ℝ) {σ β : Type} (question : Q σ β) (n : ℕ),
      i.sensLength? question = some n → ¬ s.HasPlace n →
        EqOrLost True (i.ask question (make (s.withMaterial none)))
          (i.ask question (make (s.withMaterial (some Z))))) : i.MayLose make Z := by
  intro s σ β question
  by_cases hplace : ∀ n, i.sensLength? question = some n → s.HasPlace n
  · exact eqOrLost_of_eq (halike s question hplace)
  · push Not at hplace
    obtain ⟨n, hlength, hs⟩ := hplace
    obtain ⟨hactive, hn⟩ := Classical.not_imp.mp hs
    obtain rfl : n = 0 := Nat.lt_one_iff.mp (not_le.mp hn)
    exact (hlost s question 0 hlength hs).imp fun _ => ⟨hactive, hlength⟩

end Interface

section Solids

variable [Waves] {Z : Material ℝ}

theorem Constitutive.mayLose (hZ : Z.IsZero) :
    (Constitutive.interface (Solid ℝ)).MayLose (fun s => s) Z := by
  refine Interface.mayLose_of_hasPlace
    (fun s _ _ question => (s.alike_withMaterial hZ).ask_eq question)
    fun s _ _ question n hlength hs => ?_
  cases question with
  | addDensitySens site scale m =>
    cases hlength
    exact Solid.eqOrLost_addSens hs fun material => scale * material.density
  | addSpecificHeatSens site scale m =>
    cases hlength
    exact Solid.eqOrLost_addSens hs fun material => scale * material.specificHeat
  | addStressSens site scale strain psi m =>
    cases hlength
    exact Solid.eqOrLost_addStressSens hs site scale strain psi
  | addHeatFluxSens site scale grad psi m =>
    cases hlength
    exact Solid.eqOrLost_addHeatFluxSens hs site scale grad psi
  | addFailureSens site scale strain m => exact eqOrLost_of_eq rfl
  | _ => cases hlength

theorem Elasticity.mayLose (hZ : Z.IsZero) (load : ℝ) :
    (ElementModel.interface (Elasticity (Solid ℝ) ℝ)).MayLose (fun s => ⟨s, load⟩) Z := by
  refine Interface.mayLose_of_hasPlace
    (fun s _ _ question => ask_of_alike (s.alike_withMaterial hZ) load question)
    fun s _ _ question n hlength hs => ?_
  cases question with
  | addWeakAdjoint p psi psix scale m =>
    cases hlength
    exact eqOrLost_addWeakAdjoint hs load p psi psix scale
  | addQuantityDesignSens tag scale p xd dfdq m =>
    cases hlength
    exact eqOrLost_addQuantityDesignSens hs hZ load tag scale p dfdq
  | _ => cases hlength

theorem Conductor.mayLose (hZ : Z.IsZero) :
    (ElementModel.interface (Conductor (Solid ℝ))).MayLose (fun s => ⟨s⟩) Z := by
  refine Interface.mayLose_of_hasPlace
    (fun s _ _ question => ask_of_alike (s.alike_withMaterial hZ) question)
    fun s _ _ question n hlength hs => ?_
  cases question with
  | addWeakAdjoint p psi psix scale m =>
    cases hlength
    exact eqOrLost_addWeakAdjoint hs p psi psix scale
  | addQuantityDesignSens tag scale p xd dfdq m =>
    cases hlength
    exact eqOrLost_addQuantityDesignSens hs tag scale p dfdq
  | _ => cases hlength

/-- **A zero material acts like none**, in a solid and in elasticity and conduction over it: in
every run of calls a call that succeeds with the material has the same answer without it, one that
fails without it has the same answer with it, and only what is added to the sensitivities of an
active thickness, in an empty buffer, is refused with it alone. -/
theorem actsLikeNone_solid (hZ : Z.IsZero) :
    (Constitutive.interface (Solid ℝ)).ActsLikeNone (fun s => s) Z
      ∧ (∀ load, (ElementModel.interface (Elasticity (Solid ℝ) ℝ)).ActsLikeNone
          (fun s => ⟨s, load⟩) Z)
      ∧ (ElementModel.interface (Conductor (Solid ℝ))).ActsLikeNone (fun s => ⟨s⟩) Z :=
  ⟨Constitutive.isMadeOfSolid.actsLikeNone (Constitutive.mayLose hZ),
    fun load => (Elasticity.isMadeOfSolid load).actsLikeNone (Elasticity.mayLose hZ load),
    Conductor.isMadeOfSolid.actsLikeNone (Conductor.mayLose hZ)⟩

end Solids

theorem Stiffness.minEigenvalue_zero : (Stiffness.zero : Stiffness ℝ).minEigenvalue = 0 := by
  have hentry : ∀ i j, (Stiffness.zero : Stiffness ℝ).get i j = 0 := fun i j => by
    simp [get, zero]
  have hdiagonal : (Stiffness.zero : Stiffness ℝ).isDiagonal = true := by
    simp [isDiagonal, hentry]
  rw [minEigenvalue_of_isDiagonal hdiagonal]
  unfold leastDiagonal diagonal
  rw [← Vector.foldl_toList, Vector.toList_ofFn]
  simp [hentry, Voigt.xx, List.ofFn_succ]

/-- There is a zero material that is accepted. -/
theorem actsLikeNone_solid_anisotropic : ∃ Z : Material ℝ,
    Material.anisotropic? "void" (0 : ℝ) .zero 1 = .ok Z ∧ Z.IsZero
      ∧ (Constitutive.interface (Solid ℝ)).ActsLikeNone (fun s => s) Z
      ∧ (∀ load, (ElementModel.interface (Elasticity (Solid ℝ) ℝ)).ActsLikeNone
          (fun s => ⟨s, load⟩) Z)
      ∧ (ElementModel.interface (Conductor (Solid ℝ))).ActsLikeNone (fun s => ⟨s⟩) Z := by
  obtain ⟨Z, hplain⟩ := Material.exists_anisotropic? "void" (le_refl (0 : ℝ)) (zero_lt_one' ℝ)
    Stiffness.minEigenvalue_zero.ge
  have hZ := Material.isZero_of_anisotropic? hplain
  exact ⟨Z, hplain, hZ, actsLikeNone_solid hZ⟩

end WeakForm
