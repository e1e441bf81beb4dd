import WeakForm.Evaluation
import WeakForm.Journal
import WeakForm.Point

/-!
# Constitutive laws

A constitutive law turns strain into stress and a temperature gradient into heat flux at a site, and
knows the derivatives of both with respect to its design variables. It is given the site with every
question, so a law may vary in space.

There are two stresses. `stress` and `heatFlux` are the response of the material; the *tangents* are
the operators that a solver works with, and may be scaled by design variables. **The design
sensitivities are those of the tangents.** A law without design variables needs to say nothing about
them: the defaults have no variables and leave every sensitivity alone.
-/

namespace WeakForm

/-- What a constitutive law `C` over numbers `α` answers. -/
class Constitutive (C : Type) (α : outParam Type) where
  /-- The number of stress components. -/
  numStresses : C → Nat
  /-- The number of design variables of an element; if a buffer is given, their global numbers are
  written into it. -/
  designVarNums {n : Nat} (law : C) (elem : Nat) :
    Evaluation α (Option (Vector Nat n)) Nat := pure 0
  /-- Sets the design variables of an element. -/
  setDesignVars (elem : Nat) (values : Array α) : Work (ModelError α) C α Unit := pure ()
  /-- Writes the design variables of an element. -/
  designVars {n : Nat} (law : C) (elem : Nat) : Evaluation α (Vector α n) Unit := pure ()
  /-- Writes the lower and upper bounds of the design variables of an element. -/
  designVarRange {n m : Nat} (law : C) (elem : Nat) :
    Evaluation α (Vector α n × Vector α m) Unit := pure ()
  /-- Mass per unit volume. -/
  density : C → Site α → α
  /-- Adds `scale · ∂density/∂x` to the sensitivities. -/
  addDensitySens {n : Nat} (law : C) (site : Site α) (scale : α) :
    Evaluation α (Vector α n) Unit := pure ()
  /-- Heat per unit mass and unit temperature. -/
  specificHeat : C → Site α → α
  /-- Adds `scale · ∂specificHeat/∂x` to the sensitivities. -/
  addSpecificHeatSens {n : Nat} (law : C) (site : Site α) (scale : α) :
    Evaluation α (Vector α n) Unit := pure ()
  /-- Writes the stress of the material. -/
  stress {n : Nat} (law : C) (site : Site α) (strain : Array α) : Evaluation α (Vector α n) Unit
  /-- Writes the packed tangent stiffness. -/
  tangentStiffness {n : Nat} (law : C) (site : Site α) : Evaluation α (Vector α n) Unit
  /-- Adds `scale · psiᵀ ∂(C strain)/∂x` to the sensitivities, `C` being the tangent stiffness. -/
  addStressSens {n : Nat} (law : C) (site : Site α) (scale : α) (strain psi : Array α) :
    Evaluation α (Vector α n) Unit := pure ()
  /-- Writes the strain of a change of temperature. -/
  thermalStrain {n : Nat} (law : C) (site : Site α) (theta : α) : Evaluation α (Vector α n) Unit
  /-- Writes the heat flux of the material. -/
  heatFlux {n : Nat} (law : C) (site : Site α) (grad : Array α) : Evaluation α (Vector α n) Unit
  /-- Writes the packed tangent conduction. -/
  tangentConduction {n : Nat} (law : C) (site : Site α) : Evaluation α (Vector α n) Unit
  /-- Adds `scale · psiᵀ ∂(K grad)/∂x` to the sensitivities, `K` being the tangent conduction. -/
  addHeatFluxSens {n : Nat} (law : C) (site : Site α) (scale : α) (grad psi : Array α) :
    Evaluation α (Vector α n) Unit := pure ()
  /-- The failure index of a strain. Zero may mean that there is no material. -/
  failure (law : C) (site : Site α) (strain : Array α) : Except (ModelError α) α
  /-- The failure index of a strain; its gradient with respect to strain is written. -/
  failureGradient {n : Nat} (law : C) (site : Site α) (strain : Array α) :
    Evaluation α (Vector α n) α
  /-- Adds `scale · ∂failure/∂x` to the sensitivities. -/
  addFailureSens {n : Nat} (law : C) (site : Site α) (scale : α) (strain : Array α) :
    Evaluation α (Vector α n) Unit := pure ()

end WeakForm
