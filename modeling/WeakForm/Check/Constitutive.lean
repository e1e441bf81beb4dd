import WeakForm.Check.Difference
import WeakForm.Constitutive.Basic
import WeakForm.Stiffness

/-!
# Checks of constitutive laws

The derivatives that a law reports are compared with difference quotients of its response. A
tangent is compared with the response **times a factor**, which is the scaling that the law applies
to its tangent and not to its response, such as the thickness of a solid. Reciprocity needs no
quotient: it compares the work of two strains on the stresses of each other.
-/

namespace WeakForm

variable {α C : Type} [Scalar α] [Constitutive C α]

open Constitutive

/-- Compares the gradient of the failure index with its quotients along each strain. -/
def checkFailureGradient (law : C) (site : Site α) (strain : Array α) (config : CheckConfig α) :
    Except (ModelError α) (CheckResult α) := do
  let n := numStresses law
  let _ ← lengthIs "strain" strain.size n
  let buffer : Vector α n := Vector.replicate n 0
  let (_, analytic) ← Evaluation.answer buffer (failureGradient law site strain)
  let differences ← differencesAlong config.stepSize strain (failure law site)
  return .compare "failure strain sensitivity" analytic.toList differences config

/-- The tangent stiffness of a law at a site. -/
def Constitutive.tangent (law : C) (site : Site α) : Except (ModelError α) (Stiffness α) := do
  return ⟨← Evaluation.fill (Vector.replicate 21 0) (tangentStiffness law site)⟩

/-- The work of the tangent stress of a strain on another strain, summed row by row. -/
def tangentWork (strain psi : Array α) (law : C) (site : Site α) : Except (ModelError α) α := do
  let strain ← sized "strain" 6 strain
  let psi ← sized "psi" 6 psi
  let tangent ← Constitutive.tangent law site
  return Scalar.sum <| (List.finRange 6).flatMap fun i : Fin 6 =>
    (List.finRange 6).map fun j : Fin 6 => psi[i] * tangent.get i j * strain[j]

/-- Compares the design derivative of the stress with the quotients of its work along each design
variable. -/
def checkStressDesignSens (site : Site α) (strain psi : Array α) (config : CheckConfig α) :
    Work (ModelError α) C α (CheckResult α) := do
  let _ ← lengthIs "psi" psi.size 6
  let law ← Work.subject
  let nums : Option (Vector Nat 0) := none
  let (n, _) ← Evaluation.answer nums (designVarNums law site.elem)
  let base ← Evaluation.fill (Vector.replicate n 0) (designVars law site.elem)
  let analytic ← Evaluation.fill (Vector.replicate n 0) (addStressSens law site 1 strain psi)
  let differences ← Work.designDifferences (setDesignVars site.elem) base.toArray config.stepSize
    fun law : C => tangentWork strain psi law site
  Work.reported (.compare "stress design sensitivity" analytic.toList differences config)

/-- Compares the tangent stiffness with the quotients of the stress times a factor. -/
def checkTangentStiffness (law : C) (site : Site α) (strain : Array α) (factor : α)
    (config : CheckConfig α) : Except (ModelError α) (CheckResult α) := do
  let _ ← lengthIs "strain" strain.size 6
  let tangent ← Constitutive.tangent law site
  let analytic := (List.finRange 6).flatMap fun i : Fin 6 =>
    (List.finRange 6).map fun j : Fin 6 => tangent.get i j
  let quotient plus minus := factor * (plus - minus) / (((2 : Nat) : α) * config.stepSize)
  let columns ← columnsAlong quotient config.stepSize strain fun strain => do
    return (← Evaluation.fill (Vector.replicate 6 0) (stress law site strain)).toList
  return .compare "tangent stiffness" analytic (rowMajor 6 columns) config

/-- Compares the tangent conduction with the quotients of the heat flux times a factor. -/
def checkTangentConduction (law : C) (site : Site α) (grad : Array α) (factor : α)
    (config : CheckConfig α) : Except (ModelError α) (CheckResult α) := do
  let _ ← lengthIs "gradient" grad.size 2
  let packed ← Evaluation.fill (Vector.replicate 3 0) (tangentConduction law site)
  let tensor := Conduction.ofVector packed
  let analytic := [tensor.k11, tensor.k12, tensor.k12, tensor.k22]
  let quotient plus minus := factor * (plus - minus) / (((2 : Nat) : α) * config.stepSize)
  let columns ← columnsAlong quotient config.stepSize grad fun grad => do
    return (← Evaluation.fill (Vector.replicate 2 0) (heatFlux law site grad)).toList
  return .compare "heat flux tangent" analytic (rowMajor 2 columns) config

/-- **Reciprocity**: compares the work of a first strain on the stress of a second one with the
work of the second strain on the stress of the first one. -/
def checkReciprocity (law : C) (site : Site α) (first second : Array α) (config : CheckConfig α) :
    Except (ModelError α) (CheckResult α) := do
  let n := numStresses law
  let ofFirst : Vector α n ← Evaluation.fill (Vector.replicate n 0) (stress law site first)
  let ofSecond : Vector α n ← Evaluation.fill (Vector.replicate n 0) (stress law site second)
  return .compare "stiffness symmetry" [Scalar.dot first.toList ofSecond.toList]
    [Scalar.dot second.toList ofFirst.toList] config

end WeakForm
