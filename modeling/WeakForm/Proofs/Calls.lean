import WeakForm.Element.Conduction
import WeakForm.Element.Elasticity
import WeakForm.Proofs.Restoration

/-!
# Runs of calls

A constitutive law and an element model are used by calling their methods, in any order and with
any arguments, and a call that has failed is followed by other calls. The methods come in two kinds.
One of them sets design variables, and it is the only one that is given the subject to change; all
others are *questions*, which fill the buffers of their caller and leave the subject alone. A kind
of subject is known by its `Interface`, and a run of calls on it by its `transcript`, the calls
together with their answers.

**What a run does to a subject that is made of a solid is done to the solid**
(`Interface.IsMadeOfSolid`), and there it comes down to one equation for each way in which setting
the thickness may go.
-/

namespace WeakForm

variable {S α : Type} {Q : Type → Type → Type}

/-! ## Calls and answers -/

/-- **What can be done with a subject**: its design variables are set, and questions are put to it.
A question in `Q σ β` fills buffers `σ` and has a result in `β`. -/
structure Interface (S : Type) (Q : Type → Type → Type) (α : Type) where
  set : ℕ → Array α → Work (ModelError α) S α Unit
  ask {σ β : Type} : Q σ β → S → Evaluation α σ β
  /-- The question for the number of design variables and their global numbers. -/
  designVarNums (elem n : ℕ) : Q (Option (Vector ℕ n)) ℕ
  /-- The question for the design variables. -/
  designVars (elem n : ℕ) : Q (Vector α n) Unit
  /-- The question for the bounds of the design variables. -/
  designVarRange (elem n m : ℕ) : Q (Vector α n × Vector α m) Unit
  /-- The length of the buffer of design sensitivities that a question adds to, if it does. -/
  sensLength? {σ β : Type} : Q σ β → Option ℕ

/-- A call: design variables are set, or a question is asked and given buffers to fill. -/
inductive Call (Q : Type → Type → Type) (α : Type) : Type 1 where
  | set (elem : ℕ) (values : Array α)
  | ask {σ β : Type} (question : Q σ β) (buffers : σ)

/-- What a call gives back: a result or an error, and its buffers as they are left. -/
structure Answer (α : Type) : Type 1 where
  {σ β : Type}
  outcome : EStateM.Result (ModelError α) σ β

namespace Answer

/-- The answer to a setting that has succeeded. It has no buffers. -/
def done : Answer α := { outcome := (.ok () () : EStateM.Result (ModelError α) Unit Unit) }

/-- The answer to a setting that has failed. -/
def refused (e : ModelError α) : Answer α :=
  { outcome := (.error e () : EStateM.Result (ModelError α) Unit Unit) }

/-- Whether a call has succeeded. -/
def succeeded (a : Answer α) : Bool :=
  match a.outcome with
  | .ok _ _ => true
  | .error _ _ => false

@[simp] theorem succeeded_done : (done : Answer α).succeeded = true := rfl

@[simp] theorem succeeded_refused (e : ModelError α) : (refused e).succeeded = false := rfl

end Answer

/-- A call and its answer. -/
structure Exchange (Q : Type → Type → Type) (α : Type) : Type 1 where
  call : Call Q α
  answer : Answer α

namespace Interface

variable (i : Interface S Q α)

/-- The answer to a call. -/
def answer (t : Tracked S α) : Call Q α → Answer α
  | .set elem values =>
    match i.set elem values t with
    | .ok _ _ => .done
    | .error e _ => .refused e
  | .ask question buffers => { outcome := i.ask question t.subject buffers }

/-- What a call leaves, whether it succeeds or fails. -/
def next (t : Tracked S α) : Call Q α → Tracked S α
  | .set elem values =>
    match i.set elem values t with
    | .ok _ t' => t'
    | .error _ t' => t'
  | .ask _ _ => t

/-- What a run of calls leaves. -/
def after (t : Tracked S α) (calls : List (Call Q α)) : Tracked S α := calls.foldl i.next t

/-- The calls of a run with their answers. -/
def transcript (t : Tracked S α) : List (Call Q α) → List (Exchange Q α)
  | [] => []
  | call :: calls => ⟨call, i.answer t call⟩ :: transcript (i.next t call) calls

section Set

variable {i} {elem : ℕ} {values : Array α} {t t' : Tracked S α}

theorem answer_set_of_ok {u : Unit} (h : i.set elem values t = .ok u t') :
    i.answer t (.set elem values) = .done := by
  simp only [answer, h]

theorem answer_set_of_error {e : ModelError α} (h : i.set elem values t = .error e t') :
    i.answer t (.set elem values) = .refused e := by
  simp only [answer, h]

theorem next_set_of_ok {u : Unit} (h : i.set elem values t = .ok u t') :
    i.next t (.set elem values) = t' := by
  simp only [next, h]

theorem next_set_of_error {e : ModelError α} (h : i.set elem values t = .error e t') :
    i.next t (.set elem values) = t' := by
  simp only [next, h]

end Set

@[simp] theorem after_nil (t : Tracked S α) : i.after t [] = t := rfl

@[simp] theorem after_cons (t : Tracked S α) (call : Call Q α) (calls : List (Call Q α)) :
    i.after t (call :: calls) = i.after (i.next t call) calls := rfl

@[simp] theorem transcript_nil (t : Tracked S α) : i.transcript t [] = [] := rfl

@[simp] theorem transcript_cons (t : Tracked S α) (call : Call Q α) (calls : List (Call Q α)) :
    i.transcript t (call :: calls)
      = ⟨call, i.answer t call⟩ :: i.transcript (i.next t call) calls := rfl

@[simp] theorem length_transcript (t : Tracked S α) (calls : List (Call Q α)) :
    (i.transcript t calls).length = calls.length := by
  induction calls generalizing t with
  | nil => rfl
  | cons call calls ih => rw [transcript_cons, List.length_cons, List.length_cons, ih]

/-- **A run goes on from what it has left.** -/
theorem transcript_append (t : Tracked S α) (before rest : List (Call Q α)) :
    i.transcript t (before ++ rest)
      = i.transcript t before ++ i.transcript (i.after t before) rest := by
  induction before generalizing t with
  | nil => rfl
  | cons call before ih => simp only [List.cons_append, transcript_cons, after_cons, ih]

end Interface

/-! ## The methods of a constitutive law -/

/-- A question to a constitutive law; `n` and `m` are the lengths of its buffers. -/
inductive Constitutive.Question (α : Type) : Type → Type → Type where
  | numStresses : Question α Unit ℕ
  | designVarNums (elem n : ℕ) : Question α (Option (Vector ℕ n)) ℕ
  | designVars (elem n : ℕ) : Question α (Vector α n) Unit
  | designVarRange (elem n m : ℕ) : Question α (Vector α n × Vector α m) Unit
  | density (site : Site α) : Question α Unit α
  | addDensitySens (site : Site α) (scale : α) (n : ℕ) : Question α (Vector α n) Unit
  | specificHeat (site : Site α) : Question α Unit α
  | addSpecificHeatSens (site : Site α) (scale : α) (n : ℕ) : Question α (Vector α n) Unit
  | stress (site : Site α) (strain : Array α) (n : ℕ) : Question α (Vector α n) Unit
  | tangentStiffness (site : Site α) (n : ℕ) : Question α (Vector α n) Unit
  | addStressSens (site : Site α) (scale : α) (strain psi : Array α) (n : ℕ) :
    Question α (Vector α n) Unit
  | thermalStrain (site : Site α) (theta : α) (n : ℕ) : Question α (Vector α n) Unit
  | heatFlux (site : Site α) (grad : Array α) (n : ℕ) : Question α (Vector α n) Unit
  | tangentConduction (site : Site α) (n : ℕ) : Question α (Vector α n) Unit
  | addHeatFluxSens (site : Site α) (scale : α) (grad psi : Array α) (n : ℕ) :
    Question α (Vector α n) Unit
  | failure (site : Site α) (strain : Array α) : Question α Unit α
  | failureGradient (site : Site α) (strain : Array α) (n : ℕ) : Question α (Vector α n) α
  | addFailureSens (site : Site α) (scale : α) (strain : Array α) (n : ℕ) :
    Question α (Vector α n) Unit

/-- The answer of a constitutive law to a question. -/
def Constitutive.Question.ask {C : Type} [Constitutive C α] (law : C) :
    {σ β : Type} → Question α σ β → Evaluation α σ β
  | _, _, .numStresses => return Constitutive.numStresses law
  | _, _, .designVarNums elem _ => Constitutive.designVarNums law elem
  | _, _, .designVars elem _ => Constitutive.designVars law elem
  | _, _, .designVarRange elem _ _ => Constitutive.designVarRange law elem
  | _, _, .density site => return Constitutive.density law site
  | _, _, .addDensitySens site scale _ => Constitutive.addDensitySens law site scale
  | _, _, .specificHeat site => return Constitutive.specificHeat law site
  | _, _, .addSpecificHeatSens site scale _ => Constitutive.addSpecificHeatSens law site scale
  | _, _, .stress site strain _ => Constitutive.stress law site strain
  | _, _, .tangentStiffness site _ => Constitutive.tangentStiffness law site
  | _, _, .addStressSens site scale strain psi _ =>
    Constitutive.addStressSens law site scale strain psi
  | _, _, .thermalStrain site theta _ => Constitutive.thermalStrain law site theta
  | _, _, .heatFlux site grad _ => Constitutive.heatFlux law site grad
  | _, _, .tangentConduction site _ => Constitutive.tangentConduction law site
  | _, _, .addHeatFluxSens site scale grad psi _ =>
    Constitutive.addHeatFluxSens law site scale grad psi
  | _, _, .failure site strain => liftM (Constitutive.failure law site strain)
  | _, _, .failureGradient site strain _ => Constitutive.failureGradient law site strain
  | _, _, .addFailureSens site scale strain _ => Constitutive.addFailureSens law site scale strain

/-- The length of the sensitivities that a question to a constitutive law adds to. -/
def Constitutive.Question.sensLength? : {σ β : Type} → Question α σ β → Option ℕ
  | _, _, .addDensitySens _ _ n => some n
  | _, _, .addSpecificHeatSens _ _ n => some n
  | _, _, .addStressSens _ _ _ _ n => some n
  | _, _, .addHeatFluxSens _ _ _ _ n => some n
  | _, _, .addFailureSens _ _ _ n => some n
  | _, _, _ => none

/-- **The methods of a constitutive law.** -/
def Constitutive.interface (C : Type) [Constitutive C α] :
    Interface C (Constitutive.Question α) α where
  set := Constitutive.setDesignVars
  ask question law := question.ask law
  designVarNums := .designVarNums
  designVars := .designVars
  designVarRange := .designVarRange
  sensLength? := Question.sensLength?

/-! ## The methods of an element model -/

/-- A question to an element model; `n`, `m` and `k` are the lengths of its buffers. -/
inductive ElementModel.Question (α : Type) : Type → Type → Type where
  | dims : Question α Unit Dims
  | elementType : Question α Unit ElementType
  | checkPoint (p : Point α) : Question α Unit Unit
  | checkCoefficients (n m : ℕ) : Question α Unit Unit
  | checkAdjoint (psi psix : Array α) : Question α Unit Unit
  | designVarNums (elem n : ℕ) : Question α (Option (Vector ℕ n)) ℕ
  | designVars (elem n : ℕ) : Question α (Vector α n) Unit
  | designVarRange (elem n m : ℕ) : Question α (Vector α n × Vector α m) Unit
  | weakIntegrand (p : Point α) (n m : ℕ) : Question α (Coefficients α n m) Unit
  | weakJacobian (p : Point α) (n m k : ℕ) : Question α (Linearization α n m k) JacobianPattern
  | addWeakAdjoint (p : Point α) (psi psix : Array α) (scale : α) (n : ℕ) :
    Question α (Vector α n) Unit
  | quantity (tag : QuantityTag) (p : Point α) (xd : Array α) (n : ℕ) : Question α (Vector α n) ℕ
  | addQuantityDesignSens (tag : QuantityTag) (scale : α) (p : Point α) (xd dfdq : Array α)
    (n : ℕ) : Question α (Vector α n) Unit
  | quantitySens (tag : QuantityTag) (p : Point α) (xd dfdq : Array α) (a b c d : ℕ) :
    Question α (QuantitySens α a b c d) Unit
  | output (p : Point α) (etype : ElementType) (flags : OutputFlags) (stride n : ℕ) :
    Question α (Vector α n) ℕ

/-- The answer of an element model to a question. -/
def ElementModel.Question.ask {M : Type} [ElementModel M α] (model : M) :
    {σ β : Type} → Question α σ β → Evaluation α σ β
  | _, _, .dims => return ElementModel.dims model
  | _, _, .elementType => return ElementModel.elementType model
  | _, _, .checkPoint p => do let _ ← (ElementModel.dims model).checkPoint p
  | _, _, .checkCoefficients n m => do let _ ← (ElementModel.dims model).checkCoefficients n m
  | _, _, .checkAdjoint psi psix => do let _ ← (ElementModel.dims model).checkAdjoint psi psix
  | _, _, .designVarNums elem _ => ElementModel.designVarNums model elem
  | _, _, .designVars elem _ => ElementModel.designVars model elem
  | _, _, .designVarRange elem _ _ => ElementModel.designVarRange model elem
  | _, _, .weakIntegrand p _ _ => ElementModel.weakIntegrand model p
  | _, _, .weakJacobian p _ _ _ => ElementModel.weakJacobian model p
  | _, _, .addWeakAdjoint p psi psix scale _ => ElementModel.addWeakAdjoint model p psi psix scale
  | _, _, .quantity tag p xd _ => ElementModel.quantity model tag p xd
  | _, _, .addQuantityDesignSens tag scale p xd dfdq _ =>
    ElementModel.addQuantityDesignSens model tag scale p xd dfdq
  | _, _, .quantitySens tag p xd dfdq _ _ _ _ => ElementModel.quantitySens model tag p xd dfdq
  | _, _, .output p etype flags stride _ => ElementModel.output model p etype flags stride

/-- The length of the sensitivities that a question to an element model adds to. -/
def ElementModel.Question.sensLength? : {σ β : Type} → Question α σ β → Option ℕ
  | _, _, .addWeakAdjoint _ _ _ _ n => some n
  | _, _, .addQuantityDesignSens _ _ _ _ _ n => some n
  | _, _, _ => none

/-- **The methods of an element model.** -/
def ElementModel.interface (M : Type) [ElementModel M α] :
    Interface M (ElementModel.Question α) α where
  set := ElementModel.setDesignVars
  ask question model := question.ask model
  designVarNums := .designVarNums
  designVars := .designVars
  designVarRange := .designVarRange
  sensLength? := Question.sensLength?

end WeakForm
