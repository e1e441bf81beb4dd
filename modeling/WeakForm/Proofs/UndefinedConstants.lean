import WeakForm.Proofs.AdmittedMaterials
import WeakForm.Proofs.CaseStages
import WeakForm.Proofs.UndefinedNumbers

/-!
# Materials with undefined constants

Every test of a constructor is written as the refusal of a bad value, and no comparison with an
undefined number holds. So **an undefined number is never a reason to refuse a material**: what is
accepted is still accepted with any of its numbers undefined
(`MaterialEntry.TreatsUndefined.isAccepted`). A defined number may be lost as well, where the
constants of an orthotropic material overflow on the way to its stiffness
(`MaterialEntry.not_forall_isDefined`).

What gets through does not stay hidden. Density and yield stress are stored as they are, and what is
undefined among the elastic constants is undefined in the stiffness that is computed from them,
hence in its least eigenvalue. **If these three are defined, so is everything else**
(`MaterialEntry.TreatsUndefined.isDefined`), and a test of these three would be enough.
-/

namespace WeakForm

open Scalar

variable {α : Type} [Scalar α]

namespace ElasticConstants

/-- The constants in their order. -/
def toList : ElasticConstants α → List α
  | .isotropic young poisson => [young, poisson]
  | .orthotropic p => [p.e1, p.e2, p.e3, p.nu12, p.nu13, p.nu23, p.g23, p.g13, p.g12]
  | .anisotropic K => K.packed.toList

/-- **Constants make a stiffness** of their class if they pass the tests of that class. -/
inductive Makes : ElasticConstants α → Symmetry → Stiffness α → Prop
  | isotropic {young poisson : α} : ¬ young ≤ 0 → ¬ poisson ≤ -1 → ¬ 0.5 ≤ poisson →
    Makes (.isotropic young poisson) .isotropic (Material.isotropicStiffness young poisson)
  | orthotropic {p : EngineeringConstants α} {normal : Matrix3 α} :
    p.hasNonPositiveModulus = false → p.compliance.inverse? = some normal →
    Makes (.orthotropic p) .orthotropic (p.stiffness normal)
  | anisotropic {K : Stiffness α} : Makes (.anisotropic K) .anisotropic K

end ElasticConstants

namespace Material

variable [Spectral α] {name : String} {density yieldStress : α}

/-! ## Refusals -/

/-- Whatever the tests of all materials refuse, they refuse as a material. -/
theorem exists_fault_of_ofStiffness? {symmetry : Symmetry} {K : Stiffness α} {e : ModelError α}
    (h : ofStiffness? name symmetry density yieldStress K = .error e) :
    ∃ fault, e = .invalidMaterial name fault := by
  unfold ofStiffness? at h
  split at h
  · exact ⟨_, (Except.error.inj h).symm⟩
  · split at h
    · exact ⟨_, (Except.error.inj h).symm⟩
    · split at h
      · exact ⟨_, (Except.error.inj h).symm⟩
      · cases h

theorem exists_fault_of_isotropic? {young poisson : α} {e : ModelError α}
    (h : isotropic? name density young poisson yieldStress = .error e) :
    ∃ fault, e = .invalidMaterial name fault := by
  unfold isotropic? at h
  split at h
  · exact ⟨_, (Except.error.inj h).symm⟩
  · split at h
    · exact ⟨_, (Except.error.inj h).symm⟩
    · exact exists_fault_of_ofStiffness? h

theorem exists_fault_of_orthotropic? {constants : EngineeringConstants α} {e : ModelError α}
    (h : orthotropic? name density constants yieldStress = .error e) :
    ∃ fault, e = .invalidMaterial name fault := by
  unfold orthotropic? at h
  split at h
  · exact ⟨_, (Except.error.inj h).symm⟩
  · split at h
    · exact ⟨_, (Except.error.inj h).symm⟩
    · exact exists_fault_of_ofStiffness? h

end Material

namespace MaterialEntry

variable [Spectral α]

omit [Spectral α] in
/-- The numbers that a constructor is given. -/
def arguments (m : MaterialEntry α) : List α := m.density :: m.yieldStress :: m.constants.toList

/-- **All constructors go the same way**: the constants make a stiffness, and the stiffness meets
the tests of all materials. -/
theorem construct?_eq_ok_iff {m : MaterialEntry α} {material : Material α} :
    m.construct? = .ok material
      ↔ ∃ symmetry K, m.constants.Makes symmetry K
        ∧ Material.ofStiffness? m.name symmetry m.density m.yieldStress K = .ok material := by
  unfold construct?
  cases m.constants with
  | isotropic young poisson =>
    refine Material.isotropic?_eq_ok.trans ?_
    constructor
    · rintro ⟨hyoung, ⟨hlow, hhigh⟩, h⟩
      exact ⟨_, _, .isotropic hyoung hlow hhigh, h⟩
    · rintro ⟨_, _, ⟨hyoung, hlow, hhigh⟩, h⟩
      exact ⟨hyoung, ⟨hlow, hhigh⟩, h⟩
  | orthotropic p =>
    refine Material.orthotropic?_eq_ok_iff.trans ?_
    constructor
    · rintro ⟨hmoduli, normal, hnormal, h⟩
      exact ⟨_, _, .orthotropic hmoduli hnormal, h⟩
    · rintro ⟨_, _, ⟨⟩ | ⟨hmoduli, hnormal⟩, h⟩
      exact ⟨hmoduli, _, hnormal, h⟩
  | anisotropic K =>
    constructor
    · intro h
      exact ⟨_, K, .anisotropic, h⟩
    · rintro ⟨_, _, ⟨⟩, h⟩
      exact h

theorem exists_fault_of_construct? {m : MaterialEntry α} {e : ModelError α}
    (h : m.construct? = .error e) : ∃ fault, e = .invalidMaterial m.name fault := by
  unfold construct? at h
  split at h
  · exact Material.exists_fault_of_isotropic? h
  · exact Material.exists_fault_of_orthotropic? h
  · exact Material.exists_fault_of_ofStiffness? h

end MaterialEntry

/-! ## From the material back to its constants -/

section Spreading

variable [IsContagious α]

/-- A determinant is computed from the entries on the diagonal and above it, and from the last one
below. -/
theorem Matrix3.isDefined_of_det {m : Matrix3 α} (h : IsDefined m.det) :
    (IsDefined m.m11 ∧ IsDefined m.m12 ∧ IsDefined m.m13)
      ∧ IsDefined m.m22 ∧ IsDefined m.m33 ∧ IsDefined m.m32 := by
  obtain ⟨hdiff, hlast⟩ := h.of_add
  obtain ⟨hfirst, hsecond⟩ := hdiff.of_sub
  obtain ⟨h11, hminor⟩ := hfirst.of_mul
  obtain ⟨hleft, hright⟩ := hminor.of_sub
  exact ⟨⟨h11, hsecond.of_mul.1, hlast.of_mul.1⟩, hleft.of_mul.1, hleft.of_mul.2,
    hright.of_mul.1⟩

namespace EngineeringConstants

variable {p : EngineeringConstants α}

/-- **Every modulus and every ratio enters the determinant** of the compliance. -/
theorem isDefined_of_det (h : IsDefined p.compliance.det) :
    ∀ x ∈ [p.e1, p.e2, p.e3, p.nu12, p.nu13, p.nu23], IsDefined x := by
  obtain ⟨⟨h11, h12, h13⟩, h22, h33, h32⟩ := Matrix3.isDefined_of_det h
  have he1 : IsDefined p.e1 := h11.of_div.2
  have he2 : IsDefined p.e2 := h22.of_div.2
  have he3 : IsDefined p.e3 := h33.of_div.2
  have hnu12 : IsDefined p.nu12 := h12.of_div.1.of_neg
  have hnu13 : IsDefined p.nu13 := h13.of_div.1.of_neg
  have hnu23 : IsDefined p.nu23 := h32.of_div.1.of_neg
  simp only [List.forall_mem_cons]
  exact ⟨he1, he2, he3, hnu12, hnu13, hnu23, List.forall_mem_nil _⟩

/-- Every entry of the inverse is divided by the determinant. -/
theorem isDefined_of_inverse? {normal : Matrix3 α} (hnormal : p.compliance.inverse? = some normal)
    (h : IsDefined normal.m11) : IsDefined p.compliance.det := by
  unfold Matrix3.inverse? at hnormal
  dsimp only at hnormal
  split at hnormal
  · cases hnormal
  · cases hnormal
    exact h.of_div.2

end EngineeringConstants

namespace ElasticConstants

variable {c : ElasticConstants α} {symmetry : Symmetry} {K : Stiffness α}

/-- **A stiffness that is defined has been made of defined constants.** -/
theorem Makes.isDefined (h : c.Makes symmetry K) (hK : ∀ s, IsDefined (K.packed.get s)) :
    ∀ x ∈ c.toList, IsDefined x := by
  cases h with
  | @isotropic young poisson =>
    obtain ⟨hfactor, hcomplement⟩ := (hK 0).of_mul
    simp only [toList, List.forall_mem_cons]
    exact ⟨hfactor.of_div.1, hcomplement.of_sub.2, List.forall_mem_nil _⟩
  | @orthotropic p normal hmoduli hnormal =>
    have hdet := EngineeringConstants.isDefined_of_inverse? hnormal (hK 0)
    have hconstants := EngineeringConstants.isDefined_of_det hdet
    simp only [List.forall_mem_cons] at hconstants
    obtain ⟨he1, he2, he3, hnu12, hnu13, hnu23, -⟩ := hconstants
    simp only [toList, List.forall_mem_cons]
    exact ⟨he1, he2, he3, hnu12, hnu13, hnu23, hK 15, hK 18, hK 20, List.forall_mem_nil _⟩
  | anisotropic =>
    intro x hx
    obtain ⟨s, hs, rfl⟩ := Vector.getElem_of_mem (Vector.mem_toList_iff.mp hx)
    exact hK ⟨s, hs⟩

end ElasticConstants

/-! ## Blurred constants -/

/-- Engineering constants of which some may have been replaced by undefined numbers. -/
structure EngineeringConstants.Blurs (p p' : EngineeringConstants α) : Prop where
  e1 : Scalar.Blurs p.e1 p'.e1
  e2 : Scalar.Blurs p.e2 p'.e2
  e3 : Scalar.Blurs p.e3 p'.e3
  nu12 : Scalar.Blurs p.nu12 p'.nu12
  nu13 : Scalar.Blurs p.nu13 p'.nu13
  nu23 : Scalar.Blurs p.nu23 p'.nu23
  g23 : Scalar.Blurs p.g23 p'.g23
  g13 : Scalar.Blurs p.g13 p'.g13
  g12 : Scalar.Blurs p.g12 p'.g12

/-- **Constants of one class, of which some may have been replaced** by undefined numbers. -/
inductive ElasticConstants.Blurs : ElasticConstants α → ElasticConstants α → Prop
  | isotropic {young young' poisson poisson' : α} :
    Scalar.Blurs young young' → Scalar.Blurs poisson poisson' →
    Blurs (.isotropic young poisson) (.isotropic young' poisson')
  | orthotropic {p p' : EngineeringConstants α} :
    p.Blurs p' → Blurs (.orthotropic p) (.orthotropic p')
  | anisotropic {K K' : Stiffness α} :
    (∀ s, Scalar.Blurs (K.packed.get s) (K'.packed.get s)) →
    Blurs (.anisotropic K) (.anisotropic K')

namespace EngineeringConstants

variable {p p' : EngineeringConstants α}

/-- Blurring makes no modulus fail its test. -/
theorem Blurs.hasNonPositiveModulus (h : p.Blurs p') (hp : p.hasNonPositiveModulus = false) :
    p'.hasNonPositiveModulus = false := by
  simp only [EngineeringConstants.hasNonPositiveModulus, decide_eq_false_iff_not, not_or] at hp ⊢
  exact ⟨h.e1.not_le hp.1, h.e2.not_le hp.2.1, h.e3.not_le hp.2.2.1, h.g23.not_le hp.2.2.2.1,
    h.g13.not_le hp.2.2.2.2.1, h.g12.not_le hp.2.2.2.2.2⟩

/-- **Blurring makes no compliance singular**: an undefined determinant is not zero. -/
theorem Blurs.exists_inverse? (h : p.Blurs p') {normal : Matrix3 α}
    (hnormal : p.compliance.inverse? = some normal) :
    ∃ normal', p'.compliance.inverse? = some normal' := by
  by_cases hdet : IsDefined p'.compliance.det
  · -- then no constant of the compliance has been replaced
    have hconstants := isDefined_of_det hdet
    simp only [List.forall_mem_cons] at hconstants
    obtain ⟨he1, he2, he3, hnu12, hnu13, hnu23, -⟩ := hconstants
    have hcompliance : p'.compliance = p.compliance := by
      unfold compliance
      rw [h.e1.eq_of_isDefined he1, h.e2.eq_of_isDefined he2, h.e3.eq_of_isDefined he3,
        h.nu12.eq_of_isDefined hnu12, h.nu13.eq_of_isDefined hnu13,
        h.nu23.eq_of_isDefined hnu23]
    exact ⟨normal, hcompliance ▸ hnormal⟩
  · have hzero : (p'.compliance.det == 0) = false :=
      IsContagious.beq_eq_false _ _ (Or.inl (not_isDefined.mp hdet))
    unfold Matrix3.inverse?
    dsimp only
    rw [hzero]
    exact ⟨_, rfl⟩

end EngineeringConstants

namespace ElasticConstants

variable {c c' : ElasticConstants α} {symmetry symmetry' : Symmetry} {K K' : Stiffness α}

omit [IsContagious α] in
/-- Constants that are all defined have not been replaced. -/
theorem Blurs.eq_of_isDefined (h : c.Blurs c') (hc' : ∀ x ∈ c'.toList, IsDefined x) : c' = c := by
  cases h with
  | isotropic hyoung hpoisson =>
    simp only [toList, List.forall_mem_cons] at hc'
    rw [hyoung.eq_of_isDefined hc'.1, hpoisson.eq_of_isDefined hc'.2.1]
  | @orthotropic p p' h =>
    simp only [toList, List.forall_mem_cons] at hc'
    obtain ⟨he1, he2, he3, hnu12, hnu13, hnu23, hg23, hg13, hg12, -⟩ := hc'
    cases p
    cases p'
    congr
    exacts [h.e1.eq_of_isDefined he1, h.e2.eq_of_isDefined he2, h.e3.eq_of_isDefined he3,
      h.nu12.eq_of_isDefined hnu12, h.nu13.eq_of_isDefined hnu13, h.nu23.eq_of_isDefined hnu23,
      h.g23.eq_of_isDefined hg23, h.g13.eq_of_isDefined hg13, h.g12.eq_of_isDefined hg12]
  | @anisotropic K K' h =>
    have hpacked : K'.packed = K.packed :=
      Vector.ext fun i hi => (h ⟨i, hi⟩).eq_of_isDefined
        (hc' _ (Vector.mem_toList_iff.mpr (Vector.getElem_mem hi)))
    cases K
    cases K'
    exact congrArg _ (congrArg _ hpacked)

/-- **Blurred constants pass the tests of their class** as well. -/
theorem Makes.exists_blurred (h : c.Makes symmetry K) (hc : c.Blurs c') :
    ∃ K', c'.Makes symmetry K' := by
  cases h with
  | isotropic hyoung hlow hhigh =>
    cases hc with
    | isotropic hy hp => exact ⟨_, .isotropic (hy.not_le hyoung) (hp.not_le hlow) (hp.not_ge hhigh)⟩
  | orthotropic hmoduli hnormal =>
    cases hc with
    | orthotropic hp =>
      obtain ⟨normal', hnormal'⟩ := hp.exists_inverse? hnormal
      exact ⟨_, .orthotropic (hp.hasNonPositiveModulus hmoduli) hnormal'⟩
  | anisotropic =>
    cases hc with
    | anisotropic _ => exact ⟨_, .anisotropic⟩

omit [IsContagious α] in
/-- Constants make at most one stiffness. -/
theorem Makes.unique (h : c.Makes symmetry K) (h' : c.Makes symmetry' K') : K' = K := by
  cases h with
  | isotropic =>
    cases h'
    rfl
  | orthotropic _ hnormal =>
    cases h' with
    | orthotropic _ hnormal' => rw [Option.some.inj (hnormal'.symm.trans hnormal)]
  | anisotropic =>
    cases h'
    rfl

end ElasticConstants

end Spreading

/-! ## Verdicts -/

namespace MaterialEntry

/-- A description of which some numbers may have been replaced by undefined ones. -/
structure Blurs (m m' : MaterialEntry α) : Prop where
  density : Scalar.Blurs m.density m'.density
  yieldStress : Scalar.Blurs m.yieldStress m'.yieldStress
  constants : m.constants.Blurs m'.constants

/-- **How a constructor treats undefined numbers.** -/
structure TreatsUndefined [Spectral α] (m : MaterialEntry α) : Prop where
  /-- Every refusal is one of the material. -/
  exists_fault : ∀ e, m.construct? = .error e → ∃ fault, e = .invalidMaterial m.name fault
  /-- Three numbers of the material tell whether any number is undefined. -/
  isDefined : ∀ material, m.construct? = .ok material →
    IsDefined material.density → IsDefined material.yieldStress →
    IsDefined material.stiffness.minEigenvalue →
    (∀ x ∈ m.arguments, IsDefined x) ∧ ∀ s, IsDefined (material.stiffness.packed.get s)
  /-- Nothing is refused for being undefined. -/
  isAccepted : ∀ material, m.construct? = .ok material → ∀ m', m.Blurs m' →
    ∃ material', m'.construct? = .ok material'

variable [Spectral α] [IsContagious α] [Spectral.IsContagious α] {m m' : MaterialEntry α}
  {material : Material α}

/-- What is undefined in a description is undefined in the material. -/
theorem isDefined_of_construct? (h : m.construct? = .ok material)
    (hdensity : IsDefined material.density) (hyield : IsDefined material.yieldStress)
    (heigenvalue : IsDefined material.stiffness.minEigenvalue) :
    (∀ x ∈ m.arguments, IsDefined x) ∧ ∀ s, IsDefined (material.stiffness.packed.get s) := by
  obtain ⟨symmetry, K, hmakes, hK⟩ := construct?_eq_ok_iff.mp h
  obtain ⟨-, -, -, rfl⟩ := Material.ofStiffness?_eq_ok.mp hK
  have hentries := Stiffness.isDefined_of_minEigenvalue heigenvalue
  refine ⟨?_, hentries⟩
  simp only [arguments, List.forall_mem_cons]
  exact ⟨hdensity, hyield, hmakes.isDefined hentries⟩

/-- **A description that is accepted is accepted with any of its numbers undefined.** -/
theorem exists_construct?_of_blurs (h : m.construct? = .ok material) (hm : m.Blurs m') :
    ∃ material', m'.construct? = .ok material' := by
  obtain ⟨symmetry, K, hmakes, hK⟩ := construct?_eq_ok_iff.mp h
  obtain ⟨hdensity, hyield, heigenvalue, -⟩ := Material.ofStiffness?_eq_ok.mp hK
  obtain ⟨K', hmakes'⟩ := hmakes.exists_blurred hm.constants
  refine ⟨_, construct?_eq_ok_iff.mpr ⟨symmetry, K', hmakes', Material.ofStiffness?_eq_ok.mpr
    ⟨hm.density.not_lt hdensity, hm.yieldStress.not_le hyield, ?_, rfl⟩⟩⟩
  by_cases hdefined : IsDefined K'.minEigenvalue
  · -- then no constant has been replaced, and the stiffness is the same
    have hconstants : m'.constants = m.constants := hm.constants.eq_of_isDefined
      (hmakes'.isDefined (Stiffness.isDefined_of_minEigenvalue hdefined))
    rw [hconstants] at hmakes'
    rwa [hmakes.unique hmakes']
  · exact IsContagious.not_lt _ _ (Or.inl (not_isDefined.mp hdefined))

/-- **Constructors refuse no undefined number, and hide none.** -/
theorem treatsUndefined (m : MaterialEntry α) : m.TreatsUndefined where
  exists_fault _ h := exists_fault_of_construct? h
  isDefined _ h hdensity hyield heigenvalue :=
    isDefined_of_construct? h hdensity hyield heigenvalue
  isAccepted _ h _ hm := exists_construct?_of_blurs h hm

/-- A description without thermal properties. -/
def cold (density yieldStress : α) (constants : ElasticConstants α) : MaterialEntry α where
  name := "cold"
  density
  yieldStress
  constants
  specificHeat := 0
  thermalExpansion := none
  thermalStrain := none
  conductivity := none
  conduction := none

/-- A material of which all numbers are one, but for a ratio of zero, is accepted. -/
theorem exists_construct?_cold :
    ∃ material, (cold 1 1 (.isotropic (1 : Float) 0)).construct? = .ok material := by
  refine ⟨_, construct?_eq_ok_iff.mpr ⟨_, _, .isotropic ?_ ?_ ?_,
    Material.ofStiffness?_eq_ok.mpr ⟨?_, ?_, ?_, rfl⟩⟩⟩
  all_goals decide +kernel

/-- It is accepted with all numbers undefined, too. -/
theorem treatsUndefined_sample :
    (cold 1 1 (.isotropic (1 : Float) 0)).TreatsUndefined
      ∧ ∃ material, (cold (0 / 0) (0 / 0) (.isotropic ((0 : Float) / 0) (0 / 0))).construct?
        = .ok material := by
  have htreats := treatsUndefined (cold 1 1 (.isotropic (1 : Float) 0))
  obtain ⟨material, hmaterial⟩ := exists_construct?_cold
  have hundefined : Scalar.isUndefined ((0 : Float) / 0) = true := by decide +kernel
  exact ⟨htreats, htreats.isAccepted material hmaterial _
    ⟨Or.inr hundefined, Or.inr hundefined, .isotropic (Or.inr hundefined) (Or.inr hundefined)⟩⟩

/-- Constants of an orthotropic material that are so small that their compliance overflows. -/
def small : EngineeringConstants Float where
  e1 := 1e-200
  e2 := 1e-200
  e3 := 1e-200
  nu12 := 0.25
  nu13 := 0.25
  nu23 := 0.25
  g23 := 1
  g13 := 1
  g12 := 1

/-- **A material is accepted whose stiffness is undefined**, though all its constants are finite. -/
theorem exists_construct?_small :
    ∃ material, (cold 1 1 (.orthotropic small)).construct? = .ok material
      ∧ ¬ IsDefined (material.stiffness.packed.get 0) := by
  have hmoduli : small.hasNonPositiveModulus = false := by decide +kernel
  have hzero : (small.compliance.det == 0) = false := by decide +kernel
  have hdet : ¬ IsDefined small.compliance.det := not_isDefined.mpr (by decide +kernel)
  obtain ⟨normal, hnormal⟩ : ∃ normal, small.compliance.inverse? = some normal := by
    unfold Matrix3.inverse?
    dsimp only
    rw [hzero]
    exact ⟨_, rfl⟩
  have hentry : ¬ IsDefined ((small.stiffness normal).packed.get 0) := fun h =>
    hdet (EngineeringConstants.isDefined_of_inverse? hnormal h)
  have heigenvalue : ¬ (small.stiffness normal).minEigenvalue
      < -1e-12 * (small.stiffness normal).magnitude :=
    IsContagious.not_lt _ _ (Or.inl
      (Spectral.IsContagious.isUndefined_minEigenvalue _ 0 (not_isDefined.mp hentry)))
  refine ⟨_, construct?_eq_ok_iff.mpr ⟨_, _, .orthotropic hmoduli hnormal,
    Material.ofStiffness?_eq_ok.mpr ⟨?_, ?_, heigenvalue, rfl⟩⟩, hentry⟩
  all_goals decide +kernel

/-- **Acceptance says nothing about undefined numbers**: neither that no number was undefined, nor,
where all numbers were finite, that no entry of the stiffness is undefined. -/
theorem not_forall_isDefined :
    (¬ ∀ (m : MaterialEntry Float) (material : Material Float), m.construct? = .ok material →
        ∀ x ∈ m.arguments, IsDefined x)
      ∧ ¬ ∀ (m : MaterialEntry Float) (material : Material Float), m.construct? = .ok material →
        (∀ x ∈ m.arguments, x.isFinite = true) →
          ∀ s, IsDefined (material.stiffness.packed.get s) := by
  constructor
  · intro h
    have hundefined : Scalar.isUndefined ((0 : Float) / 0) = true := by decide +kernel
    obtain ⟨material, hmaterial⟩ := exists_construct?_cold
    have hblurs : (cold 1 1 (.isotropic (1 : Float) 0)).Blurs (cold (0 / 0) 1 (.isotropic 1 0)) :=
      ⟨Or.inr hundefined, Or.inl rfl, .isotropic (Or.inl rfl) (Or.inl rfl)⟩
    obtain ⟨material', hmaterial'⟩ := exists_construct?_of_blurs hmaterial hblurs
    exact not_isDefined.mpr hundefined (h _ _ hmaterial' _ (List.mem_cons_self ..))
  · intro h
    obtain ⟨material, hmaterial, hentry⟩ := exists_construct?_small
    exact hentry (h _ _ hmaterial (by decide +kernel) 0)

end MaterialEntry

end WeakForm
