import WeakForm.Proofs.CleanModels

/-!
# Records are made of their sections

The length of a record and its header are read off the table of columns, and its values are written
section by section by the model, which knows nothing of the table. **They agree for all flags**: a
record that fits is written in full, it is as long as its header, and it is put together from the
records of its sections, each written on its own (`ElementModel.WritesRecords`). A section that has
as many values as it has columns always has room left in a record that fits as a whole
(`RecordCursor.WritesNext`), so the writer, which drops what does not fit, drops nothing.

A record that does not fit is refused before anything is written, bits that name no section make no
difference, and nothing is written for another class of element, however bad the point is.
-/

namespace WeakForm

open Evaluation OutputFlags

variable {α : Type}

/-! ## Flags -/

namespace OutputFlags

/-- The flags without the bits that name no section. -/
def known (flags : OutputFlags) : OutputFlags :=
  ⟨flags.bits &&& (sections.foldl union none).bits⟩

theorem contains_known {part : OutputFlags} (hpart : part ∈ sections) (flags : OutputFlags) :
    flags.known.contains part = flags.contains part := by
  have hbits : (sections.foldl union none).bits &&& part.bits = part.bits := by
    revert part
    decide
  unfold contains known
  rw [UInt32.and_assoc, hbits]

/-- A section alone. -/
theorem filter_contains_section {part : OutputFlags} (hpart : part ∈ sections) :
    sections.filter part.contains = [part] := by
  revert part
  decide

end OutputFlags

theorem ElementType.recordLen_known (etype : ElementType) (flags : OutputFlags) :
    etype.recordLen flags.known = etype.recordLen flags := by
  unfold recordLen
  refine List.foldl_ext _ _ _ fun count part hpart => ?_
  rw [contains_known hpart]

/-- A section is not longer than a record with it. -/
theorem ElementType.recordLen_section_le (etype : ElementType) {flags part : OutputFlags}
    (hpart : part ∈ sections) (hflag : flags.contains part = true) :
    etype.recordLen part ≤ etype.recordLen flags := by
  rw [← length_recordHeader, ← length_recordHeader]
  unfold recordHeader
  rw [filter_contains_section hpart, List.flatMap_singleton]
  have hmem := List.mem_filter.mpr ⟨hpart, hflag⟩
  exact ((List.sublist_flatten_of_mem (List.mem_map_of_mem hmem))).length_le

/-! ## Writing the sections -/

/-- What is written stands behind what was there before. -/
theorem toList_take_overwrite {n : ℕ} (b : Vector α n) (position : ℕ) (values : Array α)
    (h : position + values.size ≤ n) :
    (overwrite b position values).toList.take (position + values.size)
      = b.toList.take position ++ values.toList := by
  refine List.ext_getElem ?_ fun i hi hi' => ?_
  · simp only [List.length_take, List.length_append, Vector.length_toList, Array.length_toList]
    omega
  · simp only [List.length_take, Vector.length_toList] at hi
    simp only [List.getElem_take, Vector.getElem_toList, overwrite, Vector.getElem_ofFn]
    have hlength : (b.toList.take position).length = position := by
      simp only [List.length_take, Vector.length_toList]
      omega
    by_cases hbehind : position ≤ i
    · have hvalue : i - position < values.size := by omega
      rw [if_pos hbehind, List.getElem_append_right (by omega)]
      simp [hlength, hvalue]
    · rw [if_neg hbehind, List.getElem_append_left (by omega)]
      simp

/-- A buffer that is as it was from some place on. -/
theorem AgreeFrom.drop_eq {n k l : ℕ} {a b : Vector α n} (h : AgreeFrom k a b) (hkl : k ≤ l) :
    b.toList.drop l = a.toList.drop l := by
  refine List.ext_getElem (by simp) fun i hi _ => ?_
  simp only [List.length_drop, Vector.length_toList] at hi
  simp only [List.getElem_drop, Vector.getElem_toList]
  exact h (l + i) (by omega) (by omega)

namespace RecordCursor

variable {n : ℕ} {flags : OutputFlags} {content : OutputFlags → List α} {parts : List OutputFlags}

/-- **The rest of a record that writes the sections among its flags**, if they are just what is left
of the record. -/
def WritesNext (flags : OutputFlags) (content : OutputFlags → List α) (parts : List OutputFlags)
    (rest : RecordCursor → Evaluation α (Vector α n) ℕ) : Prop :=
  ∀ cursor b,
    cursor.position + ((parts.filter flags.contains).flatMap content).length = cursor.limit →
    cursor.limit ≤ n →
    ∃ b', rest cursor b = .ok cursor.limit b'
      ∧ b'.toList = b.toList.take cursor.position ++ (parts.filter flags.contains).flatMap content
          ++ b.toList.drop cursor.limit

theorem writesNext_position :
    WritesNext (n := n) flags content [] fun cursor => return cursor.position := by
  intro cursor b hposition _
  have hend : cursor.position = cursor.limit := hposition
  refine ⟨b, congrArg (fun count => EStateM.Result.ok count b) hend, ?_⟩
  rw [hend, List.filter_nil, List.flatMap_nil, List.append_nil, List.take_append_drop]

/-- **A section with its content goes before the rest.** -/
theorem WritesNext.section {rest : RecordCursor → Evaluation α (Vector α n) ℕ}
    (h : WritesNext flags content parts rest) {part : OutputFlags}
    {values : Unit → Except (ModelError α) (Array α)}
    (hvalues : values () = .ok (content part).toArray) :
    WritesNext flags content (part :: parts)
      fun cursor => cursor.section? flags part values >>= rest := by
  intro cursor b hposition hlimit
  dsimp only
  by_cases hflag : flags.contains part = true
  · rw [List.filter_cons_of_pos hflag, List.flatMap_cons] at hposition ⊢
    rw [List.length_append] at hposition
    set array := (content part).toArray with harray
    have hsize : array.size = (content part).length := List.size_toArray
    have hroom : cursor.position + array.size ≤ cursor.limit := by omega
    set next : RecordCursor := { cursor with position := cursor.position + array.size } with hnext
    have hleft : next.position + ((parts.filter flags.contains).flatMap content).length
        = next.limit := by
      simp only [hnext]
      omega
    obtain ⟨b', hrest, hb'⟩ := h next _ hleft hlimit
    refine ⟨b', (bind_of_ok (section?_of_fits hflag hvalues hroom b)).trans hrest, ?_⟩
    have hbehind := (agreeFrom_overwrite b cursor.position array).drop_eq hroom
    rw [hb', toList_take_overwrite b _ _ (hroom.trans hlimit), hbehind,
      List.append_assoc _ (content part)]
  · rw [List.filter_cons_of_neg hflag] at hposition ⊢
    obtain ⟨b', hrest, hb'⟩ := h cursor b hposition hlimit
    exact ⟨b', (bind_of_ok (section?_of_not_contains hflag values cursor b)).trans hrest, hb'⟩

theorem section?_known {part : OutputFlags} (hpart : part ∈ sections) (cursor : RecordCursor)
    (flags : OutputFlags) (values : Unit → Except (ModelError α) (Array α)) :
    (cursor.section? flags.known part values : Evaluation α (Vector α n) RecordCursor)
      = cursor.section? flags part values := by
  unfold section?
  rw [contains_known hpart]

theorem start_known (etype : ElementType) (flags : OutputFlags) (stride n : ℕ) :
    start etype flags.known stride n = start etype flags stride n := by
  unfold start
  rw [ElementType.recordLen_known]

end RecordCursor

/-! ## Models -/

namespace ElementModel

variable {M : Type} [ElementModel M α]

/-- The record that a call writes: the values in front of its buffer, as many as it says. -/
def record? {n : ℕ} (model : M) (p : Point α) (etype : ElementType) (flags : OutputFlags)
    (stride : ℕ) (b : Vector α n) : Except (ModelError α) (List α) := do
  let (count, b') ← Evaluation.answer b (output model p etype flags stride)
  return b'.toList.take count

/-- **A model whose records match their headers**, at every well-formed point and for all flags,
strides and buffers, if they are asked for with its own class of element. -/
structure WritesRecords (model : M) : Prop where
  /-- A record that fits is as long as its header, and it consists of the records that are written
  for each of its sections alone. What lies behind it is left as it was. -/
  fits : ∀ (place : Point α) (data : PointData (dims model) α) (flags : OutputFlags)
    (stride n : ℕ) (b : Vector α n), (elementType model).recordLen flags ≤ min stride n →
    ∃ records b', ((sections.filter flags.contains).mapM fun part =>
          record? model (data.pointAt place) (elementType model) part stride b) = .ok records
      ∧ output model (data.pointAt place) (elementType model) flags stride b
        = .ok ((elementType model).recordLen flags) b'
      ∧ ((elementType model).recordHeader flags).length = (elementType model).recordLen flags
      ∧ records.flatten.length = (elementType model).recordLen flags
      ∧ b'.toList = records.flatten ++ b.toList.drop ((elementType model).recordLen flags)
  /-- A record that does not fit is refused. -/
  refuses : ∀ (place : Point α) (data : PointData (dims model) α) (flags : OutputFlags)
    (stride n : ℕ) (b : Vector α n), min stride n < (elementType model).recordLen flags →
    output model (data.pointAt place) (elementType model) flags stride b
      = .error (.length (.tooShort "data" ((elementType model).recordLen flags) (min stride n))) b
  /-- Bits that name no section make no difference. -/
  known : ∀ (p : Point α) (etype : ElementType) (flags : OutputFlags) (stride n : ℕ),
    (output model p etype flags.known stride : Evaluation α (Vector α n) ℕ)
      = output model p etype flags stride
  /-- Nothing is written for another class of element. -/
  foreign : ∀ (p : Point α) (etype : ElementType), etype ≠ elementType model →
    ∀ (flags : OutputFlags) (stride n : ℕ) (b : Vector α n),
      output model p etype flags stride b = .ok 0 b

/-- **A model that writes its sections one by one**, each with as many values as it has columns. -/
structure HasSections (model : M) (p : Point α) (content : OutputFlags → List α) : Prop where
  length_content : ∀ part ∈ sections,
    (content part).length = ((elementType model).components part).length
  writes : ∀ (flags : OutputFlags) (stride n : ℕ),
    ∃ rest, RecordCursor.WritesNext (n := n) flags content sections rest
      ∧ output model p (elementType model) flags stride
        = (do rest (← RecordCursor.start (elementType model) flags stride n))

namespace HasSections

variable {model : M} {p : Point α} {content : OutputFlags → List α} {flags : OutputFlags}
  {stride n : ℕ}

theorem length_flatMap (h : HasSections model p content) (flags : OutputFlags) :
    ((sections.filter flags.contains).flatMap content).length
      = (elementType model).recordLen flags := by
  rw [← ElementType.length_recordHeader]
  unfold ElementType.recordHeader
  rw [List.length_flatMap, List.length_flatMap]
  refine congrArg List.sum (List.map_congr_left fun part hpart => ?_)
  exact h.length_content part (List.mem_of_mem_filter hpart)

theorem exists_output (h : HasSections model p content)
    (hfits : (elementType model).recordLen flags ≤ min stride n) (b : Vector α n) :
    ∃ b', output model p (elementType model) flags stride b
        = .ok ((elementType model).recordLen flags) b'
      ∧ b'.toList = (sections.filter flags.contains).flatMap content
          ++ b.toList.drop ((elementType model).recordLen flags) := by
  obtain ⟨rest, hrest, houtput⟩ := h.writes flags stride n
  obtain ⟨b', hrun, hb'⟩ := hrest ⟨(elementType model).recordLen flags, 0⟩ b
    ((Nat.zero_add _).trans (h.length_flatMap flags)) (hfits.trans (min_le_right _ _))
  refine ⟨b', ?_, hb'⟩
  rw [houtput, RecordCursor.start, lengthAtLeast_of_le hfits]
  exact hrun

theorem output_eq_error (h : HasSections model p content)
    (hshort : min stride n < (elementType model).recordLen flags) (b : Vector α n) :
    output model p (elementType model) flags stride b
      = .error (.length (.tooShort "data" ((elementType model).recordLen flags) (min stride n)))
          b := by
  obtain ⟨rest, -, houtput⟩ := h.writes flags stride n
  have hstart : RecordCursor.start (elementType model) flags stride n
      = .error (.tooShort "data" ((elementType model).recordLen flags) (min stride n)) := by
    unfold RecordCursor.start lengthAtLeast
    rw [dif_neg (not_le.mpr hshort)]
    rfl
  rw [houtput, hstart]
  rfl

/-- A section alone is its content. -/
theorem record?_section (h : HasSections model p content) {part : OutputFlags}
    (hpart : part ∈ sections)
    (hfits : (elementType model).recordLen part ≤ min stride n) (b : Vector α n) :
    record? model p (elementType model) part stride b = .ok (content part) := by
  have hlength := h.length_flatMap part
  obtain ⟨b', hrun, hb'⟩ := h.exists_output hfits b
  rw [filter_contains_section hpart, List.flatMap_singleton] at hlength hb'
  unfold record?
  rw [answer_of_ok hrun, except_ok_bind]
  dsimp only
  rw [hb', List.take_left' hlength]
  rfl

/-- The sections of a record that fits, each of them alone. -/
theorem mapM_record? (h : HasSections model p content)
    (hfits : (elementType model).recordLen flags ≤ min stride n) (b : Vector α n) :
    ((sections.filter flags.contains).mapM fun part =>
        record? model p (elementType model) part stride b)
      = .ok ((sections.filter flags.contains).map content) := by
  refine mapM_of_ok fun part hpart => ?_
  obtain ⟨hsection, hflag⟩ := List.mem_filter.mp hpart
  exact h.record?_section hsection
    ((ElementType.recordLen_section_le _ hsection hflag).trans hfits) b

end HasSections

/-- **Sections that are written one by one make records that match their headers.** -/
theorem WritesRecords.of_sections {model : M}
    (hsections : ∀ (place : Point α) (data : PointData (dims model) α), ∃ content,
      HasSections model (data.pointAt place) content)
    (known : ∀ (p : Point α) (etype : ElementType) (flags : OutputFlags) (stride n : ℕ),
      (output model p etype flags.known stride : Evaluation α (Vector α n) ℕ)
        = output model p etype flags stride)
    (foreign : ∀ (p : Point α) (etype : ElementType), etype ≠ elementType model →
      ∀ (flags : OutputFlags) (stride n : ℕ) (b : Vector α n),
        output model p etype flags stride b = .ok 0 b) :
    WritesRecords model where
  fits place data flags stride n b hfits := by
    obtain ⟨content, h⟩ := hsections place data
    obtain ⟨b', hrun, hb'⟩ := h.exists_output hfits b
    have hflatten : ((sections.filter flags.contains).map content).flatten
        = (sections.filter flags.contains).flatMap content := rfl
    refine ⟨_, b', h.mapM_record? hfits b, hrun, ElementType.length_recordHeader _ _, ?_, ?_⟩
    · rw [hflatten, h.length_flatMap]
    · rw [hflatten, hb']
  refuses place data flags stride n b hshort := by
    obtain ⟨content, h⟩ := hsections place data
    exact h.output_eq_error hshort b
  known := known
  foreign := foreign

end ElementModel

/-- A content given for each section. -/
def OutputFlags.select (position values strain stress extra : List α) (part : OutputFlags) :
    List α :=
  if part = nodes then position
  else if part = displacements then values
  else if part = strains then strain
  else if part = stresses then stress
  else if part = extras then extra
  else []

open ElementModel RecordCursor

variable [Scalar α]

/-! ## Elasticity -/

namespace Elasticity

variable (e : Elasticity (Solid α) α)

theorem exists_sections (place : Point α) (data : PointData dims α) :
    ∃ content, HasSections e (data.pointAt place) content := by
  set site := (data.pointAt place).site
  obtain ⟨mechanical, hmechanical⟩ := e.exists_mechanicalStrain site data.ux
  obtain ⟨stress, hstress⟩ : ∃ stress, Evaluation.fill (Vector.replicate 6 0)
      (Constitutive.stress e.law site mechanical.toArray) = .ok stress := by
    simp only [Constitutive.stress, sized_toArray]
    exact ⟨_, rfl⟩
  obtain ⟨failure, hfailure⟩ : ∃ failure,
      Constitutive.failure e.law site mechanical.toArray = .ok failure := by
    simp only [Constitutive.failure, sized_toArray]
    exact ⟨_, rfl⟩
  refine ⟨select data.x.toList [data.ut[0], data.ut[3], data.ut[6]]
    (strain data.ux).toList stress.toList [failure, Constitutive.density e.law site], ?_, ?_⟩
  · simp [sections, select, elementType, ElementType.components, nodes, displacements, strains,
      stresses, extras]
  · intro flags stride n
    refine ⟨?rest, ?written, ?output⟩
    case output =>
      show e.output (data.pointAt place) .solid flags stride = _
      unfold output
      rw [if_neg (by decide)]
      simp only [PointData.checkPoint_pointAt, liftM_length_ok, pure_bind]
      rfl
    case written =>
      refine ((((writesNext_position.section ?extras).section ?stresses).section rfl).section
        rfl).section rfl
      case stresses =>
        show (do
          let strain ← e.mechanicalStrain site data.ux
          let stress ← fill (Vector.replicate 6 0)
            (Constitutive.stress e.law site strain.toArray)
          return stress.toArray) = _
        rw [hmechanical, except_ok_bind, hstress]
        rfl
      case extras =>
        show (do
          let strain ← e.mechanicalStrain site data.ux
          let failure ← Constitutive.failure e.law site strain.toArray
          return #[failure, Constitutive.density e.law site]) = _
        rw [hmechanical, except_ok_bind, hfailure]
        rfl

theorem output_known (p : Point α) (etype : ElementType) (flags : OutputFlags) (stride n : ℕ) :
    (e.output p etype flags.known stride : Evaluation α (Vector α n) ℕ)
      = e.output p etype flags stride := by
  unfold output
  simp (disch := decide) only [start_known, section?_known]

theorem output_of_ne (p : Point α) {etype : ElementType} (h : etype ≠ .solid)
    (flags : OutputFlags) (stride : ℕ) {n : ℕ} (b : Vector α n) :
    e.output p etype flags stride b = .ok 0 b := by
  unfold output
  rw [if_pos h]
  rfl

theorem writesRecords : WritesRecords e :=
  .of_sections e.exists_sections e.output_known fun p _ hforeign flags stride _ b =>
    e.output_of_ne p hforeign flags stride b

end Elasticity

/-! ## Conduction -/

namespace Conductor

variable (c : Conductor (Solid α))

theorem exists_sections (place : Point α) (data : PointData dims α) :
    ∃ content, HasSections c (data.pointAt place) content := by
  set site := (data.pointAt place).site
  obtain ⟨flux, hflux⟩ : ∃ flux, Evaluation.fill (Vector.replicate 2 0)
      (Constitutive.heatFlux c.law site (gradient data.ux).toArray) = .ok flux := by
    simp only [Constitutive.heatFlux, sized_toArray]
    exact ⟨_, rfl⟩
  refine ⟨select data.x.toList [data.ut[0]] (gradient data.ux).toList flux.toList
    [Constitutive.density c.law site], ?_, ?_⟩
  · simp [sections, select, elementType, ElementType.components, nodes, displacements, strains,
      stresses, extras]
  · intro flags stride n
    refine ⟨?rest, ?written, ?output⟩
    case output =>
      show c.output (data.pointAt place) .scalar2D flags stride = _
      unfold output
      rw [if_neg (by decide)]
      simp only [PointData.checkPoint_pointAt, liftM_length_ok, pure_bind]
      rfl
    case written =>
      refine ((((writesNext_position.section rfl).section ?stresses).section rfl).section
        rfl).section rfl
      case stresses =>
        show (do
          let flux ← fill (Vector.replicate 2 0)
            (Constitutive.heatFlux c.law site (gradient data.ux).toArray)
          return flux.toArray) = _
        rw [hflux]
        rfl

theorem output_known (p : Point α) (etype : ElementType) (flags : OutputFlags) (stride n : ℕ) :
    (c.output p etype flags.known stride : Evaluation α (Vector α n) ℕ)
      = c.output p etype flags stride := by
  unfold output
  simp (disch := decide) only [start_known, section?_known]

theorem output_of_ne (p : Point α) {etype : ElementType} (h : etype ≠ .scalar2D)
    (flags : OutputFlags) (stride : ℕ) {n : ℕ} (b : Vector α n) :
    c.output p etype flags stride b = .ok 0 b := by
  unfold output
  rw [if_pos h]
  rfl

theorem writesRecords : WritesRecords c :=
  .of_sections c.exists_sections c.output_known fun p _ hforeign flags stride _ b =>
    c.output_of_ne p hforeign flags stride b

end Conductor

/-- **The records of both kinds of physics match their headers**, over every solid. -/
theorem writesRecords_solid :
    (∀ e : Elasticity (Solid α) α, WritesRecords e) ∧ ∀ c : Conductor (Solid α), WritesRecords c :=
  ⟨fun e => e.writesRecords, fun c => c.writesRecords⟩

end WeakForm
