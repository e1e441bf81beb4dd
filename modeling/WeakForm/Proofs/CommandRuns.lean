import Mathlib
import WeakForm.Command.Basic
import WeakForm.Proofs.ReportTexts
import WeakForm.Proofs.Sessions

/-!
# What a command line does

The exit code is all that another program sees of a command, so it has to tell what became of it.
A verification that comes to its end has one report (`Command.Verifies`), which is printed and then
written where it was asked for, file by file until one is refused. **The exit code is 0 if all of
them are written and no check failed, and 1 if anything went wrong**, be it in reading, loading,
verifying or writing (`Command.JudgesCase`). That nothing is written for a case that cannot be
verified is not a matter of the exit code: it is read off the exchanges about files.

What is not a command line, by a grammar that does not mention how arguments are read
(`IsCommandLine`), has the exit code 2 to itself and touches no file.
-/

namespace WeakForm

open Session

/-! ## Command lines -/

/-- Flags of a verification, each with a value. -/
inductive AreFlags : List String → Prop
  | nil : AreFlags []
  | cons {flag : String} (value : String) {flags : List String}
    (hflag : flag = "--report" ∨ flag = "--text") (hflags : AreFlags flags) :
    AreFlags (flag :: value :: flags)

/-- **The command lines there are.** -/
inductive IsCommandLine : List String → Prop
  | verify (case : String) {flags : List String} (hflags : AreFlags flags) :
    IsCommandLine ("verify" :: case :: flags)
  | template (path : String) : IsCommandLine ["template", path]
  | quantities : IsCommandLine ["quantities"]
  | quantitiesJson : IsCommandLine ["quantities", "--json"]

namespace VerifyOptions

theorem areFlags_of_readFlags {options options' : VerifyOptions} {flags : List String}
    (h : options.readFlags flags = some options') : AreFlags flags := by
  induction options, flags using readFlags.induct with
  | case1 options => exact .nil
  | case2 options value rest ih =>
    rw [readFlags, if_pos rfl] at h
    exact .cons value (Or.inl rfl) (ih h)
  | case3 options value rest hne ih =>
    rw [readFlags, if_neg hne, if_pos rfl] at h
    exact .cons value (Or.inr rfl) (ih h)
  | case4 options flag value rest hreport htext =>
    rw [readFlags, if_neg hreport, if_neg htext] at h
    cases h
  | case5 options flag => cases h

/-- Flags are read, whatever the options are so far. -/
theorem exists_readFlags {flags : List String} (h : AreFlags flags) (options : VerifyOptions) :
    ∃ options', options.readFlags flags = some options' ∧ options'.case = options.case := by
  induction h generalizing options with
  | nil => exact ⟨options, rfl, rfl⟩
  | cons value hflag hflags ih =>
    rcases hflag with rfl | rfl
    · rw [readFlags, if_pos rfl]
      exact ih _
    · rw [readFlags, if_neg (by decide), if_pos rfl]
      exact ih _

end VerifyOptions

namespace Command

/-- **A command line is read exactly if it is one.** -/
theorem exists_ofArguments?_iff (arguments : List String) :
    (∃ command, ofArguments? arguments = some command) ↔ IsCommandLine arguments := by
  constructor
  · rintro ⟨command, h⟩
    unfold ofArguments? at h
    split at h
    · rename_i rest
      obtain ⟨options, hoptions, -⟩ := Option.map_eq_some_iff.mp h
      cases rest with
      | nil => cases hoptions
      | cons case flags => exact .verify case (VerifyOptions.areFlags_of_readFlags hoptions)
    · exact .template _
    · exact .quantities
    · exact .quantitiesJson
    · cases h
  · intro h
    cases h with
    | verify case hflags =>
      obtain ⟨options, hoptions, -⟩ := VerifyOptions.exists_readFlags hflags ⟨case, none, none⟩
      exact ⟨.verify options, Option.map_eq_some_iff.mpr ⟨options, hoptions, rfl⟩⟩
    | template path => exact ⟨_, rfl⟩
    | quantities => exact ⟨_, rfl⟩
    | quantitiesJson => exact ⟨_, rfl⟩

/-! ## Writing reports -/

section Reports

variable {α : Type}

theorem writes_writeReport (path : Option String) (content : String) :
    Writes (path.toList.map (·, content)) (writeReport (α := α) path content) := by
  cases path with
  | none => exact writes_nil
  | some path =>
    intro σ world s
    cases h : world.writeFile path content s with
    | mk answer s' =>
      cases answer with
      | ok done =>
        exact Or.inl ⟨congrArg Outcome.result (run_writeFile h), exchanges_writeFile h⟩
      | error reason =>
        exact Or.inr ⟨⟨_, congrArg Outcome.result (run_writeFile h)⟩, [], path, content, [], reason,
          rfl, exchanges_writeFile h⟩

variable [DecimalScalar α]

/-- The files that are asked for, with what is to be in them. -/
def requested (report : Report α) (options : VerifyOptions) : List (String × String) :=
  options.report.toList.map (·, report.fileText) ++ options.text.toList.map (·, report.toText)

theorem writes_writeReports (report : Report α) (options : VerifyOptions) :
    Writes (requested report options) (writeReports report options) :=
  (writes_writeReport options.report report.fileText).bind
    (writes_writeReport options.text report.toText)

/-- What is left to do when the text of a report has been printed. -/
def reportSession (report : Report α) (options : VerifyOptions) : Session UInt32 := do
  match ← (writeReports report options).run with
  | .error e =>
    complain s!"failed to write report: {e.message}"
    return failure
  | .ok () => return if report.passed then success else failure

end Reports

/-! ## Verifying -/

section Run

variable {α : Type} [Scalar α] [Spectral α] [DecimalScalar α] {σ : Type} {world : World σ} {s : σ}
  {options : VerifyOptions} {report : Report α}

/-- **The case at a path is read, loaded and verified**, with this report. -/
def Verifies (world : World σ) (s : σ) (path : String) (report : Report α) : Prop :=
  ∃ bytes case checked journal, (world.readFile path s).1 = .ok bytes
    ∧ Case.load bytes = .ok case
    ∧ case.verify.run ⟨(), []⟩ = .ok checked journal
    ∧ report = { checked with generatedAt := some (world.time (world.readFile path s).2).1 }

/-- There is only one report. -/
theorem Verifies.eq {other : Report α} {path : String} (h : Verifies world s path report)
    (hother : Verifies world s path other) : other = report := by
  obtain ⟨bytes, case, checked, journal, hread, hload, hverify, rfl⟩ := h
  obtain ⟨bytes', case', checked', journal', hread', hload', hverify', rfl⟩ := hother
  obtain rfl := Except.ok.inj (hread.symm.trans hread')
  obtain rfl := Except.ok.inj (hload.symm.trans hload')
  obtain ⟨rfl, -⟩ := EStateM.Result.ok.inj (hverify.symm.trans hverify')
  rfl

omit [Spectral α] in
theorem run_loadCase (world : World σ) (s : σ) (path : String) :
    (loadCase α path).run world s = ⟨match (world.readFile path s).1 with
      | .ok bytes => Case.load bytes
      | .error reason => .error (.file reason), [], [], (world.readFile path s).2⟩ := rfl

/-- **After the verification its report is printed**, and what is left is done. -/
theorem verifySession_of_verifies (h : Verifies world s options.case report) :
    (verifySession α options).run world s = Outcome.followedBy ⟨(), [report.toText], [], s⟩
        ((reportSession report options).run world
          (world.time (world.readFile options.case s).2).2)
      ∧ (verifySession α options).exchanges world s
        = .read options.case (world.readFile options.case s).1
          :: (reportSession report options).exchanges world
            (world.time (world.readFile options.case s).2).2 := by
  obtain ⟨bytes, case, checked, journal, hread, hload, hverify, rfl⟩ := h
  have hloaded : ((loadCase α options.case).run world s).result = .ok case := by
    rw [run_loadCase, hread]
    exact hload
  unfold verifySession
  rw [run_bind, exchanges_bind, hloaded]
  dsimp only
  rw [hverify]
  exact ⟨rfl, rfl⟩

/-- **Without a verification that comes to its end** nothing is written. -/
theorem verifySession_of_not_verifies
    (h : ∀ report : Report α, ¬ Verifies world s options.case report) :
    ((verifySession α options).run world s).result = failure
      ∧ (verifySession α options).exchanges world s
        = [.read options.case (world.readFile options.case s).1] := by
  unfold verifySession
  rw [run_bind, exchanges_bind]
  cases hloaded : ((loadCase α options.case).run world s).result with
  | error e => exact ⟨rfl, rfl⟩
  | ok case =>
    dsimp only
    cases hverify : case.verify.run ⟨(), []⟩ with
    | error e journal => exact ⟨rfl, rfl⟩
    | ok checked journal =>
      rw [run_loadCase] at hloaded
      cases hread : (world.readFile options.case s).1 with
      | error reason =>
        rw [hread] at hloaded
        cases hloaded
      | ok bytes =>
        rw [hread] at hloaded
        exact absurd ⟨bytes, case, checked, journal, hread, hloaded, hverify, rfl⟩ (h _)

omit [Scalar α] [Spectral α] in
/-- The exit code tells the verdict, unless a report is not written. -/
theorem reportSession_cases (report : Report α) (options : VerifyOptions) (world : World σ)
    (s : σ) :
    (((reportSession report options).run world s).result
          = (if report.passed then success else failure)
        ∧ (reportSession report options).exchanges world s
          = (requested report options).map .written)
      ∨ ((reportSession report options).run world s).result = failure
        ∧ StopsAt (requested report options) ((reportSession report options).exchanges world s) := by
  unfold reportSession
  rw [run_bind, exchanges_bind]
  obtain ⟨hresult, hexchanges⟩ | ⟨⟨e, herror⟩, hstops⟩ :=
    writes_writeReports report options σ world s
  · rw [hresult, hexchanges]
    exact Or.inl ⟨rfl, List.append_nil _⟩
  · rw [herror]
    exact Or.inr ⟨rfl, (congrArg (StopsAt _) (List.append_nil _)).mpr hstops⟩

/-- **What the verification of a case does**: its exit code, its exchanges about files and what it
prints. -/
structure JudgesCase (α : Type) [Scalar α] [Spectral α] [DecimalScalar α] (world : World σ) (s : σ)
    (options : VerifyOptions) (session : Session UInt32) : Prop where
  /-- The exit code is 0 if the case is verified, every report that was asked for is written and no
  check failed. -/
  result_eq_zero_iff : (session.run world s).result = 0
    ↔ ∃ report : Report α, Verifies world s options.case report
      ∧ session.exchanges world s = .read options.case (world.readFile options.case s).1
        :: (requested report options).map .written
      ∧ report.numFailed = 0
  /-- Otherwise it is 1. -/
  result_eq_one : (session.run world s).result ≠ 0 → (session.run world s).result = 1
  /-- Without a verification that comes to its end nothing is written. -/
  of_not_verifies : (∀ report : Report α, ¬ Verifies world s options.case report) →
    session.exchanges world s = [.read options.case (world.readFile options.case s).1]
  /-- After it the text of the report is printed, and what is asked for is written, as far as the
  machine does it. -/
  of_verifies : ∀ report : Report α, Verifies world s options.case report →
    (∃ rest, (session.run world s).printed = report.toText :: rest)
      ∧ ∃ writes, session.exchanges world s
          = .read options.case (world.readFile options.case s).1 :: writes
        ∧ (writes = (requested report options).map .written
          ∨ StopsAt (requested report options) writes)

/-- The case of a verification that comes to its end. -/
theorem judgesCase_of_verifies (h : Verifies world s options.case report) :
    JudgesCase α world s options (verifySession α options) := by
  obtain ⟨hrun, hexchanges⟩ := verifySession_of_verifies h
  have hresult := congrArg Outcome.result hrun
  have hcases := reportSession_cases report options world
    (world.time (world.readFile options.case s).2).2
  set writes := (reportSession report options).exchanges world
    (world.time (world.readFile options.case s).2).2
  set code := ((reportSession report options).run world
    (world.time (world.readFile options.case s).2).2).result
  have hzero : code = 0 ↔ writes = (requested report options).map .written
      ∧ report.numFailed = 0 := by
    rw [← report.passed_iff_numFailed_eq_zero]
    obtain ⟨hcode, hall⟩ | ⟨hcode, hstops⟩ := hcases
    · rw [hcode, and_iff_right hall]
      cases report.passed <;> decide
    · rw [hcode]
      exact iff_of_false (by decide) fun hall => hstops.ne hall.1
  exact {
    result_eq_zero_iff := by
      rw [hresult]
      refine hzero.trans ⟨fun ⟨hall, hfailed⟩ => ?_, ?_⟩
      · exact ⟨report, h, hexchanges.trans (congrArg _ hall), hfailed⟩
      · rintro ⟨other, hother, hall, hfailed⟩
        obtain rfl := h.eq hother
        exact ⟨(List.cons.inj (hexchanges.symm.trans hall)).2, hfailed⟩
    result_eq_one := by
      rw [hresult]
      intro hne
      obtain ⟨hcode, -⟩ | ⟨hcode, -⟩ := hcases
      · refine hcode.trans (if_neg fun hpassed => hne ?_)
        exact hcode.trans (if_pos hpassed)
      · exact hcode
    of_not_verifies := fun hno => absurd h (hno report)
    of_verifies := by
      intro other hother
      obtain rfl := h.eq hother
      refine ⟨⟨_, congrArg Outcome.printed hrun⟩, writes, hexchanges, ?_⟩
      exact hcases.imp And.right And.right }

theorem judgesCase (world : World σ) (s : σ) (options : VerifyOptions) :
    JudgesCase α world s options (verifySession α options) := by
  by_cases h : ∃ report : Report α, Verifies world s options.case report
  · obtain ⟨report, hreport⟩ := h
    exact judgesCase_of_verifies hreport
  · have hno : ∀ report : Report α, ¬ Verifies world s options.case report := not_exists.mp h
    obtain ⟨hresult, hexchanges⟩ := verifySession_of_not_verifies hno
    exact {
      result_eq_zero_iff := by
        rw [hresult]
        exact iff_of_false (by decide) fun ⟨report, hreport, _⟩ => hno report hreport
      result_eq_one := fun _ => hresult
      of_not_verifies := fun _ => hexchanges
      of_verifies := fun report hreport => absurd hreport (hno report) }

end Run

/-! ## All commands -/

/-- **The exit codes of the commands.** -/
structure HasExitCodes (α : Type) [Scalar α] [Spectral α] [DecimalScalar α] {σ : Type}
    (world : World σ) (s : σ) : Prop where
  /-- The exit code 2 is that of what is not a command line. -/
  result_eq_two_iff : ∀ arguments,
    ((runArguments α arguments).run world s).result = 2 ↔ ¬ IsCommandLine arguments
  /-- Then no file is touched. -/
  exchanges_eq_nil : ∀ arguments, ¬ IsCommandLine arguments →
    (runArguments α arguments).exchanges world s = []
  /-- A verification judges the case that it is given. -/
  verify : ∀ case flags, AreFlags flags → ∃ options,
    VerifyOptions.ofArguments? (case :: flags) = some options ∧ options.case = case
      ∧ JudgesCase α world s options (runArguments α ("verify" :: case :: flags))

theorem result_templateSession_ne_two (α : Type) [Scalar α] [DecimalScalar α] {σ : Type}
    (world : World σ) (s : σ) (path : String) :
    ((templateSession α path).run world s).result ≠ 2 := by
  unfold templateSession
  cases h : world.writeFile path (Case.template : Case α).fileText s with
  | mk answer s' =>
    rw [run_writeFile h]
    cases answer with
    | ok done => exact show success ≠ 2 by decide
    | error reason => exact show failure ≠ 2 by decide

section Arguments

variable {α : Type} [Scalar α] [Spectral α] [DecimalScalar α]

/-- What is not a command line is answered with the usage. -/
theorem runArguments_of_not_isCommandLine {arguments : List String}
    (h : ¬ IsCommandLine arguments) :
    runArguments α arguments = .complain (Text.unlines usage) (.done misuse) := by
  have hnone : ofArguments? arguments = none := by
    rw [Option.eq_none_iff_forall_ne_some]
    exact fun command hcommand => h ((exists_ofArguments?_iff arguments).mp ⟨command, hcommand⟩)
  unfold runArguments
  rw [hnone]

theorem runArguments_verify {case : String} {flags : List String} {options : VerifyOptions}
    (h : VerifyOptions.ofArguments? (case :: flags) = some options) :
    runArguments α ("verify" :: case :: flags) = verifySession α options := by
  have hcommand : ofArguments? ("verify" :: case :: flags) = some (.verify options) :=
    congrArg (Option.map Command.verify) h
  unfold runArguments
  rw [hcommand]
  rfl

variable {σ : Type} (world : World σ) (s : σ)

theorem result_runArguments_ne_two {arguments : List String} (h : IsCommandLine arguments) :
    ((runArguments α arguments).run world s).result ≠ 2 := by
  cases h with
  | verify case hflags =>
    obtain ⟨options, hoptions, -⟩ := VerifyOptions.exists_readFlags hflags ⟨case, none, none⟩
    rw [runArguments_verify hoptions]
    intro htwo
    have hjudges := judgesCase (α := α) world s options
    have hone := hjudges.result_eq_one (by rw [htwo]; decide)
    exact absurd (htwo.symm.trans hone) (by decide)
  | template path => exact result_templateSession_ne_two α world s path
  | quantities => exact show success ≠ 2 by decide
  | quantitiesJson => exact show success ≠ 2 by decide

theorem hasExitCodes_world : HasExitCodes α world s where
  result_eq_two_iff := by
    intro arguments
    refine ⟨fun htwo h => result_runArguments_ne_two world s h htwo, fun h => ?_⟩
    rw [runArguments_of_not_isCommandLine h]
    rfl
  exchanges_eq_nil := by
    intro arguments h
    rw [runArguments_of_not_isCommandLine h]
    rfl
  verify := by
    intro case flags hflags
    obtain ⟨options, hoptions, hcase⟩ :=
      VerifyOptions.exists_readFlags hflags ⟨case, none, none⟩
    refine ⟨options, hoptions, hcase, ?_⟩
    rw [runArguments_verify hoptions]
    exact judgesCase world s options

end Arguments

/-- **The exit code of a command line tells what became of it**, and the text of a report tells the
same verdict. -/
theorem hasExitCodes (α : Type) [Scalar α] [Spectral α] [DecimalScalar α] :
    (∀ (σ : Type) (world : World σ) (s : σ), HasExitCodes α world s)
      ∧ ∀ report : Report α, report.TellsVerdict :=
  ⟨fun _ world s => hasExitCodes_world world s, Report.tellsVerdict⟩

end Command

end WeakForm
