import WeakForm.Case.Verification
import WeakForm.Command.Session
import WeakForm.Command.Terminal
import WeakForm.Format.File
import WeakForm.Report.Text

/-!
# Commands

There are three commands: one verifies a case, one writes a case to start from, one lists the
quantities. **A command line that is none of them does nothing but show the usage**, with exit code
2. A verification ends with exit code 0 if the case was loaded and verified, every report that was
asked for was written, and no check failed; otherwise with exit code 1. Reports are only written
after a verification that came to its end.
-/

namespace WeakForm

/-- What a verification is asked for. -/
structure VerifyOptions where
  /-- The path of the case. -/
  case : String
  /-- Where the report goes. -/
  report : Option String
  /-- Where the text of the report goes. -/
  text : Option String
  deriving DecidableEq, Repr

/-- A command. -/
inductive Command where
  | verify (options : VerifyOptions)
  | template (path : String)
  | quantities (json : Bool)
  deriving DecidableEq, Repr

namespace VerifyOptions

/-- Reads pairs of a flag and its value; of a repeated flag the last value counts. -/
def readFlags (options : VerifyOptions) : List String → Option VerifyOptions
  | [] => some options
  | flag :: value :: rest =>
    if flag = "--report" then readFlags { options with report := some value } rest
    else if flag = "--text" then readFlags { options with text := some value } rest
    else none
  | [_] => none

/-- Reads the arguments of a verification: the path of the case, then flags. -/
def ofArguments? : List String → Option VerifyOptions
  | [] => none
  | case :: flags => readFlags ⟨case, none, none⟩ flags

end VerifyOptions

namespace Command

/-- Reads a command line. -/
def ofArguments? : List String → Option Command
  | "verify" :: rest => (VerifyOptions.ofArguments? rest).map .verify
  | ["template", path] => some (.template path)
  | ["quantities"] => some (.quantities false)
  | ["quantities", "--json"] => some (.quantities true)
  | _ => none

/-- The commands and their arguments. -/
def usage : List String :=
  ["usage: adjfem verify <case.json> [--report <out.json>] [--text <out.txt>]",
    "       adjfem template <case.json>",
    "       adjfem quantities [--json]"]

/-- Success. -/
def success : UInt32 := 0

/-- Failure of a well-formed command. -/
def failure : UInt32 := 1

/-- No command at all. -/
def misuse : UInt32 := 2

/-- The line that reports an error. The further lines of its message are indented. -/
def errorLine (message : String) : String :=
  "ERROR " ++ "\n    ".intercalate (message.splitOn "\n") ++ "\n"

/-- Reports an error. Names in its message come from outside, so of the line only what a terminal
shows is printed. -/
def complain (message : String) : Session Unit :=
  .complain (Terminal.shown (errorLine message)) (.done ())

section Run

variable (α : Type) [Scalar α] [Spectral α] [DecimalScalar α]

/-- Loads the case at a path. -/
def loadCase (path : String) : Session (Except (CaseError α) (Case α)) :=
  .readFile path fun answer => .done <|
    match answer with
    | .ok bytes => Case.load bytes
    | .error reason => .error (.file reason)

variable {α}

/-- Writes a file if there is a path for it, and tells where. -/
def writeReport (path : Option String) (content : String) :
    ExceptT (CaseError α) Session Unit :=
  match path with
  | none => pure ()
  | some path => .writeFile path content fun answer =>
    match answer with
    | .ok () => do
      Session.printLine s!"wrote {path}"
      return .ok ()
    | .error reason => .done (.error (.file reason))

/-- Writes the reports that were asked for. -/
def writeReports (report : Report α) (options : VerifyOptions) :
    ExceptT (CaseError α) Session Unit := do
  writeReport options.report report.fileText
  writeReport options.text report.toText

variable (α)

/-- Verifies a case. -/
def verifySession (options : VerifyOptions) : Session UInt32 := do
  match ← loadCase α options.case with
  | .error e =>
    complain s!"failed to load {options.case}: {e.message}"
    return failure
  | .ok case =>
    match (case.verify).run ⟨(), []⟩ with
    | .error e _ =>
      complain s!"verification error: {e.message}"
      return failure
    | .ok report _ =>
      let stamp ← Session.time .done
      let report := { report with generatedAt := some stamp }
      Session.print report.toText (.done ())
      match ← (writeReports report options).run with
      | .error e =>
        complain s!"failed to write report: {e.message}"
        return failure
      | .ok () => return if report.passed then success else failure

/-- Writes a case to start from. -/
def templateSession (path : String) : Session UInt32 :=
  .writeFile path (Case.template : Case α).fileText fun answer =>
    match answer with
    | .ok () => do
      Session.printLine s!"wrote {path}"
      return success
    | .error reason => do
      let e : CaseError α := .file reason
      complain s!"failed to write {path}: {e.message}"
      return failure

end Run

/-- The row of a quantity. -/
def quantityRow (entry : QuantityTag × QuantityInfo) : String :=
  Text.padLeft 5 (toString entry.1.number) ++ "  " ++ Text.padRight 24 entry.2.name ++ " "
    ++ entry.2.description

/-- A quantity as an object, its members in alphabetical order. -/
def quantityObject (entry : QuantityTag × QuantityInfo) : Json :=
  .record [
    ("description", .ofString entry.2.description),
    ("name", .ofString entry.2.name),
    ("tag", entry.1.toJson)]

/-- Lists the quantities with a fixed meaning. -/
def quantitiesSession (json : Bool) : Session UInt32 := do
  let entries := Registry.builtin.entries
  if json then
    Session.printLine (Json.ofList quantityObject entries).pretty
  else
    Session.print (Text.unlines (entries.map quantityRow)) (.done ())
  return success

/-- Runs a command. -/
def run (α : Type) [Scalar α] [Spectral α] [DecimalScalar α] : Command → Session UInt32
  | .verify options => verifySession α options
  | .template path => templateSession α path
  | .quantities json => quantitiesSession json

/-- Runs a command line. -/
def runArguments (α : Type) [Scalar α] [Spectral α] [DecimalScalar α] (arguments : List String) :
    Session UInt32 :=
  match ofArguments? arguments with
  | some command => command.run α
  | none => .complain (Text.unlines usage) (.done misuse)

end Command

end WeakForm
