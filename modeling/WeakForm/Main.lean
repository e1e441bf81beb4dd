import Std.Time.Format
import WeakForm.Command.Basic
import WeakForm.Decimal.Binary64

/-!
# The program

Runs a command line on the machine itself, in binary floating point.
-/

namespace WeakForm

/-- The directory part of a path, if it has one. -/
def directoryPart? (path : String) : Option String :=
  let name := (path.toList.reverse.dropWhile (· = '/')).dropWhile (· ≠ '/')
  if name = [] then none else some (String.ofList name.reverse)

/-- The date and time in coordinated universal time. -/
def timestamp : IO String := do
  let now ← Std.Time.Timestamp.now
  let clock := Std.Time.PlainDateTime.ofWallTime (Std.Time.WallTime.ofTimestamp now .zero)
  return clock.format "uuuu-MM-dd'T'HH:mm:ss.SSSSSSSSS'+00:00'"

/-- The answer of the machine, or its reason for not giving one. -/
def attempt {β : Type} (action : IO β) : IO (Except String β) := do
  match ← action.toBaseIO with
  | .ok answer => return .ok answer
  | .error reason => return .error (toString reason)

/-- Writes a file and makes the directories on the way to it. -/
def writeWithDirectories (path content : String) : IO Unit := do
  match directoryPart? path with
  | some directory => IO.FS.createDirAll directory
  | none => pure ()
  IO.FS.writeFile path content

/-- Holds a session with the machine. -/
def Session.converse {β : Type} : Session β → IO β
  | .done result => return result
  | .readFile path next => do (next (← attempt (IO.FS.readBinFile path))).converse
  | .writeFile path content next => do
    (next (← attempt (writeWithDirectories path content))).converse
  | .time next => do (next (← timestamp)).converse
  | .print text next => do
    IO.print text
    next.converse
  | .complain text next => do
    IO.eprint text
    next.converse

end WeakForm

/-- Runs the command line and gives the exit code. -/
def main (arguments : List String) : IO UInt32 :=
  (WeakForm.Command.runArguments Float arguments).converse
