import WeakForm.Command.Session

/-!
# A directory in memory

The world in which a command can be run without a machine. It holds the files below one directory,
and paths start from that directory: names are separated by slashes, empty names and `.` stay where
they are, `..` goes up, and **the last name of a path has to be the name of a file**. Above the
directory there are others, of which nothing is known but that they are there. What stands in the
way of a path makes it an error, and so does a name or a path that is too long.
-/

namespace WeakForm

/-- Files and directories around a directory, by the names that lead to them from there. -/
structure FileTree where
  files : List (List String × ByteArray)
  directories : List (List String)

namespace FileTree

/-- The bytes of the file that names lead to. -/
def file? (t : FileTree) (names : List String) : Option ByteArray :=
  (t.files.find? (·.1 = names)).map (·.2)

/-- Whether names lead up, or nowhere. -/
def isAbove (names : List String) : Bool := names.all (· = "..")

/-- Whether names lead to a directory: the top, one above it, one that was made, or one that holds a
file. -/
def isDirectory (t : FileTree) (names : List String) : Bool :=
  isAbove names ∨ names ∈ t.directories
    ∨ t.files.any fun (path, _) => names.isPrefixOf path ∧ names ≠ path

/-- The directory that names lead to from another one, and all directories on the way down, each of
which has to be one that may be entered. -/
def walk (mayEnter : List String → Bool) (dir : List String) (passed : List (List String)) :
    List String → Option (List String × List (List String))
  | [] => some (dir, passed)
  | name :: rest =>
    if name = "" ∨ name = "." then walk mayEnter dir passed rest
    else if name = ".." then
      walk mayEnter (if isAbove dir then dir ++ [".."] else dir.dropLast) passed rest
    else if mayEnter (dir ++ [name]) then
      walk mayEnter (dir ++ [name]) ((dir ++ [name]) :: passed) rest
    else none

/-- Whether a path is short enough: fewer than 4096 bytes, and at most 255 for each name. -/
def isShort (path : String) (names : List String) : Bool :=
  decide (path.utf8ByteSize < 4096) && names.all fun name => name.utf8ByteSize ≤ 255

/-- The names of the file that a path leads to, and the directories on the way. -/
def locate? (mayEnter : List String → Bool) (path : String) :
    Option (List String × List (List String)) :=
  let names := path.splitOn "/"
  match names.getLast? with
  | none => none
  | some name =>
    if name ∈ ["", ".", ".."] ∨ (names.length > 1 ∧ names.head? = some "")
        ∨ isShort path names = false then none
    else (walk mayEnter [] [] names.dropLast).map fun (dir, passed) => (dir ++ [name], passed)

/-- Reads a file. -/
def read (t : FileTree) (path : String) : Except String ByteArray :=
  match (locate? t.isDirectory path).bind fun (names, _) => t.file? names with
  | some bytes => .ok bytes
  | none => .error "no such file"

/-- Writes a file and makes the directories on the way to it. -/
def write (t : FileTree) (path content : String) : Except String Unit × FileTree :=
  match locate? (fun dir => (t.file? dir).isNone) path with
  | none => (.error "not the path of a file", t)
  | some (names, passed) =>
    let made := { t with directories := passed ++ t.directories }
    if t.isDirectory names then (.error "there is a directory", made)
    else (.ok (), { made with
      files := (names, content.toUTF8) :: made.files.filter fun (path, _) => path ≠ names })

/-- The world of a directory at a given time. -/
def world (time : String) : World FileTree where
  readFile path t := (t.read path, t)
  writeFile path content t := t.write path content
  time t := (time, t)

/-- The directory that holds files with the given paths and contents. -/
def ofFiles (files : List (String × ByteArray)) : FileTree where
  files := files.filterMap fun (path, bytes) =>
    (locate? (fun _ => true) path).map fun (names, _) => (names, bytes)
  directories := []

end FileTree

end WeakForm
