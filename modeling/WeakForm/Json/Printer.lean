import WeakForm.Json.Basic

/-!
# Printing JSON

Two layouts of one text: compact, with no space at all, and pretty, with one item or member a line,
two blanks of indentation a level and one blank after a colon. An empty array or object stays on one
line in both. Only what a string literal cannot hold is escaped: the quote, the backslash and the
control characters.
-/

namespace WeakForm

namespace Json

/-- The lower-case hexadecimal digit of a number below sixteen. -/
def hexDigit (n : Nat) : Char := "0123456789abcdef".toList.getD n '0'

/-- A character as it stands inside a string literal. -/
def escape (ch : Char) : List Char :=
  if ch = '"' then ['\\', '"']
  else if ch = '\\' then ['\\', '\\']
  else if ch = '\n' then ['\\', 'n']
  else if ch = '\r' then ['\\', 'r']
  else if ch = '\t' then ['\\', 't']
  else if ch.toNat = 8 then ['\\', 'b']
  else if ch.toNat = 12 then ['\\', 'f']
  else if ch.toNat < 32 then
    ['\\', 'u', '0', '0', hexDigit (ch.toNat / 16), hexDigit (ch.toNat % 16)]
  else [ch]

/-- A string literal; one that denotes no text is half of a surrogate pair. -/
def quoted : Option String → List Char
  | some s => '"' :: s.toList.flatMap escape ++ ['"']
  | none => "\"\\ud800\"".toList

namespace Number

/-- The text of a number literal; a positive exponent has a plus sign. -/
def print (n : Number) : List Char :=
  let sign := if n.negative then ['-'] else []
  let fraction := if n.fraction = [] then [] else '.' :: Digit.text n.fraction
  let exponent := match n.exponent with
    | none => []
    | some e =>
      'e' :: (if e < 0 then '-' else '+') :: Digit.text (Digit.ofNat e.natAbs)
  sign ++ Digit.text (Digit.ofNat n.whole) ++ fraction ++ exponent

end Number

/-- How the parts of an array or object are set off from one another. -/
structure Layout where
  /-- What stands in front of a part, or of the closing bracket, at a level. -/
  lineBreak : Nat → List Char
  /-- What stands between a name and its value. -/
  colon : List Char

/-- No blanks. -/
def compactLayout : Layout := ⟨fun _ => [], [':']⟩

/-- One part a line. -/
def prettyLayout : Layout := ⟨fun level => '\n' :: List.replicate (2 * level) ' ', [':', ' ']⟩

mutual

/-- The text of a value whose opening bracket stands at a level. -/
def print (layout : Layout) (level : Nat) : Json → List Char
  | .null => "null".toList
  | .bool true => "true".toList
  | .bool false => "false".toList
  | .number n => n.print
  | .text s => quoted s
  | .array [] => ['[', ']']
  | .array (item :: items) =>
    '[' :: layout.lineBreak (level + 1) ++ print layout (level + 1) item
      ++ printItems layout (level + 1) items ++ layout.lineBreak level ++ [']']
  | .object [] => ['{', '}']
  | .object ((name, value) :: members) =>
    '{' :: layout.lineBreak (level + 1) ++ quoted name ++ layout.colon
      ++ print layout (level + 1) value ++ printMembers layout (level + 1) members
      ++ layout.lineBreak level ++ ['}']

/-- The items of an array after the first one. -/
def printItems (layout : Layout) (level : Nat) : List Json → List Char
  | [] => []
  | item :: items =>
    ',' :: layout.lineBreak level ++ print layout level item ++ printItems layout level items

/-- The members of an object after the first one. -/
def printMembers (layout : Layout) (level : Nat) : List (Option String × Json) → List Char
  | [] => []
  | (name, value) :: members =>
    ',' :: layout.lineBreak level ++ quoted name ++ layout.colon ++ print layout level value
      ++ printMembers layout level members

end

/-- The text of a value without blanks. -/
def compact (value : Json) : String := String.ofList (print compactLayout 0 value)

/-- The text of a value with one part a line. -/
def pretty (value : Json) : String := String.ofList (print prettyLayout 0 value)

end Json

end WeakForm
