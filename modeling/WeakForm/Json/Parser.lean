import WeakForm.Json.Basic

/-!
# Reading JSON

The reader accepts exactly the grammar of JSON: no comments, no trailing commas, no leading zeros,
blanks only around the parts, and nothing after the value. It works on a list of *symbols*, which
are characters or, as `none`, bytes that belong to no character; such a byte can only stand inside
a string literal, and that literal then denotes no text.

Every reading function consumes a part of the list and gives back the rest. Nesting is not limited:
the fuel is the length of the input, and each step that uses fuel consumes a symbol.
-/

namespace WeakForm

namespace Json

/-- A character of the input, or a byte that belongs to none. -/
abbrev Symbol := Option Char

/-- The symbols of a text. -/
def symbols (s : String) : List Symbol := s.toList.map some

/-- The symbols of a file: a byte that starts no character in UTF-8 stands alone. -/
def symbolsOfBytes : List UInt8 → List Symbol
  | [] => []
  | b :: bytes =>
    match ByteArray.utf8DecodeChar? ⟨((b :: bytes).take 4).toArray⟩ 0 with
    | some ch => some ch :: symbolsOfBytes (bytes.drop (ch.utf8Size - 1))
    | none => none :: symbolsOfBytes bytes
termination_by bytes => bytes.length

/-- Drops blanks, line ends and tabs. -/
def skipBlank : List Symbol → List Symbol
  | some ' ' :: rest => skipBlank rest
  | some '\n' :: rest => skipBlank rest
  | some '\r' :: rest => skipBlank rest
  | some '\t' :: rest => skipBlank rest
  | input => input

/-- Takes a given word off the input. -/
def expect : List Char → List Symbol → Option (List Symbol)
  | [], input => some input
  | ch :: word, some c :: rest => if c = ch then expect word rest else none
  | _ :: _, _ => none

/-! ## Numbers -/

/-- Splits the leading digits off. -/
def spanDigits : List Symbol → List Digit × List Symbol
  | some ch :: rest =>
    match Digit.ofChar? ch with
    | some d => let (digits, rest') := spanDigits rest; (d :: digits, rest')
    | none => ([], some ch :: rest)
  | input => ([], input)

/-- The whole part: a single zero, or digits that do not start with one. -/
def readWhole (input : List Symbol) : Option (Nat × List Symbol) :=
  match spanDigits input with
  | ([], _) => none
  | (0 :: _ :: _, _) => none
  | (digits, rest) => some (Digit.toNat digits, rest)

/-- The part after a decimal point, which has at least one digit; no point, no part. -/
def readFraction : List Symbol → Option (List Digit × List Symbol)
  | some '.' :: rest =>
    match spanDigits rest with
    | ([], _) => none
    | (digits, rest') => some (digits, rest')
  | input => some ([], input)

/-- The digits of an exponent, of which there is at least one. -/
def readExponentDigits (negative : Bool) (input : List Symbol) :
    Option (Option Int × List Symbol) :=
  match spanDigits input with
  | ([], _) => none
  | (digits, rest) =>
    let n : Int := Digit.toNat digits
    some (some (if negative then -n else n), rest)

/-- The sign and digits of an exponent. -/
def readExponentBody : List Symbol → Option (Option Int × List Symbol)
  | some '+' :: rest => readExponentDigits false rest
  | some '-' :: rest => readExponentDigits true rest
  | input => readExponentDigits false input

/-- The exponent, if there is one. -/
def readExponent : List Symbol → Option (Option Int × List Symbol)
  | some 'e' :: rest => readExponentBody rest
  | some 'E' :: rest => readExponentBody rest
  | input => some (none, input)

/-- A number after its sign. -/
def readUnsigned (negative : Bool) (input : List Symbol) : Option (Number × List Symbol) := do
  let (whole, input) ← readWhole input
  let (fraction, input) ← readFraction input
  let (exponent, input) ← readExponent input
  some (⟨negative, whole, fraction, exponent⟩, input)

/-- A number literal. -/
def readNumber : List Symbol → Option (Number × List Symbol)
  | some '-' :: rest => readUnsigned true rest
  | input => readUnsigned false input

/-! ## Strings -/

/-- A part of a string literal. -/
inductive Piece where
  | char (ch : Char)
  /-- A 16-bit code unit, written as an escape. -/
  | unit (n : Nat)
  /-- A byte that belongs to no character. -/
  | stray
  deriving DecidableEq, Repr

/-- The value of a hexadecimal digit. -/
def hexValue? (ch : Char) : Option Nat :=
  if '0' ≤ ch ∧ ch ≤ '9' then some (ch.toNat - '0'.toNat)
  else if 'a' ≤ ch ∧ ch ≤ 'f' then some (ch.toNat - 'a'.toNat + 10)
  else if 'A' ≤ ch ∧ ch ≤ 'F' then some (ch.toNat - 'A'.toNat + 10)
  else none

/-- The code unit that four hexadecimal digits spell. -/
def codeUnit? (a b c d : Char) : Option Nat := do
  some (4096 * (← hexValue? a) + 256 * (← hexValue? b) + 16 * (← hexValue? c) + (← hexValue? d))

/-- The character that a one-letter escape stands for. -/
def unescape? (ch : Char) : Option Char :=
  match ch with
  | '"' => some '"'
  | '\\' => some '\\'
  | '/' => some '/'
  | 'b' => some (Char.ofNat 8)
  | 'f' => some (Char.ofNat 12)
  | 'n' => some '\n'
  | 'r' => some '\r'
  | 't' => some '\t'
  | _ => none

/-- Puts a piece in front of what was read after it. -/
def withPiece (p : Piece) : Option (List Piece × List Symbol) → Option (List Piece × List Symbol) :=
  Option.map fun (pieces, rest) => (p :: pieces, rest)

/-- A string literal after its opening quote, up to and without its closing one. A control character
does not stand in one. -/
def readPieces : List Symbol → Option (List Piece × List Symbol)
  | [] => none
  | some '"' :: rest => some ([], rest)
  | some '\\' :: some 'u' :: some a :: some b :: some c :: some d :: rest =>
    match codeUnit? a b c d with
    | some n => withPiece (.unit n) (readPieces rest)
    | none => none
  | some '\\' :: some ch :: rest =>
    match unescape? ch with
    | some ch' => withPiece (.char ch') (readPieces rest)
    | none => none
  | some '\\' :: _ => none
  | some ch :: rest => if ch.toNat < 32 then none else withPiece (.char ch) (readPieces rest)
  | none :: rest => withPiece .stray (readPieces rest)

/-- Whether a code unit is the first, or the second, half of a surrogate pair. -/
def isHighSurrogate (n : Nat) : Bool := decide (0xD800 ≤ n ∧ n < 0xDC00)

@[inherit_doc isHighSurrogate]
def isLowSurrogate (n : Nat) : Bool := decide (0xDC00 ≤ n ∧ n < 0xE000)

/-- The text that the parts of a string literal denote: each half of a surrogate pair has its other
half next to it, and no byte is left over. -/
def textOfPieces : List Piece → Option (List Char)
  | [] => some []
  | .char ch :: rest => (textOfPieces rest).map (ch :: ·)
  | .stray :: _ => none
  | .unit n :: rest =>
    if isHighSurrogate n then
      match rest with
      | .unit m :: rest' =>
        if isLowSurrogate m then
          let ch := Char.ofNat (0x10000 + 1024 * (n - 0xD800) + (m - 0xDC00))
          (textOfPieces rest').map (ch :: ·)
        else none
      | _ => none
    else if isLowSurrogate n then none
    else (textOfPieces rest).map (Char.ofNat n :: ·)

/-- A string literal after its opening quote, and the text that it denotes. -/
def readText (input : List Symbol) : Option (Option String × List Symbol) :=
  (readPieces input).map fun (pieces, rest) => ((textOfPieces pieces).map String.ofList, rest)

/-! ## Values -/

/-- Gives a finished value together with the rest of the input. -/
def finish (value : Json) (rest : Option (List Symbol)) : Option (Json × List Symbol) :=
  rest.map fun rest => (value, rest)

mutual

/-- A value, after blanks. -/
def readValue : Nat → List Symbol → Option (Json × List Symbol)
  | 0, _ => none
  | fuel + 1, input =>
    match skipBlank input with
    | some 'n' :: rest => finish .null (expect ['u', 'l', 'l'] rest)
    | some 't' :: rest => finish (.bool true) (expect ['r', 'u', 'e'] rest)
    | some 'f' :: rest => finish (.bool false) (expect ['a', 'l', 's', 'e'] rest)
    | some '"' :: rest => (readText rest).map fun (s, rest) => (.text s, rest)
    | some '[' :: rest =>
      match skipBlank rest with
      | some ']' :: rest => some (.array [], rest)
      | rest => do
        let (item, rest) ← readValue fuel rest
        let (items, rest) ← readItems fuel rest
        some (.array (item :: items), rest)
    | some '{' :: rest =>
      match skipBlank rest with
      | some '}' :: rest => some (.object [], rest)
      | rest => do
        let (member, rest) ← readMember fuel rest
        let (members, rest) ← readMembers fuel rest
        some (.object (member :: members), rest)
    | rest => (readNumber rest).map fun (n, rest) => (.number n, rest)

/-- The items of an array after the first one, and its closing bracket. -/
def readItems : Nat → List Symbol → Option (List Json × List Symbol)
  | 0, _ => none
  | fuel + 1, input =>
    match skipBlank input with
    | some ']' :: rest => some ([], rest)
    | some ',' :: rest => do
      let (item, rest) ← readValue fuel rest
      let (items, rest) ← readItems fuel rest
      some (item :: items, rest)
    | _ => none

/-- A name, a colon and a value, after blanks. -/
def readMember : Nat → List Symbol → Option ((Option String × Json) × List Symbol)
  | 0, _ => none
  | fuel + 1, input =>
    match skipBlank input with
    | some '"' :: rest => do
      let (name, rest) ← readText rest
      match skipBlank rest with
      | some ':' :: rest => do
        let (value, rest) ← readValue fuel rest
        some ((name, value), rest)
      | _ => none
    | _ => none

/-- The members of an object after the first one, and its closing brace. -/
def readMembers : Nat → List Symbol → Option (List (Option String × Json) × List Symbol)
  | 0, _ => none
  | fuel + 1, input =>
    match skipBlank input with
    | some '}' :: rest => some ([], rest)
    | some ',' :: rest => do
      let (member, rest) ← readMember fuel rest
      let (members, rest) ← readMembers fuel rest
      some (member :: members, rest)
    | _ => none

end

/-- The value that a list of symbols spells, with nothing but blanks around it. -/
def ofSymbols? (input : List Symbol) : Option Json :=
  match readValue (input.length + 1) input with
  | some (value, rest) => if (skipBlank rest).isEmpty then some value else none
  | none => none

/-- The value that a text spells. -/
def ofString? (s : String) : Option Json := ofSymbols? (symbols s)

/-- The value that the bytes of a file spell. -/
def ofBytes? (bytes : ByteArray) : Option Json := ofSymbols? (symbolsOfBytes bytes.toList)

end Json

end WeakForm
