/-!
# What a terminal shows

A text that a terminal gets is not only shown: some characters move the cursor, ring the bell or
begin a *sequence* of characters that is a command to the terminal. **What is written for people
carries no commands**, so of a text only what a terminal shows is kept.

A sequence begins with an escape. The character after it tells its kind, which in turn tells where
the sequence ends:

* a short sequence ends with the first character from `0` on;
* a control sequence (`[`) ends with the first character from `@` on;
* a system command (`]`) ends with a bell;
* a device control string (`P`) has a head of parameters and then a body, and a body, as well as any
  other string (`X`, `^`, `_`), ends only where one of its bytes is the terminator of strings.

Each of them ends with the next escape, too, which begins a sequence of its own, and two characters
abort any of them. A tab or the end of a line does not belong to short and control sequences: it
interrupts them, and is shown together with what follows, **until the next control character takes
the sequence up again**. A text without other control characters is shown as it is
(`shown_eq_self`).
-/

namespace WeakForm

namespace Terminal

/-- What a terminal is in the middle of. -/
inductive Mode where
  /-- No sequence. -/
  | text
  /-- A sequence whose kind is not known yet. -/
  | escape
  /-- A short sequence. -/
  | short
  /-- A control sequence. -/
  | control
  /-- A system command. -/
  | system
  /-- The head of a device control string, where nothing has come yet. -/
  | deviceHead
  /-- The same, after parameters. -/
  | deviceParameters
  /-- The same, after marks between the parameters and the body. -/
  | deviceMarks
  /-- The body of a string. -/
  | string
  deriving DecidableEq, Repr

/-- A mode, and whether the sequence has been interrupted. -/
structure Position where
  mode : Mode
  interrupted : Bool
  deriving DecidableEq, Repr

/-- The character that begins a sequence. -/
def escape : Char := Char.ofNat 0x1b

/-- The characters that put an end to any sequence. -/
def aborts : List Char := [Char.ofNat 0x18, Char.ofNat 0x1a]

/-- The character that ends a system command. -/
def bell : Char := Char.ofNat 0x07

/-- The control characters that only move on in the text: a tab, a line feed, a form feed or a
carriage return. -/
def isAdvance (ch : Char) : Bool := ch.toNat ∈ [0x09, 0x0a, 0x0c, 0x0d]

/-- Whether a character is one of the printable ones of ASCII, which sequences are made of. -/
def isPrintable (ch : Char) : Bool := 0x20 ≤ ch.toNat ∧ ch.toNat < 0x7f

/-- Whether a character outside of a sequence is shown. -/
def isShown (ch : Char) : Bool := isAdvance ch || isPrintable ch || decide (0x7f < ch.toNat)

/-- Whether a byte of a character is the terminator of strings. -/
def terminates (ch : Char) : Bool := 0x9c ∈ String.utf8EncodeChar ch

namespace Mode

/-- Whether a tab or the end of a line interrupts the sequence. -/
def yieldsToAdvance : Mode → Bool
  | .escape | .short | .control => true
  | _ => false

/-- The kind of sequence that the character after the escape begins. -/
def ofKind (ch : Char) : Mode :=
  if ch.toNat < 0x30 then .short
  else if ch = '[' then .control
  else if ch = ']' then .system
  else if ch = 'P' then .deviceHead
  else if ch ∈ ['X', '^', '_'] then .string
  else .text

/-- The mode after a character that belongs to the sequence. -/
def next (mode : Mode) (ch : Char) : Mode :=
  match mode with
  | .text => .text
  | .escape => if isPrintable ch then ofKind ch else .escape
  | .short => if isPrintable ch ∧ 0x30 ≤ ch.toNat then .text else .short
  | .control => if isPrintable ch ∧ 0x40 ≤ ch.toNat then .text else .control
  | .system => if ch = bell then .text else .system
  | .deviceHead =>
    if !isPrintable ch then .deviceHead
    else if ch.toNat < 0x30 then .deviceMarks
    else if ch.toNat < 0x40 then .deviceParameters
    else .string
  | .deviceParameters =>
    if !isPrintable ch then .deviceParameters
    else if ch.toNat < 0x30 then .deviceMarks
    else if ch.toNat < 0x3c then .deviceParameters
    else .string
  | .deviceMarks => if isPrintable ch ∧ 0x30 ≤ ch.toNat then .string else .deviceMarks
  | .string => if terminates ch then .text else .string

end Mode

namespace Position

/-- Where a text begins. -/
def start : Position := ⟨.text, false⟩

/-- The position after a character, and whether the character is shown. -/
def step (position : Position) (ch : Char) : Position × Bool :=
  if ch ∈ aborts then (⟨.text, false⟩, false)
  else if ch = escape then (⟨.escape, false⟩, false)
  else if position.mode = .text ∨ position.interrupted then
    if 0x7f < ch.toNat then (⟨.text, false⟩, true)
    else (⟨position.mode, isShown ch && position.interrupted⟩, isShown ch)
  else if isAdvance ch ∧ position.mode.yieldsToAdvance then (⟨position.mode, true⟩, true)
  else (⟨position.mode.next ch, false⟩, false)

end Position

/-- The characters that are shown, from a position on. -/
def shownFrom : Position → List Char → List Char
  | _, [] => []
  | position, ch :: rest =>
    let (position', isVisible) := position.step ch
    if isVisible then ch :: shownFrom position' rest else shownFrom position' rest

/-- What a terminal shows of a text. -/
def shown (text : String) : String := String.ofList (shownFrom .start text.toList)

theorem step_start_of_isShown {ch : Char} (h : isShown ch = true) :
    Position.start.step ch = (.start, true) := by
  have notAborts : ch ∉ aborts := by
    intro member
    simp only [aborts, List.mem_cons, List.not_mem_nil, or_false] at member
    rcases member with rfl | rfl <;> exact absurd h (by decide)
  have notEscape : ch ≠ escape := by
    rintro rfl
    exact absurd h (by decide)
  simp [Position.step, Position.start, notAborts, notEscape, h]

/-- What has no characters that are not shown is shown as it is. -/
theorem shown_eq_self {text : String} (h : ∀ ch ∈ text.toList, isShown ch = true) :
    shown text = text := by
  have keep (chars : List Char) (hc : ∀ ch ∈ chars, isShown ch = true) :
      shownFrom .start chars = chars := by
    induction chars with
    | nil => rfl
    | cons ch rest ih =>
      have first := step_start_of_isShown (hc ch (by simp))
      simp [shownFrom, first, ih fun c hm => hc c (by simp [hm])]
  rw [shown, keep _ h, String.ofList_toList]

end Terminal

end WeakForm
