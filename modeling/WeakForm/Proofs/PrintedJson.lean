import WeakForm.Proofs.NumberLiterals

/-!
# Printed values

**Whatever value is printed, the text spells that value and no other** (`ofString?_pretty`), and so
do the bytes of the text in a file (`ofBytes?_pretty`). There is no condition: a number literal
keeps its digits, and a string literal keeps its text, or that it has none.

The reader drops blanks where the layout may put some (`Layout.IsBlank`), so one proof serves both
layouts. It follows the printing functions, which call one another as the reading functions do; the
fuel is more than the length of the text, and each step that uses fuel leaves the first symbol of
the text behind.
-/

namespace WeakForm

namespace Json

/-! ## String literals -/

/-- The code unit of a control character is spelled by its two lower digits. -/
theorem codeUnit?_hexDigit : ∀ n < 32,
    codeUnit? '0' '0' (hexDigit (n / 16)) (hexDigit (n % 16)) = some n := by
  decide

/-- A character that a string literal can hold stands for itself. -/
theorem readPieces_cons {ch : Char} (hquote : ch ≠ '"') (hbackslash : ch ≠ '\\')
    (hcontrol : ¬ch.toNat < 32) (rest : List Symbol) :
    readPieces (some ch :: rest) = withPiece (.char ch) (readPieces rest) := by
  rw [readPieces]
  · exact if_neg hcontrol
  all_goals simp_all

/-- **A character is printed as one part of a literal**, which is read back as a part that denotes
the character. -/
theorem exists_piece (ch : Char) :
    ∃ p, (∀ rest, readPieces ((escape ch).map some ++ rest) = withPiece p (readPieces rest))
      ∧ ∀ pieces, textOfPieces (p :: pieces) = (textOfPieces pieces).map (ch :: ·) := by
  have hchar {n : ℕ} (h : ch.toNat = n) : ch = Char.ofNat n := by rw [← h, Char.ofNat_toNat]
  unfold escape
  split
  · next h => exact ⟨.char '"', fun _ => rfl, fun _ => by rw [h]; rfl⟩
  split
  · next h => exact ⟨.char '\\', fun _ => rfl, fun _ => by rw [h]; rfl⟩
  split
  · next h => exact ⟨.char '\n', fun _ => rfl, fun _ => by rw [h]; rfl⟩
  split
  · next h => exact ⟨.char '\r', fun _ => rfl, fun _ => by rw [h]; rfl⟩
  split
  · next h => exact ⟨.char '\t', fun _ => rfl, fun _ => by rw [h]; rfl⟩
  split
  · next h => exact ⟨.char (Char.ofNat 8), fun _ => rfl, fun _ => by rw [hchar h]; rfl⟩
  split
  · next h => exact ⟨.char (Char.ofNat 12), fun _ => rfl, fun _ => by rw [hchar h]; rfl⟩
  split
  · next h =>
    refine ⟨.unit ch.toNat, fun rest => ?_, fun pieces => ?_⟩
    · simp only [List.map_cons, List.map_nil, List.cons_append, List.nil_append, readPieces,
        codeUnit?_hexDigit _ h]
    · have hhigh : isHighSurrogate ch.toNat = false := decide_eq_false (by omega)
      have hlow : isLowSurrogate ch.toNat = false := decide_eq_false (by omega)
      rw [textOfPieces.eq_def]
      dsimp only
      rw [hhigh, hlow, Char.ofNat_toNat]
      rfl
  · next hquote hbackslash _ _ _ _ _ hcontrol =>
    exact ⟨.char ch, readPieces_cons hquote hbackslash hcontrol, fun _ => rfl⟩

theorem exists_readPieces (chars : List Char) (rest : List Symbol) :
    ∃ pieces, readPieces ((chars.flatMap escape).map some ++ some '"' :: rest)
        = some (pieces, rest)
      ∧ textOfPieces pieces = some chars := by
  induction chars with
  | nil => exact ⟨[], rfl, rfl⟩
  | cons ch chars ih =>
    obtain ⟨p, hread, htext⟩ := exists_piece ch
    obtain ⟨pieces, hpieces, hchars⟩ := ih
    refine ⟨p :: pieces, ?_, by rw [htext, hchars]; rfl⟩
    rw [List.flatMap_cons, List.map_append, List.append_assoc, hread, hpieces]
    rfl

/-- **A printed string literal reads back as itself**, also one that denotes no text. -/
theorem exists_quoted_eq_cons (s : Option String) :
    ∃ body, quoted s = '"' :: body
      ∧ ∀ rest, readText (body.map some ++ rest) = some (s, rest) := by
  cases s with
  | none =>
    refine ⟨['\\', 'u', 'd', '8', '0', '0', '"'], by decide, fun rest => ?_⟩
    have hunit : codeUnit? 'd' '8' '0' '0' = some 0xD800 := by decide
    have htext : textOfPieces [.unit 0xD800] = none := by decide
    unfold readText
    simp only [List.map_cons, List.map_nil, List.cons_append, List.nil_append, readPieces, hunit,
      withPiece, Option.map_some, htext, Option.map_none]
  | some s =>
    refine ⟨s.toList.flatMap escape ++ ['"'], rfl, fun rest => ?_⟩
    obtain ⟨pieces, hpieces, htext⟩ := exists_readPieces s.toList rest
    rw [List.map_append, List.append_assoc]
    unfold readText
    rw [List.map_cons, List.map_nil, List.cons_append, List.nil_append, hpieces, Option.map_some]
    dsimp only
    rw [htext, Option.map_some, String.ofList_toList]

/-! ## Blanks -/

/-- What the reader skips between the parts of a value. -/
def IsBlank (ch : Char) : Prop := ch = ' ' ∨ ch = '\n' ∨ ch = '\r' ∨ ch = '\t'

instance (ch : Char) : Decidable (IsBlank ch) := inferInstanceAs (Decidable (_ ∨ _))

/-- **A layout sets the parts off by blanks**, and has one colon between a name and its value. -/
structure Layout.IsBlank (layout : Layout) : Prop where
  lineBreak : ∀ level, ∀ ch ∈ layout.lineBreak level, Json.IsBlank ch
  colon : ∃ before after, layout.colon = before ++ ':' :: after
    ∧ (∀ ch ∈ before, Json.IsBlank ch) ∧ ∀ ch ∈ after, Json.IsBlank ch

theorem isBlank_compactLayout : compactLayout.IsBlank where
  lineBreak _ _ h := absurd h List.not_mem_nil
  colon := ⟨[], [], rfl, List.forall_mem_nil _, List.forall_mem_nil _⟩

theorem isBlank_prettyLayout : prettyLayout.IsBlank where
  lineBreak level ch h := by
    rcases List.mem_cons.mp h with rfl | h
    · decide
    · rw [List.eq_of_mem_replicate h]
      decide
  colon := ⟨[], [' '], rfl, List.forall_mem_nil _, List.forall_mem_singleton.mpr (Or.inl rfl)⟩

section Skip

variable {blanks : List Char}

theorem skipBlank_append (h : ∀ ch ∈ blanks, IsBlank ch) (input : List Symbol) :
    skipBlank (blanks.map some ++ input) = skipBlank input := by
  induction blanks with
  | nil => rfl
  | cons ch blanks ih =>
    rw [← ih fun c hc => h c (List.mem_cons_of_mem _ hc)]
    obtain rfl | rfl | rfl | rfl := h ch List.mem_cons_self <;> rfl

theorem skipBlank_cons {ch : Char} (h : ¬IsBlank ch) (rest : List Symbol) :
    skipBlank (some ch :: rest) = some ch :: rest := by
  unfold IsBlank at h
  push Not at h
  unfold skipBlank
  split <;> simp_all

theorem readValue_append (h : ∀ ch ∈ blanks, IsBlank ch) (fuel : ℕ) (input : List Symbol) :
    readValue fuel (blanks.map some ++ input) = readValue fuel input := by
  cases fuel with
  | zero => simp only [readValue]
  | succ fuel => simp only [readValue, skipBlank_append h]

theorem endsNumber_append (h : ∀ ch ∈ blanks, IsBlank ch) {rest : List Symbol}
    (hrest : EndsNumber rest) : EndsNumber (blanks.map some ++ rest) := by
  cases blanks with
  | nil => exact hrest
  | cons ch blanks =>
    obtain rfl | rfl | rfl | rfl := h ch List.mem_cons_self <;>
      exact ⟨by decide, by decide, by decide, by decide⟩

/-- A comma or a closing bracket goes on with no number. -/
theorem endsNumber_delimiter {ch : Char} (h : ch = ',' ∨ ch = ']' ∨ ch = '}')
    (rest : List Symbol) : EndsNumber (some ch :: rest) := by
  obtain rfl | rfl | rfl := h <;> exact ⟨by decide, by decide, by decide, by decide⟩

end Skip

/-! ## Values -/

theorem Number.exists_print_eq_cons (n : Number) :
    ∃ ch tail, n.print = ch :: tail ∧ (ch = '-' ∨ ∃ d : Digit, ch = d.toChar) := by
  obtain ⟨d, digits, heq, -⟩ := Digit.exists_ofNat_eq_cons n.whole
  rw [n.print_eq, heq]
  cases n.negative with
  | true => exact ⟨'-', _, rfl, Or.inl rfl⟩
  | false => exact ⟨d.toChar, _, rfl, Or.inr ⟨d, rfl⟩⟩

/-- What starts like a number is read as one. -/
theorem readValue_number {ch : Char} (h : ch = '-' ∨ ∃ d : Digit, ch = d.toChar) (fuel : ℕ)
    (rest : List Symbol) :
    readValue (fuel + 1) (some ch :: rest)
      = (readNumber (some ch :: rest)).map fun (n, rest) => (.number n, rest) := by
  obtain rfl | ⟨d, rfl⟩ := h
  · rfl
  · fin_cases d <;> rfl

/-- A printed value starts with its first part, not with a blank or a closing bracket. -/
theorem exists_print_eq_cons (layout : Layout) (level : ℕ) (v : Json) :
    ∃ ch tail, print layout level v = ch :: tail ∧ ¬IsBlank ch ∧ ch ≠ ']' := by
  match v with
  | .null => exact ⟨'n', ['u', 'l', 'l'], by rw [print]; decide, by decide, by decide⟩
  | .bool true => exact ⟨'t', ['r', 'u', 'e'], by rw [print]; decide, by decide, by decide⟩
  | .bool false => exact ⟨'f', ['a', 'l', 's', 'e'], by rw [print]; decide, by decide, by decide⟩
  | .number n =>
    obtain ⟨ch, tail, heq, hch⟩ := n.exists_print_eq_cons
    refine ⟨ch, tail, by rw [print, heq], ?_⟩
    obtain rfl | ⟨d, rfl⟩ := hch
    · decide
    · clear heq
      revert d
      decide
  | .text s =>
    obtain ⟨body, heq, -⟩ := exists_quoted_eq_cons s
    exact ⟨'"', body, by rw [print, heq], by decide, by decide⟩
  | .array [] => exact ⟨'[', _, by rw [print], by decide, by decide⟩
  | .array (item :: items) => exact ⟨'[', _, by rw [print]; rfl, by decide, by decide⟩
  | .object [] => exact ⟨'{', _, by rw [print], by decide, by decide⟩
  | .object ((name, value) :: members) =>
    exact ⟨'{', _, by rw [print]; rfl, by decide, by decide⟩

theorem one_le_length_quoted (s : Option String) : 1 ≤ (quoted s).length := by
  obtain ⟨body, heq, -⟩ := exists_quoted_eq_cons s
  rw [heq, List.length_cons]
  omega

section Members

variable (layout : Layout)

/-- A member is read if its value is. -/
theorem readMember_text {layout : Layout} (hlayout : layout.IsBlank) {fuel level : ℕ}
    {blanks : List Char} (hblanks : ∀ ch ∈ blanks, IsBlank ch)
    (name : Option String) {value : Json} {rest : List Symbol}
    (hvalue : readValue fuel ((print layout level value).map some ++ rest) = some (value, rest)) :
    readMember (fuel + 1) (blanks.map some ++ ((quoted name).map some
        ++ (layout.colon.map some ++ ((print layout level value).map some ++ rest))))
      = some ((name, value), rest) := by
  obtain ⟨body, hquoted, hbody⟩ := exists_quoted_eq_cons name
  obtain ⟨before, after, hcolon, hbefore, hafter⟩ := hlayout.colon
  rw [readMember, skipBlank_append hblanks, hquoted, List.map_cons, List.cons_append,
    skipBlank_cons (by decide)]
  simp only [hbody, hcolon, List.map_append, List.map_cons, List.append_assoc, List.cons_append,
    Option.bind_eq_bind, Option.bind_some, skipBlank_append hbefore, skipBlank_cons (by decide :
      ¬IsBlank ':'), readValue_append hafter, hvalue]

/-- What stands behind an item goes on with no number. -/
theorem endsNumber_printItems (level : ℕ) (items : List Json) {rest : List Symbol}
    (hrest : EndsNumber rest) :
    EndsNumber ((printItems layout level items).map some ++ rest) := by
  cases items with
  | nil =>
    rw [printItems]
    exact hrest
  | cons item items =>
    rw [printItems]
    exact endsNumber_delimiter (Or.inl rfl) _

theorem endsNumber_printMembers (level : ℕ) (members : List (Option String × Json))
    {rest : List Symbol} (hrest : EndsNumber rest) :
    EndsNumber ((printMembers layout level members).map some ++ rest) := by
  cases members with
  | nil =>
    rw [printMembers]
    exact hrest
  | cons member members =>
    rw [printMembers]
    exact endsNumber_delimiter (Or.inl rfl) _

end Members

mutual

/-- **A printed value reads back as itself**, if the fuel is more than its length. -/
theorem readValue_print {layout : Layout} (hlayout : layout.IsBlank) (level : ℕ) (v : Json)
    {fuel : ℕ} (h : (print layout level v).length < fuel) {rest : List Symbol}
    (hrest : EndsNumber rest) :
    readValue fuel ((print layout level v).map some ++ rest) = some (v, rest) := by
  obtain ⟨fuel, rfl⟩ : ∃ f, fuel = f + 1 := ⟨fuel - 1, by omega⟩
  match v with
  | .null =>
    rw [print]
    rfl
  | .bool true =>
    rw [print]
    rfl
  | .bool false =>
    rw [print]
    rfl
  | .number n =>
    obtain ⟨ch, tail, heq, hch⟩ := n.exists_print_eq_cons
    have hread := readNumber_print n hrest
    rw [print]
    rw [heq, List.map_cons, List.cons_append] at hread ⊢
    rw [readValue_number hch, hread]
    rfl
  | .text s =>
    obtain ⟨body, heq, hbody⟩ := exists_quoted_eq_cons s
    rw [print, heq, List.map_cons, List.cons_append, readValue, skipBlank_cons (by decide)]
    simp only [hbody, Option.map_some]
  | .array [] =>
    rw [print]
    rfl
  | .array (item :: items) =>
    rw [print] at h ⊢
    simp only [List.length_append, List.length_cons] at h
    have hend : EndsNumber ((layout.lineBreak level).map some ++ some ']' :: rest) :=
      endsNumber_append (hlayout.lineBreak level) (endsNumber_delimiter (by simp) rest)
    have hitem := readValue_print hlayout (level + 1) item (show _ < fuel by omega)
      (endsNumber_printItems layout (level + 1) items hend)
    have hitems := readItems_print hlayout (level + 1) items (show _ < fuel by omega)
      (hlayout.lineBreak level) rest
    obtain ⟨ch, tail, heq, hblank, hclose⟩ := exists_print_eq_cons layout (level + 1) item
    simp only [List.map_append, List.map_cons, List.map_nil, List.append_assoc, List.cons_append,
      List.nil_append, heq] at hitem ⊢
    simp only [readValue, skipBlank_cons (by decide : ¬IsBlank '['),
      skipBlank_append (hlayout.lineBreak _), skipBlank_cons hblank]
    split
    · next hcons => exact absurd (Option.some.inj (List.cons.inj hcons).1) hclose
    · simp only [hitem, hitems, Option.bind_eq_bind, Option.bind_some]
  | .object [] =>
    rw [print]
    rfl
  | .object ((name, value) :: members) =>
    rw [print] at h ⊢
    simp only [List.length_append, List.length_cons] at h
    obtain ⟨body, hquoted, -⟩ := exists_quoted_eq_cons name
    have hname := one_le_length_quoted name
    obtain ⟨fuel, rfl⟩ : ∃ f, fuel = f + 1 := ⟨fuel - 1, by omega⟩
    have hend : EndsNumber ((layout.lineBreak level).map some ++ some '}' :: rest) :=
      endsNumber_append (hlayout.lineBreak level) (endsNumber_delimiter (by simp) rest)
    have hvalue := readValue_print hlayout (level + 1) value (show _ < fuel by omega)
      (endsNumber_printMembers layout (level + 1) members hend)
    have hmember := readMember_text hlayout (List.forall_mem_nil IsBlank) name hvalue
    have hmembers := readMembers_print hlayout (level + 1) members (show _ < fuel + 1 by omega)
      (hlayout.lineBreak level) rest
    simp only [List.map_append, List.map_cons, List.map_nil, List.append_assoc, List.cons_append,
      List.nil_append, hquoted] at hmember ⊢
    simp only [readValue, skipBlank_cons (by decide : ¬IsBlank '{'),
      skipBlank_append (hlayout.lineBreak _), skipBlank_cons (by decide : ¬IsBlank '"')]
    split
    · next hcons => exact absurd (Option.some.inj (List.cons.inj hcons).1) (by decide)
    · simp only [hmember, hmembers, Option.bind_eq_bind, Option.bind_some]

/-- The items of a printed array after the first one read back, with the closing bracket. -/
theorem readItems_print {layout : Layout} (hlayout : layout.IsBlank) (level : ℕ) (items : List Json)
    {fuel : ℕ} (h : (printItems layout level items).length < fuel) {blanks : List Char}
    (hblanks : ∀ ch ∈ blanks, IsBlank ch) (rest : List Symbol) :
    readItems fuel ((printItems layout level items).map some
      ++ (blanks.map some ++ some ']' :: rest)) = some (items, rest) := by
  obtain ⟨fuel, rfl⟩ : ∃ f, fuel = f + 1 := ⟨fuel - 1, by omega⟩
  have hend : EndsNumber (blanks.map some ++ some ']' :: rest) :=
    endsNumber_append hblanks (endsNumber_delimiter (by simp) rest)
  match items with
  | [] =>
    rw [printItems, List.map_nil, List.nil_append, readItems, skipBlank_append hblanks,
      skipBlank_cons (by decide)]
    rfl
  | item :: items =>
    rw [printItems] at h ⊢
    simp only [List.length_append, List.length_cons] at h
    have hitem := readValue_print hlayout level item (show _ < fuel by omega)
      (endsNumber_printItems layout level items hend)
    have hitems := readItems_print hlayout level items (show _ < fuel by omega) hblanks rest
    simp only [List.map_append, List.map_cons, List.append_assoc, List.cons_append]
    simp only [readItems, skipBlank_cons (by decide : ¬IsBlank ','),
      readValue_append (hlayout.lineBreak _), hitem, hitems, Option.bind_eq_bind, Option.bind_some]

/-- The members of a printed object after the first one read back, with the closing brace. -/
theorem readMembers_print {layout : Layout} (hlayout : layout.IsBlank) (level : ℕ)
    (members : List (Option String × Json)) {fuel : ℕ}
    (h : (printMembers layout level members).length < fuel) {blanks : List Char}
    (hblanks : ∀ ch ∈ blanks, IsBlank ch) (rest : List Symbol) :
    readMembers fuel ((printMembers layout level members).map some
      ++ (blanks.map some ++ some '}' :: rest)) = some (members, rest) := by
  obtain ⟨fuel, rfl⟩ : ∃ f, fuel = f + 1 := ⟨fuel - 1, by omega⟩
  have hend : EndsNumber (blanks.map some ++ some '}' :: rest) :=
    endsNumber_append hblanks (endsNumber_delimiter (by simp) rest)
  match members with
  | [] =>
    rw [printMembers, List.map_nil, List.nil_append, readMembers, skipBlank_append hblanks,
      skipBlank_cons (by decide)]
    rfl
  | (name, value) :: members =>
    rw [printMembers] at h ⊢
    simp only [List.length_append, List.length_cons] at h
    have hname := one_le_length_quoted name
    obtain ⟨fuel, rfl⟩ : ∃ f, fuel = f + 1 := ⟨fuel - 1, by omega⟩
    have hvalue := readValue_print hlayout level value (show _ < fuel by omega)
      (endsNumber_printMembers layout level members hend)
    have hmember := readMember_text hlayout (hlayout.lineBreak level) name hvalue
    have hmembers := readMembers_print hlayout level members (show _ < fuel + 1 by omega) hblanks
      rest
    simp only [List.map_append, List.map_cons, List.append_assoc, List.cons_append]
    rw [readMembers, skipBlank_cons (by decide)]
    simp only [hmember, hmembers, Option.bind_eq_bind, Option.bind_some]

end

/-! ## Bytes -/

/-- The bytes of an array from a place on, with those before it. -/
theorem toList_loop (bytes : ByteArray) (i : ℕ) (rest : List UInt8) :
    ByteArray.toList.loop bytes i rest = rest.reverse ++ bytes.data.toList.drop i := by
  fun_induction ByteArray.toList.loop bytes i rest with
  | case1 i rest hi ih =>
    have hlen : i < bytes.data.toList.length := hi
    have hget : bytes.get! i = bytes.data.toList[i] := getElem!_pos bytes.data i hi
    rw [ih, List.drop_eq_getElem_cons hlen, List.reverse_cons, List.append_assoc, hget]
    rfl
  | case2 i rest hi =>
    rw [List.drop_eq_nil_of_le (not_lt.mp hi), List.append_nil]

/-- The bytes of a text are those of its characters. -/
theorem toList_toUTF8 (s : String) : s.toUTF8.toList = s.toList.flatMap String.utf8EncodeChar := by
  have hutf8 : s.toUTF8 = (s.toList.flatMap String.utf8EncodeChar).toByteArray :=
    String.utf8Encode_toList.symm
  rw [hutf8, ByteArray.toList, toList_loop, List.toList_data_toByteArray]
  rfl

/-- **The bytes of a character are read as the character**, whatever follows. -/
theorem symbolsOfBytes_char (ch : Char) (rest : List UInt8) :
    symbolsOfBytes (String.utf8EncodeChar ch ++ rest) = some ch :: symbolsOfBytes rest := by
  have hlen := String.length_utf8EncodeChar ch
  have hle := ch.utf8Size_le_four
  -- the window of four bytes holds the character and the start of what follows
  have hwindow : ByteArray.utf8DecodeChar?
      ⟨((String.utf8EncodeChar ch ++ rest).take 4).toArray⟩ 0 = some ch := by
    have htake : (⟨((String.utf8EncodeChar ch ++ rest).take 4).toArray⟩ : ByteArray)
        = (String.utf8EncodeChar ch).toByteArray ++ (rest.take (4 - ch.utf8Size)).toByteArray := by
      rw [List.take_append, List.take_of_length_le (by omega), hlen, ← List.toByteArray_append]
      exact ByteArray.ext (by rw [List.data_toByteArray])
    rw [htake]
    exact ByteArray.utf8DecodeChar?_utf8EncodeChar_append
  obtain ⟨b, bytes, hbytes⟩ : ∃ b bytes, String.utf8EncodeChar ch = b :: bytes :=
    List.exists_cons_of_length_pos (by have := ch.utf8Size_pos; omega)
  have hdrop : ch.utf8Size - 1 = bytes.length := by rw [← hlen, hbytes]; rfl
  rw [hbytes, List.cons_append] at hwindow ⊢
  rw [symbolsOfBytes, hwindow]
  dsimp only
  rw [hdrop, List.drop_left]

/-- The symbols of a text are those of its bytes. -/
theorem symbolsOfBytes_toUTF8 (s : String) : symbolsOfBytes s.toUTF8.toList = symbols s := by
  rw [toList_toUTF8, symbols]
  induction s.toList with
  | nil => rw [List.flatMap_nil, symbolsOfBytes, List.map_nil]
  | cons ch chars ih => rw [List.flatMap_cons, symbolsOfBytes_char, ih, List.map_cons]

/-! ## Whole texts -/

/-- **A printed text spells the value that was printed.** -/
theorem ofSymbols?_print {layout : Layout} (hlayout : layout.IsBlank) (level : ℕ) (v : Json) :
    ofSymbols? ((print layout level v).map some) = some v := by
  have hread :=
    readValue_print hlayout level v (Nat.lt_succ_self _) (show EndsNumber [] from trivial)
  rw [List.append_nil] at hread
  unfold ofSymbols?
  rw [List.length_map, hread]
  rfl

theorem ofString?_pretty (v : Json) : ofString? v.pretty = some v := by
  unfold ofString? symbols pretty
  rw [String.toList_ofList, ofSymbols?_print isBlank_prettyLayout]

/-- A written file holds the value that was written. -/
theorem ofBytes?_pretty (v : Json) : ofBytes? v.pretty.toUTF8 = some v := by
  unfold ofBytes?
  rw [symbolsOfBytes_toUTF8]
  exact ofString?_pretty v

theorem ofString?_compact (v : Json) : ofString? v.compact = some v := by
  unfold ofString? symbols compact
  rw [String.toList_ofList, ofSymbols?_print isBlank_compactLayout]

end Json

end WeakForm
