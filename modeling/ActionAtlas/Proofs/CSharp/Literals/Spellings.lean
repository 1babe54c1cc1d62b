import ActionAtlas.Proofs.CSharp.Literals.Standing

/-!
The ways to write a character between quotes: as itself, by a letter behind a backslash, or by its
number in hexadecimal digits. However the characters of a text are written, the literal stands for
that text, and the literal of a single character for that character.
-/

namespace ActionAtlas.CSharp.Literal

open Text (digitValue? natural? valueOf?)

/-! ### Hexadecimal digits -/

structure HexDigit where
  value : Fin 16
  isUpper : Bool
deriving DecidableEq, Repr

namespace HexDigit

def char (digit : HexDigit) : Char :=
  if digit.value.val < 10 then Char.ofNat (48 + digit.value)
  else if digit.isUpper then Char.ofNat (55 + digit.value)
  else Char.ofNat (87 + digit.value)

def chars (digits : List HexDigit) : List Char :=
  digits.map char

/-- The number that digits spell behind those of `total`. -/
def numberFrom (total : Nat) : List HexDigit → Nat
  | [] => total
  | digit :: others => numberFrom (16 * total + digit.value) others

def number (digits : List HexDigit) : Nat :=
  numberFrom 0 digits

theorem length_chars (digits : List HexDigit) : (chars digits).length = digits.length :=
  List.length_map _

theorem digitValue?_char (digit : HexDigit) : digitValue? 16 digit.char = some digit.value.val := by
  obtain ⟨value, isUpper⟩ := digit
  revert value isUpper
  decide

theorem isHex_char (digit : HexDigit) : isHex digit.char = true := by
  rw [isHex, digitValue?_char]
  rfl

theorem valueOf?_chars (digits : List HexDigit) (total : Nat) :
    valueOf? 16 total (chars digits) = some (numberFrom total digits) := by
  induction digits generalizing total with
  | nil => rfl
  | cons digit others ih =>
      have step := ih (total * 16 + digit.value)
      rw [Nat.mul_comm] at step
      rw [chars, List.map_cons, valueOf?, digitValue?_char, Option.bind_some, Nat.mul_comm]
      exact step

theorem natural?_chars {digits : List HexDigit} (some : digits ≠ []) :
    natural? 16 (chars digits) = .some (number digits) := by
  have visible : (chars digits).isEmpty = false := by
    simpa [chars] using some
  rw [natural?, visible, if_neg Bool.false_ne_true, valueOf?_chars, number]

/-- Every character that is read as a digit is one. -/
theorem exists_char_of_isHex {c : Char} (hex : isHex c = true) :
    ∃ digit : HexDigit, digit.char = c := by
  have offset {low : Nat} (above : low ≤ c.toNat) : Char.ofNat (low + (c.toNat - low)) = c := by
    rw [Nat.add_sub_cancel' above, Char.ofNat_toNat]
  rw [isHex, digitValue?] at hex
  by_cases isDigit : c.isDigit = true
  · have above : 48 ≤ c.toNat ∧ c.toNat ≤ 57 := by
      simpa [Char.isDigit, UInt32.le_iff_toNat_le] using isDigit
    refine ⟨⟨⟨c.toNat - 48, by omega⟩, false⟩, ?_⟩
    have small : c.toNat - 48 < 10 := by omega
    simp [char, small, offset above.1]
  · by_cases isLower : 'a' ≤ c ∧ c ≤ 'f'
    · have above : 97 ≤ c.toNat ∧ c.toNat ≤ 102 := by
        simpa [Char.le_def, UInt32.le_iff_toNat_le] using isLower
      refine ⟨⟨⟨c.toNat - 87, by omega⟩, false⟩, ?_⟩
      have large : ¬c.toNat - 87 < 10 := by omega
      have low : 87 ≤ c.toNat := by omega
      simp [char, large, offset low]
    · by_cases isUpper : 'A' ≤ c ∧ c ≤ 'F'
      · have above : 65 ≤ c.toNat ∧ c.toNat ≤ 70 := by
          simpa [Char.le_def, UInt32.le_iff_toNat_le] using isUpper
        refine ⟨⟨⟨c.toNat - 55, by omega⟩, true⟩, ?_⟩
        have large : ¬c.toNat - 55 < 10 := by omega
        have low : 55 ≤ c.toNat := by omega
        simp [char, large, offset low]
      · simp [isDigit, isLower, isUpper] at hex

theorem char_ne {digit : HexDigit} {c : Char} (other : isHex c = false) : digit.char ≠ c := by
  rintro rfl
  rw [isHex_char] at other
  cases other

end HexDigit

/-! ### Spellings -/

/-- Letters behind a backslash, and the characters they stand for. -/
def simpleEscapes : List (Char × Char) :=
  [('\x27', '\x27'), ('"', '"'), ('\\', '\\'), ('0', '\x00'), ('a', '\x07'), ('b', '\x08'),
   ('e', '\x1b'), ('f', '\x0c'), ('n', '\n'), ('r', '\r'), ('t', '\t'), ('v', '\x0b')]

/-- The text is a way to write the value between two quotes of this kind. -/
inductive Spells (quote : Char) : List Char → List Char → Prop
  | nil : Spells quote [] []
  | itself {c : Char} {text value : List Char} (ordinary : c ≠ '\\' ∧ c ≠ quote ∧ c ≠ '\n')
      (rest : Spells quote text value) : Spells quote (c :: text) (c :: value)
  | simple {letter c : Char} {text value : List Char} (escape : (letter, c) ∈ simpleEscapes)
      (rest : Spells quote text value) : Spells quote ('\\' :: letter :: text) (c :: value)
  | fourDigits {digits : List HexDigit} {c : Char} {text value : List Char}
      (four : digits.length = 4) (number : HexDigit.number digits = c.toNat)
      (rest : Spells quote text value) :
      Spells quote ('\\' :: 'u' :: HexDigit.chars digits ++ text) (c :: value)
  | eightDigits {digits : List HexDigit} {c : Char} {text value : List Char}
      (eight : digits.length = 8) (number : HexDigit.number digits = c.toNat)
      (rest : Spells quote text value) :
      Spells quote ('\\' :: 'U' :: HexDigit.chars digits ++ text) (c :: value)
  /-- One to four digits. If there are fewer than four, what follows is no digit. -/
  | someDigits {digits : List HexDigit} {c : Char} {text value : List Char}
      (few : 1 ≤ digits.length ∧ digits.length ≤ 4)
      (ends : digits.length = 4 ∨ ∀ digit : HexDigit, text.head? ≠ some digit.char)
      (number : HexDigit.number digits = c.toNat) (rest : Spells quote text value) :
      Spells quote ('\\' :: 'x' :: HexDigit.chars digits ++ text) (c :: value)

theorem scalar?_toNat (c : Char) : scalar? c.toNat = some c := by
  have valid : c.toNat < 0xD800 ∨ 0xDFFF < c.toNat ∧ c.toNat < 0x110000 := c.valid
  rw [scalar?, if_pos valid, Char.ofNat_toNat]

theorem hexScalar?_eq_scalar? {digits : List HexDigit} (some : digits ≠ []) :
    hexScalar? (HexDigit.chars digits) = scalar? (HexDigit.number digits) := by
  have unsigned : Text.dropInitial? ['+'] (HexDigit.chars digits) = none := by
    cases digits with
    | nil => rfl
    | cons digit others => exact if_neg (HexDigit.char_ne (by decide)).symm
  rw [hexScalar?, unsigned, Option.getD_none, HexDigit.natural?_chars some, Option.bind_some]

theorem hexScalar?_chars {digits : List HexDigit} {c : Char} (some : digits ≠ [])
    (number : HexDigit.number digits = c.toNat) :
    hexScalar? (HexDigit.chars digits) = .some c := by
  rw [hexScalar?_eq_scalar? some, number, scalar?_toNat]

theorem shortHex_chars {digits : List HexDigit} {text : List Char} (few : digits.length ≤ 4)
    (ends : digits.length = 4 ∨ ∀ digit : HexDigit, text.head? ≠ some digit.char) :
    shortHex (HexDigit.chars digits ++ text) = HexDigit.chars digits := by
  have all : ∀ c ∈ HexDigit.chars digits, isHex c = true := by
    intro c inside
    obtain ⟨digit, -, rfl⟩ := List.mem_map.mp inside
    exact digit.isHex_char
  have short : (HexDigit.chars digits).length ≤ 4 := by rwa [HexDigit.length_chars]
  rw [shortHex, List.take_append, List.take_of_length_le short, HexDigit.length_chars,
    List.takeWhile_append_of_pos all]
  have stops : (text.take (4 - digits.length)).takeWhile isHex = [] := by
    rcases ends with four | noDigit
    · rw [four]
      rfl
    · cases text with
      | nil => rw [List.take_nil, List.takeWhile_nil]
      | cons c rest =>
          have other : ¬isHex c = true := by
            intro hex
            obtain ⟨digit, rfl⟩ := HexDigit.exists_char_of_isHex hex
            exact noDigit digit rfl
          cases 4 - digits.length with
          | zero => rfl
          | succ count => rw [List.take_succ_cons, List.takeWhile_cons, if_neg other]
  rw [stops, List.append_nil]

/-! ### Reading -/

theorem simpleEscape?_of_mem : ∀ escape ∈ simpleEscapes,
    (escape.1 ≠ 'u' ∧ escape.1 ≠ 'U' ∧ escape.1 ≠ 'x') ∧
      simpleEscape? escape.1 = some escape.2 := by
  decide

theorem unescape?_simple {letter c : Char} (escape : (letter, c) ∈ simpleEscapes)
    (text : List Char) : unescape? ('\\' :: letter :: text) = (unescape? text).map (c :: ·) := by
  obtain ⟨⟨noFour, noEight, noSome⟩, read⟩ := simpleEscape?_of_mem _ escape
  rw [unescape?, read, Option.bind_some]
  · exact noFour
  · exact noEight
  · exact noSome

theorem unescape?_itself {c : Char} (ordinary : c ≠ '\\') (text : List Char) :
    unescape? (c :: text) = (unescape? text).map (c :: ·) := by
  rw [unescape?]
  all_goals intros; exact ordinary ‹_›

theorem take_chars {digits : List HexDigit} {count : Nat} (length_eq : digits.length = count)
    (text : List Char) : (HexDigit.chars digits ++ text).take count = HexDigit.chars digits :=
  List.take_left' (by rw [HexDigit.length_chars, length_eq])

theorem drop_chars {digits : List HexDigit} {count : Nat} (length_eq : digits.length = count)
    (text : List Char) : (HexDigit.chars digits ++ text).drop count = text :=
  List.drop_left' (by rw [HexDigit.length_chars, length_eq])

theorem unescape?_fourDigits {digits : List HexDigit} (four : digits.length = 4)
    (text : List Char) : unescape? ('\\' :: 'u' :: (HexDigit.chars digits ++ text)) =
      (hexScalar? (HexDigit.chars digits)).bind fun c => (unescape? text).map (c :: ·) := by
  rw [unescape?, take_chars four, drop_chars four, HexDigit.length_chars, if_pos four]

/-- A digit that follows would be read with the digits before it. -/
def BeginsWithoutDigit (text : List Char) : Prop :=
  ∀ digit : HexDigit, text.head? ≠ some digit.char

theorem beginsWithoutDigit_nil : BeginsWithoutDigit [] := by
  intro digit same
  cases same

theorem BeginsWithoutDigit.append {text tail : List Char} (begins : BeginsWithoutDigit text)
    (tailBegins : BeginsWithoutDigit tail) : BeginsWithoutDigit (text ++ tail) := by
  cases text with
  | nil => exact tailBegins
  | cons c rest => exact begins

theorem unescape?_append_of_spells {quote : Char} {text value : List Char}
    (spells : Spells quote text value) {tail : List Char} (begins : BeginsWithoutDigit tail) :
    unescape? (text ++ tail) = (unescape? tail).map (value ++ ·) := by
  have further (c : Char) (value : List Char) :
      ((unescape? tail).map (value ++ ·)).map (c :: ·) =
        (unescape? tail).map (c :: value ++ ·) := by
    rw [Option.map_map]
    rfl
  induction spells with
  | nil =>
      rw [List.nil_append]
      exact Option.map_id'.symm
  | itself ordinary rest ih =>
      rw [List.cons_append, unescape?_itself ordinary.1, ih]
      exact further _ _
  | simple escape rest ih =>
      rw [List.cons_append, List.cons_append, unescape?_simple escape, ih]
      exact further _ _
  | @fourDigits digits c text value four number rest ih =>
      have some : digits ≠ [] := List.ne_nil_of_length_eq_add_one four
      simp only [List.cons_append, List.append_assoc]
      rw [unescape?_fourDigits four, hexScalar?_chars some number, Option.bind_some, ih]
      exact further _ _
  | @eightDigits digits c text value eight number rest ih =>
      have some : digits ≠ [] := List.ne_nil_of_length_eq_add_one eight
      simp only [List.cons_append, List.append_assoc]
      rw [unescape?, take_chars eight, drop_chars eight, HexDigit.length_chars,
        if_pos eight, hexScalar?_chars some number, Option.bind_some, ih]
      exact further _ _
  | @someDigits digits c text value few ends number rest ih =>
      have some : digits ≠ [] := List.ne_nil_of_length_pos few.1
      have endsBefore : digits.length = 4 ∨ BeginsWithoutDigit (text ++ tail) :=
        ends.imp_right fun noDigit => BeginsWithoutDigit.append noDigit begins
      simp only [List.cons_append, List.append_assoc]
      rw [unescape?, shortHex_chars few.2 endsBefore, HexDigit.length_chars,
        drop_chars rfl, hexScalar?_chars some number, Option.bind_some, ih]
      exact further _ _

theorem unescape?_of_spells {quote : Char} {text value : List Char}
    (spells : Spells quote text value) : unescape? text = some value := by
  have whole := unescape?_append_of_spells spells beginsWithoutDigit_nil
  rwa [List.append_nil, unescape?, Option.map_some, List.append_nil] at whole

/-! ### Extents -/

theorem regular_cons {quote c : Char} (ordinary : c ≠ '\\' ∧ c ≠ quote) (rest : List Char) :
    Extent.regular quote (c :: rest) = Extent.regular quote rest + 1 := by
  rw [Extent.regular, if_neg ordinary.2]
  intro escaped more backslash
  exact absurd backslash ordinary.1

theorem regular_append {quote : Char} {text : List Char}
    (ordinary : ∀ c ∈ text, c ≠ '\\' ∧ c ≠ quote) (rest : List Char) :
    Extent.regular quote (text ++ rest) = Extent.regular quote rest + text.length := by
  induction text with
  | nil => rfl
  | cons c more ih =>
      rw [List.forall_mem_cons] at ordinary
      rw [List.cons_append, regular_cons ordinary.1, ih ordinary.2, List.length_cons]
      omega

theorem regular_chars {quote : Char} (noDigit : isHex quote = false) (digits : List HexDigit)
    (rest : List Char) :
    Extent.regular quote (HexDigit.chars digits ++ rest) =
      Extent.regular quote rest + digits.length := by
  rw [regular_append _ rest, HexDigit.length_chars]
  intro c inside
  obtain ⟨digit, -, rfl⟩ := List.mem_map.mp inside
  exact ⟨HexDigit.char_ne rfl, HexDigit.char_ne noDigit⟩

/-- What is written between quotes has no quote that ends it. -/
theorem regular_append_of_spells {quote : Char} (noDigit : isHex quote = false)
    {text value : List Char} (spells : Spells quote text value) (rest : List Char) :
    Extent.regular quote (text ++ rest) = Extent.regular quote rest + text.length := by
  have hexEscape (letter : Char) (digits : List HexDigit) (more : List Char)
      (behind : Extent.regular quote (more ++ rest) = Extent.regular quote rest + more.length) :
      Extent.regular quote ('\\' :: letter :: HexDigit.chars digits ++ more ++ rest) =
        Extent.regular quote rest + ('\\' :: letter :: HexDigit.chars digits ++ more).length := by
    simp only [List.cons_append, List.append_assoc, Extent.regular, regular_chars noDigit, behind,
      List.length_cons, List.length_append, HexDigit.length_chars]
    omega
  induction spells with
  | nil => rfl
  | itself ordinary others ih =>
      rw [List.cons_append, regular_cons ⟨ordinary.1, ordinary.2.1⟩, ih, List.length_cons,
        Nat.add_assoc]
  | simple escape others ih =>
      rw [List.cons_append, List.cons_append, Extent.regular, ih, List.length_cons,
        List.length_cons, Nat.add_assoc]
  | fourDigits four number others ih => exact hexEscape _ _ _ ih
  | eightDigits eight number others ih => exact hexEscape _ _ _ ih
  | someDigits few ends number others ih => exact hexEscape _ _ _ ih

theorem regular_quote {quote : Char} (noEscape : quote ≠ '\\') (rest : List Char) :
    Extent.regular quote (quote :: rest) = 1 := by
  rw [Extent.regular, if_pos rfl]
  intro escaped more backslash
  exact absurd backslash noEscape

/-- What is written between quotes reaches to the closing one. -/
theorem regular_of_spells {quote : Char} (noDigit : isHex quote = false) (noEscape : quote ≠ '\\')
    {text value : List Char} (spells : Spells quote text value) (rest : List Char) :
    Extent.regular quote (text ++ quote :: rest) = text.length + 1 := by
  rw [regular_append_of_spells noDigit spells, regular_quote noEscape, Nat.add_comm]

theorem head?_of_spells {quote : Char} (noEscape : quote ≠ '\\') {text value : List Char}
    (spells : Spells quote text value) : text.head? ≠ some quote := by
  cases spells with
  | nil => simp
  | itself ordinary others => exact fun same => ordinary.2.1 (Option.some.inj same)
  | _ => exact fun same => noEscape (Option.some.inj same).symm

/-- A text in which no quote stands first or ends it is a string between quotes. -/
theorem token_quoted {text rest : List Char} (unquoted : text.head? ≠ some '"')
    (reaches : ∀ behind, Extent.regular '"' (text ++ behind) =
      Extent.regular '"' behind + text.length) (follows : MayFollow rest) :
    Extent.token '"' (text ++ ['"'] ++ rest) = (.string, (text ++ ['"']).length + 1) := by
  have closed : Extent.regular '"' (text ++ '"' :: rest) = text.length + 1 := by
    rw [reaches, regular_quote (by decide), Nat.add_comm]
  have fence : Extent.quotes ('"' :: (text ++ '"' :: rest)) < 3 := by
    cases text with
    | nil =>
        have two := Extent.quotes_replicate 2 follows.unquoted
        exact Nat.lt_of_le_of_lt (Nat.le_of_eq two) (by decide)
    | cons c more =>
        have first : (c :: (more ++ '"' :: rest)).head? ≠ some '"' := unquoted
        have one := Extent.quotes_replicate 1 first
        exact Nat.lt_of_le_of_lt (Nat.le_of_eq one) (by decide)
  rw [Extent.token_quote, List.append_assoc, List.singleton_append, Extent.string,
    if_neg (Nat.not_le.mpr fence)]
  have behind : (text ++ '"' :: rest).drop (text.length + 1) = rest := by
    rw [List.append_cons]
    exact List.drop_left' List.length_append
  simp only [List.drop_succ_cons, List.drop_zero, closed, Nat.add_comm 1, behind,
    follows.unencoded, Nat.add_zero, List.length_append, List.length_singleton]

theorem token_string {text value rest : List Char} (spells : Spells '"' text value)
    (follows : MayFollow rest) :
    Extent.token '"' (text ++ ['"'] ++ rest) = (.string, (text ++ ['"']).length + 1) :=
  token_quoted (head?_of_spells (by decide) spells) (regular_append_of_spells rfl spells) follows

theorem token_character {text value rest : List Char} (spells : Spells '\x27' text value) :
    Extent.token '\x27' (text ++ ['\x27'] ++ rest) =
      (.character, (text ++ ['\x27']).length + 1) := by
  have closed : Extent.regular '\x27' (text ++ ['\x27'] ++ rest) = text.length + 1 := by
    rw [List.append_assoc]
    exact regular_of_spells rfl (by decide) spells rest
  have extent (behind : List Char) :
      Extent.token '\x27' behind = (.character, 1 + Extent.regular '\x27' behind) := rfl
  rw [extent, closed, List.length_append, List.length_singleton, Nat.add_comm 1]

/-! ### Values -/

theorem constant?_string {text value : List Char} (spells : Spells '"' text value) :
    constant? .string ('"' :: (text ++ ['"'])) = some (.string (String.ofList value)) := by
  have inner : between? ['"'] ['"'] ('"' :: (text ++ ['"'])) = some text :=
    between?_append ['"'] text ['"']
  rw [constant?, string?, inner, Option.bind_some, unescape?_of_spells spells, Option.map_some]

theorem constant?_character {text : List Char} {c : Char} (spells : Spells '\x27' text [c]) :
    constant? .character ('\x27' :: (text ++ ['\x27'])) = some (.char c) := by
  have inner : between? ['\x27'] ['\x27'] ('\x27' :: (text ++ ['\x27'])) = some text :=
    between?_append ['\x27'] text ['\x27']
  have read : character? ('\x27' :: (text ++ ['\x27'])) = some c := by
    rw [character?, inner, Option.bind_some, unescape?_of_spells spells]
  rw [constant?, read, Option.map_some]

/-- A literal stands for the text that is written between its quotes, in whatever mixture of
spellings, and for the character if there is one between two apostrophes. -/
theorem denotes_of_spells :
    (∀ (value : String) (text : List Char), Spells '"' text value.toList →
      Denotes ('"' :: (text ++ ['"'])) (.string value)) ∧
    ∀ (c : Char) (text : List Char), Spells '\x27' text [c] →
      Denotes ('\x27' :: (text ++ ['\x27'])) (.char c) := by
  constructor
  · intro value text spells
    have constant := constant?_string spells
    rw [String.ofList_toList] at constant
    exact denotes_of_extent rfl (by decide) (fun rest => token_string spells) constant
  · intro c text spells
    exact denotes_of_extent rfl (by decide) (fun rest _ => token_character spells)
      (constant?_character spells)

/-- A mixture of all spellings. Behind the first escape stands a letter that is no digit. -/
def mixedSpelling : List Char :=
  "\\x41g\\t\\u00E9\\U0001f600\\\"".toList

theorem spells_mixedSpelling : Spells '"' mixedSpelling "Ag\té😀\"".toList := by
  have noDigit : ∀ digit : HexDigit, some 'g' ≠ some digit.char := by
    intro digit same
    exact HexDigit.char_ne rfl (Option.some.inj same).symm
  have quote : Spells '"' ['\\', '"'] ['"'] := .simple (by decide) .nil
  have face : Spells '"' ('\\' :: 'U' :: HexDigit.chars [⟨0, false⟩, ⟨0, false⟩, ⟨0, false⟩,
      ⟨1, false⟩, ⟨15, false⟩, ⟨6, false⟩, ⟨0, false⟩, ⟨0, false⟩] ++ _) ('😀' :: _) :=
    .eightDigits rfl (by decide) quote
  have accent : Spells '"' ('\\' :: 'u' :: HexDigit.chars [⟨0, false⟩, ⟨0, false⟩, ⟨14, true⟩,
      ⟨9, false⟩] ++ _) ('é' :: _) := .fourDigits rfl (by decide) face
  have tab : Spells '"' ('\\' :: 't' :: _) ('\t' :: _) := .simple (by decide) accent
  have letter : Spells '"' ('g' :: _) ('g' :: _) := .itself (by decide) tab
  have capital : Spells '"' ('\\' :: 'x' :: HexDigit.chars [⟨4, false⟩, ⟨1, false⟩] ++ 'g' :: _)
      ('A' :: _) := .someDigits (by decide) (.inr noDigit) (by decide) letter
  exact capital

theorem denotes_of_spells_mixed :
    Spells '"' mixedSpelling "Ag\té😀\"".toList ∧
      Denotes ('"' :: (mixedSpelling ++ ['"'])) (.string "Ag\té😀\"") ∧
      Denotes ['\x27', '\\', 'x', 'e', '9', '\x27'] (.char 'é') := by
  have accent : Spells '\x27' ('\\' :: 'x' :: HexDigit.chars [⟨14, false⟩, ⟨9, false⟩] ++ [])
      ['é'] := .someDigits (by decide) (.inr (by simp)) (by decide) .nil
  obtain ⟨ofText, ofCharacter⟩ := denotes_of_spells
  exact ⟨spells_mixedSpelling, ofText _ _ spells_mixedSpelling, ofCharacter 'é' _ accent⟩

end ActionAtlas.CSharp.Literal
