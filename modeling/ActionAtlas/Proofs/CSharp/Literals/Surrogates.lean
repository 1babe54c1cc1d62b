import ActionAtlas.Proofs.CSharp.Literals.Evaluation
import ActionAtlas.Proofs.CSharp.Literals.Spellings

/-!
Characters beyond the first 65536, written by their two code units of UTF-16. Each unit has an
escape of its own, which stands for no character by itself, and the two are not put together: a
literal with such a pair has no constant, and what is left of it is its text.
-/

namespace ActionAtlas.CSharp.Literal

open Text (natural?)

/-- The digits of the high and of the low code unit of a character. -/
structure IsPair (high low : List HexDigit) (c : Char) : Prop where
  beyond : 0xFFFF < c.toNat
  highFour : high.length = 4
  lowFour : low.length = 4
  high_eq : HexDigit.number high = 0xD800 + (c.toNat - 0x10000) / 0x400
  low_eq : HexDigit.number low = 0xDC00 + (c.toNat - 0x10000) % 0x400

def pairText (high low : List HexDigit) : List Char :=
  '\\' :: 'u' :: (HexDigit.chars high ++ '\\' :: 'u' :: HexDigit.chars low)

/-- The text and the direct one are written alike between two quotes and stand for the value, but
in the text so many characters are written as pairs, which are themselves in the direct one. -/
inductive SpellsInUnits : Nat → List Char → List Char → List Char → Prop
  | whole {text value : List Char} (spells : Spells '"' text value) :
      SpellsInUnits 0 text text value
  | pair {pairs : Nat} {before front high low c after direct behind}
      (spells : Spells '"' before front) (isPair : IsPair high low c)
      (rest : SpellsInUnits pairs after direct behind) :
      SpellsInUnits (pairs + 1) (before ++ (pairText high low ++ after)) (before ++ c :: direct)
        (front ++ c :: behind)

def quoted (text : List Char) : List Char :=
  '"' :: (text ++ ['"'])

variable {high low : List HexDigit} {c : Char}

/-! ### The direct text -/

theorem HexDigit.toNat_char_le (digit : HexDigit) : digit.char.toNat ≤ 0xFFFF := by
  obtain ⟨value, isUpper⟩ := digit
  revert value isUpper
  decide

theorem beginsWithoutDigit_beyond (beyond : 0xFFFF < c.toNat) (text : List Char) :
    BeginsWithoutDigit (c :: text) := by
  intro digit same
  have char_eq : c = digit.char := Option.some.inj same
  have low := digit.toNat_char_le
  rw [← char_eq] at low
  omega

theorem Spells.append {quote : Char} {text value : List Char} (spells : Spells quote text value)
    {tail more : List Char} (begins : BeginsWithoutDigit tail) (rest : Spells quote tail more) :
    Spells quote (text ++ tail) (value ++ more) := by
  induction spells with
  | nil => exact rest
  | itself ordinary others ih => exact .itself ordinary ih
  | simple escape others ih => exact .simple escape ih
  | fourDigits four number others ih =>
      rw [List.append_assoc]
      exact .fourDigits four number ih
  | eightDigits eight number others ih =>
      rw [List.append_assoc]
      exact .eightDigits eight number ih
  | someDigits few ends number others ih =>
      have endsBefore := ends.imp_right fun noDigit => BeginsWithoutDigit.append noDigit begins
      rw [List.append_assoc]
      exact .someDigits few endsBefore number ih

theorem SpellsInUnits.spells_direct {pairs : Nat} {text direct value : List Char}
    (spells : SpellsInUnits pairs text direct value) : Spells '"' direct value := by
  induction spells with
  | whole spells => exact spells
  | @pair pairs before front high low c after direct behind spells isPair rest ih =>
      have ordinary : c ≠ '\\' ∧ c ≠ '"' ∧ c ≠ '\n' := by
        have beyond := isPair.beyond
        refine ⟨?_, ?_, ?_⟩ <;>
          · rintro rfl
            revert beyond
            decide
      exact spells.append (beginsWithoutDigit_beyond isPair.beyond direct) (.itself ordinary ih)

/-! ### The text with pairs -/

theorem scalar?_unit {n : Nat} (isUnit : 0xD800 ≤ n ∧ n ≤ 0xDFFF) : scalar? n = none := by
  have noScalar : ¬(n < 0xD800 ∨ 0xDFFF < n ∧ n < 0x110000) := by omega
  rw [scalar?, if_neg noScalar]

theorem unescape?_pairText (isPair : IsPair high low c) (after : List Char) :
    unescape? (pairText high low ++ after) = none := by
  have some : high ≠ [] := List.ne_nil_of_length_eq_add_one isPair.highFour
  have isUnit : 0xD800 ≤ HexDigit.number high ∧ HexDigit.number high ≤ 0xDFFF := by
    have valid : c.toNat < 0xD800 ∨ 0xDFFF < c.toNat ∧ c.toNat < 0x110000 := c.valid
    rw [isPair.high_eq]
    omega
  rw [pairText, List.cons_append, List.cons_append, List.append_assoc,
    unescape?_fourDigits isPair.highFour, hexScalar?_eq_scalar? some, scalar?_unit isUnit,
    Option.bind_none]

theorem beginsWithoutDigit_pairText (high low : List HexDigit) (after : List Char) :
    BeginsWithoutDigit (pairText high low ++ after) :=
  fun _ same => HexDigit.char_ne rfl (Option.some.inj same).symm

theorem SpellsInUnits.unescape?_eq {pairs : Nat} {text direct value : List Char}
    (spells : SpellsInUnits pairs text direct value) :
    unescape? text = if pairs = 0 then some value else none := by
  cases spells with
  | whole spells => exact unescape?_of_spells spells
  | pair spells isPair rest =>
      rw [unescape?_append_of_spells spells (beginsWithoutDigit_pairText _ _ _),
        unescape?_pairText isPair]
      rfl

theorem regular_pairText (rest : List Char) :
    Extent.regular '"' (pairText high low ++ rest) =
      Extent.regular '"' rest + (pairText high low).length := by
  have noDigit : isHex '"' = false := rfl
  simp only [pairText, List.cons_append, List.append_assoc, Extent.regular, regular_chars noDigit,
    List.length_cons, List.length_append, HexDigit.length_chars]
  omega

theorem SpellsInUnits.regular_eq {pairs : Nat} {text direct value : List Char}
    (spells : SpellsInUnits pairs text direct value) (rest : List Char) :
    Extent.regular '"' (text ++ rest) = Extent.regular '"' rest + text.length := by
  induction spells with
  | whole spells => exact regular_append_of_spells rfl spells rest
  | pair spells isPair others ih =>
      rw [List.append_assoc, List.append_assoc, regular_append_of_spells rfl spells,
        regular_pairText, ih, List.length_append, List.length_append]
      omega

theorem SpellsInUnits.head?_ne {pairs : Nat} {text direct value : List Char}
    (spells : SpellsInUnits pairs text direct value) : text.head? ≠ some '"' := by
  cases spells with
  | whole spells => exact head?_of_spells (by decide) spells
  | @pair pairs before front high low c after direct behind spells isPair rest =>
      cases before with
      | nil => exact fun same => absurd (Option.some.inj same) (by decide)
      | cons first more =>
          have unquoted : (first :: more).head? ≠ some '"' := head?_of_spells (by decide) spells
          exact unquoted

theorem SpellsInUnits.token_eq {pairs : Nat} {text direct value : List Char}
    (spells : SpellsInUnits pairs text direct value) {rest : List Char}
    (follows : MayFollow rest) :
    Extent.token '"' (text ++ ['"'] ++ rest) = (.string, (text ++ ['"']).length + 1) :=
  token_quoted spells.head?_ne spells.regular_eq follows

/-! ### Values -/

theorem constant?_quoted (text : List Char) :
    constant? .string (quoted text) =
      (unescape? text).map fun value => .string (String.ofList value) := by
  have inner : between? ['"'] ['"'] (quoted text) = some text := between?_append ['"'] text ['"']
  rw [constant?, string?, inner, Option.bind_some]

theorem isTrimmed_quoted (text : List Char) : IsTrimmed (quoted text) :=
  ⟨⟨'"', rfl, rfl⟩, '"', List.getLast?_concat (l := '"' :: text), rfl⟩

theorem SpellsInUnits.isEvaluated {pairs : Nat} {text direct value : List Char}
    (spells : SpellsInUnits pairs text direct value) (paired : pairs ≠ 0) :
    IsEvaluated MayFollow (quoted text) (.unresolved (String.ofList (quoted text))) := by
  have isReadAs : IsReadAs MayFollow (quoted text) (.literal .string (quoted text)) :=
    isReadAs_literal rfl (by decide) (by decide) fun _ follows => spells.token_eq follows
  have none : (Expression.literal .string (quoted text)).constant? = none := by
    rw [Expression.constant?, constant?_quoted, spells.unescape?_eq, if_neg paired, Option.map_none]
  have evaluated := isReadAs.isEvaluated (isTrimmed_quoted text)
  rwa [Expression.resultOf, none] at evaluated

theorem SpellsInUnits.denotes {text direct : List Char} {value : String}
    (spells : SpellsInUnits 0 text direct value.toList) :
    Denotes (quoted text) (.string value) := by
  have constant : constant? .string (quoted text) = some (.string value) := by
    rw [constant?_quoted, spells.unescape?_eq, if_pos rfl, Option.map_some, String.ofList_toList]
  exact denotes_of_extent rfl (by decide) (fun _ follows => spells.token_eq follows) constant

/-- The literal with the characters themselves stands for the value. With pairs in their places it
does so only if there is none; otherwise it is not evaluated. -/
theorem denotes_iff_no_pairs {pairs : Nat} {text direct : List Char} {value : String}
    (spells : SpellsInUnits pairs text direct value.toList) :
    Denotes (quoted direct) (.string value) ∧
    (Denotes (quoted text) (.string value) ↔ pairs = 0) ∧
    (pairs ≠ 0 →
      IsEvaluated MayFollow (quoted text) (.unresolved (String.ofList (quoted text)))) := by
  refine ⟨(SpellsInUnits.whole spells.spells_direct).denotes, ⟨?_, ?_⟩, spells.isEvaluated⟩
  · intro denotes
    by_cases none : pairs = 0
    · exact none
    · have unresolved := spells.isEvaluated none
      cases denotes.isEvaluated.unique mayFollow_nil unresolved
  · rintro rfl
    exact spells.denotes

def smileyText : List Char :=
  "a\\x21\\uD83D\\uDE00b\\t".toList

/-- One pair among other characters, the escape before it without a fourth digit. -/
theorem denotes_iff_no_pairs_smiley :
    SpellsInUnits 1 smileyText "a\\x21😀b\\t".toList "a!😀b\t".toList ∧
    Denotes (quoted "a\\x21😀b\\t".toList) (.string "a!😀b\t") ∧
    ¬Denotes (quoted smileyText) (.string "a!😀b\t") ∧
    IsEvaluated MayFollow (quoted smileyText) (.unresolved "\"a\\x21\\uD83D\\uDE00b\\t\"") := by
  have front : Spells '"' ('a' :: '\\' :: 'x' :: HexDigit.chars [⟨2, false⟩, ⟨1, false⟩] ++ [])
      ['a', '!'] :=
    .itself (by decide) (.someDigits (by decide) (.inr (by simp)) (by decide) .nil)
  have behind : Spells '"' ('b' :: '\\' :: 't' :: []) ['b', '\t'] :=
    .itself (by decide) (.simple (by decide) .nil)
  have isPair : IsPair [⟨13, true⟩, ⟨8, false⟩, ⟨3, false⟩, ⟨13, true⟩]
      [⟨13, true⟩, ⟨14, true⟩, ⟨0, false⟩, ⟨0, false⟩] '😀' :=
    ⟨by decide, rfl, rfl, by decide, by decide⟩
  have spells : SpellsInUnits 1 smileyText "a\\x21😀b\\t".toList "a!😀b\t".toList :=
    .pair front isPair (.whole behind)
  obtain ⟨direct, paired, unresolved⟩ := denotes_iff_no_pairs spells
  exact ⟨spells, direct, fun denotes => absurd (paired.mp denotes) (by decide),
    unresolved (by decide)⟩

end ActionAtlas.CSharp.Literal
