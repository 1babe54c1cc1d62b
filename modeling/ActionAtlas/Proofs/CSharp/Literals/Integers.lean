import Mathlib
import ActionAtlas.Proofs.CSharp.Literals.Evaluation
import ActionAtlas.Proofs.CSharp.Literals.Spellings

/-!
Integer literals: digits of one of three bases, with underscores between them, and a suffix that
does not count. A literal is read as the number its digits spell if this has at most 64 bits.
-/

namespace ActionAtlas.CSharp.Literal

open Text (digitValue? natural? valueOf?)

inductive Radix where
  | decimal
  | hexadecimal
  | binary
deriving DecidableEq, Repr

namespace Radix

def base : Radix → Nat
  | decimal => 10
  | hexadecimal => 16
  | binary => 2

def mark (isUpper : Bool) : Radix → List Char
  | decimal => []
  | hexadecimal => ['0', if isUpper then 'X' else 'x']
  | binary => ['0', if isUpper then 'B' else 'b']

end Radix

def suffixLetters : List Char :=
  ['u', 'U', 'l', 'L']

def integerSuffixes : List (List Char) :=
  ["", "u", "U", "l", "L", "ul", "uL", "Ul", "UL", "lu", "lU", "Lu", "LU"].map String.toList

/-- A literal as it is written. Every digit but the first stands behind some underscores, if any. -/
structure IntegerLiteral where
  radix : Radix
  isUpperMark : Bool
  first : HexDigit
  others : List (Nat × HexDigit)
  suffix : List Char
  inBase : ∀ digit ∈ first :: others.map Prod.snd, digit.value.val < radix.base
  isSuffix : suffix ∈ integerSuffixes

namespace IntegerLiteral

def digits (literal : IntegerLiteral) : List HexDigit :=
  literal.first :: literal.others.map Prod.snd

def separated : List (Nat × HexDigit) → List Char
  | [] => []
  | (count, digit) :: others => List.replicate count '_' ++ digit.char :: separated others

def run (literal : IntegerLiteral) : List Char :=
  literal.first.char :: separated literal.others

def text (literal : IntegerLiteral) : List Char :=
  literal.radix.mark literal.isUpperMark ++ (literal.run ++ literal.suffix)

/-- The number that the digits spell, without a bound. -/
def number (literal : IntegerLiteral) : Nat :=
  literal.digits.foldl (fun total digit => literal.radix.base * total + digit.value) 0

end IntegerLiteral

/-- What holds of each of finitely many characters is found by looking at these alone. -/
theorem forall_mem_of_all {p : Char → Prop} [DecidablePred p] {text : List Char}
    (all : text.all (fun c => decide (p c)) = true) : ∀ c ∈ text, p c :=
  fun c inside => of_decide_eq_true (List.all_eq_true.mp all c inside)

/-! ### Numbers -/

theorem digitValue?_of_lt {base : Nat} {digit : HexDigit} (inBase : digit.value.val < base) :
    digitValue? base digit.char = some digit.value.val := by
  have hexadecimal := digit.digitValue?_char
  rw [digitValue?, Option.filter_eq_some_iff] at hexadecimal ⊢
  exact ⟨hexadecimal.1, decide_eq_true inBase⟩

theorem valueOf?_of_lt {base : Nat} {digits : List HexDigit}
    (inBase : ∀ digit ∈ digits, digit.value.val < base) (total : Nat) :
    valueOf? base total (HexDigit.chars digits) =
      some (digits.foldl (fun total digit => base * total + digit.value) total) := by
  induction digits generalizing total with
  | nil => rfl
  | cons digit others ih =>
      rw [List.forall_mem_cons] at inBase
      have step := ih inBase.2 (base * total + digit.value)
      rw [HexDigit.chars, List.map_cons, valueOf?, digitValue?_of_lt inBase.1, Option.bind_some,
        Nat.mul_comm]
      exact step

theorem isHex_of_mem_chars {digits : List HexDigit} {c : Char}
    (inside : c ∈ HexDigit.chars digits) : isHex c = true := by
  obtain ⟨digit, -, rfl⟩ := List.mem_map.mp inside
  exact digit.isHex_char

theorem mem_suffixLetters : ∀ suffix ∈ integerSuffixes, ∀ c ∈ suffix, c ∈ suffixLetters := by
  have all : ∀ suffix ∈ integerSuffixes,
      suffix.all (fun c => decide (c ∈ suffixLetters)) = true := by
    decide
  exact fun suffix isSuffix => forall_mem_of_all (all suffix isSuffix)

theorem isHex_of_mem_suffixLetters : ∀ c ∈ suffixLetters, isHex c = false :=
  forall_mem_of_all (by decide)

/-- The letters at the end are dropped, and no digit is one of them. -/
theorem dropSuffix_chars {digits : List HexDigit} {suffix : List Char}
    (isSuffix : suffix ∈ integerSuffixes) :
    dropSuffix suffixLetters (HexDigit.chars digits ++ suffix) = HexDigit.chars digits := by
  have letters : ∀ c ∈ suffix.reverse, suffixLetters.contains c = true := by
    intro c inside
    have inSuffix := List.mem_reverse.mp inside
    exact List.contains_iff_mem.mpr (mem_suffixLetters suffix isSuffix c inSuffix)
  have kept : (HexDigit.chars digits).reverse.dropWhile suffixLetters.contains =
      (HexDigit.chars digits).reverse := by
    cases reversed : (HexDigit.chars digits).reverse with
    | nil => rfl
    | cons c rest =>
        have hex : isHex c = true :=
          isHex_of_mem_chars (List.mem_reverse.mp (reversed ▸ List.mem_cons_self))
        have noLetter : ¬suffixLetters.contains c = true := by
          intro letter
          have other := isHex_of_mem_suffixLetters c (List.contains_iff_mem.mp letter)
          rw [hex] at other
          cases other
        rw [List.dropWhile_cons_of_neg noLetter]
  rw [dropSuffix, List.reverse_append, List.dropWhile_append_of_pos letters, kept,
    List.reverse_reverse]

theorem withoutSeparators_append (text other : List Char) :
    withoutSeparators (text ++ other) = withoutSeparators text ++ withoutSeparators other :=
  List.filter_append ..

theorem withoutSeparators_char (digit : HexDigit) (rest : List Char) :
    withoutSeparators (digit.char :: rest) = digit.char :: withoutSeparators rest := by
  have other : digit.char ≠ '_' := HexDigit.char_ne rfl
  exact List.filter_cons_of_pos (bne_iff_ne.mpr other)

theorem withoutSeparators_separated (others : List (Nat × HexDigit)) :
    withoutSeparators (IntegerLiteral.separated others) =
      HexDigit.chars (others.map Prod.snd) := by
  induction others with
  | nil => rfl
  | cons entry more ih =>
      obtain ⟨count, digit⟩ := entry
      have underscores : withoutSeparators (List.replicate count '_') = [] := by
        simp [withoutSeparators]
      rw [IntegerLiteral.separated, withoutSeparators_append, underscores, List.nil_append,
        withoutSeparators_char, ih]
      rfl

theorem withoutSeparators_suffix : ∀ suffix ∈ integerSuffixes,
    withoutSeparators suffix = suffix := by
  decide

theorem withoutSeparators_mark (radix : Radix) (isUpper : Bool) :
    withoutSeparators (radix.mark isUpper) = radix.mark isUpper := by
  revert radix isUpper
  rintro (_ | _ | _) (_ | _) <;> rfl

theorem withoutSeparators_text (literal : IntegerLiteral) :
    withoutSeparators literal.text =
      literal.radix.mark literal.isUpperMark ++
        (HexDigit.chars literal.digits ++ literal.suffix) := by
  rw [IntegerLiteral.text, withoutSeparators_append, withoutSeparators_append,
    withoutSeparators_mark, withoutSeparators_suffix _ literal.isSuffix, IntegerLiteral.run,
    withoutSeparators_char, withoutSeparators_separated]
  rfl

theorem natural?_digits (literal : IntegerLiteral) :
    natural? literal.radix.base
      (dropSuffix suffixLetters (HexDigit.chars literal.digits ++ literal.suffix)) =
        some literal.number := by
  rw [dropSuffix_chars literal.isSuffix]
  exact valueOf?_of_lt literal.inBase 0

theorem dropWhile_append_dropWhile (accept : Char → Bool) (text behind : List Char) :
    (text.dropWhile accept ++ behind).dropWhile accept = (text ++ behind).dropWhile accept := by
  induction text with
  | nil => rfl
  | cons c rest ih =>
      by_cases accepted : accept c = true
      · rw [List.dropWhile_cons_of_pos accepted, ih, List.cons_append,
          List.dropWhile_cons_of_pos accepted]
      · rw [List.dropWhile_cons_of_neg accepted]

theorem dropSuffix_append_dropSuffix (letters before text : List Char) :
    dropSuffix letters (before ++ dropSuffix letters text) =
      dropSuffix letters (before ++ text) := by
  simp only [dropSuffix, List.reverse_append, List.reverse_reverse, dropWhile_append_dropWhile]

/-- Without the mark of a base behind a zero, the digits are decimal ones. -/
theorem integer?_of_unmarked {text : List Char}
    (unmarked : ∀ c ∈ withoutSeparators text, ¬(c = 'x' ∨ c = 'X') ∧ ¬(c = 'b' ∨ c = 'B')) :
    integer? text = natural? 10 (dropSuffix suffixLetters (withoutSeparators text)) := by
  rw [integer?]
  split
  · next mark digits cut =>
      rw [cut] at unmarked
      have other := unmarked mark (List.mem_cons_of_mem _ List.mem_cons_self)
      simp only [if_neg other.1, if_neg other.2]
      rw [cut]
      exact congrArg (natural? 10)
        (dropSuffix_append_dropSuffix suffixLetters ['0', mark] digits)
  · rfl

theorem isDigit_of_lt {digit : HexDigit} (decimal : digit.value.val < 10) :
    digit.char.isDigit = true := by
  obtain ⟨value, isUpper⟩ := digit
  revert value isUpper
  decide

theorem not_isMark_of_isDigit {c : Char} (isDigit : c.isDigit = true) :
    ¬(c = 'x' ∨ c = 'X') ∧ ¬(c = 'b' ∨ c = 'B') := by
  refine ⟨?_, ?_⟩ <;>
    · rintro (rfl | rfl) <;> cases isDigit

theorem not_isMark_of_mem_suffixLetters : ∀ c ∈ suffixLetters,
    ¬(c = 'x' ∨ c = 'X') ∧ ¬(c = 'b' ∨ c = 'B') :=
  forall_mem_of_all (by decide)

theorem integer?_text (literal : IntegerLiteral) : integer? literal.text = some literal.number := by
  have cleaned := withoutSeparators_text literal
  have read := natural?_digits literal
  cases radix : literal.radix with
  | decimal =>
      rw [radix] at cleaned read
      have unmarked : ∀ c ∈ withoutSeparators literal.text,
          ¬(c = 'x' ∨ c = 'X') ∧ ¬(c = 'b' ∨ c = 'B') := by
        intro c inside
        rw [cleaned, Radix.mark, List.nil_append, List.mem_append] at inside
        rcases inside with inDigits | inSuffix
        · obtain ⟨digit, among, rfl⟩ := List.mem_map.mp inDigits
          have inBase := literal.inBase digit among
          rw [radix] at inBase
          exact not_isMark_of_isDigit (isDigit_of_lt inBase)
        · exact not_isMark_of_mem_suffixLetters c (mem_suffixLetters _ literal.isSuffix c inSuffix)
      rw [integer?_of_unmarked unmarked, cleaned]
      exact read
  | hexadecimal =>
      rw [radix] at cleaned read
      rw [integer?, cleaned]
      cases literal.isUpperMark with
      | false => exact read
      | true => exact read
  | binary =>
      rw [radix] at cleaned read
      rw [integer?, cleaned]
      cases literal.isUpperMark with
      | false => exact read
      | true => exact read

theorem constant?_integer (literal : IntegerLiteral) :
    constant? .integer literal.text =
      if literal.number < 0x10000000000000000 then some (.ofNat literal.number) else none := by
  rw [constant?, integerConstant?, integer?_text, Option.bind_some]

/-! ### Extents -/

/-- What may stand behind a number: nothing that could belong to it. -/
def EndsNumber (rest : List Char) : Prop :=
  ∀ c ∈ rest.head?, Extent.isWordChar c = false ∧ c ≠ '.'

theorem endsNumber_nil : EndsNumber [] := by
  intro c inside
  cases inside

/-- Characters of words that are none of the letters of a suffix. -/
structure IsOtherWord (accept : Char → Bool) : Prop where
  word : ∀ c, accept c = true → Extent.isWordChar c = true
  noLetter : ∀ c ∈ suffixLetters, accept c = false

theorem isWordChar_of_isDigit {c : Char} (digit : c.isDigit = true) :
    Extent.isWordChar c = true := by
  rw [Extent.isWordChar, Char.isAlphanum, digit, Bool.or_true, Bool.true_or, Bool.true_or]

theorem isOtherWord_isDigit : IsOtherWord Extent.isDigit := by
  refine ⟨fun c accepted => ?_, forall_mem_of_all (by decide)⟩
  rcases Bool.or_eq_true_iff.mp accepted with digit | underscore
  · exact isWordChar_of_isDigit digit
  · rw [beq_iff_eq.mp underscore]
    rfl

theorem isOtherWord_isHexDigit : IsOtherWord Extent.isHexDigit := by
  refine ⟨fun c accepted => ?_, forall_mem_of_all (by decide)⟩
  have letter (alpha : c.isAlpha = true) : Extent.isWordChar c = true := by
    rw [Extent.isWordChar, Char.isAlphanum, alpha, Bool.true_or, Bool.true_or, Bool.true_or]
  simp only [Extent.isHexDigit, Bool.or_eq_true, Bool.and_eq_true, decide_eq_true_eq,
    beq_iff_eq] at accepted
  rcases accepted with ((digit | rfl) | lower) | upper
  · exact isWordChar_of_isDigit digit
  · rfl
  · refine letter (Bool.or_eq_true_iff.mpr (.inr ?_))
    have bounds : 97 ≤ c.toNat ∧ c.toNat ≤ 102 := by
      simpa [Char.le_def, UInt32.le_iff_toNat_le] using lower
    simp only [Char.isLower, ge_iff_le, UInt32.le_iff_toNat_le, Bool.and_eq_true, decide_eq_true_eq]
    exact ⟨bounds.1, Nat.le_trans bounds.2 (by decide)⟩
  · refine letter (Bool.or_eq_true_iff.mpr (.inl ?_))
    have bounds : 65 ≤ c.toNat ∧ c.toNat ≤ 70 := by
      simpa [Char.le_def, UInt32.le_iff_toNat_le] using upper
    simp only [Char.isUpper, ge_iff_le, UInt32.le_iff_toNat_le, decide_eq_true_eq]
    exact ⟨bounds.1, Nat.le_trans bounds.2 (by decide)⟩

theorem isOtherWord_isOneOf {letters : String}
    (word : letters.toList.all Extent.isWordChar = true)
    (noLetter : suffixLetters.any letters.toList.contains = false) :
    IsOtherWord (Extent.isOneOf letters) := by
  refine ⟨fun c accepted => List.all_eq_true.mp word c (List.contains_iff_mem.mp accepted),
    fun c letter => ?_⟩
  exact Bool.eq_false_iff.mpr (List.any_eq_false.mp noLetter c letter)

theorem IsOtherWord.ends {accept : Char → Bool} (isOther : IsOtherWord accept)
    {suffix rest : List Char} (isSuffix : suffix ∈ integerSuffixes) (ends : EndsNumber rest) :
    ∀ c ∈ (suffix ++ rest).head?, accept c = false := by
  intro c inside
  cases suffix with
  | nil =>
      have noWord := (ends c inside).1
      exact Bool.eq_false_iff.mpr fun accepted => by
        rw [isOther.word c accepted] at noWord
        cases noWord
  | cons letter more =>
      rw [List.cons_append, List.head?_cons, Option.mem_some_iff] at inside
      subst inside
      exact isOther.noLetter letter (mem_suffixLetters _ isSuffix letter List.mem_cons_self)

theorem run_append {accept : Char → Bool} {digits tail : List Char}
    (all : ∀ c ∈ digits, accept c = true) (ends : ∀ c ∈ tail.head?, accept c = false) :
    Extent.run accept (digits ++ tail) = digits.length := by
  have stops : tail.takeWhile accept = [] := by
    cases tail with
    | nil => rfl
    | cons c more =>
        rw [List.takeWhile_cons_of_neg]
        rw [ends c rfl]
        exact Bool.false_ne_true
  rw [Extent.run, List.takeWhile_append_of_pos all, stops, List.append_nil]

theorem IntegerLiteral.accept_run {literal : IntegerLiteral} {accept : Char → Bool}
    (underscore : accept '_' = true)
    (digit : ∀ digit : HexDigit, digit.value.val < literal.radix.base → accept digit.char = true) :
    ∀ c ∈ literal.run, accept c = true := by
  have behind (others : List (Nat × HexDigit))
      (inBase : ∀ digit ∈ others.map Prod.snd, digit.value.val < literal.radix.base) :
      ∀ c ∈ separated others, accept c = true := by
    induction others with
    | nil => exact fun c inside => absurd inside List.not_mem_nil
    | cons entry more ih =>
        rw [List.map_cons, List.forall_mem_cons] at inBase
        rw [separated, List.forall_mem_append, List.forall_mem_cons]
        refine ⟨fun c inside => ?_, digit entry.2 inBase.1, ih inBase.2⟩
        rw [List.eq_of_mem_replicate inside]
        exact underscore
  have inBase := literal.inBase
  rw [List.forall_mem_cons] at inBase
  rw [run, List.forall_mem_cons]
  exact ⟨digit literal.first inBase.1, behind literal.others inBase.2⟩

theorem isHexDigit_char (digit : HexDigit) : Extent.isHexDigit digit.char = true := by
  obtain ⟨value, isUpper⟩ := digit
  revert value isUpper
  decide

theorem isDigit_char {digit : HexDigit} (decimal : digit.value.val < 10) :
    Extent.isDigit digit.char = true :=
  Bool.or_eq_true_iff.mpr (.inl (isDigit_of_lt decimal))

theorem not_isOneOf_suffix {rest : List Char} (ends : EndsNumber rest) {letters : String}
    (word : letters.toList.all Extent.isWordChar = true) :
    Extent.isOneOf letters (rest.head?.getD ' ') = false := by
  have noWord : Extent.isWordChar (rest.head?.getD ' ') = false := by
    cases rest with
    | nil => rfl
    | cons c more => exact (ends c rfl).1
  refine Bool.eq_false_iff.mpr fun accepted => ?_
  rw [List.all_eq_true.mp word _ (List.contains_iff_mem.mp accepted)] at noWord
  cases noWord

theorem integerSuffix_append {suffix rest : List Char} (isSuffix : suffix ∈ integerSuffixes)
    (ends : EndsNumber rest) : Extent.integerSuffix (suffix ++ rest) = suffix.length := by
  have unsigned : Extent.isOneOf "uU" (rest.head?.getD ' ') = false :=
    not_isOneOf_suffix ends rfl
  have long : Extent.isOneOf "lL" (rest.head?.getD ' ') = false :=
    not_isOneOf_suffix ends rfl
  have letters : (Extent.isOneOf "uU" 'u' = true ∧ Extent.isOneOf "uU" 'U' = true ∧
      Extent.isOneOf "lL" 'l' = true ∧ Extent.isOneOf "lL" 'L' = true) ∧
      Extent.isOneOf "uU" 'l' = false ∧ Extent.isOneOf "uU" 'L' = false := by
    decide
  simp only [integerSuffixes, List.map_cons, List.map_nil, List.mem_cons, List.not_mem_nil,
    or_false] at isSuffix
  rcases isSuffix with rfl | isSuffix
  · cases rest with
    | nil => rfl
    | cons c more =>
        rw [List.head?_cons, Option.getD_some] at unsigned long
        simp [Extent.integerSuffix, unsigned, long]
  · rcases isSuffix with rfl | rfl | rfl | rfl | rfl | rfl | rfl | rfl | rfl | rfl | rfl | rfl <;>
      simp [Extent.integerSuffix, unsigned, long, letters]

theorem fraction_of_ends {suffix rest : List Char} (isSuffix : suffix ∈ integerSuffixes)
    (ends : EndsNumber rest) : Extent.fraction (suffix ++ rest) = 0 := by
  have noStop : (suffix ++ rest).head? ≠ some '.' := by
    intro stop
    cases suffix with
    | nil => exact (ends '.' stop).2 rfl
    | cons letter more =>
        have letters := mem_suffixLetters _ isSuffix letter List.mem_cons_self
        rw [Option.some.inj stop] at letters
        revert letters
        decide
  rw [Extent.fraction]
  intro digit more cut
  exact noStop (congrArg List.head? cut)

theorem exponent_of_ends {tail : List Char}
    (ends : ∀ c ∈ tail.head?, Extent.isOneOf "eE" c = false) : Extent.exponent tail = 0 := by
  cases tail with
  | nil => rfl
  | cons mark more =>
      cases more with
      | nil => rfl
      | cons sign rest =>
          have noMark : (!Extent.isOneOf "eE" mark) = true := by
            rw [ends mark rfl]
            rfl
          rw [Extent.exponent, if_pos noMark]

theorem realSuffix_of_ends {tail : List Char}
    (ends : ∀ c ∈ tail.head?, Extent.isOneOf "fFdDmM" c = false) : Extent.realSuffix tail = 0 := by
  cases tail with
  | nil => rfl
  | cons c rest =>
      have noLetter : ¬Extent.isOneOf "fFdDmM" c = true := by
        rw [ends c rfl]
        exact Bool.false_ne_true
      exact if_neg noLetter

/-- Neither a fraction nor an exponent nor the suffix of a real number follows the digits. -/
theorem number_append {digits suffix rest : List Char}
    (all : ∀ c ∈ digits, Extent.isDigit c = true) (isSuffix : suffix ∈ integerSuffixes)
    (ends : EndsNumber rest) :
    Extent.number (digits ++ (suffix ++ rest)) = (.integer, digits.length + suffix.length) := by
  have whole : Extent.run Extent.isDigit (digits ++ (suffix ++ rest)) = digits.length :=
    run_append all (isOtherWord_isDigit.ends isSuffix ends)
  have fraction := fraction_of_ends isSuffix ends
  have exponent : Extent.exponent (suffix ++ rest) = 0 :=
    exponent_of_ends ((isOtherWord_isOneOf rfl rfl).ends isSuffix ends)
  have real : Extent.realSuffix (suffix ++ rest) = 0 :=
    realSuffix_of_ends ((isOtherWord_isOneOf rfl rfl).ends isSuffix ends)
  simp only [Extent.number, whole, List.drop_left, fraction, exponent, real, Nat.add_zero, if_true,
    integerSuffix_append isSuffix ends]

theorem based_append {accept : Char → Bool} (isOther : IsOtherWord accept)
    {digits suffix rest : List Char} (all : ∀ c ∈ digits, accept c = true)
    (isSuffix : suffix ∈ integerSuffixes) (ends : EndsNumber rest) :
    Extent.based accept (digits ++ (suffix ++ rest)) = digits.length + suffix.length := by
  have run : Extent.run accept (digits ++ (suffix ++ rest)) = digits.length :=
    run_append all (isOther.ends isSuffix ends)
  simp only [Extent.based, run, List.drop_left, integerSuffix_append isSuffix ends]

def decimalDigits : List Char :=
  ['0', '1', '2', '3', '4', '5', '6', '7', '8', '9']

theorem char_mem_decimalDigits {digit : HexDigit} (decimal : digit.value.val < 10) :
    digit.char ∈ decimalDigits := by
  obtain ⟨value, isUpper⟩ := digit
  revert value isUpper
  decide

/-- A digit begins a number, unless it is a zero before the mark of a base. -/
theorem token_digit {c : Char} (decimal : c ∈ decimalDigits) {rest : List Char}
    (unmarked : ∀ mark ∈ rest.head?,
      Extent.isOneOf "xX" mark = false ∧ Extent.isOneOf "bB" mark = false) :
    Extent.token c rest = Extent.number (c :: rest) := by
  have zero : Extent.token '0' rest = Extent.number ('0' :: rest) := by
    cases rest with
    | nil => rfl
    | cons mark more =>
        have marked : Extent.token '0' (mark :: more) =
            if Extent.isOneOf "xX" mark then (.integer, 2 + Extent.based Extent.isHexDigit more)
            else if Extent.isOneOf "bB" mark then (.integer, 2 + Extent.based Extent.isDigit more)
            else Extent.number ('0' :: mark :: more) := rfl
        obtain ⟨noHexadecimal, noBinary⟩ := unmarked mark rfl
        rw [marked, noHexadecimal, noBinary]
        rfl
  simp only [decimalDigits, List.mem_cons, List.not_mem_nil, or_false] at decimal
  rcases decimal with rfl | rfl | rfl | rfl | rfl | rfl | rfl | rfl | rfl | rfl
  · exact zero
  all_goals exact rfl

theorem not_isOneOf_of_isDigit {letters : String}
    (noDigit : letters.toList.any Extent.isDigit = false) {c : Char}
    (digit : Extent.isDigit c = true) : Extent.isOneOf letters c = false :=
  Bool.eq_false_iff.mpr fun accepted =>
    List.any_eq_false.mp noDigit c (List.contains_iff_mem.mp accepted) digit

theorem token_decimal {first : HexDigit} (decimal : first.value.val < 10)
    {more suffix rest : List Char}
    (all : ∀ c ∈ first.char :: more, Extent.isDigit c = true)
    (isSuffix : suffix ∈ integerSuffixes) (ends : EndsNumber rest) :
    Extent.token first.char (more ++ (suffix ++ rest)) =
      (.integer, (more ++ suffix).length + 1) := by
  have unmarked : ∀ mark ∈ (more ++ (suffix ++ rest)).head?,
      Extent.isOneOf "xX" mark = false ∧ Extent.isOneOf "bB" mark = false := by
    intro mark inside
    cases more with
    | nil =>
        rw [List.nil_append] at inside
        exact ⟨(isOtherWord_isOneOf rfl rfl).ends isSuffix ends mark inside,
          (isOtherWord_isOneOf rfl rfl).ends isSuffix ends mark inside⟩
    | cons c others =>
        rw [List.cons_append, List.head?_cons, Option.mem_some_iff] at inside
        subst inside
        have digit := all c (List.mem_cons_of_mem _ List.mem_cons_self)
        exact ⟨not_isOneOf_of_isDigit rfl digit, not_isOneOf_of_isDigit rfl digit⟩
  rw [token_digit (char_mem_decimalDigits decimal) unmarked, ← List.cons_append,
    number_append all isSuffix ends, List.length_append, List.length_cons]
  simp only [Prod.mk.injEq, true_and]
  omega

/-- The text begins with a digit and is cut off whole before anything that ends a number. -/
def IsNumberToken (text : List Char) : Prop :=
  ∃ c more, text = c :: more ∧ c ∈ decimalDigits ∧ ∀ rest, EndsNumber rest →
    Extent.token c (more ++ rest) = (.integer, more.length + 1)

theorem isNumberToken_marked {literal : IntegerLiteral} {mark : Char} {accept : Char → Bool}
    (isOther : IsOtherWord accept) (all : ∀ c ∈ literal.run, accept c = true)
    (marked : literal.radix.mark literal.isUpperMark = ['0', mark])
    (extent : ∀ rest, Extent.token '0' (mark :: rest) = (.integer, 2 + Extent.based accept rest)) :
    IsNumberToken literal.text := by
  refine ⟨'0', mark :: (literal.run ++ literal.suffix), ?_, by decide, fun rest ends => ?_⟩
  · rw [IntegerLiteral.text, marked]
    rfl
  · rw [List.cons_append, extent, List.append_assoc, based_append isOther all literal.isSuffix ends,
      List.length_cons, List.length_append]
    simp only [Prod.mk.injEq, true_and]
    omega

theorem isNumberToken_text (literal : IntegerLiteral) : IsNumberToken literal.text := by
  cases radix : literal.radix with
  | decimal =>
      have inBase := literal.inBase
      rw [radix, List.forall_mem_cons] at inBase
      have all : ∀ c ∈ literal.run, Extent.isDigit c = true :=
        IntegerLiteral.accept_run rfl fun digit small => by
          rw [radix] at small
          exact isDigit_char small
      refine ⟨literal.first.char, IntegerLiteral.separated literal.others ++ literal.suffix, ?_,
        char_mem_decimalDigits inBase.1, fun rest ends => ?_⟩
      · rw [IntegerLiteral.text, radix, IntegerLiteral.run]
        rfl
      · rw [List.append_assoc]
        exact token_decimal inBase.1 all literal.isSuffix ends
  | hexadecimal =>
      have all : ∀ c ∈ literal.run, Extent.isHexDigit c = true :=
        IntegerLiteral.accept_run rfl fun digit _ => isHexDigit_char digit
      refine isNumberToken_marked isOtherWord_isHexDigit all (congrArg (Radix.mark _) radix) ?_
      cases literal.isUpperMark <;> exact fun rest => rfl
  | binary =>
      have all : ∀ c ∈ literal.run, Extent.isDigit c = true :=
        IntegerLiteral.accept_run rfl fun digit small => by
          rw [radix] at small
          exact isDigit_char (Nat.lt_trans small (by decide))
      refine isNumberToken_marked isOtherWord_isDigit all (congrArg (Radix.mark _) radix) ?_
      cases literal.isUpperMark <;> exact fun rest => rfl

theorem toNat_of_isAlphanum {c : Char} (alphanum : c.isAlphanum = true) :
    48 ≤ c.toNat ∧ c.toNat ≤ 122 := by
  simp only [Char.isAlphanum, Char.isAlpha, Char.isUpper, Char.isLower, Char.isDigit, ge_iff_le,
    UInt32.le_iff_toNat_le, Bool.or_eq_true, Bool.and_eq_true, decide_eq_true_eq] at alphanum
  have bounds : ((65 ≤ c.toNat ∧ c.toNat ≤ 90) ∨ (97 ≤ c.toNat ∧ c.toNat ≤ 122)) ∨
      (48 ≤ c.toNat ∧ c.toNat ≤ 57) := by simpa using alphanum
  omega

theorem isBlank_of_isWordChar {c : Char} (word : Extent.isWordChar c = true) :
    isBlank c = false := by
  refine Bool.eq_false_iff.mpr fun blank => ?_
  have low : ¬(48 ≤ c.toNat ∧ c.toNat ≤ 122) := by
    simp only [isBlank, Text.isBlank, Text.inRanges, Text.blankRanges, List.any_cons, List.any_nil,
      Bool.or_eq_true, Bool.and_eq_true, decide_eq_true_eq, Bool.or_false, beq_iff_eq] at blank
    rcases blank with ranges | rfl
    · omega
    · decide
  rw [Extent.isWordChar, Bool.or_eq_true, Bool.or_eq_true, beq_iff_eq, Bool.and_eq_true] at word
  rcases word with (alphanum | rfl) | ⟨-, visible⟩
  · exact low (toNat_of_isAlphanum alphanum)
  · exact low (by decide)
  · rw [blank] at visible
    cases visible

theorem EndsNumber.of_blank {c : Char} (blank : isBlank c = true) (rest : List Char) :
    EndsNumber (c :: rest) := by
  intro other inside
  rw [List.head?_cons, Option.mem_some_iff] at inside
  subst inside
  refine ⟨Bool.eq_false_iff.mpr fun word => ?_, ?_⟩
  · rw [isBlank_of_isWordChar word] at blank
    cases blank
  · rintro rfl
    cases blank

theorem EndsNumber.of_blanks {blanks rest : List Char} (blank : AreBlank blanks)
    (ends : EndsNumber rest) : EndsNumber (blanks ++ rest) := by
  cases blanks with
  | nil => exact ends
  | cons c others => exact EndsNumber.of_blank (blank c List.mem_cons_self) (others ++ rest)

/-! ### Expressions -/

theorem IntegerLiteral.isWordChar_text (literal : IntegerLiteral) :
    ∀ c ∈ literal.text, Extent.isWordChar c = true := by
  have mark (radix : Radix) (isUpper : Bool) :
      ∀ c ∈ radix.mark isUpper, Extent.isWordChar c = true := by
    revert radix isUpper
    rintro (_ | _ | _) (_ | _) <;> exact forall_mem_of_all (by decide)
  have letter : ∀ c ∈ suffixLetters, Extent.isWordChar c = true :=
    forall_mem_of_all (by decide)
  have run : ∀ c ∈ literal.run, Extent.isWordChar c = true :=
    IntegerLiteral.accept_run rfl fun digit _ =>
      isOtherWord_isHexDigit.word digit.char (isHexDigit_char digit)
  rw [text, List.forall_mem_append, List.forall_mem_append]
  exact ⟨mark _ _, run, fun c inside => letter c (mem_suffixLetters _ literal.isSuffix c inside)⟩

theorem IntegerLiteral.isTrimmed_text (literal : IntegerLiteral) : IsTrimmed literal.text := by
  obtain ⟨c, more, text_eq, -, -⟩ := isNumberToken_text literal
  have some : literal.text ≠ [] := by
    rw [text_eq]
    exact List.cons_ne_nil c more
  exact isTrimmed_of_visible some fun c inside =>
    isBlank_of_isWordChar (literal.isWordChar_text c inside)

theorem isReadAs_integer (literal : IntegerLiteral) :
    IsReadAs EndsNumber literal.text (.literal .integer literal.text) := by
  obtain ⟨c, more, text_eq, -, extent⟩ := isNumberToken_text literal
  have visible : isBlank c = false := by
    refine isBlank_of_isWordChar (literal.isWordChar_text c ?_)
    rw [text_eq]
    exact List.mem_cons_self
  rw [text_eq]
  exact isReadAs_literal visible (by decide) (by decide) extent

end ActionAtlas.CSharp.Literal
