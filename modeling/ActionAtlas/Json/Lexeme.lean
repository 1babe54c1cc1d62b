import ActionAtlas.Json.Numeral

/-!
The lexemes of a JSON text: marks, words, numbers and strings, with the blanks between them gone.

A text is cut up to its first flaw. Strings and numbers whose form is right but which have no
value, an unpaired surrogate or a number beyond the doubles, are lexemes without a value: they
harm only a reader who wants that value.
-/

namespace ActionAtlas.Json

inductive Lexeme where
  | openArray
  | closeArray
  | openObject
  | closeObject
  | comma
  | colon
  | null
  | bool (value : Bool)
  | number (value : Option Number)
  | string (text : Option String)
  /-- A string that does not close well: what is wrong for a reader of its text, and for one who
  passes over it. -/
  | brokenString (reading passing : Flaw)
  | brokenNull (flaw : Flaw)
  | broken (reading passing : Flaw)
deriving DecidableEq, Repr

namespace Lexeme

/-- No lexeme follows a broken one. -/
def isBroken : Lexeme → Bool
  | brokenString _ _ => true
  | brokenNull _ => true
  | broken _ _ => true
  | _ => false

def isBlank (c : Char) : Bool :=
  c = ' ' || c = '\n' || c = '\r' || c = '\t'

def spelled : List Char → List Char → Except Flaw (List Char)
  | [], text => .ok text
  | _ :: _, [] => .error .truncated
  | c :: word, d :: text => if c = d then spelled word text else .error .malformed

def word (meaning : Lexeme) (misspelt : Flaw → Lexeme) (spelling text : List Char) :
    Lexeme × List Char :=
  match spelled spelling text with
  | .ok rest => (meaning, rest)
  | .error flaw => (misspelt flaw, [])

def quoted (text : List Char) : Lexeme × List Char :=
  match Quoted.decode text with
  | .ok (found, rest) => (string (some (String.ofList found)), rest)
  | .error reading =>
    match Quoted.skip text with
    | .ok rest => (string none, rest)
    | .error passing => (brokenString reading passing, [])

def numeral (text : List Char) : Lexeme × List Char :=
  match Numeral.read text with
  | .ok (found, rest) => (number found.value?, rest)
  | .error reading => (broken reading .malformed, [])

def first (c : Char) (rest : List Char) : Lexeme × List Char :=
  match c with
  | '[' => (openArray, rest)
  | ']' => (closeArray, rest)
  | '\x7b' => (openObject, rest)
  | '\x7d' => (closeObject, rest)
  | ',' => (comma, rest)
  | ':' => (colon, rest)
  | '"' => quoted rest
  | 'n' => word null brokenNull "ull".toList rest
  | 't' => word (bool true) (fun flaw => broken flaw flaw) "rue".toList rest
  | 'f' => word (bool false) (fun flaw => broken flaw flaw) "alse".toList rest
  | _ =>
    if c = '-' ∨ c.isDigit then numeral (c :: rest) else (broken .malformed .malformed, [])

theorem length_of_spelled_eq_ok {word text rest : List Char}
    (read : spelled word text = .ok rest) : rest.length ≤ text.length := by
  induction word generalizing text with
  | nil => cases read; exact Nat.le_refl _
  | cons c word ih =>
    cases text with
    | nil => cases read
    | cons d text =>
      simp only [spelled] at read
      split at read
      · have := ih read
        simp only [List.length_cons]
        omega
      · cases read

theorem length_word (meaning : Lexeme) (misspelt : Flaw → Lexeme) (spelling text : List Char) :
    (word meaning misspelt spelling text).2.length ≤ text.length := by
  unfold word
  split
  · next rest read => exact length_of_spelled_eq_ok read
  · simp

theorem length_quoted (text : List Char) : (quoted text).2.length ≤ text.length := by
  unfold quoted
  split
  · next read => exact Nat.le_of_lt (Quoted.length_of_decode_eq_ok read)
  · split
    · next read => exact Nat.le_of_lt (Quoted.length_of_skip_eq_ok read)
    · simp

theorem length_of_read_cons_eq_ok {c : Char} {text rest : List Char} {n : Numeral}
    (start : c = '-' ∨ c.isDigit) (read : Numeral.read (c :: text) = .ok (n, rest)) :
    rest.length ≤ text.length := by
  simp only [Numeral.read, bind, Except.bind, pure, Except.pure] at read
  split at read
  · cases read
  · next whole wholeRead =>
    split at read
    · cases read
    · next fraction fractionRead =>
      split at read
      · cases read
      · next exponent exponentRead =>
        have second := Numeral.length_of_fractionDigits_eq_ok fractionRead
        have third := Numeral.length_of_exponentDigits_eq_ok exponentRead
        simp only [Except.ok.injEq, Prod.mk.injEq] at read
        rw [← read.2]
        have first : whole.2.length ≤ text.length := by
          split at wholeRead
          · next tail same =>
            cases same
            exact Numeral.length_of_wholeDigits_eq_ok wholeRead
          · next unsigned =>
            have digit : c.isDigit = true := by
              rcases start with rfl | digit
              · exact absurd rfl (unsigned text)
              · exact digit
            exact Numeral.length_of_wholeDigits_cons_eq_ok digit wholeRead
        omega

theorem length_first (c : Char) (rest : List Char) : (first c rest).2.length ≤ rest.length := by
  unfold first
  split
  all_goals try exact Nat.le_refl _
  · exact length_quoted rest
  · exact length_word _ _ _ rest
  · exact length_word _ _ _ rest
  · exact length_word _ _ _ rest
  · split
    · next start =>
      unfold numeral
      split
      · next read => exact length_of_read_cons_eq_ok start read
      · simp
    · simp

def ofText (text : List Char) : List Lexeme :=
  match text with
  | [] => []
  | c :: rest =>
    if isBlank c then ofText rest
    else
      let found := first c rest
      if found.1.isBroken then [found.1] else found.1 :: ofText found.2
termination_by text.length
decreasing_by
  · simp
  · have := length_first c rest
    simp only [List.length_cons]
    omega

end Lexeme

end ActionAtlas.Json
