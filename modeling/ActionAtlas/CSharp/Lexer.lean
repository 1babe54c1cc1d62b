import ActionAtlas.CSharp.Token
import ActionAtlas.Text.Cut

/-!
Cutting C# text into tokens.

Each kind of token has a function that says how many characters of a text belong to it, so that
the cut itself only takes and drops. Nothing is lost: the tokens with their gaps, and the blanks
at the end, are the text.
-/

namespace ActionAtlas.CSharp

namespace Extent

def line (text : List Char) : Nat :=
  (text.takeWhile fun c => c != '\n' && c != '\r').length

def block : List Char → Nat
  | [] => 0
  | '*' :: '/' :: _ => 2
  | _ :: rest => block rest + 1

def regular (quote : Char) : List Char → Nat
  | [] => 0
  | '\\' :: _ :: rest => regular quote rest + 2
  | c :: rest => if c = quote then 1 else regular quote rest + 1

def verbatim : List Char → Nat
  | [] => 0
  | '"' :: '"' :: rest => verbatim rest + 2
  | '"' :: _ => 1
  | _ :: rest => verbatim rest + 1

def quotes (text : List Char) : Nat :=
  (text.takeWhile (· == '"')).length

/-- The characters of a raw string behind its opening fence, with the closing one: a run of as
many quotes; `run` quotes stand right before. -/
def raw (fence : Nat) : Nat → List Char → Nat
  | _, [] => 0
  | run, '"' :: rest =>
    if run + 1 = fence ∧ rest.head? ≠ some '"' then 1 else raw fence (run + 1) rest + 1
  | _, _ :: rest => raw fence 0 rest + 1

inductive Layer where
  | regular (interpolated : Bool)
  | verbatim (interpolated : Bool)
  /-- Text up to as many quotes; so many braces open a hole, and `run` quotes stand before. -/
  | raw (fence braces run : Nat)
  | hole
  | character

def interpolated : List Layer → List Char → Nat
  | [], _ => 0
  | _, [] => 0
  | .regular holes :: outer, c :: rest =>
    match c, rest with
    | '\\', _ :: rest => interpolated (.regular holes :: outer) rest + 2
    | '"', rest => interpolated outer rest + 1
    | '\x7b', '\x7b' :: rest => interpolated (.regular holes :: outer) rest + 2
    | '\x7b', rest =>
      interpolated (if holes then .hole :: .regular holes :: outer else .regular holes :: outer) rest
        + 1
    | _, rest => interpolated (.regular holes :: outer) rest + 1
  | .verbatim holes :: outer, c :: rest =>
    match c, rest with
    | '"', '"' :: rest => interpolated (.verbatim holes :: outer) rest + 2
    | '"', rest => interpolated outer rest + 1
    | '\x7b', '\x7b' :: rest => interpolated (.verbatim holes :: outer) rest + 2
    | '\x7b', rest =>
      interpolated (if holes then .hole :: .verbatim holes :: outer else .verbatim holes :: outer)
        rest + 1
    | _, rest => interpolated (.verbatim holes :: outer) rest + 1
  | .raw fence braces run :: outer, c :: rest =>
    match c, rest with
    | '"', rest =>
      if run + 1 = fence ∧ rest.head? ≠ some '"' then interpolated outer rest + 1
      else interpolated (.raw fence braces (run + 1) :: outer) rest + 1
    | '\x7b', '\x7b' :: rest =>
      if braces = 2 then interpolated (.hole :: .raw fence braces 0 :: outer) rest + 2
      else if braces = 1 then interpolated (.hole :: .hole :: .raw fence braces 0 :: outer) rest + 2
      else interpolated (.raw fence braces 0 :: outer) rest + 2
    | '\x7b', rest =>
      interpolated
        (if braces = 1 then .hole :: .raw fence braces 0 :: outer
          else .raw fence braces 0 :: outer) rest + 1
    | _, rest => interpolated (.raw fence braces 0 :: outer) rest + 1
  | .hole :: outer, c :: rest =>
    match c, rest with
    | '\x7d', rest => interpolated outer rest + 1
    | '\x7b', rest => interpolated (.hole :: .hole :: outer) rest + 1
    | '\x27', rest => interpolated (.character :: .hole :: outer) rest + 1
    | '"', rest => interpolated (.regular false :: .hole :: outer) rest + 1
    | '@', '"' :: rest => interpolated (.verbatim false :: .hole :: outer) rest + 2
    | '$', '"' :: rest => interpolated (.regular true :: .hole :: outer) rest + 2
    | '@', '$' :: '"' :: rest => interpolated (.verbatim true :: .hole :: outer) rest + 3
    | '$', '@' :: '"' :: rest => interpolated (.verbatim true :: .hole :: outer) rest + 3
    | _, rest => interpolated (.hole :: outer) rest + 1
  | .character :: outer, c :: rest =>
    match c, rest with
    | '\\', _ :: rest => interpolated (.character :: outer) rest + 2
    | '\x27', rest => interpolated outer rest + 1
    | _, rest => interpolated (.character :: outer) rest + 1

def encoding : List Char → Nat
  | u :: '8' :: _ => if u = 'u' ∨ u = 'U' then 2 else 0
  | _ => 0

/-- Whether a character can stand in a word. Beyond ASCII all but blanks can. -/
def isWordChar (c : Char) : Bool :=
  c.isAlphanum || c == '_' || 0x80 ≤ c.toNat && !isBlank c

def word : List Char → Nat
  | [] => 0
  | '\\' :: c :: rest => if c = 'u' ∨ c = 'U' then word rest + 2 else 0
  | c :: rest => if isWordChar c then word rest + 1 else 0

def run (accept : Char → Bool) (text : List Char) : Nat :=
  (text.takeWhile accept).length

def isDigit (c : Char) : Bool :=
  c.isDigit || c == '_'

def isHexDigit (c : Char) : Bool :=
  c.isDigit || c == '_' || ('a' ≤ c && c ≤ 'f') || ('A' ≤ c && c ≤ 'F')

def isOneOf (letters : String) (c : Char) : Bool :=
  letters.toList.contains c

def integerSuffix : List Char → Nat
  | first :: rest =>
    let second := rest.head?.getD ' '
    if isOneOf "uU" first then if isOneOf "lL" second then 2 else 1
    else if isOneOf "lL" first then if isOneOf "uU" second then 2 else 1
    else 0
  | [] => 0

def exponent (text : List Char) : Nat :=
  match text with
  | mark :: sign :: rest =>
    if !isOneOf "eE" mark then 0
    else if isOneOf "+-" sign then
      let digits := run isDigit rest
      if digits = 0 then 0 else digits + 2
    else if sign.isDigit then run isDigit (sign :: rest) + 1
    else 0
  | _ => 0

def fraction (text : List Char) : Nat :=
  match text with
  | '.' :: digit :: rest => if digit.isDigit then run isDigit (digit :: rest) + 1 else 0
  | _ => 0

def realSuffix (text : List Char) : Nat :=
  match text with
  | c :: _ => if isOneOf "fFdDmM" c then 1 else 0
  | [] => 0

def number (text : List Char) : TokenKind × Nat :=
  let whole := run isDigit text
  let fraction := fraction (text.drop whole)
  let exponent := exponent (text.drop (whole + fraction))
  let suffix := realSuffix (text.drop (whole + fraction + exponent))
  if fraction + exponent + suffix = 0 then
    (.integer, whole + integerSuffix (text.drop whole))
  else (.real, whole + fraction + exponent + suffix)

def based (accept : Char → Bool) (text : List Char) : Nat :=
  let digits := run accept text
  digits + integerSuffix (text.drop digits)

/-- Marks of more than one character, a longer one before those that begin it. -/
def marks : List (List Char) :=
  ["??=", "=>", "==", "!=", "<=", ">=", "&&", "||", "++", "--", "->", "::", "..", "+=", "-=", "*=",
   "/=", "%=", "&=", "|=", "^="].map String.toList

def mark (text : List Char) : Nat :=
  ((marks.find? fun mark => mark.isPrefixOf text).map List.length).getD 1

/-- Directives that may stand wherever comments may. -/
def freeDirectives : List String :=
  ["region", "endregion", "line", "pragma", "nullable", "error", "warning", "define", "undef"]

def conditions : List String :=
  ["if", "elif", "else", "endif"]

def directive (text : List Char) : String :=
  String.ofList ((text.dropWhile fun c => c == ' ' || c == '\t').takeWhile Char.isAlpha)

def interpolation? (text : List Char) : Option (Nat × List Layer) :=
  let dollars := run (· == '$') text
  let behind := text.drop dollars
  match text with
  | '@' :: '$' :: '"' :: _ => some (3, [.verbatim true])
  | '$' :: '@' :: '"' :: _ => some (3, [.verbatim true])
  | '$' :: _ =>
    let fence := quotes behind
    if 3 ≤ fence then some (dollars + fence, [.raw fence dollars 0])
    else if dollars = 1 ∧ 1 ≤ fence then some (2, [.regular true])
    else none
  | _ => none

def string (text : List Char) : TokenKind × Nat :=
  let fence := quotes text
  if 3 ≤ fence then
    let extent := fence + raw fence 0 (text.drop fence)
    (.rawString, extent + encoding (text.drop extent))
  else
    let extent := 1 + regular '"' (text.drop 1)
    (.string, extent + encoding (text.drop extent))

def token (c : Char) (rest : List Char) : TokenKind × Nat :=
  let text := c :: rest
  match interpolation? text with
  | some (opening, layers) =>
    (.interpolatedString, opening + interpolated layers (text.drop opening))
  | none =>
    match c, rest with
    | '"', _ => string text
    | '@', '"' :: _ =>
      let extent := 2 + verbatim (text.drop 2)
      (.verbatimString, extent + encoding (text.drop extent))
    | '\x27', _ => (.character, 1 + regular '\x27' rest)
    | '/', '/' :: _ => (.comment, line text)
    | '/', '*' :: _ => (.comment, 2 + block (text.drop 2))
    | '#', _ =>
      if rest.head? = some '!' ∨ freeDirectives.contains (directive rest) then (.comment, line text)
      else if conditions.contains (directive rest) then (.condition, line text)
      else (.punctuation, 1)
    | '0', mark :: digits =>
      if isOneOf "xX" mark then (.integer, 2 + based isHexDigit digits)
      else if isOneOf "bB" mark then (.integer, 2 + based isDigit digits)
      else number text
    | '.', digit :: _ => if digit.isDigit then number text else (.punctuation, mark text)
    | '@', next :: _ =>
      if isWordChar next || next == '\\' then (.word, 1 + word rest) else (.punctuation, 1)
    | '\\', _ => (.word, word text)
    | _, _ =>
      if c.isDigit then number text
      else if isWordChar c then (.word, word text)
      else (.punctuation, mark text)

end Extent

/-- The tokens of a text behind `gap`, which holds the blanks before it in reverse. -/
def Token.scan (gap text : List Char) : List Token :=
  match text with
  | [] => []
  | c :: rest =>
    if isBlank c then Token.scan (c :: gap) rest
    else
      let (kind, extent) := Extent.token c rest
      { kind, gap := gap.reverse, text := c :: rest.take (extent - 1) }
        :: Token.scan [] (rest.drop (extent - 1))
termination_by text.length
decreasing_by
  · simp
  · simp only [List.length_drop, List.length_cons]
    omega

/-- Drops conditional blocks with all that they hold; `depth` of them are open. -/
def Token.unconditional : Nat → List Token → List Token
  | _, [] => []
  | depth, token :: rest =>
    if token.kind = .condition then
      let name := Extent.directive (token.text.drop 1)
      if name = "if" then Token.unconditional (depth + 1) rest
      else if name = "endif" then Token.unconditional (depth - 1) rest
      else Token.unconditional depth rest
    else if depth = 0 then token :: Token.unconditional depth rest
    else Token.unconditional depth rest

def Token.ofText (text : List Char) : List Token :=
  Token.unconditional 0 (Token.scan [] text)

end ActionAtlas.CSharp
