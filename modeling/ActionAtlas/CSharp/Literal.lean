import ActionAtlas.CSharp.Token
import ActionAtlas.Graph.Constant
import ActionAtlas.Text.Cut
import ActionAtlas.Text.Digits

/-!
The constants that C# literals stand for, from their spelling. A spelling that stands for no
constant, such as a surrogate by itself or an integer of more than 64 bits, has none.
-/

namespace ActionAtlas.CSharp.Literal

open Text (digitValue? natural?)

def between? (opening closing text : List Char) : Option (List Char) :=
  (Text.dropInitial? opening text).bind (Text.dropFinal? closing)

def scalar? (n : Nat) : Option Char :=
  if n < 0xD800 ∨ 0xDFFF < n ∧ n < 0x110000 then some (Char.ofNat n) else none

/-- The character of a hexadecimal number, which may have a plus sign in front. -/
def hexScalar? (digits : List Char) : Option Char :=
  (natural? 16 ((Text.dropInitial? ['+'] digits).getD digits)).bind scalar?

def simpleEscape? : Char → Option Char
  | '\x27' => some '\x27'
  | '"' => some '"'
  | '\\' => some '\\'
  | '0' => some '\x00'
  | 'a' => some '\x07'
  | 'b' => some '\x08'
  | 'e' => some '\x1b'
  | 'f' => some '\x0c'
  | 'n' => some '\n'
  | 'r' => some '\r'
  | 't' => some '\t'
  | 'v' => some '\x0b'
  | _ => none

def isHex (c : Char) : Bool :=
  (digitValue? 16 c).isSome

/-- The hexadecimal digits behind a backslash and `x`: one to four, as many as there are. -/
def shortHex (text : List Char) : List Char :=
  (text.take 4).takeWhile isHex

def unescape? (text : List Char) : Option (List Char) :=
  match text with
  | [] => some []
  | '\\' :: 'u' :: rest =>
    if (rest.take 4).length = 4 then
      (hexScalar? (rest.take 4)).bind fun c => (unescape? (rest.drop 4)).map (c :: ·)
    else none
  | '\\' :: 'U' :: rest =>
    if (rest.take 8).length = 8 then
      (hexScalar? (rest.take 8)).bind fun c => (unescape? (rest.drop 8)).map (c :: ·)
    else none
  | '\\' :: 'x' :: rest =>
    let digits := shortHex rest
    (hexScalar? digits).bind fun c => (unescape? (rest.drop digits.length)).map (c :: ·)
  | '\\' :: c :: rest => (simpleEscape? c).bind fun c => (unescape? rest).map (c :: ·)
  | '\\' :: [] => none
  | c :: rest => (unescape? rest).map (c :: ·)
termination_by text.length
decreasing_by all_goals simp <;> omega

def undouble : List Char → List Char
  | '"' :: '"' :: rest => '"' :: undouble rest
  | c :: rest => c :: undouble rest
  | [] => []

def string? (text : List Char) : Option (List Char) :=
  (between? ['"'] ['"'] text).bind unescape?

def verbatimString? (text : List Char) : Option (List Char) :=
  (between? ['@', '"'] ['"'] text).map undouble

/-- A line of a raw string without the indentation of `indent` bytes; a line whose first
character would be cut in two, or that is too short, loses its leading blanks. -/
def outdent (indent : Nat) (line : List Char) : List Char :=
  (Text.dropBytes? indent line).getD (Text.trimStart line)

/-- The content of a raw string between its fences. If it has several lines, the first and the
last do not count, and the blanks that lead the last are taken from every other. -/
def rawContent (text : List Char) : List Char :=
  if !text.contains '\n' then text
  else
    match Text.lines text with
    | _ :: body =>
      match body.getLast? with
      | some closing =>
        let indent := Text.byteLength closing - Text.byteLength (Text.trimStart closing)
        Text.joinWith ['\n'] (body.dropLast.map (outdent indent))
      | none => text
    | [] => text

def rawString? (text : List Char) : Option (List Char) :=
  let fence := text.takeWhile (· == '"')
  if fence.length < 3 ∨ text.length < 2 * fence.length then none
  else (between? fence fence text).map rawContent

def character? (text : List Char) : Option Char :=
  match (between? ['\x27'] ['\x27'] text).bind unescape? with
  | some [c] => some c
  | _ => none

def dropSuffix (letters : List Char) (text : List Char) : List Char :=
  (text.reverse.dropWhile letters.contains).reverse

def withoutSeparators (text : List Char) : List Char :=
  text.filter (· != '_')

def integer? (text : List Char) : Option Nat :=
  match withoutSeparators text with
  | '0' :: mark :: digits =>
    let digits := dropSuffix ['u', 'U', 'l', 'L'] digits
    if mark = 'x' ∨ mark = 'X' then natural? 16 digits
    else if mark = 'b' ∨ mark = 'B' then natural? 2 digits
    else natural? 10 (dropSuffix ['u', 'U', 'l', 'L'] ('0' :: mark :: digits))
  | digits => natural? 10 (dropSuffix ['u', 'U', 'l', 'L'] digits)

def integerConstant? (text : List Char) : Option Constant :=
  (integer? text).bind fun n => if n < 0x10000000000000000 then some (.ofNat n) else none

def exponent? : List Char → Option Int
  | '-' :: digits => (natural? 10 digits).map fun n => -(n : Int)
  | '+' :: digits => (natural? 10 digits).map Int.ofNat
  | digits => (natural? 10 digits).map Int.ofNat

def real? (text : List Char) : Option Decimal.Binary64 :=
  let text := dropSuffix ['f', 'F', 'd', 'D', 'm', 'M'] (withoutSeparators text)
  let isMark (c : Char) : Bool := c == 'e' || c == 'E'
  let mantissa := text.takeWhile (!isMark ·)
  let behind := text.dropWhile (!isMark ·)
  let whole := mantissa.takeWhile (· != '.')
  let fraction := (mantissa.dropWhile (· != '.')).drop 1
  (natural? 10 (whole ++ fraction)).bind fun digits =>
    (if behind.isEmpty then some 0 else exponent? (behind.drop 1)).map fun exponent =>
      Decimal.Binary64.ofDecimal digits (exponent - fraction.length)

def constant? (kind : TokenKind) (text : List Char) : Option Constant :=
  match kind with
  | .integer => integerConstant? text
  | .real => (real? text).map .float
  | .character => (character? text).map .char
  | .string => (string? text).map fun value => .string (String.ofList value)
  | .verbatimString => (verbatimString? text).map fun value => .string (String.ofList value)
  | .rawString => (rawString? text).map fun value => .string (String.ofList value)
  | .word =>
    if text = "true".toList then some (.bool true)
    else if text = "false".toList then some (.bool false)
    else if text = "null".toList then some .null
    else none
  | _ => none

end ActionAtlas.CSharp.Literal
