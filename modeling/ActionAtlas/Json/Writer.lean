import ActionAtlas.Decimal.Notation
import ActionAtlas.Json.Value
import ActionAtlas.Json.Quoted

/-!
The two written forms of a JSON value: `compact` without any blank, and `pretty` with one item or
field a line, indented by two blanks a level, where empty arrays and objects stay on one line.
-/

namespace ActionAtlas.Json

/-- Doubles are positional when their first digit has an exponent from -5 to 15. -/
def numberLayout : Decimal.Layout := ⟨-5, 15⟩

def writeInteger (n : Int) : List Char :=
  if n < 0 then '-' :: Nat.toDigits 10 n.natAbs else Nat.toDigits 10 n.natAbs

/-- Infinities and NaN have no JSON form and are written as `null`. -/
def Number.write : Number → List Char
  | .integer n => writeInteger n
  | .float x => if x.isFinite then (numberLayout.render x).toList else "null".toList

def writeBool (value : Bool) : List Char :=
  if value then "true".toList else "false".toList

namespace Value

mutual

def write : Value → List Char
  | null => "null".toList
  | bool value => writeBool value
  | number value => value.write
  | string text => Quoted.write text
  | array items => '[' :: writeItems items
  | object fields => '\x7b' :: writeFields fields

def writeItems : List Value → List Char
  | [] => [']']
  | [item] => item.write ++ [']']
  | item :: next :: others => item.write ++ ',' :: writeItems (next :: others)

def writeFields : List (String × Value) → List Char
  | [] => ['\x7d']
  | [(name, value)] => Quoted.write name ++ ':' :: value.write ++ ['\x7d']
  | (name, value) :: next :: others =>
    Quoted.write name ++ ':' :: value.write ++ ',' :: writeFields (next :: others)

end

def newLine (level : Nat) : List Char :=
  '\n' :: List.replicate (2 * level) ' '

mutual

def layOut (level : Nat) : Value → List Char
  | null => "null".toList
  | bool value => writeBool value
  | number value => value.write
  | string text => Quoted.write text
  | array items =>
    if items.isEmpty then ['[', ']'] else '[' :: newLine (level + 1) ++ layOutItems level items
  | object fields =>
    if fields.isEmpty then ['\x7b', '\x7d']
    else '\x7b' :: newLine (level + 1) ++ layOutFields level fields

def layOutItems (level : Nat) : List Value → List Char
  | [] => newLine level ++ [']']
  | [item] => item.layOut (level + 1) ++ newLine level ++ [']']
  | item :: next :: others =>
    item.layOut (level + 1) ++ ',' :: newLine (level + 1) ++ layOutItems level (next :: others)

def layOutFields (level : Nat) : List (String × Value) → List Char
  | [] => newLine level ++ ['\x7d']
  | [(name, value)] =>
    Quoted.write name ++ ':' :: ' ' :: value.layOut (level + 1) ++ newLine level ++ ['\x7d']
  | (name, value) :: next :: others =>
    Quoted.write name ++ ':' :: ' ' :: value.layOut (level + 1) ++ ',' :: newLine (level + 1)
      ++ layOutFields level (next :: others)

end

def compact (value : Value) : String :=
  String.ofList value.write

def pretty (value : Value) : String :=
  String.ofList (value.layOut 0)

end Value

end ActionAtlas.Json
