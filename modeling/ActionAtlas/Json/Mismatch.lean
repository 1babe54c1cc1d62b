import ActionAtlas.Decimal.Notation
import ActionAtlas.Json.Writer
import ActionAtlas.Text.Printable

/-!
Why a JSON document is not a document of the wanted form, and the wording of it.
-/

namespace ActionAtlas.Json

inductive Found where
  | null
  | bool (value : Bool)
  | number (value : Number)
  | string (text : String)
  | sequence
  | map
  | unitVariant
deriving DecidableEq, Repr

inductive Wanted where
  | string
  | boolean
  | sequence
  | size
  | unit
  | payload
  | variantName
  | nameOrMap
  | singleKey
  | variantIndex (count : Nat)
  | record (name : String)
  | recordOf (name : String) (count : Nat)
  | taggedUnion (name : String)
  | variantOf (union variant : String) (count : Nat)
  | items (count : Nat)
deriving DecidableEq, Repr

inductive Mismatch where
  | missingField (name : String)
  | duplicateField (name : String)
  | unknownVariant (found : String) (known : List String)
  | wrongType (found : Found) (wanted : Wanted)
  | wrongValue (found : Found) (wanted : Wanted)
  | wrongLength (length : Nat) (wanted : Wanted)
  | noVariant (union : String)
deriving DecidableEq, Repr

inductive Failure where
  | flawed (flaw : Flaw)
  | mismatch (cause : Mismatch)
deriving DecidableEq, Repr

def decimal (n : Nat) : String :=
  String.ofList (Nat.toDigits 10 n)

/-- A character inside a quoted text of a message. One that does not show is written by its code
point. -/
def quoteChar (c : Char) : List Char :=
  match c with
  | '"' => ['\\', '"']
  | '\\' => ['\\', '\\']
  | '\n' => ['\\', 'n']
  | '\r' => ['\\', 'r']
  | '\t' => ['\\', 't']
  | '\x00' => ['\\', '0']
  | _ =>
    if Text.isPrintable c then [c]
    else '\\' :: 'u' :: '\x7b' :: Nat.toDigits 16 c.toNat ++ ['\x7d']

def quote (text : String) : String :=
  String.ofList ('"' :: text.toList.flatMap quoteChar ++ ['"'])

def Found.message : Found → String
  | .null => "null"
  | .bool value => "boolean `" ++ String.ofList (writeBool value) ++ "`"
  | .number (.integer n) => "integer `" ++ String.ofList (writeInteger n) ++ "`"
  | .number (.float x) => "floating point `" ++ String.ofList (Number.float x).write ++ "`"
  | .string text => "string " ++ quote text
  | .sequence => "sequence"
  | .map => "map"
  | .unitVariant => "unit variant"

def elements (count : Nat) : String :=
  if count = 1 then "1 element" else decimal count ++ " elements"

def Wanted.message : Wanted → String
  | .string => "a string"
  | .boolean => "a boolean"
  | .sequence => "a sequence"
  | .size => "usize"
  | .unit => "unit"
  | .payload => "newtype variant"
  | .variantName => "variant identifier"
  | .nameOrMap => "string or map"
  | .singleKey => "map with a single key"
  | .variantIndex count => "variant index 0 <= i < " ++ decimal count
  | .record name => "struct " ++ name
  | .recordOf name count => "struct " ++ name ++ " with " ++ elements count
  | .taggedUnion name => "internally tagged enum " ++ name
  | .variantOf union variant count =>
    "struct variant " ++ union ++ "::" ++ variant ++ " with " ++ elements count
  | .items count => elements count ++ " in sequence"

/-- Two names are joined by `or`; more are listed behind `one of`. -/
def alternatives : List String → String
  | [first, second] => "`" ++ first ++ "` or `" ++ second ++ "`"
  | names => "one of " ++ ", ".intercalate (names.map fun name => "`" ++ name ++ "`")

def Mismatch.message : Mismatch → String
  | .missingField name => "missing field `" ++ name ++ "`"
  | .duplicateField name => "duplicate field `" ++ name ++ "`"
  | .unknownVariant found known =>
    "unknown variant `" ++ found ++ "`, expected " ++ alternatives known
  | .wrongType found wanted => "invalid type: " ++ found.message ++ ", expected " ++ wanted.message
  | .wrongValue found wanted =>
    "invalid value: " ++ found.message ++ ", expected " ++ wanted.message
  | .wrongLength length wanted =>
    "invalid length " ++ decimal length ++ ", expected " ++ wanted.message
  | .noVariant union => "data did not match any variant of untagged enum " ++ union

end ActionAtlas.Json
