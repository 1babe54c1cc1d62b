import ActionAtlas.Json.Document
import ActionAtlas.Json.Mismatch

/-!
Decoding documents into values of other types.

A decoder gets the number of arrays and objects that may still be opened, and answers with the
first thing that is wrong in reading order. A record is read from an object, by the names of its
fields, or from an array, by their order. Unknown fields of an object are passed over.
-/

namespace ActionAtlas.Json

abbrev Decoded := Except Failure

abbrev Decoder (α : Type) := Nat → Document → Decoded α

def Failure.malformed : Failure := .flawed .malformed

def Failure.truncated : Failure := .flawed .truncated

namespace Document

def found : Document → Decoded Found
  | .null => .ok .null
  | .bool value => .ok (.bool value)
  | .number (some value) => .ok (.number value)
  | .number none => .error .malformed
  | .string (some text) => .ok (.string text)
  | .string none => .error .malformed
  | .array _ _ => .ok .sequence
  | .object _ _ => .ok .map
  | .ended => .error .truncated
  | .brokenString reading _ => .error (.flawed reading)
  | .brokenNull flaw => .error (.flawed flaw)
  | .broken reading _ => .error (.flawed reading)

def refuse (wanted : Wanted) (document : Document) : Decoded α :=
  document.found.bind fun found => .error (.mismatch (.wrongType found wanted))

end Document

def Ending.check : Ending → Decoded Unit
  | .closed => .ok ()
  | .separator flaw => .error (.flawed flaw)
  | .nameless .ended => .error .truncated
  | .nameless (.brokenString reading _) => .error (.flawed reading)
  | .nameless _ => .error .malformed

/-- Whether an object with one entry ended well, for a reader who wants no further entry. -/
def Ending.checkSingle : Ending → Decoded Unit
  | .closed => .ok ()
  | .separator flaw => .error (.flawed flaw)
  | .nameless _ => .error .malformed

def Ending.pass : Ending → Decoded Unit
  | .closed => .ok ()
  | .separator flaw => .error (.flawed flaw)
  | .nameless .ended => .error .truncated
  | .nameless (.brokenString _ passing) => .error (.flawed passing)
  | .nameless _ => .error .malformed

def descend (room : Nat) (inside : Nat → Decoded α) : Decoded α :=
  match room with
  | 0 => .error .malformed
  | room + 1 => inside room

namespace Document

mutual

def pass : Document → Decoded Unit
  | .null => .ok ()
  | .bool _ => .ok ()
  | .number _ => .ok ()
  | .string _ => .ok ()
  | .array items ending => (passItems items).bind fun _ => ending.pass
  | .object entries ending => (passEntries entries).bind fun _ => ending.pass
  | .ended => .error .truncated
  | .brokenString _ passing => .error (.flawed passing)
  | .brokenNull flaw => .error (.flawed flaw)
  | .broken _ passing => .error (.flawed passing)

def passItems : List Document → Decoded Unit
  | [] => .ok ()
  | item :: others => item.pass.bind fun _ => passItems others

def passEntries : List (Option String × Document) → Decoded Unit
  | [] => .ok ()
  | (_, value) :: others => value.pass.bind fun _ => passEntries others

end

mutual

def value (room : Nat) : Document → Decoded Value
  | .null => .ok .null
  | .bool value => .ok (.bool value)
  | .number (some value) => .ok (.number value)
  | .number none => .error .malformed
  | .string (some text) => .ok (.string text)
  | .string none => .error .malformed
  | .array items ending =>
    descend room fun room =>
      (values room items).bind fun items => ending.check.bind fun _ => .ok (.array items)
  | .object entries ending =>
    descend room fun room =>
      (fields room entries).bind fun fields => ending.check.bind fun _ => .ok (.object fields)
  | .ended => .error .truncated
  | .brokenString reading _ => .error (.flawed reading)
  | .brokenNull flaw => .error (.flawed flaw)
  | .broken reading _ => .error (.flawed reading)

def values (room : Nat) : List Document → Decoded (List Value)
  | [] => .ok []
  | item :: others =>
    (item.value room).bind fun item => (values room others).bind fun items => .ok (item :: items)

def fields (room : Nat) : List (Option String × Document) → Decoded (List (String × Value))
  | [] => .ok []
  | (none, _) :: _ => .error .malformed
  | (some name, value) :: others =>
    (value.value room).bind fun value =>
      (fields room others).bind fun fields => .ok ((name, value) :: fields)

end

end Document

namespace Decoder

def string : Decoder String
  | _, .string (some text) => .ok text
  | _, other => other.refuse .string

def bool : Decoder Bool
  | _, .bool value => .ok value
  | _, other => other.refuse .boolean

def unit : Decoder Unit
  | _, .null => .ok ()
  | _, other => other.refuse .unit

def list (element : Decoder α) : Decoder (List α)
  | room, .array items ending =>
    descend room fun room => do
      let items ← items.mapM (element room)
      ending.check
      return items
  | _, other => other.refuse .sequence

/-- An absent value is written as `null`. The first letter of `null` alone is not left to `inner`. -/
def option (inner : Decoder α) : Decoder (Option α)
  | _, .null => .ok none
  | _, .brokenNull flaw => .error (.flawed flaw)
  | room, other => (inner room other).map some

/-- One of the variants `known`: a name alone, or an object with a name and a payload. -/
def variant (known : List String) (bare : String → Decoded α) (payload : String → Decoder α) :
    Decoder α
  | _, .string (some name) =>
    if known.contains name then bare name
    else .error (.mismatch (.unknownVariant name known))
  | room, .object entries ending =>
    descend room fun room =>
      match entries with
      | [] =>
        match ending with
        | .nameless found => found.refuse .variantName
        | _ => .error .malformed
      | (none, _) :: _ => .error .malformed
      | (some name, value) :: others => do
        if !known.contains name then throw (.mismatch (.unknownVariant name known))
        let result ← payload name room value
        if !others.isEmpty then throw .malformed
        ending.checkSingle
        return result
  | _, .ended => .error .truncated
  | _, .brokenString reading _ => .error (.flawed reading)
  | _, _ => .error .malformed

def choice [Inhabited α] (table : List (String × α)) : Decoder α :=
  let meaning (name : String) : Decoded α := .ok ((table.lookup name).getD default)
  variant (table.map (·.1)) meaning fun name room document => do
    unit room document
    meaning name

end Decoder

structure Field (σ : Type) where
  name : String
  required : Bool
  read : Nat → Document → σ → Decoded σ

def Field.of (name : String) (required : Bool) (decoder : Decoder α) (store : α → σ → σ) :
    Field σ :=
  { name, required, read := fun room document draft =>
      (decoder room document).map fun value => store value draft }

structure Record (σ : Type) where
  name : String
  draft : σ
  fields : List (Field σ)

namespace Record

def readEntries (record : Record σ) (room : Nat) :
    List (Option String × Document) → σ → List String → Decoded (σ × List String)
  | [], draft, seen => .ok (draft, seen)
  | (none, _) :: _, _, _ => .error .malformed
  | (some name, value) :: others, draft, seen =>
    match record.fields.find? fun field => field.name == name with
    | none => value.pass.bind fun _ => readEntries record room others draft seen
    | some field =>
      if seen.contains name then .error (.mismatch (.duplicateField name))
      else (field.read room value draft).bind fun draft =>
        readEntries record room others draft (name :: seen)

def missing? (record : Record σ) (seen : List String) : Option String :=
  (record.fields.find? fun field => field.required && !seen.contains field.name).map Field.name

def readItems (record : Record σ) (room : Nat) (ending : Ending) :
    Nat → List (Field σ) → List Document → σ → Decoded σ
  | _, [], [], draft => ending.check.map fun _ => draft
  | _, [], _ :: _, _ => .error .malformed
  | count, field :: fields, item :: items, draft =>
    (field.read room item draft).bind fun draft =>
      readItems record room ending (count + 1) fields items draft
  | count, field :: fields, [], draft =>
    ending.check.bind fun _ =>
      if field.required then
        .error (.mismatch (.wrongLength count (.recordOf record.name record.fields.length)))
      else readItems record room ending (count + 1) fields [] draft

def read (record : Record σ) : Decoder σ
  | room, .object entries ending =>
    descend room fun room => do
      let (draft, seen) ← record.readEntries room entries record.draft []
      ending.check
      match record.missing? seen with
      | some name => throw (.mismatch (.missingField name))
      | none => return draft
  | room, .array items ending =>
    descend room fun room => record.readItems room ending 0 record.fields items record.draft
  | _, other => other.refuse (.record record.name)

end Record

/-- The greatest number of arrays and objects inside each other. -/
def depthLimit : Nat := 127

def decode (decoder : Decoder α) (text : String) : Decoded α := do
  let reading := Reading.ofText text
  let result ← decoder depthLimit reading.document
  if reading.trailing then throw .malformed
  return result

end ActionAtlas.Json
