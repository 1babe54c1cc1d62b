import ActionAtlas.Graph.SymbolGraph
import ActionAtlas.Graph.Terms
import ActionAtlas.Json.Decode
import ActionAtlas.Text.Blank

/-!
Reading graphs from JSON.

All fields but a few may be missing. The shape of a type is read in two steps: its tag says which
fields it has, so the other fields are taken as values first and decoded when the tag is known.
-/

namespace ActionAtlas

open Json

namespace Constant

/-- The constant a value stands for. Texts stay texts, also those of one character. -/
def ofJson? : Value → Option Constant
  | .null => some .null
  | .bool value => some (.bool value)
  | .number (.integer n) =>
    if n < -0x8000000000000000 then none
    else if n < 0x8000000000000000 then some (.int (Int64.ofInt n))
    else if n < 0x10000000000000000 then some (.uint (UInt64.ofNat n.toNat))
    else none
  | .number (.float x) => some (.float x)
  | .string text => some (.string text)
  | .array _ => none
  | .object _ => none

def decoder : Decoder Constant := fun room document => do
  match ofJson? (← document.value room) with
  | some constant => return constant
  | none => throw (.mismatch (.noVariant "Constant"))

end Constant

def Evaluated.decoder : Decoder Evaluated :=
  Decoder.variant ["constant", "unresolved"]
    (fun _ => .error (.mismatch (.wrongType .unitVariant .payload)))
    fun name room document =>
      if name = "constant" then (Constant.decoder room document).map .constant
      else (Decoder.string room document).map .unresolved

def Json.Value.found : Value → Found
  | .null => .null
  | .bool value => .bool value
  | .number value => .number value
  | .string text => .string text
  | .array _ => .sequence
  | .object _ => .map

namespace TypeShape

inductive Tag where
  | primitive
  | named
  | generic
  | array
  | nullable
deriving DecidableEq, Repr

namespace Tag

def term : Tag → String
  | primitive => "primitive"
  | named => "named"
  | generic => "generic"
  | array => "array"
  | nullable => "nullable"

def title : Tag → String
  | primitive => "Primitive"
  | named => "Named"
  | generic => "Generic"
  | array => "Array"
  | nullable => "Nullable"

def all : List Tag := [primitive, named, generic, array, nullable]

def fields : Tag → List String
  | primitive => ["primitive"]
  | named => ["full_name"]
  | generic => ["full_name", "arguments"]
  | array => ["element", "rank"]
  | nullable => ["underlying"]

def ofName (name : String) : Except Mismatch Tag :=
  match all.find? fun tag => tag.term == name with
  | some tag => .ok tag
  | none => .error (.unknownVariant name (all.map term))

def ofValue : Value → Except Mismatch Tag
  | .string name => ofName name
  | .number (.integer n) =>
    if n < 0 then .error (.wrongType (.number (.integer n)) .variantName)
    else
      match all[n.toNat]? with
      | some tag => .ok tag
      | none => .error (.wrongValue (.number (.integer n)) (.variantIndex all.length))
  | other => .error (.wrongType other.found .variantName)

end Tag

structure Part where
  value : Value
  shape : Except Mismatch TypeShape
  shapes : Except Mismatch (List TypeShape)

namespace Part

def string (part : Part) : Except Mismatch String :=
  match part.value with
  | .string text => .ok text
  | other => .error (.wrongType other.found .string)

def size (part : Part) : Except Mismatch Rank :=
  match part.value with
  | .number (.integer n) =>
    if n < 0 then .error (.wrongValue (.number (.integer n)) .size) else .ok (.ofNat n.toNat)
  | other => .error (.wrongType other.found .size)

def builtInNamed (name : String) : Except Mismatch Primitive :=
  match Primitive.ofKeyword? name with
  | some builtIn => .ok builtIn
  | none => .error (.unknownVariant name (Primitive.all.map Primitive.keyword))

/-- A built-in type: its keyword, or an object with the keyword and an empty payload. -/
def builtIn (part : Part) : Except Mismatch Primitive :=
  match part.value with
  | .string name => builtInNamed name
  | .object [(name, payload)] => do
    let builtIn ← builtInNamed name
    match payload with
    | .null => return builtIn
    | .object [] => return builtIn
    | other => throw (.wrongType other.found .unit)
  | .object _ => .error (.wrongValue .map .singleKey)
  | other => .error (.wrongType other.found .nameOrMap)

end Part

structure Draft where
  builtIn : Primitive
  fullName : String
  arguments : List TypeShape
  element : TypeShape
  rank : Rank

def Draft.blank : Draft := ⟨.object, "", [], .named "", 0⟩

def Draft.store (draft : Draft) (name : String) (part : Part) : Except Mismatch Draft :=
  match name with
  | "primitive" => part.builtIn.map fun builtIn => { draft with builtIn }
  | "full_name" => part.string.map fun fullName => { draft with fullName }
  | "arguments" => part.shapes.map fun arguments => { draft with arguments }
  | "rank" => part.size.map fun rank => { draft with rank }
  | _ => part.shape.map fun element => { draft with element }

def Draft.finish (draft : Draft) : Tag → TypeShape
  | .primitive => .primitive draft.builtIn
  | .named => .named draft.fullName
  | .generic => .generic draft.fullName draft.arguments
  | .array => .array draft.element draft.rank
  | .nullable => .nullable draft.element

/-- Reads the fields of an object; `seen` are those read before. -/
def ofFields (tag : Tag) : List (String × Part) → Draft → List String → Except Mismatch TypeShape
  | [], draft, seen =>
    match tag.fields.find? fun name => !seen.contains name with
    | some name => .error (.missingField name)
    | none => .ok (draft.finish tag)
  | (name, part) :: others, draft, seen =>
    if tag.fields.contains name then
      if seen.contains name then .error (.duplicateField name)
      else (draft.store name part).bind fun draft => ofFields tag others draft (name :: seen)
    else ofFields tag others draft seen

def ofItems (tag : Tag) : List String → List Part → Draft → Except Mismatch TypeShape
  | [], [], draft => .ok (draft.finish tag)
  | [], extra :: others, _ =>
    .error (.wrongLength (tag.fields.length + (extra :: others).length) (.items tag.fields.length))
  | name :: names, [], _ =>
    .error (.wrongLength (tag.fields.length - (name :: names).length)
      (.variantOf "TypeRef" tag.title tag.fields.length))
  | name :: names, part :: parts, draft =>
    (draft.store name part).bind fun draft => ofItems tag names parts draft

def tagField : String := "shape"

def splitFields : List (String × Part) → Option Tag → List (String × Part) →
    Except Mismatch TypeShape
  | [], none, _ => .error (.missingField tagField)
  | [], some tag, others => ofFields tag others.reverse .blank []
  | (name, part) :: fields, tag?, others =>
    if name = tagField then
      if tag?.isSome then .error (.duplicateField tagField)
      else (Tag.ofValue part.value).bind fun tag => splitFields fields (some tag) others
    else splitFields fields tag? ((name, part) :: others)

def ofArray : List Part → Except Mismatch TypeShape
  | [] => .error (.missingField tagField)
  | first :: parts =>
    (Tag.ofValue first.value).bind fun tag => ofItems tag tag.fields parts .blank

mutual

def part : Value → Part
  | .array items =>
    let parts := partsOfItems items
    { value := .array items, shape := ofArray parts, shapes := parts.mapM Part.shape }
  | .object fields =>
    { value := .object fields, shape := splitFields (partsOfFields fields) none [],
      shapes := .error (.wrongType .map .sequence) }
  | other =>
    { value := other, shape := .error (.wrongType other.found (.taggedUnion "TypeRef")),
      shapes := .error (.wrongType other.found .sequence) }

def partsOfItems : List Value → List Part
  | [] => []
  | item :: others => part item :: partsOfItems others

def partsOfFields : List (String × Value) → List (String × Part)
  | [] => []
  | (name, value) :: others => (name, part value) :: partsOfFields others

end

def raise (result : Except Mismatch α) : Decoded α :=
  result.mapError .mismatch

def tagDecoder : Decoder Tag
  | _, .string (some name) => raise (Tag.ofName name)
  | _, other => other.refuse .variantName

/-- Takes the entries of an object: the tag is decoded at once, all else kept as values. -/
def takeEntries (room : Nat) : List (Option String × Document) → Option Tag →
    List (String × Value) → Decoded (Option Tag × List (String × Value))
  | [], tag?, others => .ok (tag?, others.reverse)
  | (none, _) :: _, _, _ => .error .malformed
  | (some name, value) :: entries, tag?, others =>
    if name = tagField then
      if tag?.isSome then .error (.mismatch (.duplicateField tagField))
      else (tagDecoder room value).bind fun tag => takeEntries room entries (some tag) others
    else (value.value room).bind fun value =>
      takeEntries room entries tag? ((name, value) :: others)

def decoder : Decoder TypeShape
  | room, .object entries ending =>
    descend room fun room => do
      let (tag?, fields) ← takeEntries room entries none []
      ending.check
      match tag? with
      | none => throw (.mismatch (.missingField tagField))
      | some tag => raise (ofFields tag (partsOfFields fields) .blank [])
  | room, .array items ending =>
    descend room fun room =>
      match items with
      | [] => do
        ending.check
        throw (.mismatch (.missingField tagField))
      | first :: others => do
        let tag ← tagDecoder room first
        let values ← Document.values room others
        ending.check
        raise (ofItems tag tag.fields (partsOfItems values) .blank)
  | _, other => other.refuse (.taggedUnion "TypeRef")

end TypeShape

namespace Attribute

def record : Record Attribute where
  name := "Attribute"
  draft := ⟨"", []⟩
  fields :=
    [.of "name" true Decoder.string fun name draft => { draft with name },
     .of "arguments" false (Decoder.list Evaluated.decoder) fun arguments draft =>
      { draft with arguments }]

end Attribute

namespace Parameter

def record : Record Parameter where
  name := "ParameterDecl"
  draft := ⟨"", .named "", none⟩
  fields :=
    [.of "name" true Decoder.string fun name draft => { draft with name },
     .of "type" true TypeShape.decoder fun type draft => { draft with type },
     .of "default_value" false (Decoder.option Evaluated.decoder) fun default? draft =>
      { draft with default? }]

def convert (parameter : Parameter) : Parameter :=
  { parameter with default? := parameter.default?.map (Evaluated.forType parameter.type) }

end Parameter

def TypeKind.table : List (String × TypeKind) :=
  TypeKind.all.map fun kind => (kind.term, kind)

def Accessibility.table : List (String × Accessibility) :=
  Accessibility.all.map fun accessibility => (accessibility.term, accessibility)

def MethodKind.table : List (String × MethodKind) :=
  MethodKind.all.map fun kind => (kind.term, kind)

namespace MethodDeclaration

def record : Record MethodDeclaration where
  name := "MethodDecl"
  draft := ⟨"", .ordinary, .private, false, false, [], []⟩
  fields :=
    [.of "name" true Decoder.string fun name draft => { draft with name },
     .of "kind" false (Decoder.choice MethodKind.table) fun kind draft => { draft with kind },
     .of "accessibility" false (Decoder.choice Accessibility.table) fun accessibility draft =>
      { draft with accessibility },
     .of "is_static" false Decoder.bool fun isStatic draft => { draft with isStatic },
     .of "is_generic" false Decoder.bool fun isGeneric draft => { draft with isGeneric },
     .of "attributes" false (Decoder.list Attribute.record.read) fun attributes draft =>
      { draft with attributes },
     .of "parameters" false (Decoder.list Parameter.record.read) fun parameters draft =>
      { draft with parameters }]

def convert (method : MethodDeclaration) : MethodDeclaration :=
  { method with parameters := method.parameters.map Parameter.convert }

end MethodDeclaration

namespace TypeDeclaration

def record : Record TypeDeclaration where
  name := "TypeDecl"
  draft := ⟨"", "", .class, .private, false, false, false, none, [], [], []⟩
  fields :=
    [.of "name" true Decoder.string fun name draft => { draft with name },
     .of "namespace" false Decoder.string fun namespaceName draft => { draft with namespaceName },
     .of "kind" true (Decoder.choice TypeKind.table) fun kind draft => { draft with kind },
     .of "accessibility" false (Decoder.choice Accessibility.table) fun accessibility draft =>
      { draft with accessibility },
     .of "is_abstract" false Decoder.bool fun isAbstract draft => { draft with isAbstract },
     .of "is_static" false Decoder.bool fun isStatic draft => { draft with isStatic },
     .of "is_generic" false Decoder.bool fun isGeneric draft => { draft with isGeneric },
     .of "base_type" false (Decoder.option Decoder.string) fun base? draft =>
      { draft with base? },
     .of "interfaces" false (Decoder.list Decoder.string) fun interfaces draft =>
      { draft with interfaces },
     .of "attributes" false (Decoder.list Attribute.record.read) fun attributes draft =>
      { draft with attributes },
     .of "methods" false (Decoder.list MethodDeclaration.record.read) fun methods draft =>
      { draft with methods }]

def convert (type : TypeDeclaration) : TypeDeclaration :=
  { type with methods := type.methods.map MethodDeclaration.convert }

end TypeDeclaration

namespace SymbolGraph

def record : Record (List TypeDeclaration) where
  name := "SymbolGraph"
  draft := []
  fields := [.of "types" true (Decoder.list TypeDeclaration.record.read) fun types _ => types]

def read (text : String) : Decoded SymbolGraph :=
  (decode record.read text).map unindexed

inductive LoadError where
  | empty
  | undecodable (failure : Failure)
deriving DecidableEq, Repr

def LoadError.message : LoadError → String
  | .empty => "symbol graph input is empty"
  | .undecodable _ => "parse symbol graph"

def load (text : String) : Except LoadError SymbolGraph :=
  if (Text.trim text.toList).isEmpty then .error .empty
  else
    match read text with
    | .ok graph => .ok (indexed (graph.types.map TypeDeclaration.convert))
    | .error failure => .error (.undecodable failure)

end SymbolGraph

end ActionAtlas
