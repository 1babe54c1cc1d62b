import ActionAtlas.Graph.SymbolGraph
import ActionAtlas.Graph.Terms
import ActionAtlas.Json.Writer

/-!
Graphs as JSON. Every field is written, in a fixed order. A constant is written as its bare value,
so that a character becomes a text and the width of an integer is lost.
-/

namespace ActionAtlas

open Json (Value)

def Constant.toJson : Constant → Value
  | .null => .null
  | .bool value => .bool value
  | .int value => .integer value.toInt
  | .uint value => .integer value.toNat
  | .float value => if value.isFinite then .number (.float value) else .null
  | .char value => .string (String.singleton value)
  | .string value => .string value

def Evaluated.toJson : Evaluated → Value
  | .constant value => .object [("constant", value.toJson)]
  | .unresolved text => .object [("unresolved", .string text)]

def optionToJson (write : α → Value) : Option α → Value
  | some value => write value
  | none => .null

namespace TypeShape

mutual

def toJson : TypeShape → Value
  | primitive builtIn =>
    .object [("shape", .string "primitive"), ("primitive", .string builtIn.keyword)]
  | named fullName => .object [("shape", .string "named"), ("full_name", .string fullName)]
  | generic fullName arguments =>
    .object [("shape", .string "generic"), ("full_name", .string fullName),
      ("arguments", .array (listToJson arguments))]
  | array element rank =>
    .object [("shape", .string "array"), ("element", element.toJson), ("rank", .integer rank.toNat)]
  | nullable underlying =>
    .object [("shape", .string "nullable"), ("underlying", underlying.toJson)]

def listToJson : List TypeShape → List Value
  | [] => []
  | shape :: others => shape.toJson :: listToJson others

end

end TypeShape

def Attribute.toJson (applied : Attribute) : Value :=
  .object [("name", .string applied.name),
    ("arguments", .array (applied.arguments.map Evaluated.toJson))]

def Parameter.toJson (parameter : Parameter) : Value :=
  .object [("name", .string parameter.name), ("type", parameter.type.toJson),
    ("default_value", optionToJson Evaluated.toJson parameter.default?)]

def MethodDeclaration.toJson (method : MethodDeclaration) : Value :=
  .object [("name", .string method.name), ("kind", .string method.kind.term),
    ("accessibility", .string method.accessibility.term), ("is_static", .bool method.isStatic),
    ("is_generic", .bool method.isGeneric),
    ("attributes", .array (method.attributes.map Attribute.toJson)),
    ("parameters", .array (method.parameters.map Parameter.toJson))]

def TypeDeclaration.toJson (type : TypeDeclaration) : Value :=
  .object [("name", .string type.name), ("namespace", .string type.namespaceName),
    ("kind", .string type.kind.term), ("accessibility", .string type.accessibility.term),
    ("is_abstract", .bool type.isAbstract), ("is_static", .bool type.isStatic),
    ("is_generic", .bool type.isGeneric), ("base_type", optionToJson .string type.base?),
    ("interfaces", .array (type.interfaces.map .string)),
    ("attributes", .array (type.attributes.map Attribute.toJson)),
    ("methods", .array (type.methods.map MethodDeclaration.toJson))]

def SymbolGraph.toJson (graph : SymbolGraph) : Value :=
  .object [("types", .array (graph.types.map TypeDeclaration.toJson))]

end ActionAtlas
