import ActionAtlas.Graph.Primitive
import ActionAtlas.Graph.Rank

/-!
References to types: their shape, and the canonical text of it.

The text has keywords for built-in types and full names for all others, also inside type
arguments, arrays and nullable types.
-/

namespace ActionAtlas

inductive TypeShape where
  | primitive (builtIn : Primitive)
  | named (fullName : String)
  | generic (fullName : String) (arguments : List TypeShape)
  | array (element : TypeShape) (rank : Rank)
  | nullable (underlying : TypeShape)
deriving Repr

namespace TypeShape

/-- A type without arguments. The framework's names of built-in types mean those types. -/
def ofName (fullName : String) : TypeShape :=
  match Primitive.ofFrameworkName? fullName with
  | some builtIn => .primitive builtIn
  | none => .named fullName

def commas (rank : Rank) : String :=
  String.ofList (List.replicate (rank.toNat - 1) ',')

mutual

def text : TypeShape → String
  | primitive builtIn => builtIn.keyword
  | named fullName => fullName
  | generic fullName arguments => fullName ++ "<" ++ ", ".intercalate (texts arguments) ++ ">"
  | array element rank => element.text ++ "[" ++ commas rank ++ "]"
  | nullable underlying => underlying.text ++ "?"

def texts : List TypeShape → List String
  | [] => []
  | shape :: others => shape.text :: texts others

end

/-- The built-in type that decides how a constant of this type is held: the type itself, or what
a nullable type makes nullable. -/
def constantType? : TypeShape → Option Primitive
  | primitive builtIn => some builtIn
  | nullable (primitive builtIn) => some builtIn
  | _ => none

end TypeShape

end ActionAtlas
