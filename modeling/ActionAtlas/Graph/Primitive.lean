/-!
The built-in types of C#: each has a keyword and a name in the framework.
-/

namespace ActionAtlas

inductive Primitive where
  | bool
  | byte
  | sbyte
  | char
  | decimal
  | double
  | float
  | int
  | uint
  | long
  | ulong
  | short
  | ushort
  | object
  | string
  | nint
  | nuint
deriving DecidableEq, Repr, Inhabited

namespace Primitive

def all : List Primitive :=
  [bool, byte, sbyte, char, decimal, double, float, int, uint, long, ulong, short, ushort, object,
   string, nint, nuint]

def keyword : Primitive → String
  | bool => "bool"
  | byte => "byte"
  | sbyte => "sbyte"
  | char => "char"
  | decimal => "decimal"
  | double => "double"
  | float => "float"
  | int => "int"
  | uint => "uint"
  | long => "long"
  | ulong => "ulong"
  | short => "short"
  | ushort => "ushort"
  | object => "object"
  | string => "string"
  | nint => "nint"
  | nuint => "nuint"

def frameworkName : Primitive → String
  | bool => "System.Boolean"
  | byte => "System.Byte"
  | sbyte => "System.SByte"
  | char => "System.Char"
  | decimal => "System.Decimal"
  | double => "System.Double"
  | float => "System.Single"
  | int => "System.Int32"
  | uint => "System.UInt32"
  | long => "System.Int64"
  | ulong => "System.UInt64"
  | short => "System.Int16"
  | ushort => "System.UInt16"
  | object => "System.Object"
  | string => "System.String"
  | nint => "System.IntPtr"
  | nuint => "System.UIntPtr"

def ofKeyword? (text : String) : Option Primitive :=
  all.find? fun primitive => primitive.keyword == text

def ofFrameworkName? (text : String) : Option Primitive :=
  all.find? fun primitive => primitive.frameworkName == text

def isReal : Primitive → Bool
  | decimal => true
  | double => true
  | float => true
  | _ => false

theorem ofKeyword?_keyword (primitive : Primitive) :
    ofKeyword? primitive.keyword = some primitive := by
  cases primitive <;> decide

theorem ofFrameworkName?_frameworkName (primitive : Primitive) :
    ofFrameworkName? primitive.frameworkName = some primitive := by
  cases primitive <;> decide

end Primitive

end ActionAtlas
