import ActionAtlas.Decimal.Binary64
import ActionAtlas.Graph.TypeShape

/-!
Constants of declarations: attribute arguments and default values.

`Constant.forType` holds a constant the way a parameter of a given type does. `Evaluated` keeps
the text of an expression whose value is not known.
-/

namespace ActionAtlas

inductive Constant where
  | null
  | bool (value : Bool)
  | int (value : Int64)
  /-- An unsigned integer; those that are read from texts exceed the signed ones. -/
  | uint (value : UInt64)
  | float (value : Decimal.Binary64)
  | char (value : Char)
  | string (value : String)
deriving DecidableEq, Repr, Inhabited

namespace Constant

def ofNat (n : Nat) : Constant :=
  if n < 0x8000000000000000 then .int (Int64.ofNat n) else .uint (UInt64.ofNat n)

def string? : Constant → Option String
  | .string value => some value
  | _ => none

/-- The constant as a parameter whose type holds `primitive` has it: integers become doubles
where doubles are held, and a text of one character becomes that character. -/
def forPrimitive (primitive : Primitive) : Constant → Constant
  | .int value =>
    if primitive.isReal then .float (Decimal.Binary64.ofInt value.toInt) else .int value
  | .uint value =>
    if primitive.isReal then .float (Decimal.Binary64.ofInt value.toNat) else .uint value
  | .string value =>
    match primitive, value.toList with
    | .char, [c] => .char c
    | _, _ => .string value
  | other => other

def forType (shape : TypeShape) (constant : Constant) : Constant :=
  match shape.constantType? with
  | some primitive => constant.forPrimitive primitive
  | none => constant

end Constant

inductive Evaluated where
  | constant (value : Constant)
  | unresolved (text : String)
deriving DecidableEq, Repr

namespace Evaluated

def constant? : Evaluated → Option Constant
  | .constant value => some value
  | .unresolved _ => none

def forType (shape : TypeShape) : Evaluated → Evaluated
  | .constant value => .constant (value.forType shape)
  | .unresolved text => .unresolved text

end Evaluated

end ActionAtlas
