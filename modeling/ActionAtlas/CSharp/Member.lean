import ActionAtlas.Source.Declaration

/-!
The members of a compilation unit, a namespace or a type: what the reader tells apart, with the
members inside a namespace or type.
-/

namespace ActionAtlas.CSharp

structure Using where
  isGlobal : Bool
  isStatic : Bool
  alias? : Option String
  target : String
deriving DecidableEq, Repr

structure TypeHead where
  name : String
  kind : TypeKind
  modifiers : List String
  hasTypeParameters : Bool
  bases : List Source.TypeSyntax
  attributes : List Source.Attribute
deriving Repr

inductive Member where
  | using (directive : Using)
  | fileNamespace (name : String)
  | namespaceBlock (name : String) (body : List Member)
  | type (head : TypeHead) (body : List Member)
  /-- An explicit implementation names the interface it is for. -/
  | method (declared : Source.Method) (isExplicit : Bool)
  /-- Anything else: fields, properties, events, delegates, statements. -/
  | other
deriving Repr

end ActionAtlas.CSharp
