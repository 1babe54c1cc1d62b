import ActionAtlas.Graph.Constant
import ActionAtlas.Text.Cut

/-!
Declared types with their attributes and methods, all names resolved.
-/

namespace ActionAtlas

inductive TypeKind where
  | «class»
  | struct
  | interface
  | record
  | enum
deriving DecidableEq, Repr, Inhabited

inductive Accessibility where
  | «public»
  | internal
  | «protected»
  | protectedInternal
  | privateProtected
  | «private»
deriving DecidableEq, Repr, Inhabited

inductive MethodKind where
  | ordinary
  | constructor
  | staticConstructor
  | destructor
  | propertyAccessor
  | eventAccessor
  | operator
  | conversion
deriving DecidableEq, Repr, Inhabited

structure Attribute where
  name : String
  arguments : List Evaluated
deriving DecidableEq, Repr

structure Parameter where
  name : String
  type : TypeShape
  default? : Option Evaluated
deriving Repr

structure MethodDeclaration where
  name : String
  kind : MethodKind
  accessibility : Accessibility
  isStatic : Bool
  isGeneric : Bool
  attributes : List Attribute
  parameters : List Parameter
deriving Repr

structure TypeDeclaration where
  name : String
  namespaceName : String
  kind : TypeKind
  accessibility : Accessibility
  isAbstract : Bool
  isStatic : Bool
  isGeneric : Bool
  base? : Option String
  interfaces : List String
  attributes : List Attribute
  methods : List MethodDeclaration
deriving Repr

/-- A name as seen from outside of `outer`; the empty name is the outermost. -/
def qualify (outer name : String) : String :=
  if outer.isEmpty then name else outer ++ "." ++ name

namespace TypeDeclaration

def fullName (type : TypeDeclaration) : String :=
  qualify type.namespaceName type.name

def shortName (type : TypeDeclaration) : String :=
  match Text.cutLast? '.' type.name.toList with
  | some (_, short) => String.ofList short
  | none => type.name

end TypeDeclaration

def MethodKind.isSpecial (kind : MethodKind) : Bool :=
  kind != .ordinary

end ActionAtlas
