import ActionAtlas.Graph.Declaration
import ActionAtlas.Source.TypeSyntax

/-!
Declarations as they are written in a source file: modifiers, attributes, types and bases with
their written names, and the scope in which those names have to be understood.
-/

namespace ActionAtlas

/-- The accessibility that modifiers give; without one it is `absent`. -/
def Accessibility.ofModifiers (absent : Accessibility) (modifiers : List String) :
    Accessibility :=
  let has (modifier : String) : Bool := modifiers.contains modifier
  if has "public" then .public
  else if has "protected" && has "internal" then .protectedInternal
  else if has "private" && has "protected" then .privateProtected
  else if has "protected" then .protected
  else if has "internal" then .internal
  else if has "private" then .private
  else absent

namespace Source

structure Scope where
  namespaceParts : List String
  enclosing : List String
  usings : List String
  aliases : List (String × String)
deriving DecidableEq, Repr

namespace Scope

def empty : Scope := ⟨[], [], [], []⟩

def namespaceName (scope : Scope) : String :=
  Text.dotted scope.namespaceParts

def enter (scope : Scope) (typeName : String) : Scope :=
  { scope with enclosing := scope.enclosing ++ [typeName] }

end Scope

structure Attribute where
  name : String
  arguments : List Evaluated
deriving DecidableEq, Repr

structure Parameter where
  name : String
  type : TypeSyntax
  default? : Option Evaluated
deriving Repr

structure Method where
  name : String
  kind : MethodKind
  isGeneric : Bool
  modifiers : List String
  attributes : List Attribute
  parameters : List Parameter
deriving Repr

structure TypeDeclaration where
  name : String
  kind : TypeKind
  modifiers : List String
  isGeneric : Bool
  /-- Whether the type right around it, if any, is public. -/
  enclosingPublic : Bool
  bases : List TypeSyntax
  attributes : List Attribute
  methods : List Method
  scope : Scope
deriving Repr

structure File where
  globalUsings : List String
  types : List TypeDeclaration
deriving Repr

namespace TypeDeclaration

def nestedName (type : TypeDeclaration) : String :=
  Text.dotted (type.scope.enclosing ++ [type.name])

def fullName (type : TypeDeclaration) : String :=
  qualify type.scope.namespaceName type.nestedName

/-- A type inside a type that is not public is not public either. -/
def accessibility (type : TypeDeclaration) : Accessibility :=
  let absent := if type.scope.enclosing.isEmpty then .internal else .private
  let declared := Accessibility.ofModifiers absent type.modifiers
  if declared = .public ∧ !type.enclosingPublic then .internal else declared

def hasModifier (type : TypeDeclaration) (modifier : String) : Bool :=
  type.modifiers.contains modifier

def innerScope (type : TypeDeclaration) : Scope :=
  type.scope.enter type.name

end TypeDeclaration

end Source

end ActionAtlas
