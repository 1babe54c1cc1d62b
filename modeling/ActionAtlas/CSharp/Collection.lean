import ActionAtlas.CSharp.MemberReader

/-!
From the members of a compilation unit to the declarations of a source file.

Using directives count for the whole unit or namespace body that they stand in, wherever they
stand there. A type is followed by the types inside it, and its methods are those that stand
directly in its body.
-/

namespace ActionAtlas.CSharp

open Source (Scope)

def namespaceParts (name : String) : List String :=
  let separated := Text.pieces '.' (colonsToStops name.toList)
  (separated.map Text.trim).filterMap fun part =>
    if part.isEmpty then none else some (String.ofList part)
where
  colonsToStops : List Char → List Char
    | ':' :: ':' :: rest => '.' :: colonsToStops rest
    | c :: rest => c :: colonsToStops rest
    | [] => []

namespace Using

/-- What the directive adds to a scope. Static directives, and names for themselves, add nothing. -/
def apply (scope : Scope) (directive : Using) : Scope :=
  if directive.isStatic || directive.target.isEmpty then scope
  else
    let target := Tree.dropGlobalQualifier directive.target
    match directive.alias? with
    | some name =>
      if name.isEmpty || name == directive.target then scope
      else { scope with aliases := scope.aliases ++ [(name, target)] }
    | none => { scope with usings := scope.usings ++ [target] }

def global? (directive : Using) : Option String :=
  if directive.isGlobal && !directive.isStatic && directive.alias?.isNone
      && !directive.target.isEmpty then
    some (Tree.dropGlobalQualifier directive.target)
  else none

end Using

namespace Member

def using? : Member → Option Using
  | .using directive => some directive
  | _ => none

def fileNamespace? : Member → Option String
  | .fileNamespace name => some name
  | _ => none

/-- The method that a type has of this member. Explicit implementations are left out of ordinary
methods only. -/
def method? : Member → Option Source.Method
  | .method declared isExplicit =>
    if isExplicit && declared.kind == .ordinary then none else some declared
  | _ => none

end Member

structure Surroundings where
  scope : Scope
  isPublic : Bool
  isGeneric : Bool
deriving Repr

namespace Surroundings

def outermost : Surroundings := ⟨.empty, true, false⟩

def withUsings (around : Surroundings) (members : List Member) : Surroundings :=
  { around with scope := (members.filterMap Member.using?).foldl Using.apply around.scope }

def inNamespace (around : Surroundings) (name : String) : Surroundings :=
  { around with
    scope := { around.scope with
      namespaceParts := around.scope.namespaceParts ++ namespaceParts name } }

/-- The last namespace for the whole file takes the place of any other. -/
def withFileNamespace (around : Surroundings) (members : List Member) : Surroundings :=
  match (members.filterMap Member.fileNamespace?).getLast? with
  | some name =>
    { around with scope := { around.scope with namespaceParts := namespaceParts name } }
  | none => around

def declare (around : Surroundings) (head : TypeHead) (body : List Member) :
    Source.TypeDeclaration where
  name := head.name
  kind := head.kind
  modifiers := head.modifiers
  isGeneric := around.isGeneric || head.hasTypeParameters
  enclosingPublic := around.isPublic
  bases := head.bases
  attributes := head.attributes
  methods := body.filterMap Member.method?
  scope := around.scope

def inType (around : Surroundings) (type : Source.TypeDeclaration) : Surroundings where
  scope := around.scope.enter type.name
  isPublic := type.accessibility == .public
  isGeneric := type.isGeneric

end Surroundings

namespace Member

mutual

def types (around : Surroundings) : Member → List Source.TypeDeclaration
  | .namespaceBlock name body =>
    typesIn ((around.inNamespace name).withUsings body) body
  | .type head body =>
    let type := around.declare head body
    type :: typesIn (around.inType type) body
  | .using _ => []
  | .fileNamespace _ => []
  | .method _ _ => []
  | .other => []

def typesIn (around : Surroundings) : List Member → List Source.TypeDeclaration
  | [] => []
  | member :: others => member.types around ++ typesIn around others

end

mutual

def innerGlobalUsings : Member → List String
  | .namespaceBlock _ body =>
    (body.filterMap Member.using?).filterMap Using.global? ++ innerGlobalUsingsIn body
  | .type _ body => innerGlobalUsingsIn body
  | .using _ => []
  | .fileNamespace _ => []
  | .method _ _ => []
  | .other => []

def innerGlobalUsingsIn : List Member → List String
  | [] => []
  | member :: others => member.innerGlobalUsings ++ innerGlobalUsingsIn others

end

end Member

def collect (members : List Member) : Source.File where
  globalUsings :=
    (members.filterMap Member.using?).filterMap Using.global? ++ Member.innerGlobalUsingsIn members
  types :=
    Member.typesIn ((Surroundings.outermost.withUsings members).withFileNamespace members) members

def declarationsOf (text : String) : Source.File :=
  collect (Tree.members (Tree.ofText text))

end ActionAtlas.CSharp
