import ActionAtlas.Names.WellKnown
import ActionAtlas.Source.Declaration

/-!
Resolving written names to full names.

A name whose first part is an alias stands for the alias's target. Otherwise it is looked for in
the enclosing types, in the enclosing namespaces and in the namespaces in use, in this order, and
nearer places come before farther ones.
-/

namespace ActionAtlas.Names

open Source (Scope TypeSyntax)

structure NameTable where
  globalUsings : List String
  declared : List (String × TypeKind)
deriving Repr

namespace NameTable

def addNew (names : List String) (more : List String) : List String :=
  more.foldl (fun names name => if names.contains name then names else names ++ [name]) names

def ofFiles (files : List Source.File) : NameTable where
  globalUsings := addNew [] (files.flatMap Source.File.globalUsings)
  declared := (files.flatMap Source.File.types).map fun type => (type.fullName, type.kind)

/-- The kind of a declared type; of several declarations the first counts. -/
def kind? (table : NameTable) (fullName : String) : Option TypeKind :=
  table.declared.lookup fullName

def declares (table : NameTable) (fullName : String) : Bool :=
  (table.kind? fullName).isSome

end NameTable

def initialSegments (parts : List α) : List (List α) :=
  ((List.range (parts.length + 1)).map parts.take).reverse

def splitHead (written : String) : String × Option String :=
  match Text.cutFirst? '.' written.toList with
  | some (head, rest) => (String.ofList head, some (String.ofList rest))
  | none => (written, none)

def expandAlias? (scope : Scope) (written : String) : Option String :=
  let (head, rest?) := splitHead written
  (scope.aliases.lookup head).map fun target =>
    match rest? with
    | some rest => target ++ "." ++ rest
    | none => target

def candidatesInTypes (scope : Scope) (written : String) : List String :=
  ((initialSegments scope.enclosing).filter (!·.isEmpty)).map fun enclosing =>
    qualify (qualify scope.namespaceName (Text.dotted enclosing)) written

def candidatesInNamespaces (scope : Scope) (written : String) : List String :=
  (initialSegments scope.namespaceParts).map fun parts => qualify (Text.dotted parts) written

namespace NameTable

def candidatesInUsings (table : NameTable) (scope : Scope) (written : String) : List String :=
  (scope.usings ++ table.globalUsings).map fun outer => qualify outer written

def resolve? (table : NameTable) (scope : Scope) (written : String) : Option String :=
  match expandAlias? scope written with
  | some target => some target
  | none =>
    let near := candidatesInTypes scope written ++ candidatesInNamespaces scope written
    match near.find? table.declares with
    | some found => some found
    | none =>
      let inUse := table.candidatesInUsings scope written
      match inUse.find? fun name => table.declares name || isWellKnown name with
      | some found => some found
      | none => if isWellKnown written then some written else none

/-- The full name of a written name. An unknown name stands for itself. -/
def resolve (table : NameTable) (scope : Scope) (written : String) : String :=
  (table.resolve? scope written).getD written

def attributeEnding : String := "Attribute"

/-- The full name of an attribute's type. The name with the ending goes first. -/
def resolveAttribute (table : NameTable) (scope : Scope) (written : String) : String :=
  let withEnding? :=
    if (Text.dropFinal? attributeEnding.toList written.toList).isSome then none
    else table.resolve? scope (written ++ attributeEnding)
  (withEnding?.or (table.resolve? scope written)).getD written

def shapeOfName (fullName : String) (arguments : List TypeShape) : TypeShape :=
  match arguments with
  | [] => .ofName fullName
  | [argument] =>
    if fullName = "System.Nullable" then .nullable argument else .generic fullName [argument]
  | _ => .generic fullName arguments

mutual

/-- The shape of a written type. Only the arguments of a name's last segment count. -/
def shape (table : NameTable) (scope : Scope) : TypeSyntax → TypeShape
  | .predefined keyword =>
    match Primitive.ofKeyword? keyword with
    | some builtIn => .primitive builtIn
    | none => .named keyword
  | .name segments =>
    let fullName := table.resolve scope (Text.dotted (segments.map (·.1)))
    shapeOfName fullName (shapesOfLast table scope segments)
  | .array element rank => .array (shape table scope element) rank
  | .nullable underlying => .nullable (shape table scope underlying)
  | .verbatim text => .named text

def shapesOfLast (table : NameTable) (scope : Scope) :
    List (String × List TypeSyntax) → List TypeShape
  | [] => []
  | [(_, arguments)] => shapes table scope arguments
  | _ :: next :: others => shapesOfLast table scope (next :: others)

def shapes (table : NameTable) (scope : Scope) : List TypeSyntax → List TypeShape
  | [] => []
  | type :: others => shape table scope type :: shapes table scope others

end

end NameTable

end ActionAtlas.Names
