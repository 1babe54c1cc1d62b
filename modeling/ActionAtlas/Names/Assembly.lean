import ActionAtlas.Graph.SymbolGraph
import ActionAtlas.Names.Resolution

/-!
From the declarations of source files to a symbol graph.

Every name is resolved against the declarations of all files. Declarations of one full name are
parts of one type: they are merged into the first.
-/

namespace ActionAtlas.Names

open Source (Scope)

namespace NameTable

def looksLikeInterface (fullName : String) : Bool :=
  let short := match Text.cutLast? '.' fullName.toList with
    | some (_, short) => short
    | none => fullName.toList
  match short with
  | 'I' :: second :: _ => second.isUpper
  | _ => false

def isInterface (table : NameTable) (fullName : String) : Bool :=
  match table.kind? fullName with
  | some kind => kind == .interface
  | none =>
    match wellKnownKind? fullName with
    | some kind => kind == .interface
    | none => looksLikeInterface fullName

/-- The base class and the interfaces among the written bases. Only the first base of a class or
record can be its base class. -/
def splitBases (table : NameTable) (type : Source.TypeDeclaration) :
    Option String × List String :=
  match (type.bases.filterMap Source.TypeSyntax.dottedName?).map (table.resolve type.scope) with
  | [] => (none, [])
  | first :: others =>
    if (type.kind = .class ∨ type.kind = .record) ∧ !table.isInterface first then
      (some first, others)
    else (none, first :: others)

def resolveAttributes (table : NameTable) (scope : Scope) (attributes : List Source.Attribute) :
    List Attribute :=
  attributes.map fun written =>
    { name := table.resolveAttribute scope written.name, arguments := written.arguments }

def parameter (table : NameTable) (scope : Scope) (written : Source.Parameter) : Parameter :=
  let type := table.shape scope written.type
  { name := written.name, type, default? := written.default?.map (Evaluated.forType type) }

/-- A method of `owner`. The methods of an interface are public unless they say otherwise. -/
def method (table : NameTable) (owner : Source.TypeDeclaration) (written : Source.Method) :
    MethodDeclaration :=
  let scope := owner.innerScope
  { name := written.name
    kind := written.kind
    accessibility :=
      Accessibility.ofModifiers (if owner.kind = .interface then .public else .private)
        written.modifiers
    isStatic := written.modifiers.contains "static"
    isGeneric := written.isGeneric
    attributes := table.resolveAttributes scope written.attributes
    parameters := written.parameters.map (table.parameter scope) }

def declaration (table : NameTable) (type : Source.TypeDeclaration) : TypeDeclaration :=
  let (base?, interfaces) := table.splitBases type
  { name := type.nestedName
    namespaceName := type.scope.namespaceName
    kind := type.kind
    accessibility := type.accessibility
    isAbstract := type.hasModifier "abstract"
    isStatic := type.hasModifier "static"
    isGeneric := type.isGeneric
    base?
    interfaces
    attributes := table.resolveAttributes type.scope type.attributes
    methods := type.methods.map (table.method type) }

end NameTable

/-- Joins a further part to the first declaration of a type. -/
def mergePart (first part : TypeDeclaration) : TypeDeclaration :=
  { first with
    isAbstract := first.isAbstract || part.isAbstract
    isStatic := first.isStatic || part.isStatic
    accessibility :=
      if first.accessibility = .internal then part.accessibility else first.accessibility
    base? := first.base?.or part.base?
    interfaces := NameTable.addNew first.interfaces part.interfaces
    attributes := first.attributes ++ part.attributes
    methods := first.methods ++ part.methods }

/-- The types that declarations have made so far, and the position of each full name. -/
structure Assembly where
  types : List TypeDeclaration
  positions : List (String × Nat)

namespace Assembly

def empty : Assembly := ⟨[], []⟩

/-- Adds a declaration: a further part of a type that is there, or else a new type. -/
def add (assembly : Assembly) (part : TypeDeclaration) : Assembly :=
  match assembly.positions.lookup part.fullName with
  | some position =>
    { assembly with types := assembly.types.modify position fun first => mergePart first part }
  | none =>
    { types := assembly.types ++ [part]
      positions := (part.fullName, assembly.types.length) :: assembly.positions }

def ofParts (parts : List TypeDeclaration) : Assembly :=
  parts.foldl add empty

end Assembly

def assemble (files : List Source.File) : SymbolGraph :=
  let table := NameTable.ofFiles files
  let declarations := (files.flatMap Source.File.types).map table.declaration
  .indexed (Assembly.ofParts declarations).types

end ActionAtlas.Names
