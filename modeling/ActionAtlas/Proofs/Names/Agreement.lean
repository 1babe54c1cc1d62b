import ActionAtlas.Proofs.Names.Table

/-!
Name tables that agree. What a declaration becomes hangs on a table only by the names in use and by
the kinds of those names that end in a name that the declaration writes.
-/

namespace ActionAtlas

/-! ### The names that a declaration writes -/

namespace Source

namespace TypeSyntax

mutual

/-- The names in a type, at any depth. -/
def writtenNames : TypeSyntax → List String
  | .predefined _ => []
  | .name segments => Text.dotted (segments.map (·.1)) :: namesInSegments segments
  | .array element _ => element.writtenNames
  | .nullable underlying => underlying.writtenNames
  | .verbatim _ => []

def namesInSegments : List (String × List TypeSyntax) → List String
  | [] => []
  | (_, arguments) :: others => namesInArguments arguments ++ namesInSegments others

def namesInArguments : List TypeSyntax → List String
  | [] => []
  | type :: others => type.writtenNames ++ namesInArguments others

end

end TypeSyntax

/-- The name of an attribute is also looked for with the ending. -/
def Attribute.writtenNames (applied : Attribute) : List String :=
  [applied.name, applied.name ++ Names.NameTable.attributeEnding]

def Method.writtenNames (method : Method) : List String :=
  method.attributes.flatMap Attribute.writtenNames
    ++ method.parameters.flatMap fun parameter => parameter.type.writtenNames

namespace TypeDeclaration

def baseNames (type : TypeDeclaration) : List String :=
  type.bases.filterMap TypeSyntax.dottedName?

def writtenNames (type : TypeDeclaration) : List String :=
  type.baseNames ++ type.attributes.flatMap Attribute.writtenNames
    ++ type.methods.flatMap Method.writtenNames

end TypeDeclaration

end Source

namespace Names.NameTable

open Source (Scope TypeSyntax)

variable {table other : NameTable}

/-- The tables have the same names in use, and the same kinds for the name and all names that end
in a mark and the name. -/
structure AgreesOn (table other : NameTable) (written : String) : Prop where
  globalUsings_eq : table.globalUsings = other.globalUsings
  kind?_eq : ∀ outer, table.kind? (qualify outer written) = other.kind? (qualify outer written)

/-- Agreement on all that a declaration writes, and on what its bases stand for. -/
structure AgreesFor (table other : NameTable) (type : Source.TypeDeclaration) : Prop where
  written : ∀ name ∈ type.writtenNames, AgreesOn table other name
  bases : ∀ name ∈ type.baseNames,
    table.kind? (table.resolve type.scope name) = other.kind? (table.resolve type.scope name)

/-! ### Names -/

theorem AgreesOn.declares_eq {written : String} (agrees : AgreesOn table other written)
    (outer : String) :
    table.declares (qualify outer written) = other.declares (qualify outer written) := by
  rw [declares, agrees.kind?_eq, declares]

theorem exists_qualify_of_mem_candidates {scope : Scope} {written name : String}
    (member : name ∈ candidatesInTypes scope written ++ candidatesInNamespaces scope written) :
    ∃ outer, qualify outer written = name := by
  rcases List.mem_append.mp member with inType | inNamespace
  · obtain ⟨enclosing, -, same⟩ := List.mem_map.mp inType
    exact ⟨_, same⟩
  · obtain ⟨parts, -, same⟩ := List.mem_map.mp inNamespace
    exact ⟨_, same⟩

/-- All places where a name is looked for are names that end in it. -/
theorem AgreesOn.resolve?_eq {written : String} (agrees : AgreesOn table other written)
    (scope : Scope) : table.resolve? scope written = other.resolve? scope written := by
  have near : (candidatesInTypes scope written ++ candidatesInNamespaces scope written).find?
        table.declares =
      (candidatesInTypes scope written ++ candidatesInNamespaces scope written).find?
        other.declares := by
    refine List.find?_congr fun name member => ?_
    obtain ⟨outer, rfl⟩ := exists_qualify_of_mem_candidates member
    exact agrees.declares_eq outer
  have used : table.candidatesInUsings scope written = other.candidatesInUsings scope written := by
    rw [candidatesInUsings, agrees.globalUsings_eq, candidatesInUsings]
  have inUse : ((table.candidatesInUsings scope written).find? fun name =>
        table.declares name || isWellKnown name) =
      (other.candidatesInUsings scope written).find? fun name =>
        other.declares name || isWellKnown name := by
    rw [used]
    refine List.find?_congr fun name member => ?_
    obtain ⟨outer, -, rfl⟩ := List.mem_map.mp member
    rw [agrees.declares_eq]
  simp only [resolve?, near, inUse]

theorem AgreesOn.resolve_eq {written : String} (agrees : AgreesOn table other written)
    (scope : Scope) : table.resolve scope written = other.resolve scope written := by
  rw [resolve, agrees.resolve?_eq, resolve]

theorem resolveAttribute_eq {applied : Source.Attribute}
    (agrees : ∀ name ∈ applied.writtenNames, AgreesOn table other name) (scope : Scope) :
    table.resolveAttribute scope applied.name = other.resolveAttribute scope applied.name := by
  have plain := (agrees applied.name (by simp [Source.Attribute.writtenNames])).resolve?_eq scope
  have ended := (agrees (applied.name ++ attributeEnding)
    (by simp [Source.Attribute.writtenNames])).resolve?_eq scope
  simp only [resolveAttribute, plain, ended]

theorem resolveAttributes_eq {attributes : List Source.Attribute}
    (agrees : ∀ name ∈ attributes.flatMap Source.Attribute.writtenNames, AgreesOn table other name)
    (scope : Scope) :
    table.resolveAttributes scope attributes = other.resolveAttributes scope attributes := by
  refine List.map_congr_left fun applied member => ?_
  rw [resolveAttribute_eq fun name inside => agrees name (List.mem_flatMap_of_mem member inside)]

/-! ### Types -/

mutual

theorem shape_eq (scope : Scope) :
    (type : TypeSyntax) → (∀ name ∈ type.writtenNames, AgreesOn table other name) →
      table.shape scope type = other.shape scope type
  | .predefined keyword, _ => by rw [shape, shape]
  | .name segments, agrees => by
      rw [TypeSyntax.writtenNames, List.forall_mem_cons] at agrees
      rw [shape, shape, agrees.1.resolve_eq, shapesOfLast_eq scope segments agrees.2]
  | .array element rank, agrees => by
      rw [TypeSyntax.writtenNames] at agrees
      rw [shape, shape, shape_eq scope element agrees]
  | .nullable underlying, agrees => by
      rw [TypeSyntax.writtenNames] at agrees
      rw [shape, shape, shape_eq scope underlying agrees]
  | .verbatim text, _ => by rw [shape, shape]

theorem shapesOfLast_eq (scope : Scope) :
    (segments : List (String × List TypeSyntax)) →
      (∀ name ∈ TypeSyntax.namesInSegments segments, AgreesOn table other name) →
      table.shapesOfLast scope segments = other.shapesOfLast scope segments
  | [], _ => by rw [shapesOfLast, shapesOfLast]
  | [(_, arguments)], agrees => by
      rw [TypeSyntax.namesInSegments, List.forall_mem_append] at agrees
      rw [shapesOfLast, shapesOfLast, shapes_eq scope arguments agrees.1]
  | (_, _) :: next :: others, agrees => by
      rw [TypeSyntax.namesInSegments, List.forall_mem_append] at agrees
      rw [shapesOfLast, shapesOfLast, shapesOfLast_eq scope (next :: others) agrees.2]

theorem shapes_eq (scope : Scope) :
    (types : List TypeSyntax) →
      (∀ name ∈ TypeSyntax.namesInArguments types, AgreesOn table other name) →
      table.shapes scope types = other.shapes scope types
  | [], _ => by rw [shapes, shapes]
  | type :: others, agrees => by
      rw [TypeSyntax.namesInArguments, List.forall_mem_append] at agrees
      rw [shapes, shapes, shape_eq scope type agrees.1, shapes_eq scope others agrees.2]

end

/-! ### Declarations -/

theorem isInterface_eq {name : String} (kinds : table.kind? name = other.kind? name) :
    table.isInterface name = other.isInterface name := by
  rw [isInterface, kinds, isInterface]

theorem method_eq (owner : Source.TypeDeclaration) {written : Source.Method}
    (agrees : ∀ name ∈ written.writtenNames, AgreesOn table other name) :
    table.method owner written = other.method owner written := by
  rw [Source.Method.writtenNames, List.forall_mem_append] at agrees
  have parameters : written.parameters.map (table.parameter owner.innerScope) =
      written.parameters.map (other.parameter owner.innerScope) := by
    refine List.map_congr_left fun parameter member => ?_
    rw [NameTable.parameter, NameTable.parameter, shape_eq owner.innerScope parameter.type
      fun name inside => agrees.2 name (List.mem_flatMap_of_mem member inside)]
  simp only [method, resolveAttributes_eq agrees.1, parameters]

namespace AgreesFor

variable {type : Source.TypeDeclaration}

theorem splitBases_eq (agrees : AgreesFor table other type) :
    table.splitBases type = other.splitBases type := by
  have resolved : type.baseNames.map (table.resolve type.scope) =
      type.baseNames.map (other.resolve type.scope) := by
    refine List.map_congr_left fun name member => ?_
    have written : name ∈ type.writtenNames := by
      simp [Source.TypeDeclaration.writtenNames, member]
    exact (agrees.written name written).resolve_eq type.scope
  have interfaces : ∀ name ∈ type.baseNames.map (table.resolve type.scope),
      table.isInterface name = other.isInterface name := by
    intro name member
    obtain ⟨written, inside, rfl⟩ := List.mem_map.mp member
    exact isInterface_eq (agrees.bases written inside)
  rw [Source.TypeDeclaration.baseNames] at resolved interfaces
  rw [splitBases, splitBases, ← resolved]
  cases given : (type.bases.filterMap TypeSyntax.dottedName?).map (table.resolve type.scope) with
  | nil => rfl
  | cons first others => simp only [interfaces first (by simp [given])]

/-- Tables that agree for a declaration make the same of it. -/
theorem declaration_eq (agrees : AgreesFor table other type) :
    table.declaration type = other.declaration type := by
  have own : ∀ name ∈ type.attributes.flatMap Source.Attribute.writtenNames,
      AgreesOn table other name := by
    intro name member
    exact agrees.written name (by simp [Source.TypeDeclaration.writtenNames, member])
  have methods : type.methods.map (table.method type) = type.methods.map (other.method type) := by
    refine List.map_congr_left fun method member => method_eq type fun name inside => ?_
    have written := List.mem_flatMap_of_mem member inside
    exact agrees.written name (by simp [Source.TypeDeclaration.writtenNames, written])
  simp only [declaration, agrees.splitBases_eq, resolveAttributes_eq own, methods]

end AgreesFor

/-! ### Tables that agree everywhere -/

structure Agrees (table other : NameTable) : Prop where
  globalUsings_eq : table.globalUsings = other.globalUsings
  kind?_eq : ∀ name, table.kind? name = other.kind? name

theorem Agrees.declaration_eq (agrees : Agrees table other) :
    table.declaration = other.declaration := by
  funext type
  refine AgreesFor.declaration_eq ⟨fun name _ => ?_, fun name _ => agrees.kind?_eq _⟩
  exact ⟨agrees.globalUsings_eq, fun outer => agrees.kind?_eq _⟩

end Names.NameTable

end ActionAtlas
