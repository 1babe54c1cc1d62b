import ActionAtlas.Proofs.Names.Spellings

/-!
Shapes written as types again. Resolving names takes every written type to a shape of a certain
form, and each shape of this form is what some written type stands for: the one that spells the
shape's own names. So nothing changes when a type is resolved a second time.
-/

namespace ActionAtlas

open Source (Scope TypeSyntax)
open Source.TypeSyntax (lastArguments segmentsName)

/-! ### Names in segments -/

namespace Source.TypeSyntax

/-- The segments of a name, with the arguments on the last one. -/
def segmentsOfParts (arguments : List TypeSyntax) :
    List (List Char) → List (String × List TypeSyntax)
  | [] => []
  | [part] => [(String.ofList part, arguments)]
  | part :: next :: others =>
    (String.ofList part, []) :: segmentsOfParts arguments (next :: others)

def segmentsOf (fullName : String) (arguments : List TypeSyntax) :
    List (String × List TypeSyntax) :=
  segmentsOfParts arguments (Text.pieces '.' fullName.toList)

theorem toList_dotted_ofList (parts : List (List Char)) :
    (Text.dotted (parts.map String.ofList)).toList = Text.joinWith ['.'] parts := by
  induction parts with
  | nil => rfl
  | cons part others ih =>
      cases others with
      | nil => simp [Text.dotted, Text.joinWith]
      | cons next more =>
          have behind : (Text.dotted ((next :: more).map String.ofList)).toList =
              Text.joinWith ['.'] (next :: more) := ih
          rw [Text.joinWith, ← behind]
          simp [Text.dotted, String.intercalate_cons_cons]

theorem names_segmentsOfParts (arguments : List TypeSyntax) (parts : List (List Char)) :
    (segmentsOfParts arguments parts).map (·.1) = parts.map String.ofList := by
  induction parts with
  | nil => rfl
  | cons part others ih =>
      cases others with
      | nil => rfl
      | cons next more => exact congrArg (String.ofList part :: ·) ih

theorem segmentsName_segmentsOf (fullName : String) (arguments : List TypeSyntax) :
    segmentsName (segmentsOf fullName arguments) = fullName := by
  rw [segmentsName, segmentsOf, names_segmentsOfParts, ← String.toList_inj, toList_dotted_ofList,
    Text.joinWith_pieces]

theorem lastArguments_cons (segment : String × List TypeSyntax)
    {others : List (String × List TypeSyntax)} (some : others ≠ []) :
    lastArguments (segment :: others) = lastArguments others := by
  cases others with
  | nil => exact absurd rfl some
  | cons next more => rw [lastArguments, List.getLast?_cons_cons, lastArguments]

theorem segmentsOfParts_ne_nil (arguments : List TypeSyntax) {parts : List (List Char)}
    (some : parts ≠ []) : segmentsOfParts arguments parts ≠ [] := by
  intro none
  have names_eq := names_segmentsOfParts arguments parts
  rw [none] at names_eq
  exact some (List.map_eq_nil_iff.mp names_eq.symm)

theorem lastArguments_segmentsOfParts (arguments : List TypeSyntax) {parts : List (List Char)}
    (some : parts ≠ []) : lastArguments (segmentsOfParts arguments parts) = arguments := by
  induction parts with
  | nil => exact absurd rfl some
  | cons part others ih =>
      cases others with
      | nil => rfl
      | cons next more =>
          have further := List.cons_ne_nil next more
          rw [segmentsOfParts, lastArguments_cons _ (segmentsOfParts_ne_nil arguments further),
            ih further]

theorem lastArguments_segmentsOf (fullName : String) (arguments : List TypeSyntax) :
    lastArguments (segmentsOf fullName arguments) = arguments :=
  lastArguments_segmentsOfParts arguments (Text.runs_ne_nil _ _)

mutual

/-- No keyword, and no form that is kept as it stands, spells the framework's name of a built-in
type. -/
def IsProper : TypeSyntax → Prop
  | predefined keyword => ∀ builtIn : Primitive, builtIn.frameworkName ≠ keyword
  | name segments => AreProperSegments segments
  | array element _ => element.IsProper
  | nullable underlying => underlying.IsProper
  | verbatim text => ∀ builtIn : Primitive, builtIn.frameworkName ≠ text

def AreProperSegments : List (String × List TypeSyntax) → Prop
  | [] => True
  | (_, arguments) :: others => AreProper arguments ∧ AreProperSegments others

def AreProper : List TypeSyntax → Prop
  | [] => True
  | type :: others => type.IsProper ∧ AreProper others

end

end Source.TypeSyntax

/-! ### Shapes and how they are written -/

namespace TypeShape

mutual

/-- The full names in a shape, at any depth. -/
def names : TypeShape → List String
  | primitive _ => []
  | named fullName => [fullName]
  | generic fullName arguments => fullName :: namesOf arguments
  | array element _ => element.names
  | nullable underlying => underlying.names

def namesOf : List TypeShape → List String
  | [] => []
  | shape :: others => shape.names ++ namesOf others

end

mutual

/-- Built-in types and nullable types are not hidden behind the framework's names of them, and a
generic type has arguments. -/
def IsCanonical : TypeShape → Prop
  | primitive _ => True
  | named fullName => ∀ builtIn : Primitive, builtIn.frameworkName ≠ fullName
  | generic fullName arguments =>
    arguments ≠ [] ∧ ¬(fullName = "System.Nullable" ∧ arguments.length = 1) ∧
      AreCanonical arguments
  | array element _ => element.IsCanonical
  | nullable underlying => underlying.IsCanonical

def AreCanonical : List TypeShape → Prop
  | [] => True
  | shape :: others => shape.IsCanonical ∧ AreCanonical others

end

mutual

/-- The type that spells a shape: keywords for built-in types, and full names for all others. -/
def written : TypeShape → TypeSyntax
  | primitive builtIn => .predefined builtIn.keyword
  | named fullName => .name (TypeSyntax.segmentsOf fullName [])
  | generic fullName arguments => .name (TypeSyntax.segmentsOf fullName (writtenOf arguments))
  | array element rank => .array element.written rank
  | nullable underlying => .nullable underlying.written

def writtenOf : List TypeShape → List TypeSyntax
  | [] => []
  | shape :: others => shape.written :: writtenOf others

end

theorem ofFrameworkName?_eq_none_iff {text : String} :
    Primitive.ofFrameworkName? text = none ↔
      ∀ builtIn : Primitive, builtIn.frameworkName ≠ text := by
  rw [Primitive.ofFrameworkName?, List.find?_eq_none]
  constructor
  · intro none builtIn same
    exact none builtIn (by cases builtIn <;> decide) (by simpa using same)
  · intro none builtIn _ same
    exact none builtIn (by simpa using same)

theorem ofName_of_not_builtIn {fullName : String}
    (other : ∀ builtIn : Primitive, builtIn.frameworkName ≠ fullName) :
    ofName fullName = named fullName := by
  rw [ofName, ofFrameworkName?_eq_none_iff.mpr other]

theorem isCanonical_ofName (fullName : String) : (ofName fullName).IsCanonical := by
  rw [ofName]
  cases found : Primitive.ofFrameworkName? fullName with
  | some builtIn => trivial
  | none => exact ofFrameworkName?_eq_none_iff.mp found

end TypeShape

/-! ### Names resolved -/

namespace Names.NameTable

theorem shapeOfName_of_generic {fullName : String} {arguments : List TypeShape}
    (some : arguments ≠ [])
    (notNullable : ¬(fullName = "System.Nullable" ∧ arguments.length = 1)) :
    shapeOfName fullName arguments = .generic fullName arguments := by
  match arguments with
  | [] => exact absurd rfl some
  | [argument] =>
      have other : fullName ≠ "System.Nullable" := fun same => notNullable ⟨same, rfl⟩
      rw [shapeOfName, if_neg other]
  | _ :: _ :: _ => rfl

theorem isCanonical_shapeOfName (fullName : String) {arguments : List TypeShape}
    (canonical : TypeShape.AreCanonical arguments) :
    (shapeOfName fullName arguments).IsCanonical := by
  match arguments with
  | [] => exact TypeShape.isCanonical_ofName fullName
  | [argument] =>
      rw [shapeOfName]
      split
      · exact canonical.1
      · next other => exact ⟨List.cons_ne_nil _ _, fun both => other both.1, canonical⟩
  | _ :: _ :: _ => exact ⟨List.cons_ne_nil _ _, fun both => by simp at both, canonical⟩

/-- Without files, and outside of every namespace, a name stands for itself. -/
theorem resolve_empty (written : String) : (ofFiles []).resolve .empty written = written := by
  have nothing (name : String) : (ofFiles []).declares name = false := rfl
  have undeclared (names : List String) : names.find? (ofFiles []).declares = none :=
    List.find?_eq_none.mpr fun name _ => by rw [nothing]; exact Bool.false_ne_true
  have unaliased : expandAlias? Scope.empty written = none := rfl
  have unused : (ofFiles []).candidatesInUsings Scope.empty written = [] := rfl
  simp only [resolve, resolve?, unaliased, undeclared, unused, List.find?_nil]
  split <;> rfl

variable {table : NameTable} {scope : Scope}

mutual

theorem shape_written_of_resolved (shape : TypeShape) (canonical : shape.IsCanonical)
    (resolved : ∀ name ∈ shape.names, table.resolve scope name = name) :
    table.shape scope shape.written = shape := by
  match shape with
  | .primitive builtIn => rw [TypeShape.written, shape_keyword]
  | .named fullName =>
      have itself : table.resolve scope fullName = fullName :=
        resolved fullName (List.mem_singleton_self fullName)
      rw [TypeShape.written, shape_name, TypeSyntax.segmentsName_segmentsOf,
        TypeSyntax.lastArguments_segmentsOf, itself, shapes, shapeOfName,
        TypeShape.ofName_of_not_builtIn canonical]
  | .generic fullName arguments =>
      obtain ⟨some, notNullable, areCanonical⟩ := canonical
      obtain ⟨itself, others⟩ := List.forall_mem_cons.mp resolved
      rw [TypeShape.written, shape_name, TypeSyntax.segmentsName_segmentsOf,
        TypeSyntax.lastArguments_segmentsOf, itself,
        shapes_writtenOf_of_resolved arguments areCanonical others,
        shapeOfName_of_generic some notNullable]
  | .array element rank =>
      rw [TypeShape.written, NameTable.shape, shape_written_of_resolved element canonical resolved]
  | .nullable underlying =>
      rw [TypeShape.written, NameTable.shape,
        shape_written_of_resolved underlying canonical resolved]

theorem shapes_writtenOf_of_resolved (shapes : List TypeShape)
    (canonical : TypeShape.AreCanonical shapes)
    (resolved : ∀ name ∈ TypeShape.namesOf shapes, table.resolve scope name = name) :
    table.shapes scope (TypeShape.writtenOf shapes) = shapes := by
  match shapes with
  | [] => rfl
  | shape :: others =>
      obtain ⟨first, rest⟩ := List.forall_mem_append.mp resolved
      rw [TypeShape.writtenOf, NameTable.shapes, shape_written_of_resolved shape canonical.1 first,
        shapes_writtenOf_of_resolved others canonical.2 rest]

end

mutual

theorem isCanonical_shape (type : TypeSyntax) (isProper : type.IsProper) :
    (table.shape scope type).IsCanonical := by
  match type with
  | .predefined keyword =>
      rw [shape]
      cases Primitive.ofKeyword? keyword with
      | some builtIn => trivial
      | none => exact isProper
  | .name segments =>
      rw [shape]
      exact isCanonical_shapeOfName _ (areCanonical_shapesOfLast segments isProper)
  | .array element rank => exact isCanonical_shape element isProper
  | .nullable underlying => exact isCanonical_shape underlying isProper
  | .verbatim text => exact isProper

theorem areCanonical_shapesOfLast (segments : List (String × List TypeSyntax))
    (areProper : TypeSyntax.AreProperSegments segments) :
    TypeShape.AreCanonical (table.shapesOfLast scope segments) := by
  match segments with
  | [] => trivial
  | [(_, arguments)] => exact areCanonical_shapes arguments areProper.1
  | _ :: next :: others =>
      rw [shapesOfLast]
      exact areCanonical_shapesOfLast (next :: others) areProper.2

theorem areCanonical_shapes (types : List TypeSyntax) (areProper : TypeSyntax.AreProper types) :
    TypeShape.AreCanonical (table.shapes scope types) := by
  match types with
  | [] => trivial
  | type :: others =>
      exact ⟨isCanonical_shape type areProper.1, areCanonical_shapes others areProper.2⟩

end

theorem shape_written_empty {shape : TypeShape} (canonical : shape.IsCanonical) :
    (ofFiles []).shape .empty shape.written = shape :=
  shape_written_of_resolved shape canonical fun name _ => resolve_empty name

/-- A canonical shape is what its own spelling stands for, wherever the names in it stand for
themselves. All types stand for canonical shapes, so resolving twice is resolving once. -/
theorem shape_written_eq :
    (∀ shape : TypeShape, shape.IsCanonical →
      (∀ (table : NameTable) (scope : Scope),
        (∀ name ∈ shape.names, table.resolve scope name = name) →
          table.shape scope shape.written = shape) ∧
      (ofFiles []).shape .empty shape.written = shape) ∧
    ∀ (table : NameTable) (scope : Scope) (type : TypeSyntax), type.IsProper →
      (table.shape scope type).IsCanonical ∧
      (ofFiles []).shape .empty (table.shape scope type).written = table.shape scope type := by
  constructor
  · intro shape canonical
    exact ⟨fun table scope resolved => shape_written_of_resolved shape canonical resolved,
      shape_written_empty canonical⟩
  · intro table scope type isProper
    have canonical : (table.shape scope type).IsCanonical := isCanonical_shape type isProper
    exact ⟨canonical, shape_written_empty canonical⟩

/-- How many of an item are in stock in each place, if that is known. -/
def stockGrid : TypeShape :=
  .array (.generic "System.Collections.Generic.Dictionary"
    [.generic "Acme.Stock.Pair" [.named "Acme.Item", .primitive .string],
      .nullable (.primitive .int)]) 2

def stockScope : Scope :=
  ⟨["Web"], [], ["System.Collections.Generic"], []⟩

theorem shape_written_eq_stockGrid :
    stockGrid.IsCanonical ∧
      (∀ name ∈ stockGrid.names, (ofFiles []).resolve stockScope name = name) ∧
      (ofFiles []).shape stockScope stockGrid.written = stockGrid ∧
      ledgersByName.IsProper ∧
      (ofFiles []).shape .empty ((ofFiles []).shape ledgerScope ledgersByName).written =
        (ofFiles []).shape ledgerScope ledgersByName := by
  have canonical : stockGrid.IsCanonical := by
    simp only [stockGrid, TypeShape.IsCanonical, TypeShape.AreCanonical]
    refine ⟨by simp, by simp, ⟨by simp, by simp, ?_, trivial, trivial⟩, trivial, trivial⟩
    intro builtIn
    cases builtIn <;> decide
  have resolved : ∀ name ∈ stockGrid.names, (ofFiles []).resolve stockScope name = name := by
    decide +kernel
  have isProper : ledgersByName.IsProper := by
    simp [ledgersByName, TypeSyntax.IsProper, TypeSyntax.AreProperSegments, TypeSyntax.AreProper]
  obtain ⟨ofCanonical, ofProper⟩ := shape_written_eq
  exact ⟨canonical, resolved, (ofCanonical stockGrid canonical).1 _ stockScope resolved, isProper,
    (ofProper _ ledgerScope ledgersByName isProper).2⟩

end Names.NameTable

end ActionAtlas
