import ActionAtlas.Proofs.Graph.ShapeText
import ActionAtlas.Proofs.Names.Spellings

/-!
What a name with type arguments keeps of them. Those of its last segment tell two types apart, and
those of the other segments are lost, at any depth of a type.
-/

namespace ActionAtlas

open Source (Scope TypeSyntax)
open Source.TypeSyntax (lastArguments segmentsName)

namespace Source.TypeSyntax

mutual

/-- The type without the arguments of all segments that another one follows. -/
def withoutInnerArguments : TypeSyntax → TypeSyntax
  | predefined keyword => predefined keyword
  | name segments => name (withoutInnerSegments segments)
  | array element rank => array element.withoutInnerArguments rank
  | nullable underlying => nullable underlying.withoutInnerArguments
  | verbatim text => verbatim text

def withoutInnerSegments :
    List (String × List TypeSyntax) → List (String × List TypeSyntax)
  | [] => []
  | [(label, arguments)] => [(label, withoutInnerTypes arguments)]
  | (label, _) :: next :: others => (label, []) :: withoutInnerSegments (next :: others)

def withoutInnerTypes : List TypeSyntax → List TypeSyntax
  | [] => []
  | type :: others => type.withoutInnerArguments :: withoutInnerTypes others

end

theorem names_withoutInnerSegments (segments : List (String × List TypeSyntax)) :
    (withoutInnerSegments segments).map (·.1) = segments.map (·.1) := by
  induction segments with
  | nil => rfl
  | cons segment others ih =>
      cases others with
      | nil => rfl
      | cons next more => exact congrArg (segment.1 :: ·) ih

end Source.TypeSyntax

namespace Names.NameTable

variable {table : NameTable} {scope : Scope}

/-! ### What is lost -/

theorem shapesOfLast_cons (segment : String × List TypeSyntax)
    {others : List (String × List TypeSyntax)} (some : others ≠ []) :
    table.shapesOfLast scope (segment :: others) = table.shapesOfLast scope others := by
  cases others with
  | nil => exact absurd rfl some
  | cons next more => rfl

mutual

theorem shape_withoutInnerArguments (type : TypeSyntax) :
    table.shape scope type.withoutInnerArguments = table.shape scope type := by
  match type with
  | .predefined keyword => rfl
  | .name segments =>
      rw [TypeSyntax.withoutInnerArguments, shape, shape,
        TypeSyntax.names_withoutInnerSegments, shapesOfLast_withoutInnerSegments segments]
  | .array element rank =>
      rw [TypeSyntax.withoutInnerArguments, shape, shape, shape_withoutInnerArguments element]
  | .nullable underlying =>
      rw [TypeSyntax.withoutInnerArguments, shape, shape, shape_withoutInnerArguments underlying]
  | .verbatim text => rfl

theorem shapesOfLast_withoutInnerSegments (segments : List (String × List TypeSyntax)) :
    table.shapesOfLast scope (TypeSyntax.withoutInnerSegments segments) =
      table.shapesOfLast scope segments := by
  match segments with
  | [] => rfl
  | [(label, arguments)] => exact shapes_withoutInnerTypes arguments
  | (label, arguments) :: next :: others =>
      have further : TypeSyntax.withoutInnerSegments (next :: others) ≠ [] := by
        intro none
        have names_eq := TypeSyntax.names_withoutInnerSegments (next :: others)
        rw [none] at names_eq
        cases names_eq
      rw [TypeSyntax.withoutInnerSegments, shapesOfLast_cons _ further,
        shapesOfLast_withoutInnerSegments (next :: others),
        shapesOfLast_cons _ (List.cons_ne_nil next others)]

theorem shapes_withoutInnerTypes (types : List TypeSyntax) :
    table.shapes scope (TypeSyntax.withoutInnerTypes types) = table.shapes scope types := by
  match types with
  | [] => rfl
  | type :: others =>
      rw [TypeSyntax.withoutInnerTypes, shapes, shapes, shape_withoutInnerArguments type,
        shapes_withoutInnerTypes others]

end

/-! ### What is kept -/

theorem ofName_ne_generic (fullName name : String) (arguments : List TypeShape) :
    TypeShape.ofName fullName ≠ .generic name arguments := by
  rw [TypeShape.ofName]
  split <;> exact TypeShape.noConfusion

theorem ofName_ne_nullable (fullName : String) (underlying : TypeShape) :
    TypeShape.ofName fullName ≠ .nullable underlying := by
  rw [TypeShape.ofName]
  split <;> exact TypeShape.noConfusion

/-- The arguments that a shape was made with, if its name is none for a built-in type. -/
def argumentsOf : TypeShape → List TypeShape
  | .generic _ arguments => arguments
  | .nullable underlying => [underlying]
  | _ => []

theorem argumentsOf_shapeOfName (fullName : String) (arguments : List TypeShape) :
    argumentsOf (shapeOfName fullName arguments) = arguments := by
  match arguments with
  | [] =>
      rw [shapeOfName]
      cases made : TypeShape.ofName fullName with
      | generic name arguments => exact absurd made (ofName_ne_generic _ _ _)
      | nullable underlying => exact absurd made (ofName_ne_nullable _ _)
      | _ => rfl
  | [argument] =>
      rw [shapeOfName]
      split <;> rfl
  | _ :: _ :: _ => rfl

/-- What the arguments of each segment stand for. -/
def argumentShapes (table : NameTable) (scope : Scope)
    (segments : List (String × List TypeSyntax)) : List (List TypeShape) :=
  segments.map fun segment => table.shapes scope segment.2

theorem shapes_lastArguments (segments : List (String × List TypeSyntax)) :
    table.shapes scope (lastArguments segments) =
      ((argumentShapes table scope segments).getLast?).getD [] := by
  rw [lastArguments, argumentShapes, List.getLast?_map]
  cases segments.getLast? <;> rfl

theorem getLast?_argumentShapes_eq_iff {segments others : List (String × List TypeSyntax)}
    (sameNames : segments.map (·.1) = others.map (·.1)) :
    (argumentShapes table scope segments).getLast? =
        (argumentShapes table scope others).getLast? ↔
      table.shapes scope (lastArguments segments) = table.shapes scope (lastArguments others) := by
  have sameLength : segments.length = others.length := by
    simpa using congrArg List.length sameNames
  rw [shapes_lastArguments, shapes_lastArguments]
  cases segments with
  | nil =>
      rw [List.length_eq_zero_iff.mp sameLength.symm]
      simp only
  | cons segment more =>
      cases others with
      | nil => cases sameLength
      | cons other rest =>
          simp only [argumentShapes, List.map_cons, List.getLast?_cons, Option.getD_some,
            Option.some.injEq]

theorem shape_name_eq_iff {segments others : List (String × List TypeSyntax)}
    (sameNames : segments.map (·.1) = others.map (·.1)) :
    table.shape scope (.name segments) = table.shape scope (.name others) ↔
      (argumentShapes table scope segments).getLast? =
        (argumentShapes table scope others).getLast? := by
  rw [getLast?_argumentShapes_eq_iff sameNames, shape_name, shape_name]
  have sameName : segmentsName segments = segmentsName others := congrArg Text.dotted sameNames
  constructor
  · intro same
    have arguments_eq := congrArg argumentsOf same
    rwa [argumentsOf_shapeOfName, argumentsOf_shapeOfName] at arguments_eq
  · intro same
    rw [same, sameName]

/-- Names of the same segments are told apart by what the arguments of the last segment stand for,
as shapes and as texts, and by nothing else: at any depth of a type, all arguments of a segment that
another one follows could be left out. -/
theorem toldApart_iff_last {segments others : List (String × List TypeSyntax)}
    (sameNames : segments.map (·.1) = others.map (·.1)) :
    (table.shape scope (.name segments) ≠ table.shape scope (.name others) ↔
        (argumentShapes table scope segments).getLast? ≠
          (argumentShapes table scope others).getLast?) ∧
      ((table.shape scope (.name segments)).IsLegible →
        (table.shape scope (.name others)).IsLegible →
        ((table.shape scope (.name segments)).text ≠ (table.shape scope (.name others)).text ↔
          (argumentShapes table scope segments).getLast? ≠
            (argumentShapes table scope others).getLast?)) ∧
      ∀ type : TypeSyntax, table.shape scope type.withoutInnerArguments = table.shape scope type := by
  have shape_eq : table.shape scope (.name segments) = table.shape scope (.name others) ↔
      (argumentShapes table scope segments).getLast? =
        (argumentShapes table scope others).getLast? := shape_name_eq_iff sameNames
  refine ⟨not_congr shape_eq, ?_, shape_withoutInnerArguments⟩
  intro legible otherLegible
  have text_eq : (table.shape scope (.name segments)).text =
        (table.shape scope (.name others)).text ↔
      table.shape scope (.name segments) = table.shape scope (.name others) := by
    constructor
    · intro same
      exact TypeShape.eq_of_characters_eq _ _ legible otherLegible (congrArg String.toList same)
    · intro same
      rw [same]
  exact not_congr (text_eq.trans shape_eq)

/-- A type inside a generic one, and a generic type inside another one. -/
def innerOf (outer inner : List TypeSyntax) : List (String × List TypeSyntax) :=
  [("Outer", outer), ("Inner", inner)]

theorem toldApart_iff_last_innerOf :
    let ofInt := innerOf [.predefined "int"] []
    let ofString := innerOf [.predefined "string"] []
    (ofFiles []).argumentShapes .empty ofInt ≠ (ofFiles []).argumentShapes .empty ofString ∧
      (ofFiles []).shape .empty (.name ofInt) = (ofFiles []).shape .empty (.name ofString) ∧
      ((ofFiles []).shape .empty (.name ofInt)).text = "Outer.Inner" ∧
      (ofFiles []).shape .empty (.name (innerOf [] [.predefined "int"])) ≠
        (ofFiles []).shape .empty (.name (innerOf [] [.predefined "string"])) := by
  intro ofInt ofString
  have bare : (ofFiles []).shapes .empty [] = [] := rfl
  have int : (ofFiles []).shapes .empty [.predefined "int"] = [.primitive .int] :=
    congrArg ([·]) (shape_keyword .int)
  have string : (ofFiles []).shapes .empty [.predefined "string"] = [.primitive .string] :=
    congrArg ([·]) (shape_keyword .string)
  have lost := (@toldApart_iff_last (ofFiles []) .empty ofInt ofString rfl).1
  have kept := (@toldApart_iff_last (ofFiles []) .empty (innerOf [] [.predefined "int"])
    (innerOf [] [.predefined "string"]) rfl).1
  refine ⟨?_, ?_, by decide +kernel, kept.mpr ?_⟩
  · simp [ofInt, ofString, innerOf, argumentShapes, int, string, bare]
  · refine Classical.not_not.mp fun apart => lost.mp apart ?_
    simp [ofInt, ofString, innerOf, argumentShapes]
  · simp [innerOf, argumentShapes, int, string]

end Names.NameTable

end ActionAtlas
