import ActionAtlas.Names.Assembly

/-!
Different ways to write one type. A keyword can stand for the name of its framework type, a question
mark for the framework's nullable type, and a name for any other one that is resolved alike, at any
depth of a type. None of this changes the type that is meant.
-/

namespace ActionAtlas

namespace Source.TypeSyntax

def segmentsName (segments : List (String × List TypeSyntax)) : String :=
  Text.dotted (segments.map (·.1))

def lastArguments (segments : List (String × List TypeSyntax)) : List TypeSyntax :=
  (segments.getLast?.map (·.2)).getD []

end Source.TypeSyntax

namespace Names.NameTable

open Source (Scope TypeSyntax)
open Source.TypeSyntax (lastArguments segmentsName)

mutual

/-- The least congruence on written types that does not tell apart what a keyword, a question mark
and a name stand for. -/
inductive Interchangeable (table : NameTable) (scope : Scope) : TypeSyntax → TypeSyntax → Prop
  | refl (type : TypeSyntax) : Interchangeable table scope type type
  | symm {type other : TypeSyntax} (same : Interchangeable table scope type other) :
      Interchangeable table scope other type
  | trans {type other third : TypeSyntax} (same : Interchangeable table scope type other)
      (further : Interchangeable table scope other third) : Interchangeable table scope type third
  | inArray {element other : TypeSyntax} (rank : Rank)
      (same : Interchangeable table scope element other) :
      Interchangeable table scope (.array element rank) (.array other rank)
  | inNullable {underlying other : TypeSyntax}
      (same : Interchangeable table scope underlying other) :
      Interchangeable table scope (.nullable underlying) (.nullable other)
  | inSegment (before after : List (String × List TypeSyntax)) (name : String)
      {arguments others : List TypeSyntax}
      (same : AreInterchangeable table scope arguments others) :
      Interchangeable table scope (.name (before ++ (name, arguments) :: after))
        (.name (before ++ (name, others) :: after))
  | keyword (builtIn : Primitive) {segments : List (String × List TypeSyntax)}
      (named : segmentsName segments = builtIn.frameworkName) (bare : lastArguments segments = [])
      (itself : table.resolve scope builtIn.frameworkName = builtIn.frameworkName) :
      Interchangeable table scope (.predefined builtIn.keyword) (.name segments)
  | questionMark {underlying : TypeSyntax} {segments : List (String × List TypeSyntax)}
      (only : lastArguments segments = [underlying])
      (resolved : table.resolve scope (segmentsName segments) = "System.Nullable") :
      Interchangeable table scope (.nullable underlying) (.name segments)
  | name {segments others : List (String × List TypeSyntax)}
      (resolved : table.resolve scope (segmentsName segments) =
        table.resolve scope (segmentsName others))
      (same : AreInterchangeable table scope (lastArguments segments) (lastArguments others)) :
      Interchangeable table scope (.name segments) (.name others)

/-- Equally many types, each interchangeable with the other one in its place. -/
inductive AreInterchangeable (table : NameTable) (scope : Scope) :
    List TypeSyntax → List TypeSyntax → Prop
  | nil : AreInterchangeable table scope [] []
  | cons {type other : TypeSyntax} {types others : List TypeSyntax}
      (first : Interchangeable table scope type other)
      (rest : AreInterchangeable table scope types others) :
      AreInterchangeable table scope (type :: types) (other :: others)

end

variable {table : NameTable} {scope : Scope}

theorem shapesOfLast_eq_shapes (segments : List (String × List TypeSyntax)) :
    table.shapesOfLast scope segments = table.shapes scope (lastArguments segments) := by
  induction segments with
  | nil => rfl
  | cons first others ih =>
      cases others with
      | nil => rfl
      | cons next more =>
          rw [shapesOfLast, ih, lastArguments, lastArguments, List.getLast?_cons_cons]

theorem shape_name (segments : List (String × List TypeSyntax)) :
    table.shape scope (.name segments) =
      shapeOfName (table.resolve scope (segmentsName segments))
        (table.shapes scope (lastArguments segments)) := by
  rw [shape, shapesOfLast_eq_shapes, segmentsName]

/-- What stands in the last segment decides, so arguments of another one can be anything. -/
theorem shapes_lastArguments_congr {arguments others : List TypeSyntax}
    (same : table.shapes scope arguments = table.shapes scope others)
    (before after : List (String × List TypeSyntax)) (name : String) :
    table.shapes scope (lastArguments (before ++ (name, arguments) :: after)) =
      table.shapes scope (lastArguments (before ++ (name, others) :: after)) := by
  cases after with
  | nil => simpa [lastArguments] using same
  | cons next more => simp [lastArguments, List.getLast?_append]

theorem shape_keyword (builtIn : Primitive) :
    table.shape scope (.predefined builtIn.keyword) = .primitive builtIn := by
  rw [shape, Primitive.ofKeyword?_keyword]

theorem shapeOfName_frameworkName (builtIn : Primitive) :
    shapeOfName builtIn.frameworkName [] = .primitive builtIn := by
  rw [shapeOfName, TypeShape.ofName, Primitive.ofFrameworkName?_frameworkName]

mutual

theorem Interchangeable.shape_eq {type other : TypeSyntax} :
    Interchangeable table scope type other → table.shape scope type = table.shape scope other
  | .refl _ => rfl
  | .symm same => same.shape_eq.symm
  | .trans same further => same.shape_eq.trans further.shape_eq
  | .inArray rank same => by rw [shape, shape, same.shape_eq]
  | .inNullable same => by rw [shape, shape, same.shape_eq]
  | .inSegment before after name same => by
      rw [shape_name, shape_name, shapes_lastArguments_congr same.shapes_eq]
      simp only [segmentsName, List.map_append, List.map_cons]
  | .keyword _ named bare itself => by
      rw [shape_keyword, shape_name, named, itself, bare, shapes, shapeOfName_frameworkName]
  | .questionMark only resolved => by
      rw [shape_name, resolved, only, shape, shapes, shapes, shapeOfName, if_pos rfl]
  | .name resolved same => by rw [shape_name, shape_name, resolved, same.shapes_eq]

theorem AreInterchangeable.shapes_eq {types others : List TypeSyntax} :
    AreInterchangeable table scope types others →
      table.shapes scope types = table.shapes scope others
  | .nil => rfl
  | .cons first rest => by rw [shapes, shapes, first.shape_eq, rest.shapes_eq]

end

/-- Interchangeable types have one shape, and so one text and one way to hold a default value. -/
theorem shape_eq_of_interchangeable {type other : TypeSyntax}
    (same : Interchangeable table scope type other) :
    table.shape scope type = table.shape scope other ∧
      (table.shape scope type).text = (table.shape scope other).text ∧
      (∀ value : Evaluated, value.forType (table.shape scope type) =
        value.forType (table.shape scope other)) ∧
      ∀ name default?, table.parameter scope ⟨name, type, default?⟩ =
        table.parameter scope ⟨name, other, default?⟩ := by
  have shapes_eq := same.shape_eq
  refine ⟨shapes_eq, by rw [shapes_eq], fun value => by rw [shapes_eq], fun name default? => ?_⟩
  simp only [parameter, shapes_eq]

def ledgerScope : Scope :=
  ⟨["Acme"], [], ["System", "System.Collections.Generic"],
    [("Ledger", "System.Collections.Generic.Dictionary")]⟩

/-- Ledgers of numbers that may be missing, by aliases and the names of the framework. -/
def ledgersByName : TypeSyntax :=
  .array (.name [("Ledger", [.name [("System", []), ("String", [])],
    .name [("Nullable", [.name [("System", []), ("Int32", [])]])]])]) 1

def ledgersByKeyword : TypeSyntax :=
  .array (.name [("Dictionary", [.predefined "string", .nullable (.predefined "int")])]) 1

theorem shape_eq_of_interchangeable_ledgers :
    Interchangeable (ofFiles []) ledgerScope ledgersByName ledgersByKeyword ∧
      (ofFiles []).shape ledgerScope ledgersByName =
        (ofFiles []).shape ledgerScope ledgersByKeyword ∧
      ((ofFiles []).shape ledgerScope ledgersByName).text =
        "System.Collections.Generic.Dictionary<string, int?>[]" := by
  have string : Interchangeable (ofFiles []) ledgerScope (.name [("System", []), ("String", [])])
      (.predefined "string") :=
    .symm (.keyword .string (by decide +kernel) rfl (by decide +kernel))
  have int : Interchangeable (ofFiles []) ledgerScope (.name [("System", []), ("Int32", [])])
      (.predefined "int") :=
    .symm (.keyword .int (by decide +kernel) rfl (by decide +kernel))
  have number : Interchangeable (ofFiles []) ledgerScope
      (.name [("Nullable", [.name [("System", []), ("Int32", [])]])])
      (.nullable (.predefined "int")) :=
    .trans (.symm (.questionMark rfl (by decide +kernel))) (.inNullable int)
  have ledgers : Interchangeable (ofFiles []) ledgerScope ledgersByName ledgersByKeyword :=
    .inArray 1 (.name (by decide +kernel) (.cons string (.cons number .nil)))
  obtain ⟨same, text_eq, -⟩ := shape_eq_of_interchangeable ledgers
  exact ⟨ledgers, same, text_eq.trans (by decide +kernel)⟩

end Names.NameTable

end ActionAtlas
