import ActionAtlas.Graph.SymbolGraph
import ActionAtlas.Text.Blank

/-!
The lineage of a type: the type itself, its base, the base of that, and so on, as far as the
graph declares them. A base that is already in the lineage ends it, so cyclic declarations do no
harm.
-/

namespace ActionAtlas

/-- The name of a type without its type arguments: `N.Base<T>` is `N.Base`. -/
def genericDefinition (name : String) : String :=
  match Text.cutFirst? '<' name.toList with
  | some (before, _) => String.ofList (Text.trimEnd before)
  | none => name

def TypeDeclaration.baseName? (type : TypeDeclaration) : Option String :=
  type.base?.map genericDefinition

namespace SymbolGraph

def baseOf? (graph : SymbolGraph) (type : TypeDeclaration) : Option TypeDeclaration :=
  type.baseName?.bind graph.get?

def lineageFrom (graph : SymbolGraph) : Nat → List String → TypeDeclaration → List TypeDeclaration
  | 0, _, _ => []
  | steps + 1, seen, type =>
    let seen := type.fullName :: seen
    type ::
      match graph.baseOf? type with
      | none => []
      | some next => if seen.contains next.fullName then [] else lineageFrom graph steps seen next

/-- A type and its declared bases, nearest first. Each base is another type of the graph, so it
has at most one entry more than there are types. -/
def lineage (graph : SymbolGraph) (type : TypeDeclaration) : List TypeDeclaration :=
  graph.lineageFrom (graph.types.length + 1) [] type

end SymbolGraph

end ActionAtlas
