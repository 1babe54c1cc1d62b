import Std.Data.HashMap
import ActionAtlas.Graph.Declaration

/-!
The declared types of a program in the order of their declaration, and the search for a type by
its full name. The first declaration of a name wins, whether the graph has an index or not.
-/

namespace ActionAtlas

abbrev NameIndex := Std.HashMap String Nat

namespace NameIndex

def enter (index : NameIndex) (entry : TypeDeclaration × Nat) : NameIndex :=
  index.insertIfNew entry.1.fullName entry.2

def ofTypes (types : List TypeDeclaration) : NameIndex :=
  types.zipIdx.foldl enter ∅

end NameIndex

structure SymbolGraph where
  types : List TypeDeclaration
  /-- Empty as long as it is not built. -/
  index : NameIndex
  index_eq : index.isEmpty = false → index = NameIndex.ofTypes types

namespace SymbolGraph

def indexed (types : List TypeDeclaration) : SymbolGraph where
  types
  index := NameIndex.ofTypes types
  index_eq := fun _ => rfl

/-- A graph whose index is not built: types are searched from the first on. -/
def unindexed (types : List TypeDeclaration) : SymbolGraph where
  types
  index := ∅
  index_eq := by simp [NameIndex]

/-- The position of a type. An empty index says nothing about the types. -/
def position? (graph : SymbolGraph) (fullName : String) : Option Nat :=
  if graph.index.isEmpty then graph.types.findIdx? fun type => type.fullName == fullName
  else graph.index[fullName]?

def get? (graph : SymbolGraph) (fullName : String) : Option TypeDeclaration :=
  if graph.index.isEmpty then graph.types.find? fun type => type.fullName == fullName
  else graph.index[fullName]?.bind fun position => graph.types[position]?

end SymbolGraph

end ActionAtlas
