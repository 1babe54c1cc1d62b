import Mathlib
import ActionAtlas.Graph.Lineage

/-!
The search for a type by its full name. Whether a graph has an index or not, the first type of the
name in the order of declaration is found, and nothing if there is none.
-/

namespace ActionAtlas

/-- A public class with methods that are public and have no parameters. -/
def TypeDeclaration.plainClass (namespaceName name : String) (base? : Option String)
    (methods : List String) : TypeDeclaration where
  name
  namespaceName
  kind := .class
  accessibility := .public
  isAbstract := false
  isStatic := false
  isGeneric := false
  base?
  interfaces := []
  attributes := []
  methods := methods.map fun method =>
    { name := method, kind := .ordinary, accessibility := .public, isStatic := false,
      isGeneric := false, attributes := [], parameters := [] }

namespace NameIndex

/-- Entries that are entered one after the other: of several of one name the first stays. -/
theorem getElem?_foldl_enter (entries : List (TypeDeclaration × Nat)) (index : NameIndex)
    (name : String) :
    (entries.foldl enter index)[name]? =
      (index[name]?).or ((entries.find? fun entry => entry.1.fullName == name).map Prod.snd) := by
  induction entries generalizing index with
  | nil => simp
  | cons entry others ih =>
      rw [List.foldl_cons, ih, enter, Std.HashMap.getElem?_insertIfNew, List.find?_cons]
      by_cases same : entry.1.fullName = name
      · subst same
        by_cases known : entry.1.fullName ∈ index
        · simp [known]
        · simp [known]
      · have other : (entry.1.fullName == name) = false := beq_false_of_ne same
        rw [if_neg fun both => same (eq_of_beq both.1), other]

theorem getElem?_ofTypes (types : List TypeDeclaration) (name : String) :
    (ofTypes types)[name]? = types.findIdx? fun type => type.fullName == name := by
  rw [ofTypes, getElem?_foldl_enter, List.findIdx?_eq_fst_find?_zipIdx]
  simp

end NameIndex

namespace SymbolGraph

theorem get?_eq_find? (graph : SymbolGraph) (name : String) :
    graph.get? name = graph.types.find? fun type => type.fullName == name := by
  unfold get?
  split
  · rfl
  · next filled =>
    rw [graph.index_eq (Bool.eq_false_of_not_eq_true filled), NameIndex.getElem?_ofTypes,
      List.find?_eq_bind_findIdx?_getElem?]

theorem position?_eq_findIdx? (graph : SymbolGraph) (name : String) :
    graph.position? name = graph.types.findIdx? fun type => type.fullName == name := by
  unfold position?
  split
  · rfl
  · next filled =>
    rw [graph.index_eq (Bool.eq_false_of_not_eq_true filled), NameIndex.getElem?_ofTypes]

theorem fullName_of_get?_eq_some {graph : SymbolGraph} {name : String} {type : TypeDeclaration}
    (found : graph.get? name = some type) : type.fullName = name := by
  rw [get?_eq_find?] at found
  have matched := List.find?_some found
  exact eq_of_beq matched

theorem mem_of_get?_eq_some {graph : SymbolGraph} {name : String} {type : TypeDeclaration}
    (found : graph.get? name = some type) : type ∈ graph.types := by
  rw [get?_eq_find?] at found
  exact List.mem_of_find?_eq_some found

theorem mem_fullNames_of_get?_eq_some {graph : SymbolGraph} {name : String}
    {type : TypeDeclaration} (found : graph.get? name = some type) :
    name ∈ graph.types.map TypeDeclaration.fullName :=
  List.mem_map.mpr ⟨type, mem_of_get?_eq_some found, fullName_of_get?_eq_some found⟩

theorem get?_eq_none_iff {graph : SymbolGraph} {name : String} :
    graph.get? name = none ↔ name ∉ graph.types.map TypeDeclaration.fullName := by
  rw [get?_eq_find?, List.find?_eq_none, List.mem_map, not_exists]
  simp only [beq_iff_eq, not_and]

/-- Where full names occur once, each type is found by its own. -/
theorem get?_fullName_of_nodup {graph : SymbolGraph}
    (distinct : (graph.types.map TypeDeclaration.fullName).Nodup) {type : TypeDeclaration}
    (member : type ∈ graph.types) : graph.get? type.fullName = some type := by
  rw [get?_eq_find?]
  obtain ⟨before, after, split⟩ := List.append_of_mem member
  rw [split, List.map_append, List.map_cons, List.nodup_middle, List.nodup_cons] at distinct
  rw [split]
  refine List.find?_eq_some_iff_append.mpr ⟨by simp, before, after, rfl, ?_⟩
  intro earlier inside
  have other : earlier.fullName ≠ type.fullName := by
    intro same
    apply distinct.1
    rw [← same]
    exact List.mem_append_left _ (List.mem_map_of_mem inside)
  simpa using other

end SymbolGraph

/-! ### The first type of a name -/

/-- The namespace and the name of the type make up a full name, whichever full stop parts them. In
the empty namespace the name alone does. -/
def TypeDeclaration.IsNamed (type : TypeDeclaration) (fullName : String) : Prop :=
  type.namespaceName = "" ∧ type.name = fullName ∨
    type.namespaceName ≠ "" ∧ type.namespaceName ++ "." ++ type.name = fullName

theorem TypeDeclaration.fullName_eq_iff {type : TypeDeclaration} {fullName : String} :
    type.fullName = fullName ↔ type.IsNamed fullName := by
  rw [TypeDeclaration.fullName, qualify, IsNamed]
  by_cases outermost : type.namespaceName = ""
  · simp [outermost]
  · simp [outermost]

/-- The search for a name ends at the first type that it names, or finds nothing if it names none. -/
structure SymbolGraph.FindsFirst (graph : SymbolGraph) (name : String) : Prop where
  get?_eq_some_iff : ∀ type, graph.get? name = some type ↔
    ∃ before after, graph.types = before ++ type :: after ∧ type.IsNamed name ∧
      ∀ earlier ∈ before, ¬earlier.IsNamed name
  get?_eq_none_iff : graph.get? name = none ↔ ∀ type ∈ graph.types, ¬type.IsNamed name
  /-- The position of the name is that of the type. -/
  get?_eq_bind : graph.get? name = (graph.position? name).bind fun position => graph.types[position]?

namespace SymbolGraph

theorem findsFirst (graph : SymbolGraph) (name : String) : graph.FindsFirst name where
  get?_eq_some_iff := by
    intro type
    rw [get?_eq_find?, List.find?_eq_some_iff_append, beq_iff_eq, TypeDeclaration.fullName_eq_iff]
    simp only [Bool.not_eq_true', beq_eq_false_iff_ne, ne_eq, TypeDeclaration.fullName_eq_iff]
    constructor
    · rintro ⟨named, before, after, split, others⟩
      exact ⟨before, after, split, named, others⟩
    · rintro ⟨before, after, split, named, others⟩
      exact ⟨named, before, after, split, others⟩
  get?_eq_none_iff := by
    rw [get?_eq_find?, List.find?_eq_none]
    simp only [beq_iff_eq, TypeDeclaration.fullName_eq_iff]
  get?_eq_bind := by
    rw [get?_eq_find?, position?_eq_findIdx?, List.find?_eq_bind_findIdx?_getElem?]

/-- A search through an index and one along the types find the same, the first type of the name. -/
theorem get?_indexed_eq_get?_unindexed (types : List TypeDeclaration) (name : String) :
    (indexed types).get? name = (unindexed types).get? name ∧
      (indexed types).FindsFirst name ∧ (unindexed types).FindsFirst name := by
  have indexedFirst := (indexed types).findsFirst name
  have unindexedFirst := (unindexed types).findsFirst name
  refine ⟨?_, indexedFirst, unindexedFirst⟩
  rw [get?_eq_find?, get?_eq_find?]
  rfl

end SymbolGraph

end ActionAtlas
