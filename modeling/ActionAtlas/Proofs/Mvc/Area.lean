import ActionAtlas.Mvc.Controller
import ActionAtlas.Proofs.Graph.Lineage

/-!
The area of a type against the area markers on its chain of bases. The nearest type that carries
markers decides by its first one, even if that one gives no name.
-/

namespace ActionAtlas.Mvc

/-! ### The rule -/

def firstAreaMarker? (type : TypeDeclaration) : Option Attribute :=
  type.attributes.find? fun applied => applied.name = "Microsoft.AspNetCore.Mvc.AreaAttribute"

/-- At this distance a type of the chain carries area markers, the first of which is `marker`, and
no nearer type carries any. -/
structure NearestMarker (graph : SymbolGraph) (type : TypeDeclaration) (distance : Nat)
    (marker : Attribute) : Prop where
  marked : ∃ ancestor, graph.ancestor? type distance = some ancestor ∧
    firstAreaMarker? ancestor = some marker
  nearer : ∀ closer < distance, ∀ ancestor, graph.ancestor? type closer = some ancestor →
    firstAreaMarker? ancestor = none

def Unmarked (graph : SymbolGraph) (type : TypeDeclaration) : Prop :=
  ∀ distance ancestor, graph.ancestor? type distance = some ancestor →
    firstAreaMarker? ancestor = none

inductive GivesArea (marker : Attribute) : String → Prop
  | text {area : String} (first : marker.arguments.head? = some (.constant (.string area))) :
      GivesArea marker area
  | unusable (other : ∀ text, marker.arguments.head? ≠ some (.constant (.string text))) :
      GivesArea marker ""

/-- What is no name of an area where the first argument of a marker is looked for. -/
inductive Nameless : Option Evaluated → Prop
  | missing : Nameless none
  | noText {written : Evaluated} (other : ∀ text, written ≠ .constant (.string text)) :
      Nameless (some written)
  | empty : Nameless (some (.constant (.string "")))

/-! ### The marker that decides -/

def areaMarker? (graph : SymbolGraph) (type : TypeDeclaration) : Option Attribute :=
  (graph.lineage type).findSome? fun ancestor => Marker.area.find? ancestor.attributes

theorem areaOf_eq (graph : SymbolGraph) (type : TypeDeclaration) :
    areaOf graph type = ((areaMarker? graph type).bind areaArgument?).getD "" := by
  unfold areaOf areaMarker?
  split
  · next marker found =>
    rw [found]
    rfl
  · next found =>
    rw [found]
    rfl

theorem Marker.find?_area (type : TypeDeclaration) :
    area.find? type.attributes = firstAreaMarker? type :=
  find?_eq rfl type.attributes

variable {graph : SymbolGraph} {type : TypeDeclaration}

theorem NearestMarker.unique {first second : Nat} {marker other : Attribute}
    (nearest : NearestMarker graph type first marker)
    (again : NearestMarker graph type second other) : other = marker := by
  obtain ⟨ancestor, reached, found⟩ := nearest.marked
  obtain ⟨another, reachedToo, foundToo⟩ := again.marked
  rcases Nat.lt_trichotomy first second with before | same | behind
  · rw [again.nearer first before ancestor reached] at found
    cases found
  · subst same
    cases reached.symm.trans reachedToo
    exact (Option.some.inj (found.symm.trans foundToo)).symm
  · rw [nearest.nearer second behind another reachedToo] at foundToo
    cases foundToo

theorem exists_nearestMarker {marker : Attribute} (found : areaMarker? graph type = some marker) :
    ∃ distance, NearestMarker graph type distance marker := by
  obtain ⟨before, ancestor, after, split, marked, earlier⟩ :=
    List.findSome?_eq_some_iff.mp found
  have place (index : Nat) (inside : index < before.length + 1) :
      graph.ancestor? type index = (before ++ ancestor :: after)[index]? := by
    rw [← split, SymbolGraph.getElem?_lineage]
    rw [split, List.length_append, List.length_cons]
    omega
  refine ⟨before.length, ⟨ancestor, ?_, ?_⟩, ?_⟩
  · rw [place _ (Nat.lt_succ_self _)]
    simp
  · rw [← Marker.find?_area, marked]
  · intro closer less between reached
    rw [place closer (by omega), List.getElem?_append_left less] at reached
    rw [← Marker.find?_area]
    exact earlier between (List.mem_of_getElem? reached)

theorem unmarked_of_areaMarker?_eq_none (declared : graph.get? type.fullName = some type)
    (none : areaMarker? graph type = none) : Unmarked graph type := by
  intro distance ancestor reached
  rw [← Marker.find?_area]
  exact List.findSome?_eq_none_iff.mp none ancestor
    (SymbolGraph.mem_lineage_of_ancestor? declared reached)

theorem areaMarker?_eq_some_iff (declared : graph.get? type.fullName = some type)
    (marker : Attribute) :
    areaMarker? graph type = some marker ↔
      ∃ distance, NearestMarker graph type distance marker := by
  constructor
  · exact exists_nearestMarker
  · rintro ⟨distance, nearest⟩
    cases found : areaMarker? graph type with
    | none =>
        obtain ⟨ancestor, reached, marked⟩ := nearest.marked
        rw [unmarked_of_areaMarker?_eq_none declared found distance ancestor reached] at marked
        cases marked
    | some other =>
        obtain ⟨place, decides⟩ := exists_nearestMarker found
        rw [nearest.unique decides]

theorem areaMarker?_eq_none_iff (declared : graph.get? type.fullName = some type) :
    areaMarker? graph type = none ↔ Unmarked graph type := by
  constructor
  · exact unmarked_of_areaMarker?_eq_none declared
  · intro unmarked
    cases found : areaMarker? graph type with
    | none => rfl
    | some marker =>
        obtain ⟨distance, nearest⟩ := exists_nearestMarker found
        obtain ⟨ancestor, reached, marked⟩ := nearest.marked
        rw [unmarked distance ancestor reached] at marked
        cases marked

/-! ### The area that a marker gives -/

theorem givesArea_iff (marker : Attribute) (area : String) :
    GivesArea marker area ↔ (areaArgument? marker).getD "" = area := by
  unfold areaArgument?
  constructor
  · intro gives
    cases gives with
    | text first => rw [first]; rfl
    | unusable other =>
        cases given : marker.arguments.head? with
        | none => rfl
        | some written =>
            cases written with
            | unresolved text => rfl
            | constant value =>
                cases value with
                | string text => exact absurd given (other text)
                | _ => rfl
  · rintro rfl
    cases given : marker.arguments.head? with
    | none => exact .unusable (by simp [given])
    | some written =>
        cases written with
        | unresolved text => exact .unusable (by simp [given])
        | constant value =>
            cases value with
            | string text => exact .text given
            | _ => exact .unusable (by simp [given])

theorem givesArea_empty_iff (marker : Attribute) :
    GivesArea marker "" ↔ Nameless marker.arguments.head? := by
  constructor
  · intro gives
    cases gives with
    | text first =>
        rw [first]
        exact .empty
    | unusable other =>
        cases given : marker.arguments.head? with
        | none => exact .missing
        | some written =>
            refine .noText ?_
            rintro text rfl
            exact other text given
  · intro nameless
    generalize given : marker.arguments.head? = argument? at nameless
    cases nameless with
    | missing => exact .unusable (by simp [given])
    | noText other => exact .unusable (by simpa [given] using other)
    | empty => exact .text given

/-! ### Areas -/

/-- For a type that the graph declares under its name, as many steps as there are types suffice to
find its area. The nearest type of its chain that carries area markers gives it by its first one,
and hides what farther types carry; there is none exactly if that marker names none, or if no type
of the chain is marked. -/
theorem areaOf_eq_iff_nearest (graph : SymbolGraph) (type : TypeDeclaration)
    (declared : graph.get? type.fullName = some type) :
    (∀ steps, graph.types.length ≤ steps →
        graph.lineageFrom steps [] type = graph.lineage type) ∧
      (∀ area, areaOf graph type = area ↔
        (∃ distance marker, NearestMarker graph type distance marker ∧ GivesArea marker area) ∨
          Unmarked graph type ∧ area = "") ∧
      (areaOf graph type = "" ↔
        (∃ distance marker, NearestMarker graph type distance marker ∧
            Nameless marker.arguments.head?) ∨
          Unmarked graph type) := by
  have gives (area : String) : areaOf graph type = area ↔
      (∃ distance marker, NearestMarker graph type distance marker ∧ GivesArea marker area) ∨
        Unmarked graph type ∧ area = "" := by
    rw [areaOf_eq, ← areaMarker?_eq_none_iff declared]
    cases found : areaMarker? graph type with
    | none =>
        constructor
        · intro same
          exact .inr ⟨rfl, same.symm⟩
        · rintro (⟨distance, marker, nearest, -⟩ | ⟨-, same⟩)
          · have some := (areaMarker?_eq_some_iff declared marker).mpr ⟨distance, nearest⟩
            rw [found] at some
            cases some
          · exact same.symm
    | some marker =>
        obtain ⟨distance, nearest⟩ := exists_nearestMarker found
        rw [Option.bind_some, ← givesArea_iff]
        constructor
        · intro given
          exact .inl ⟨distance, marker, nearest, given⟩
        · rintro (⟨place, other, decides, given⟩ | ⟨none, -⟩)
          · rwa [nearest.unique decides] at given
          · cases none
  refine ⟨fun steps room => SymbolGraph.lineageFrom_eq_lineage declared room, gives, ?_⟩
  rw [gives]
  simp only [givesArea_empty_iff, and_true]

/-- A class whose base has a type argument. -/
def usersClass : TypeDeclaration :=
  .plainClass "N" "Users" (some "N.Crud<N.User>") []

/-- Three classes in a cycle of bases. The marker of the nearer base names no area, that of the
farther one does. -/
def hiddenArea : SymbolGraph :=
  let marked (arguments : List Evaluated) : List Attribute :=
    [⟨"N.NoteAttribute", [.constant (.string "note")]⟩,
      ⟨"Microsoft.AspNetCore.Mvc.AreaAttribute", arguments⟩]
  .unindexed [usersClass,
    { TypeDeclaration.plainClass "N" "Crud" (some "N.Root") [] with
      attributes := marked [.unresolved "Areas.Admin", .constant (.string "Sales")] },
    { TypeDeclaration.plainClass "N" "Root" (some "N.Users") [] with
      attributes := marked [.constant (.string "Admin")] }]

theorem areaOf_eq_iff_nearest_hiddenArea :
    hiddenArea.get? usersClass.fullName = some usersClass ∧
      (∃ distance marker, NearestMarker hiddenArea usersClass distance marker ∧
        Nameless marker.arguments.head?) ∧
      areaOf hiddenArea usersClass = "" := by
  have declared : hiddenArea.get? usersClass.fullName = some usersClass := rfl
  have hides : ∃ distance marker, NearestMarker hiddenArea usersClass distance marker ∧
      Nameless marker.arguments.head? := by
    refine ⟨1, _, ⟨⟨_, rfl, rfl⟩, ?_⟩, .noText nofun⟩
    intro closer less ancestor reached
    obtain rfl : closer = 0 := by omega
    cases reached
    rfl
  exact ⟨declared, hides,
    (areaOf_eq_iff_nearest hiddenArea usersClass declared).2.2.mpr (.inl hides)⟩

end ActionAtlas.Mvc
