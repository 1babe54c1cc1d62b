import ActionAtlas.Proofs.CSharp.Records
import ActionAtlas.Proofs.Names.Resolution

/-!
Which directive counts where several bodies around a place have one for a name. A scope holds the
directives of all bodies in one list that begins with those of the file, and the first that fits is
taken, so farther directives come before nearer ones. Enclosing types and namespaces are searched
the other way round.
-/

namespace ActionAtlas.CSharp

open Names (NameTable candidatesInNamespaces candidatesInTypes expandAlias? isWellKnown)
open Source (Scope)

/-- The directives of each body that a place stands in, those of the file first. -/
def bodiesAround (unit : List Member) (around : List Container) : List (List Using) :=
  unit.filterMap Member.using? :: around.map Container.directives

/-- What the aliases of one body make of a name. -/
def aliasIn (written : String) (directives : List Using) : Option String :=
  expandAlias? (scopeOf [] [] directives) written

/-- The name in the first of the namespaces opened by one body that has it. -/
def openedIn (table : NameTable) (written : String) (directives : List Using) : Option String :=
  ((directives.filterMap Using.opened?).map fun outer => qualify outer written).find? fun name =>
    table.declares name || isWellKnown name

def openedEverywhere (table : NameTable) (written : String) : Option String :=
  (table.globalUsings.map fun outer => qualify outer written).find? fun name =>
    table.declares name || isWellKnown name

/-- The full name of a name inside the types and namespaces of a scope, if the bodies are asked for
their directives in this order. -/
def meaning? (table : NameTable) (scope : Scope) (bodies : List (List Using)) (written : String) :
    Option String :=
  (bodies.findSome? (aliasIn written)).or <|
    ((candidatesInTypes scope written ++ candidatesInNamespaces scope written).find?
      table.declares).or <|
    (bodies.findSome? (openedIn table written)).or <|
    (openedEverywhere table written).or (if isWellKnown written then some written else none)

/-- Only namespaces in use can have the name. -/
structure LeftToUsings (table : NameTable) (scope : Scope) (written : String) : Prop where
  unaliased : Names.Unaliased scope written
  elsewhere : ∀ name ∈ candidatesInTypes scope written ++ candidatesInNamespaces scope written,
    table.declares name = false

/-- The nearest body that gives something for a name, and the farthest, give the same. -/
def EndsAgree (given : List Using → Option String) (bodies : List (List Using)) : Prop :=
  bodies.reverse.findSome? given = bodies.findSome? given

/-! ### The order of the search -/

section

variable (table : NameTable) (unit : List Member) (around : List Container) (written : String)

theorem flatten_bodiesAround :
    (bodiesAround unit around).flatten = directivesAround unit around := by
  rw [bodiesAround, List.flatten_cons, directivesAround, List.flatMap_def]

theorem expandAlias?_flatten (bodies : List (List Using)) :
    expandAlias? (scopeOf [] [] bodies.flatten) written = bodies.findSome? (aliasIn written) := by
  induction bodies with
  | nil => exact Names.expandAlias?_eq _ written
  | cons directives others ih =>
      rw [List.findSome?_cons, ← ih, aliasIn, Names.expandAlias?_eq, Names.expandAlias?_eq,
        Names.expandAlias?_eq, List.flatten_cons]
      simp only [scopeOf, List.filterMap_append, List.lookup_append]
      cases (directives.filterMap Using.aliased?).lookup (Names.firstSegment written) with
      | some target => rfl
      | none => rfl

theorem expandAlias?_scopeAt :
    expandAlias? (scopeAt unit around) written =
      (bodiesAround unit around).findSome? (aliasIn written) := by
  rw [← expandAlias?_flatten, flatten_bodiesAround]
  rfl

theorem find?_candidatesInUsings_scopeAt :
    ((table.candidatesInUsings (scopeAt unit around) written).find? fun name =>
        table.declares name || isWellKnown name) =
      ((bodiesAround unit around).findSome? (openedIn table written)).or
        (openedEverywhere table written) := by
  rw [NameTable.candidatesInUsings, List.map_append, List.find?_append, scopeAt, scopeOf,
    ← flatten_bodiesAround, List.filterMap_flatten, List.map_flatten, List.find?_flatten,
    List.findSome?_map, List.findSome?_map]
  rfl

/-- The bodies are asked from the outside in. -/
theorem resolve?_scopeAt :
    table.resolve? (scopeAt unit around) written =
      meaning? table (scopeAt unit around) (bodiesAround unit around) written := by
  simp only [meaning?, ← expandAlias?_scopeAt, NameTable.resolve?, find?_candidatesInUsings_scopeAt]
  cases expandAlias? (scopeAt unit around) written with
  | some target => rfl
  | none =>
      cases (candidatesInTypes (scopeAt unit around) written ++
          candidatesInNamespaces (scopeAt unit around) written).find? table.declares with
      | some found => rfl
      | none =>
          cases (bodiesAround unit around).findSome? (openedIn table written) with
          | some found => rfl
          | none =>
              cases openedEverywhere table written with
              | some found => rfl
              | none => rfl

end

/-! ### Both orders -/

theorem or_eq_or_iff {α : Type} {first other : Option α} (none_iff : first = none ↔ other = none)
    (next further : Option α) :
    first.or next = other.or further ↔ first = other ∧ (first = none → next = further) := by
  cases first with
  | none => simp [none_iff.mp rfl]
  | some value =>
      cases other with
      | none => simp at none_iff
      | some _ => simp

theorem findSome?_reverse_eq_none_iff {α β : Type} {given : α → Option β} {items : List α} :
    items.reverse.findSome? given = none ↔ items.findSome? given = none := by
  simp only [List.findSome?_eq_none_iff, List.mem_reverse]

/-- Bodies of which all that give something for a name give the same. -/
theorem endsAgree_of_forall {given : List Using → Option String} {bodies : List (List Using)}
    (alike : ∀ body ∈ bodies, ∀ other ∈ bodies, ∀ name otherName,
      given body = some name → given other = some otherName → name = otherName) :
    EndsAgree given bodies := by
  rw [EndsAgree]
  cases near : bodies.reverse.findSome? given with
  | none => rw [findSome?_reverse_eq_none_iff.mp near]
  | some name =>
      cases far : bodies.findSome? given with
      | none =>
          rw [findSome?_reverse_eq_none_iff.mpr far] at near
          cases near
      | some otherName =>
          obtain ⟨body, inside, gives⟩ := List.exists_of_findSome?_eq_some near
          obtain ⟨other, member, givesOther⟩ := List.exists_of_findSome?_eq_some far
          rw [alike body (List.mem_reverse.mp inside) other member name otherName gives givesOther]

theorem meaning?_reverse_iff (table : NameTable) (scope : Scope) (bodies : List (List Using))
    (written : String) :
    meaning? table scope bodies.reverse written = meaning? table scope bodies written ↔
      EndsAgree (aliasIn written) bodies ∧
        (bodies.findSome? (aliasIn written) = none →
          (∀ name ∈ candidatesInTypes scope written ++ candidatesInNamespaces scope written,
            table.declares name = false) → EndsAgree (openedIn table written) bodies) := by
  rw [meaning?, meaning?, or_eq_or_iff findSome?_reverse_eq_none_iff, or_eq_or_iff Iff.rfl,
    or_eq_or_iff findSome?_reverse_eq_none_iff, findSome?_reverse_eq_none_iff, List.find?_eq_none]
  simp only [EndsAgree, true_and, implies_true, and_true, Bool.not_eq_true]

theorem leftToUsings_scopeAt_iff (table : NameTable) (unit : List Member)
    (around : List Container) (written : String) :
    LeftToUsings table (scopeAt unit around) written ↔
      (bodiesAround unit around).findSome? (aliasIn written) = none ∧
        ∀ name ∈ candidatesInTypes (scopeAt unit around) written
            ++ candidatesInNamespaces (scopeAt unit around) written,
          table.declares name = false := by
  rw [← expandAlias?_scopeAt, Names.expandAlias?_eq_none_iff]
  exact ⟨fun left => ⟨left.unaliased, left.elsewhere⟩, fun left => ⟨left.1, left.2⟩⟩

theorem innerScope_of_isRecord {unit : List Member} {around : List Container} {head : TypeHead}
    {body : List Member} {type : Source.TypeDeclaration}
    (record : IsRecord unit around head body type) :
    type.innerScope = scopeAt unit (around ++ [.type head body]) := by
  rw [Source.TypeDeclaration.innerScope, record.scope, record.name]
  simp [Scope.enter, scopeAt, scopeOf, typeHeads, directivesAround, Container.typeHead?,
    Container.namespaceParts, Container.directives]

/-- A name in a declaration, or inside of it, is understood by the directives of the bodies around
it from the outside in. From the inside out it stands for the same if and only if the nearest and
the farthest body that alias it give the same, and the nearest and the farthest that open a
namespace with it where only these decide. -/
theorem resolve?_from_outside_in (unit : List Member) :
    (∃ sites : List Site, (∀ site, site ∈ sites ↔ site.StandsIn unit) ∧
      List.Forall₂ (fun site type => type.scope = scopeAt unit site.around ∧
        type.innerScope = scopeAt unit (site.around ++ [.type site.head site.body])) sites
        (collect unit).types) ∧
      ∀ (table : NameTable) (around : List Container) (written : String),
        table.resolve? (scopeAt unit around) written =
            meaning? table (scopeAt unit around) (bodiesAround unit around) written ∧
          (table.resolve? (scopeAt unit around) written =
              meaning? table (scopeAt unit around) (bodiesAround unit around).reverse written ↔
            EndsAgree (aliasIn written) (bodiesAround unit around) ∧
              (LeftToUsings table (scopeAt unit around) written →
                EndsAgree (openedIn table written) (bodiesAround unit around))) := by
  constructor
  · refine ⟨Member.sitesIn 0 unit, fun _ => Member.mem_sitesIn_iff, ?_⟩
    have records := records_sitesIn unit (Surroundings.reflect_outermost unit) 0
    exact records.imp fun site type record => ⟨record.scope, innerScope_of_isRecord record⟩
  · intro table around written
    have outermost := resolve?_scopeAt table unit around written
    refine ⟨outermost, ?_⟩
    rw [outermost, eq_comm, meaning?_reverse_iff, leftToUsings_scopeAt_iff, and_imp]

/-- Where the bodies do not contradict each other the order of the search does not show. -/
theorem resolve?_from_inside_out {table : NameTable} {unit : List Member}
    {around : List Container} {written : String}
    (alike : ∀ given ∈ [aliasIn written, openedIn table written],
      ∀ body ∈ bodiesAround unit around, ∀ other ∈ bodiesAround unit around,
        ∀ name otherName, given body = some name → given other = some otherName →
          name = otherName) :
    table.resolve? (scopeAt unit around) written =
      meaning? table (scopeAt unit around) (bodiesAround unit around).reverse written := by
  rw [resolve?_scopeAt, eq_comm, meaning?_reverse_iff]
  exact ⟨endsAgree_of_forall (alike _ (by simp)), fun _ _ => endsAgree_of_forall (alike _ (by simp))⟩

/-- A class of one name in two namespaces. -/
def itemFiles : List Source.File :=
  let item : List Member := [.type ⟨"Item", .class, ["public"], false, [], []⟩ []]
  [collect [.namespaceBlock "Acme.Old" item, .namespaceBlock "Acme.New" item]]

def opening (target : String) : Using := ⟨false, false, none, target⟩

def aliasing (name target : String) : Using := ⟨false, false, some name, target⟩

def pageHead : TypeHead := ⟨"Page", .class, ["public"], false, [], []⟩

/-- A namespace inside another one, with the same two directives in each for its own sake. -/
def webBody : List Member :=
  [.using (aliasing "Data" "Acme.New"), .using (opening "Acme.New"), .type pageHead []]

def shopBody : List Member :=
  [.using (aliasing "Data" "Acme.Old"), .using (opening "Acme.Old"), .namespaceBlock "Web" webBody]

def shopUnit : List Member := [.namespaceBlock "Shop" shopBody]

def aroundPage : List Container := [.namespaceBlock "Shop" shopBody, .namespaceBlock "Web" webBody]

theorem resolve?_from_outside_in_shopUnit :
    let table := NameTable.ofFiles itemFiles
    let bodies := bodiesAround shopUnit aroundPage
    table.resolve? (scopeAt shopUnit aroundPage) "Data.Item" = some "Acme.Old.Item" ∧
      meaning? table (scopeAt shopUnit aroundPage) bodies.reverse "Data.Item" =
        some "Acme.New.Item" ∧
      ¬EndsAgree (aliasIn "Data.Item") bodies ∧
      table.resolve? (scopeAt shopUnit aroundPage) "Item" = some "Acme.Old.Item" ∧
      meaning? table (scopeAt shopUnit aroundPage) bodies.reverse "Item" = some "Acme.New.Item" ∧
      ¬EndsAgree (openedIn table "Item") bodies := by
  intro table bodies
  have apart : some "Acme.Old.Item" ≠ some "Acme.New.Item" := by decide
  obtain ⟨-, aliased⟩ := (resolve?_from_outside_in shopUnit).2 table aroundPage "Data.Item"
  obtain ⟨-, opened⟩ := (resolve?_from_outside_in shopUnit).2 table aroundPage "Item"
  have farAlias : table.resolve? (scopeAt shopUnit aroundPage) "Data.Item" =
      some "Acme.Old.Item" := by decide +kernel
  have nearAlias : meaning? table (scopeAt shopUnit aroundPage) bodies.reverse "Data.Item" =
      some "Acme.New.Item" := by decide +kernel
  have far : table.resolve? (scopeAt shopUnit aroundPage) "Item" = some "Acme.Old.Item" := by
    decide +kernel
  have near : meaning? table (scopeAt shopUnit aroundPage) bodies.reverse "Item" =
      some "Acme.New.Item" := by decide +kernel
  rw [farAlias, nearAlias] at aliased
  rw [far, near] at opened
  refine ⟨farAlias, nearAlias, fun agree => ?_, far, near, fun agree => ?_⟩
  · have unaliased : ¬LeftToUsings table (scopeAt shopUnit aroundPage) "Data.Item" := fun left =>
      left.unaliased ("Data", "Acme.Old") (by decide +kernel) (by decide +kernel)
    exact apart (aliased.mpr ⟨agree, fun left => absurd left unaliased⟩)
  · have unaliased : EndsAgree (aliasIn "Item") bodies := by
      rw [EndsAgree]
      decide +kernel
    exact apart (opened.mpr ⟨unaliased, fun _ => agree⟩)

end ActionAtlas.CSharp
