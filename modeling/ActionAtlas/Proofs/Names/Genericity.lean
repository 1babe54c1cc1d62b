import ActionAtlas.Proofs.Names.Assembly
import ActionAtlas.Proofs.Names.Resolution

/-!
Generic and other declarations of one full name. A full name has no type parameters, so both kinds
are taken for parts of one type, which is generic if its first declaration is. The main statement
says when the declarations of the other kind have no share in that type.
-/

namespace ActionAtlas.Names

/-- The declarations that are generic, or those that are not. -/
def alike (generic : Bool) (parts : List Source.TypeDeclaration) : List Source.TypeDeclaration :=
  parts.filter fun part => part.isGeneric == generic

/-- The type has the methods, attributes and bases of those of its declarations that are generic
exactly if it is, and of no other. -/
structure KeepsApart (table : NameTable) (parts : List Source.TypeDeclaration)
    (type : TypeDeclaration) : Prop where
  methods_eq : type.methods =
    (alike type.isGeneric parts).flatMap fun part => part.methods.map (table.method part)
  attributes_eq : type.attributes =
    (alike type.isGeneric parts).flatMap fun part =>
      table.resolveAttributes part.scope part.attributes
  base_eq : type.base? =
    (alike type.isGeneric parts).findSome? fun part => (table.splitBases part).1
  mem_interfaces_iff : ∀ name, name ∈ type.interfaces ↔
    ∃ part ∈ alike type.isGeneric parts, name ∈ (table.splitBases part).2

/-- Nothing comes from the declarations of the other kind: they have no methods and attributes, and
their bases are those of declarations of this kind. -/
structure AddsNothing (table : NameTable) (parts : List Source.TypeDeclaration) (generic : Bool) :
    Prop where
  methods : ∀ part ∈ parts, part.isGeneric ≠ generic → part.methods = []
  attributes : ∀ part ∈ parts, part.isGeneric ≠ generic → part.attributes = []
  base : ∀ part, IsFirst (fun part => (table.splitBases part).1.isSome) parts part →
    part.isGeneric ≠ generic →
    ((alike generic parts).findSome? fun part => (table.splitBases part).1) =
      (table.splitBases part).1
  interfaces : ∀ part ∈ parts, part.isGeneric ≠ generic → ∀ name ∈ (table.splitBases part).2,
    ∃ other ∈ alike generic parts, name ∈ (table.splitBases other).2

section Lists

variable {α β : Type*} (keep : α → Bool)

theorem flatMap_filter_eq_iff (collect : α → List β) (items : List α) :
    items.flatMap collect = (items.filter keep).flatMap collect ↔
      ∀ item ∈ items, ¬keep item = true → collect item = [] := by
  induction items with
  | nil => simp
  | cons item others ih =>
      have fewer : ((others.filter keep).flatMap collect).length ≤
          (others.flatMap collect).length :=
        (List.Sublist.flatMap List.filter_sublist collect).length_le
      rw [List.forall_mem_cons, List.flatMap_cons]
      by_cases kept : keep item = true
      · rw [List.filter_cons_of_pos kept, List.flatMap_cons, List.append_cancel_left_eq, ih]
        simp [kept]
      · rw [List.filter_cons_of_neg kept]
        constructor
        · intro same
          have nothing : collect item = [] := by
            have lengths := congrArg List.length same
            rw [List.length_append] at lengths
            exact List.eq_nil_of_length_eq_zero (by omega)
          rw [nothing, List.nil_append] at same
          exact ⟨fun _ => nothing, ih.mp same⟩
        · rintro ⟨nothing, rest⟩
          rw [nothing kept, List.nil_append, ih.mpr rest]

theorem findSome?_of_isFirst {choose? : α → Option β} {items : List α} {item : α}
    (first : IsFirst (fun item => (choose? item).isSome = true) items item) :
    items.findSome? choose? = choose? item := by
  obtain ⟨before, after, rfl, here, earlier⟩ := first
  have passed : before.findSome? choose? = none := by
    rw [List.findSome?_eq_none_iff]
    intro other inside
    simpa using earlier other inside
  rw [List.findSome?_append, passed, Option.none_or, List.findSome?_cons_of_isSome here]

theorem exists_isFirst_of_findSome? {choose? : α → Option β} {items : List α} {value : β}
    (found : items.findSome? choose? = some value) :
    ∃ item, IsFirst (fun item => (choose? item).isSome = true) items item ∧
      choose? item = some value := by
  obtain ⟨before, item, after, split, chosen, earlier⟩ := List.findSome?_eq_some_iff.mp found
  refine ⟨item, ⟨before, after, split, Option.isSome_iff_exists.mpr ⟨value, chosen⟩, ?_⟩, chosen⟩
  intro other inside
  simp [earlier other inside]

theorem IsFirst.filter {holds : α → Prop} {items : List α} {item : α}
    (first : IsFirst holds items item) (kept : keep item = true) :
    IsFirst holds (items.filter keep) item := by
  obtain ⟨before, after, rfl, here, earlier⟩ := first
  refine ⟨before.filter keep, after.filter keep, ?_, here, ?_⟩
  · rw [List.filter_append, List.filter_cons_of_pos kept]
  · exact fun other inside => earlier other (List.mem_filter.mp inside).1

/-- A search among the kept items is the search among all exactly if a first item that is found but
not kept has what is found among the kept ones. -/
theorem findSome?_filter_eq_iff (choose? : α → Option β) (items : List α) :
    items.findSome? choose? = (items.filter keep).findSome? choose? ↔
      ∀ item, IsFirst (fun item => (choose? item).isSome = true) items item →
        ¬keep item = true → (items.filter keep).findSome? choose? = choose? item := by
  constructor
  · intro same item first _
    rw [← same, findSome?_of_isFirst first]
  · intro covered
    cases found : items.findSome? choose? with
    | none =>
        symm
        rw [List.findSome?_eq_none_iff] at found ⊢
        exact fun item inside => found item (List.mem_filter.mp inside).1
    | some value =>
        obtain ⟨item, first, chosen⟩ := exists_isFirst_of_findSome? found
        by_cases kept : keep item = true
        · rw [findSome?_of_isFirst (first.filter keep kept), chosen]
        · rw [covered item first kept, chosen]

end Lists

/-- The interfaces of a type are those of all its declarations. -/
theorem Unites.mem_interfaces_iff {table : NameTable} {first : Source.TypeDeclaration}
    {later : List Source.TypeDeclaration} {type : TypeDeclaration}
    (unites : Unites table first later type) (name : String) :
    name ∈ type.interfaces ↔ ∃ part ∈ first :: later, name ∈ (table.splitBases part).2 := by
  rw [unites.interfaces_eq, FirstOccurrence.mem_append_eraseDups_removeAll, List.mem_flatMap,
    List.exists_mem_cons_iff]

theorem mem_alike {generic : Bool} {parts : List Source.TypeDeclaration}
    {part : Source.TypeDeclaration} :
    part ∈ alike generic parts ↔ part ∈ parts ∧ part.isGeneric = generic := by
  rw [alike, List.mem_filter, beq_iff_eq]

/-- The interfaces are those of the declarations of one kind exactly if the others have no more. -/
theorem Unites.interfaces_alike_iff {table : NameTable} {first : Source.TypeDeclaration}
    {later : List Source.TypeDeclaration} {type : TypeDeclaration}
    (unites : Unites table first later type) (generic : Bool) :
    (∀ name, name ∈ type.interfaces ↔
        ∃ part ∈ alike generic (first :: later), name ∈ (table.splitBases part).2) ↔
      ∀ part ∈ first :: later, part.isGeneric ≠ generic → ∀ name ∈ (table.splitBases part).2,
        ∃ other ∈ alike generic (first :: later), name ∈ (table.splitBases other).2 := by
  constructor
  · intro same part inside _ name present
    exact (same name).mp ((unites.mem_interfaces_iff name).mpr ⟨part, inside, present⟩)
  · intro covered name
    rw [unites.mem_interfaces_iff]
    constructor
    · rintro ⟨part, inside, present⟩
      by_cases same : part.isGeneric = generic
      · exact ⟨part, mem_alike.mpr ⟨inside, same⟩, present⟩
      · exact covered part inside same name present
    · rintro ⟨part, inside, present⟩
      exact ⟨part, (mem_alike.mp inside).1, present⟩

/-- A type of the graph is kept apart from the declarations of its name that are not generic like
it exactly if these add nothing. -/
theorem keepsApart_iff_addsNothing (files : List Source.File) {type : TypeDeclaration}
    (member : type ∈ (assemble files).types) :
    KeepsApart (NameTable.ofFiles files) (declaredAs files type.fullName) type ↔
      AddsNothing (NameTable.ofFiles files) (declaredAs files type.fullName) type.isGeneric := by
  obtain ⟨first, later, parts, unites⟩ := exists_unites_of_mem member
  have other (part : Source.TypeDeclaration) :
      ¬(part.isGeneric == type.isGeneric) = true ↔ part.isGeneric ≠ type.isGeneric := by simp
  have methods := flatMap_filter_eq_iff (fun part => part.isGeneric == type.isGeneric)
    (fun part => part.methods.map ((NameTable.ofFiles files).method part)) (first :: later)
  have attributes := flatMap_filter_eq_iff (fun part => part.isGeneric == type.isGeneric)
    (fun part => (NameTable.ofFiles files).resolveAttributes part.scope part.attributes)
    (first :: later)
  have base := findSome?_filter_eq_iff (fun part => part.isGeneric == type.isGeneric)
    (fun part => ((NameTable.ofFiles files).splitBases part).1) (first :: later)
  have interfaces := unites.interfaces_alike_iff type.isGeneric
  rw [← unites.methods_eq] at methods
  rw [← unites.attributes_eq] at attributes
  rw [← unites.base_eq] at base
  simp only [other, List.map_eq_nil_iff, NameTable.resolveAttributes] at methods attributes base
  rw [parts]
  constructor
  · intro apart
    exact ⟨methods.mp apart.methods_eq, attributes.mp apart.attributes_eq, base.mp apart.base_eq,
      interfaces.mp apart.mem_interfaces_iff⟩
  · intro nothing
    exact ⟨methods.mpr nothing.methods, attributes.mpr nothing.attributes, base.mpr nothing.base,
      interfaces.mpr nothing.interfaces⟩

def closedCrud : Source.TypeDeclaration :=
  .plain ⟨["Web"], [], [], []⟩ "Crud"

def openCrud : Source.TypeDeclaration :=
  { closedCrud with
    isGeneric := true
    methods := [{ name := "List", kind := .ordinary, isGeneric := false, modifiers := ["public"],
                  attributes := [], parameters := [] }] }

def crudFiles : List Source.File :=
  [{ globalUsings := [], types := [closedCrud, openCrud] }]

/-- The method of the generic class ends up in the other class of its name. -/
theorem keepsApart_iff_addsNothing_openCrud :
    ∃ type ∈ (assemble crudFiles).types, type.isGeneric = false ∧
      ¬KeepsApart (NameTable.ofFiles crudFiles) (declaredAs crudFiles type.fullName) type := by
  have summary : (assemble crudFiles).types.map
      (fun type => (type.fullName, type.isGeneric)) = [("Web.Crud", false)] := by
    decide +kernel
  obtain ⟨type, alone, same⟩ := List.map_eq_singleton_iff.mp summary
  have member : type ∈ (assemble crudFiles).types := by simp [alone]
  obtain ⟨named, closed⟩ := Prod.mk.inj same
  refine ⟨type, member, closed, ?_⟩
  rw [keepsApart_iff_addsNothing crudFiles member, named, closed]
  intro nothing
  have inside : openCrud ∈ declaredAs crudFiles "Web.Crud" :=
    List.mem_filter.mpr ⟨by simp [declared, crudFiles], by decide +kernel⟩
  exact absurd (nothing.methods openCrud inside (by decide)) (by simp [openCrud])

end ActionAtlas.Names
