import ActionAtlas.Proofs.Graph.Lookup
import ActionAtlas.Proofs.Names.Parts

/-!
What assembling computes. After any number of declarations the types stand in the order in which
their full names were first declared, each joined from all declarations of its name, and the
positions are those of the names. One more declaration keeps this, so every run does.
-/

namespace ActionAtlas.Names

/-- The type that the declarations of one name make, if there are any. -/
def joined? : List TypeDeclaration → Option TypeDeclaration
  | [] => none
  | first :: later => some (later.foldl mergePart first)

theorem joined?_concat (parts : List TypeDeclaration) (part : TypeDeclaration) :
    joined? (parts ++ [part]) = some (((joined? parts).map (mergePart · part)).getD part) := by
  cases parts with
  | nil => rfl
  | cons first later => exact congrArg some (List.foldl_concat ..)

namespace Assembly

def partsNamed (name : String) (parts : List TypeDeclaration) : List TypeDeclaration :=
  parts.filter fun part => part.fullName == name

def fullNames (parts : List TypeDeclaration) : List String :=
  (parts.map TypeDeclaration.fullName).eraseDups

/-- The assembly of exactly these declarations. -/
structure Holds (assembly : Assembly) (parts : List TypeDeclaration) : Prop where
  types_eq : assembly.types.map some =
    (fullNames parts).map fun name => joined? (partsNamed name parts)
  positions_eq : ∀ name, assembly.positions.lookup name = (fullNames parts).idxOf? name

theorem fullNames_nodup (parts : List TypeDeclaration) : (fullNames parts).Nodup :=
  FirstOccurrence.nodup_eraseDups (parts.map TypeDeclaration.fullName)

theorem mem_fullNames {name : String} {parts : List TypeDeclaration} :
    name ∈ fullNames parts ↔ ∃ part ∈ parts, part.fullName = name := by
  rw [fullNames, List.mem_eraseDups, List.mem_map]

theorem fullNames_concat_of_mem {parts : List TypeDeclaration} {part : TypeDeclaration}
    (known : part.fullName ∈ fullNames parts) : fullNames (parts ++ [part]) = fullNames parts := by
  rw [fullNames, List.map_append]
  exact FirstOccurrence.eraseDups_concat_of_mem (List.mem_eraseDups.mp known)

theorem fullNames_concat_of_not_mem {parts : List TypeDeclaration} {part : TypeDeclaration}
    (fresh : part.fullName ∉ fullNames parts) :
    fullNames (parts ++ [part]) = fullNames parts ++ [part.fullName] := by
  rw [fullNames, List.map_append]
  exact FirstOccurrence.eraseDups_concat_of_not_mem
    fun present => fresh (List.mem_eraseDups.mpr present)

theorem partsNamed_concat_self (parts : List TypeDeclaration) (part : TypeDeclaration) :
    partsNamed part.fullName (parts ++ [part]) = partsNamed part.fullName parts ++ [part] := by
  simp [partsNamed]

theorem partsNamed_concat_of_ne {part : TypeDeclaration} {other : String}
    (different : part.fullName ≠ other) (parts : List TypeDeclaration) :
    partsNamed other (parts ++ [part]) = partsNamed other parts := by
  simp [partsNamed, different]

theorem partsNamed_eq_nil_iff {name : String} {parts : List TypeDeclaration} :
    partsNamed name parts = [] ↔ name ∉ fullNames parts := by
  rw [partsNamed, List.filter_eq_nil_iff, mem_fullNames]
  simp

theorem holds_empty : Holds empty [] where
  types_eq := rfl
  positions_eq := by intro name; simp [empty, fullNames]

/-- A further part is joined to one type, at the position of its name. -/
private theorem Holds.add_known {assembly : Assembly} {parts : List TypeDeclaration}
    (holds : Holds assembly parts) (part : TypeDeclaration) {position : Nat}
    (found : assembly.positions.lookup part.fullName = some position) :
    Holds (assembly.add part) (parts ++ [part]) := by
  have located : (fullNames parts).idxOf? part.fullName = some position := by
    rw [← holds.positions_eq, found]
  have known : part.fullName ∈ fullNames parts := by
    by_contra absent
    rw [List.idxOf?_eq_none_iff.mpr absent] at located
    cases located
  have added : assembly.add part =
      { assembly with
        types := assembly.types.modify position fun first => mergePart first part } := by
    simp only [add, found]
  rw [added]
  refine ⟨?_, ?_⟩
  · rw [fullNames_concat_of_mem known]
    apply List.ext_getElem?
    intro index
    have before := congrArg (fun types => types[index]?) holds.types_eq
    simp only [List.getElem?_map] at before ⊢
    rw [List.getElem?_modify]
    cases at_index : (fullNames parts)[index]? with
    | none =>
        rw [at_index, Option.map_none, Option.map_eq_none_iff] at before
        rw [before]
        rfl
    | some other =>
        have unique : position = index ↔ part.fullName = other :=
          FirstOccurrence.eq_iff_of_nodup (fullNames_nodup parts) located at_index
        rw [at_index, Option.map_some] at before
        rw [Option.map_some]
        by_cases same : part.fullName = other
        · subst same
          obtain ⟨type, here, joined⟩ := Option.map_eq_some_iff.mp before
          rw [partsNamed_concat_self, joined?_concat, ← joined, here]
          simp [unique.mpr rfl]
        · rw [partsNamed_concat_of_ne same, ← before]
          simp [mt unique.mp same]
  · intro other
    rw [fullNames_concat_of_mem known]
    exact holds.positions_eq other

/-- A declaration of a new name makes one type behind all others. -/
private theorem Holds.add_new {assembly : Assembly} {parts : List TypeDeclaration}
    (holds : Holds assembly parts) (part : TypeDeclaration)
    (missing : assembly.positions.lookup part.fullName = none) :
    Holds (assembly.add part) (parts ++ [part]) := by
  have fresh : part.fullName ∉ fullNames parts := by
    rw [← List.idxOf?_eq_none_iff, ← holds.positions_eq, missing]
  have count : assembly.types.length = (fullNames parts).length := by
    simpa using congrArg List.length holds.types_eq
  have added : assembly.add part =
      { types := assembly.types ++ [part]
        positions := (part.fullName, assembly.types.length) :: assembly.positions } := by
    simp only [add, missing]
  rw [added]
  refine ⟨?_, ?_⟩
  · rw [fullNames_concat_of_not_mem fresh, List.map_append, List.map_append, holds.types_eq]
    congr 1
    · apply List.map_congr_left
      intro other member
      have different : part.fullName ≠ other := by
        rintro rfl
        exact fresh member
      rw [partsNamed_concat_of_ne different]
    · rw [List.map_singleton, List.map_singleton, partsNamed_concat_self,
        partsNamed_eq_nil_iff.mpr fresh]
      rfl
  · intro other
    rw [fullNames_concat_of_not_mem fresh, FirstOccurrence.idxOf?_concat, List.lookup_cons, count,
      holds.positions_eq other]
    by_cases same : other = part.fullName
    · subst same
      simp [List.idxOf?_eq_none_iff.mpr fresh]
    · have apart : (other == part.fullName) = false := beq_false_of_ne same
      simp [apart, Ne.symm same]

theorem Holds.add {assembly : Assembly} {parts : List TypeDeclaration}
    (holds : Holds assembly parts) (part : TypeDeclaration) :
    Holds (assembly.add part) (parts ++ [part]) := by
  cases found : assembly.positions.lookup part.fullName with
  | none => exact holds.add_new part found
  | some position => exact holds.add_known part found

theorem holds_ofParts (parts : List TypeDeclaration) : Holds (ofParts parts) parts := by
  induction parts using List.reverseRecOn with
  | nil => exact holds_empty
  | append_singleton before part ih =>
      rw [ofParts, List.foldl_concat]
      exact ih.add part

end Assembly

/-! ### The graph of source files -/

/-- The type is the first declaration with the later ones joined to it, all names resolved. -/
structure Unites (table : NameTable) (first : Source.TypeDeclaration)
    (later : List Source.TypeDeclaration) (type : TypeDeclaration) : Prop where
  name_eq : type.name = first.nestedName
  namespaceName_eq : type.namespaceName = first.scope.namespaceName
  kind_eq : type.kind = first.kind
  isGeneric_eq : type.isGeneric = first.isGeneric
  accessibility_eq : type.accessibility =
    (((first :: later).map Source.TypeDeclaration.accessibility).find? (· ≠ .internal)).getD
      .internal
  isAbstract_iff : type.isAbstract = true ↔ ∃ part ∈ first :: later, "abstract" ∈ part.modifiers
  isStatic_iff : type.isStatic = true ↔ ∃ part ∈ first :: later, "static" ∈ part.modifiers
  base_eq : type.base? = (first :: later).findSome? fun part => (table.splitBases part).1
  interfaces_eq : type.interfaces = (table.splitBases first).2 ++
    ((later.flatMap fun part => (table.splitBases part).2).removeAll
      (table.splitBases first).2).eraseDups
  attributes_eq : type.attributes =
    (first :: later).flatMap fun part => table.resolveAttributes part.scope part.attributes
  methods_eq : type.methods =
    (first :: later).flatMap fun part => part.methods.map (table.method part)

theorem Joins.unites {table : NameTable} {first : Source.TypeDeclaration}
    {later : List Source.TypeDeclaration} {type : TypeDeclaration}
    (joins : Joins (table.declaration first) (later.map table.declaration) type) :
    Unites table first later type where
  name_eq := joins.name_eq
  namespaceName_eq := joins.namespaceName_eq
  kind_eq := joins.kind_eq
  isGeneric_eq := joins.isGeneric_eq
  accessibility_eq := by
    rw [joins.accessibility_eq, ← List.map_cons, List.map_map]
    rfl
  isAbstract_iff := by
    rw [joins.isAbstract_eq, ← List.map_cons, List.any_map, List.any_eq_true]
    simp [NameTable.declaration, Source.TypeDeclaration.hasModifier]
  isStatic_iff := by
    rw [joins.isStatic_eq, ← List.map_cons, List.any_map, List.any_eq_true]
    simp [NameTable.declaration, Source.TypeDeclaration.hasModifier]
  base_eq := by
    rw [joins.base_eq, ← List.map_cons, List.findSome?_map]
    rfl
  interfaces_eq := by
    rw [joins.interfaces_eq, List.flatMap_map]
    rfl
  attributes_eq := by
    rw [joins.attributes_eq, ← List.map_cons, List.flatMap_map]
    rfl
  methods_eq := by
    rw [joins.methods_eq, ← List.map_cons, List.flatMap_map]
    rfl

theorem types_assemble (files : List Source.File) :
    (assemble files).types.map some =
      ((declared files).map Source.TypeDeclaration.fullName).eraseDups.map fun name =>
        joined? ((declaredAs files name).map (NameTable.ofFiles files).declaration) := by
  have holds := (Assembly.holds_ofParts
    ((declared files).map (NameTable.ofFiles files).declaration)).types_eq
  rw [Assembly.fullNames, List.map_map] at holds
  refine holds.trans (List.map_congr_left fun name _ => ?_)
  rw [Assembly.partsNamed, List.filter_map]
  rfl

theorem exists_joins_of_joined? {table : NameTable} {parts : List Source.TypeDeclaration}
    {type : TypeDeclaration} (joined : joined? (parts.map table.declaration) = some type) :
    ∃ first later, parts = first :: later ∧
      Joins (table.declaration first) (later.map table.declaration) type := by
  cases parts with
  | nil => cases joined
  | cons first later =>
      refine ⟨first, later, rfl, ?_⟩
      rw [← Option.some.inj joined]
      exact Joins.foldl_mergePart _ _

theorem fullName_of_joined? {files : List Source.File} {name : String} {type : TypeDeclaration}
    (joined : joined? ((declaredAs files name).map (NameTable.ofFiles files).declaration) =
      some type) : type.fullName = name := by
  obtain ⟨first, later, parts, joins⟩ := exists_joins_of_joined? joined
  have member : first ∈ declaredAs files name := by
    rw [parts]
    exact List.mem_cons_self
  exact joins.fullName_eq.trans (fullName_of_mem_declaredAs member)

theorem joined?_of_mem {files : List Source.File} {type : TypeDeclaration}
    (member : type ∈ (assemble files).types) :
    joined? ((declaredAs files type.fullName).map (NameTable.ofFiles files).declaration) =
      some type := by
  have made : some type ∈ (assemble files).types.map some := List.mem_map_of_mem member
  rw [types_assemble, List.mem_map] at made
  obtain ⟨name, -, joined⟩ := made
  rwa [fullName_of_joined? joined]

theorem fullNames_assemble (files : List Source.File) :
    (assemble files).types.map TypeDeclaration.fullName =
      ((declared files).map Source.TypeDeclaration.fullName).eraseDups := by
  apply List.map_injective_iff.mpr (Option.some_injective String)
  have named := congrArg (List.map (Option.map TypeDeclaration.fullName)) (types_assemble files)
  rw [List.map_map, List.map_map] at named
  rw [List.map_map]
  refine named.trans (List.map_congr_left fun name known => ?_)
  obtain ⟨part, inside, same⟩ := List.mem_map.mp (List.mem_eraseDups.mp known)
  have there : part ∈ declaredAs files name :=
    List.mem_filter.mpr ⟨inside, beq_iff_eq.mpr same⟩
  cases joined : joined? ((declaredAs files name).map (NameTable.ofFiles files).declaration) with
  | none =>
      cases parts : declaredAs files name with
      | nil => simp [parts] at there
      | cons first later => simp [parts, joined?] at joined
  | some type => simp [joined, fullName_of_joined? joined]

theorem nodup_fullNames_assemble (files : List Source.File) :
    ((assemble files).types.map TypeDeclaration.fullName).Nodup := by
  rw [fullNames_assemble]
  exact FirstOccurrence.nodup_eraseDups _

theorem exists_unites_of_mem {files : List Source.File} {type : TypeDeclaration}
    (member : type ∈ (assemble files).types) :
    ∃ first later, declaredAs files type.fullName = first :: later ∧
      Unites (NameTable.ofFiles files) first later type := by
  obtain ⟨first, later, parts, joins⟩ := exists_joins_of_joined? (joined?_of_mem member)
  exact ⟨first, later, parts, joins.unites⟩

/-- The graph of source files has one type for each full name that they declare, in the order in
which the names are first declared. Each is found by its name and is made of all declarations of
that name. -/
theorem assemble_unites (files : List Source.File) :
    (assemble files).types.map TypeDeclaration.fullName =
        ((declared files).map Source.TypeDeclaration.fullName).eraseDups ∧
      ((assemble files).types.map TypeDeclaration.fullName).Nodup ∧
      ∀ type ∈ (assemble files).types,
        (assemble files).get? type.fullName = some type ∧
          ∃ first later, declaredAs files type.fullName = first :: later ∧
            Unites (NameTable.ofFiles files) first later type := by
  have distinct := nodup_fullNames_assemble files
  refine ⟨fullNames_assemble files, distinct, ?_⟩
  intro type member
  exact ⟨SymbolGraph.get?_fullName_of_nodup distinct member, exists_unites_of_mem member⟩

def homeScope : Source.Scope :=
  ⟨["Web"], [], ["Microsoft.AspNetCore.Mvc", "System"], []⟩

def homeMethod (name : String) : Source.Method :=
  { name, kind := .ordinary, isGeneric := false, modifiers := ["public"], attributes := [],
    parameters := [] }

/-- The first part of a class. -/
def homeOpening : Source.TypeDeclaration :=
  { Source.TypeDeclaration.plain homeScope "Home" with
    modifiers := ["partial"]
    bases := [.name [("IDisposable", [])]]
    attributes := [⟨"Area", [.constant (.string "Admin")]⟩]
    methods := [homeMethod "Index"] }

/-- Its other part, which makes it public and abstract and tells its base class. -/
def homeRest : Source.TypeDeclaration :=
  { homeOpening with
    modifiers := ["public", "abstract", "partial"]
    bases := [.name [("Controller", [])], .name [("IComparable", [])], .name [("IDisposable", [])]]
    attributes := [⟨"ApiController", []⟩]
    methods := [homeMethod "Edit", homeMethod "Index"] }

def homeFiles : List Source.File :=
  [{ globalUsings := [], types := [homeOpening] }, { globalUsings := [], types := [homeRest] }]

theorem assemble_unites_homeFiles :
    ∃ type ∈ (assemble homeFiles).types, (assemble homeFiles).get? "Web.Home" = some type ∧
      Unites (NameTable.ofFiles homeFiles) homeOpening [homeRest] type ∧
      type.isAbstract = true ∧ type.accessibility = .public ∧
      type.base? = some "Microsoft.AspNetCore.Mvc.Controller" ∧
      type.interfaces = ["System.IDisposable", "System.IComparable"] ∧
      type.attributes = [⟨"Microsoft.AspNetCore.Mvc.AreaAttribute", [.constant (.string "Admin")]⟩,
        ⟨"Microsoft.AspNetCore.Mvc.ApiControllerAttribute", []⟩] ∧
      type.methods.map MethodDeclaration.name = ["Index", "Edit", "Index"] := by
  have names : (assemble homeFiles).types.map TypeDeclaration.fullName = ["Web.Home"] := by
    decide +kernel
  obtain ⟨type, alone, named⟩ := List.map_eq_singleton_iff.mp names
  have member : type ∈ (assemble homeFiles).types := by simp [alone]
  obtain ⟨found, first, later, parts, unites⟩ := (assemble_unites homeFiles).2.2 type member
  rw [named] at found parts
  have both : declaredAs homeFiles "Web.Home" = [homeOpening, homeRest] := by
    have opening : (homeOpening.fullName == "Web.Home") = true := by decide +kernel
    have rest : (homeRest.fullName == "Web.Home") = true := by decide +kernel
    simp [declaredAs, declared, homeFiles, opening, rest]
  obtain ⟨rfl, rfl⟩ := List.cons.inj (both.symm.trans parts)
  refine ⟨type, member, found, unites, unites.isAbstract_iff.mpr ⟨homeRest, by simp, by decide⟩,
    unites.accessibility_eq.trans ?_, unites.base_eq.trans ?_, unites.interfaces_eq.trans ?_,
    unites.attributes_eq.trans ?_, ?_⟩
  · decide +kernel
  · decide +kernel
  · decide +kernel
  · decide +kernel
  · rw [unites.methods_eq]
    decide +kernel

end ActionAtlas.Names
