import ActionAtlas.Proofs.CSharp.Records

/-!
How a namespace is written, and where in a body its using directives stand, makes no difference.

A namespace with a dotted name, namespaces inside each other and a namespace for the whole file lead
to the same surroundings of what is declared there. Moving one directive past one other member
leaves alike all that a file or what is around can see of a body, and so does any number of moves.
-/

namespace ActionAtlas.CSharp

/-! ### Members in a row -/

namespace Member

theorem typesIn_append (carried : Surroundings) (before after : List Member) :
    typesIn carried (before ++ after) = typesIn carried before ++ typesIn carried after := by
  induction before with
  | nil => rfl
  | cons member others ih => rw [List.cons_append, typesIn, typesIn, ih, List.append_assoc]

theorem innerGlobalUsingsIn_append (before after : List Member) :
    innerGlobalUsingsIn (before ++ after) =
      innerGlobalUsingsIn before ++ innerGlobalUsingsIn after := by
  induction before with
  | nil => rfl
  | cons member others ih =>
      rw [List.cons_append, innerGlobalUsingsIn, innerGlobalUsingsIn, ih, List.append_assoc]

section

variable (directives : List Using)

theorem typesIn_usings (carried : Surroundings) : typesIn carried (directives.map .using) = [] := by
  induction directives with
  | nil => rfl
  | cons directive others ih => rw [List.map_cons, typesIn, ih, types, List.nil_append]

theorem innerGlobalUsingsIn_usings : innerGlobalUsingsIn (directives.map .using) = [] := by
  induction directives with
  | nil => rfl
  | cons directive others ih =>
      rw [List.map_cons, innerGlobalUsingsIn, ih, innerGlobalUsings, List.nil_append]

theorem filterMap_using?_usings : (directives.map .using).filterMap using? = directives := by
  rw [List.filterMap_map]
  exact List.filterMap_some

theorem filterMap_fileNamespace?_usings :
    (directives.map .using).filterMap fileNamespace? = [] := by
  rw [List.filterMap_map, List.filterMap_eq_nil_iff]
  exact fun _ _ => rfl

end

end Member

/-! ### What can be seen of members -/

/-- The surroundings of what stands in a file with these directives and namespaces. -/
def atTop (directives : List Using) (names : List String) : Surroundings where
  scope := scopeOf ((names.getLast?.map namespaceParts).getD []) [] directives
  isPublic := true
  isGeneric := false

/-- All that a file takes from its members. -/
structure Shows (members : List Member) (directives : List Using) (names globalUsings : List String)
    (types : Surroundings → List Source.TypeDeclaration) : Prop where
  usings : members.filterMap Member.using? = directives
  fileNamespaces : members.filterMap Member.fileNamespace? = names
  innerGlobalUsings : Member.innerGlobalUsingsIn members = globalUsings
  types : ∀ carried, Member.typesIn carried members = types carried

theorem Shows.collect_eq {unit : List Member} {directives : List Using}
    {names globalUsings : List String} {types : Surroundings → List Source.TypeDeclaration}
    (shows : Shows unit directives names globalUsings types) :
    collect unit =
      { globalUsings := directives.filterMap Using.global? ++ globalUsings
        types := types (atTop directives names) } := by
  have top : (Surroundings.outermost.withUsings unit).withFileNamespace unit =
      atTop directives names := by
    rw [Surroundings.withFileNamespace, Surroundings.withUsings, shows.fileNamespaces, shows.usings,
      Using.foldl_apply]
    cases given : names.getLast? <;>
      simp [atTop, scopeOf, given, Surroundings.outermost, Source.Scope.empty]
  rw [collect, top, shows.types, shows.usings, shows.innerGlobalUsings]

/-- What a file and what is around can see of some members. -/
structure Alike (members others : List Member) : Prop where
  usings : members.filterMap Member.using? = others.filterMap Member.using?
  fileNamespaces : members.filterMap Member.fileNamespace? = others.filterMap Member.fileNamespace?
  methods : members.filterMap Member.method? = others.filterMap Member.method?
  types : ∀ carried, Member.typesIn carried members = Member.typesIn carried others
  globalUsings : Member.innerGlobalUsingsIn members = Member.innerGlobalUsingsIn others

theorem Alike.collect_eq {unit other : List Member} (alike : Alike unit other) :
    collect unit = collect other := by
  simp only [collect, Surroundings.withUsings, Surroundings.withFileNamespace, alike.usings,
    alike.fileNamespaces, alike.types, alike.globalUsings]

/-- A member between others can be replaced by one of which the same can be seen. -/
theorem alike_of_member (before after : List Member) {member next : Member}
    (using?_eq : member.using? = next.using?)
    (fileNamespace?_eq : member.fileNamespace? = next.fileNamespace?)
    (method?_eq : member.method? = next.method?)
    (types_eq : ∀ carried, member.types carried = next.types carried)
    (innerGlobalUsings_eq : member.innerGlobalUsings = next.innerGlobalUsings) :
    Alike (before ++ member :: after) (before ++ next :: after) where
  usings := by simp only [List.filterMap_append, List.filterMap_cons, using?_eq]
  fileNamespaces := by simp only [List.filterMap_append, List.filterMap_cons, fileNamespace?_eq]
  methods := by simp only [List.filterMap_append, List.filterMap_cons, method?_eq]
  types carried := by
    rw [Member.typesIn_append, Member.typesIn_append, Member.typesIn, Member.typesIn, types_eq]
  globalUsings := by
    rw [Member.innerGlobalUsingsIn_append, Member.innerGlobalUsingsIn_append,
      Member.innerGlobalUsingsIn, Member.innerGlobalUsingsIn, innerGlobalUsings_eq]

/-! ### Notation -/

section

variable (outer inner : List Using) (declarations : List Member) (first second : String)

/-- A namespace with a dotted name, directives in front of it and inside. -/
def asBlock : List Member :=
  outer.map .using ++
    [.namespaceBlock (first ++ "." ++ second) (inner.map .using ++ declarations)]

def asNestedBlocks : List Member :=
  outer.map .using ++
    [.namespaceBlock first [.namespaceBlock second (inner.map .using ++ declarations)]]

/-- The namespace is that of the whole file. -/
def asFile : List Member :=
  outer.map .using ++
    .fileNamespace (first ++ "." ++ second) :: (inner.map .using ++ declarations)

end

/-- Neither a directive nor a namespace for a whole file. -/
structure Member.IsDeclaration (member : Member) : Prop where
  noUsing : member.using? = none
  noFileNamespace : member.fileNamespace? = none

section

variable {outer inner : List Using} {declarations : List Member} {first second : String}

theorem inNamespace_inNamespace (carried : Surroundings) (first second : String) :
    (carried.inNamespace first).inNamespace second =
      carried.inNamespace (first ++ "." ++ second) := by
  simp [Surroundings.inNamespace, namespaceParts_append]

theorem collect_asNestedBlocks :
    collect (asNestedBlocks outer inner declarations first second) =
      collect (asBlock outer inner declarations first second) := by
  apply Alike.collect_eq
  refine alike_of_member (outer.map .using) [] rfl rfl rfl ?_ ?_
  · intro carried
    -- the outer body holds no directives, so only the names come together
    have unopened (body : List Member) :
        (carried.inNamespace first).withUsings [.namespaceBlock second body] =
          carried.inNamespace first := rfl
    simp only [Member.types, Member.typesIn, List.append_nil, unopened, inNamespace_inNamespace]
  · simp [Member.innerGlobalUsings, Member.innerGlobalUsingsIn, Member.using?]

theorem filterMap_using?_inside (plain : ∀ member ∈ declarations, member.IsDeclaration) :
    (inner.map Member.using ++ declarations).filterMap Member.using? = inner := by
  have noUsing : declarations.filterMap Member.using? = [] :=
    List.filterMap_eq_nil_iff.mpr fun member inside => (plain member inside).noUsing
  rw [List.filterMap_append, Member.filterMap_using?_usings, noUsing, List.append_nil]

theorem shows_asFile (plain : ∀ member ∈ declarations, member.IsDeclaration) :
    Shows (asFile outer inner declarations first second) (outer ++ inner)
      [first ++ "." ++ second] (Member.innerGlobalUsingsIn declarations)
      fun carried => Member.typesIn carried declarations where
  usings := by
    rw [asFile, List.filterMap_append, List.filterMap_cons_none rfl, filterMap_using?_inside plain,
      Member.filterMap_using?_usings]
  fileNamespaces := by
    have noFileNamespace : declarations.filterMap Member.fileNamespace? = [] :=
      List.filterMap_eq_nil_iff.mpr fun member inside => (plain member inside).noFileNamespace
    simp only [asFile, List.filterMap_append, Member.filterMap_fileNamespace?_usings,
      List.filterMap_cons, Member.fileNamespace?, noFileNamespace, List.append_nil, List.nil_append]
  innerGlobalUsings := by
    simp only [asFile, Member.innerGlobalUsingsIn_append, Member.innerGlobalUsingsIn_usings,
      Member.innerGlobalUsingsIn, Member.innerGlobalUsings, List.nil_append]
  types carried := by
    simp only [asFile, Member.typesIn_append, Member.typesIn_usings, Member.typesIn, Member.types,
      List.nil_append]

theorem shows_asBlock (plain : ∀ member ∈ declarations, member.IsDeclaration) :
    Shows (asBlock outer inner declarations first second) outer []
      (inner.filterMap Using.global? ++ Member.innerGlobalUsingsIn declarations)
      fun carried => Member.typesIn ((carried.inNamespace (first ++ "." ++ second)).withUsings
        (inner.map Member.using ++ declarations)) declarations where
  usings := by
    simp only [asBlock, List.filterMap_append, Member.filterMap_using?_usings, List.filterMap_cons,
      Member.using?, List.filterMap_nil, List.append_nil]
  fileNamespaces := by
    simp only [asBlock, List.filterMap_append, Member.filterMap_fileNamespace?_usings,
      List.filterMap_cons, Member.fileNamespace?, List.filterMap_nil, List.append_nil]
  innerGlobalUsings := by
    simp only [asBlock, Member.innerGlobalUsingsIn_append, Member.innerGlobalUsingsIn_usings,
      Member.innerGlobalUsingsIn, Member.innerGlobalUsings, List.nil_append, List.append_nil]
    rw [filterMap_using?_inside plain]
  types carried := by
    simp only [asBlock, Member.typesIn_append, Member.typesIn_usings, Member.typesIn, Member.types,
      List.nil_append, List.append_nil]

theorem collect_asFile (plain : ∀ member ∈ declarations, member.IsDeclaration) :
    collect (asFile outer inner declarations first second) =
      collect (asBlock outer inner declarations first second) := by
  have same : ((atTop outer []).inNamespace (first ++ "." ++ second)).withUsings
      (inner.map Member.using ++ declarations) =
        atTop (outer ++ inner) [first ++ "." ++ second] := by
    rw [Surroundings.withUsings, filterMap_using?_inside plain, Using.foldl_apply]
    simp [atTop, scopeOf, Surroundings.inNamespace]
  rw [(shows_asFile plain).collect_eq, (shows_asBlock plain).collect_eq, same,
    List.filterMap_append, List.append_assoc]

end

/-! ### Moves -/

/-- One directive is moved past one other member, in a file or inside of one of its members. -/
inductive Moves : List Member → List Member → Prop where
  | past (before after : List Member) (directive : Using) {member : Member}
      (noUsing : member.using? = none) :
      Moves (before ++ .using directive :: member :: after)
        (before ++ member :: .using directive :: after)
  | inNamespace (before after : List Member) (name : String) {body moved : List Member}
      (inside : Moves body moved) :
      Moves (before ++ .namespaceBlock name body :: after)
        (before ++ .namespaceBlock name moved :: after)
  | inType (before after : List Member) (head : TypeHead) {body moved : List Member}
      (inside : Moves body moved) :
      Moves (before ++ .type head body :: after) (before ++ .type head moved :: after)

theorem alike_past (before after : List Member) (directive : Using) {member : Member}
    (noUsing : member.using? = none) :
    Alike (before ++ .using directive :: member :: after)
      (before ++ member :: .using directive :: after) where
  usings := by
    have given : (Member.using directive).using? = some directive := rfl
    simp only [List.filterMap_append, List.filterMap_cons, noUsing, given]
  fileNamespaces := by
    have none : (Member.using directive).fileNamespace? = none := rfl
    simp only [List.filterMap_append, List.filterMap_cons, none]
  methods := by
    have none : (Member.using directive).method? = none := rfl
    simp only [List.filterMap_append, List.filterMap_cons, none]
  types carried := by
    simp only [Member.typesIn_append, Member.typesIn, Member.types, List.nil_append]
  globalUsings := by
    simp only [Member.innerGlobalUsingsIn_append, Member.innerGlobalUsingsIn,
      Member.innerGlobalUsings, List.nil_append]

theorem Moves.alike {members moved : List Member} (moves : Moves members moved) :
    Alike members moved := by
  induction moves with
  | past before after directive noUsing => exact alike_past before after directive noUsing
  | inNamespace before after name inside ih =>
      refine alike_of_member before after rfl rfl rfl ?_ ?_
      · intro carried
        rw [Member.types, Member.types, Surroundings.withUsings, ih.usings, ih.types]
        rfl
      · rw [Member.innerGlobalUsings, Member.innerGlobalUsings, ih.usings, ih.globalUsings]
  | inType before after head inside ih =>
      refine alike_of_member before after rfl rfl rfl ?_ ?_
      · intro carried
        rw [Member.types, Member.types, Surroundings.declare, Surroundings.declare, ih.methods]
        simp only [ih.types]
      · rw [Member.innerGlobalUsings, Member.innerGlobalUsings, ih.globalUsings]

/-- Any number of moves, forth and back. -/
theorem collect_eq_of_moves {unit moved : List Member} (moves : Relation.EqvGen Moves unit moved) :
    collect unit = collect moved := by
  induction moves with
  | rel unit moved move => exact move.alike.collect_eq
  | refl unit => rfl
  | symm unit moved _ ih => exact ih.symm
  | trans unit middle moved _ _ ih further => exact ih.trans further

/-- The three notations of a namespace, and files that differ in the position of directives, are
collected alike: the scope of a declaration is made of the namespaces and types around it and of the
directives that count there. -/
theorem collect_ignores_notation_and_position :
    (∀ (outer inner : List Using) (declarations : List Member) (first second : String),
      (∀ member ∈ declarations, member.IsDeclaration) →
      collect (asNestedBlocks outer inner declarations first second) =
          collect (asBlock outer inner declarations first second) ∧
        collect (asFile outer inner declarations first second) =
          collect (asBlock outer inner declarations first second)) ∧
      (∀ unit moved, Relation.EqvGen Moves unit moved → collect unit = collect moved) ∧
      ∀ unit, ∃ sites : List Site, (∀ site, site ∈ sites ↔ site.StandsIn unit) ∧
        List.Forall₂ (fun site type => type.scope = scopeAt unit site.around) sites
          (collect unit).types := by
  refine ⟨?_, fun unit moved => collect_eq_of_moves, ?_⟩
  · intro outer inner declarations first second plain
    exact ⟨collect_asNestedBlocks, collect_asFile plain⟩
  · intro unit
    refine ⟨Member.sitesIn 0 unit, fun _ => Member.mem_sitesIn_iff, ?_⟩
    have records := records_sitesIn unit (Surroundings.reflect_outermost unit) 0
    exact records.imp fun site type record => record.scope

def dataUsing : Using := ⟨true, false, none, "Acme.Data"⟩

def startAlias : Using := ⟨false, false, some "Home", "Acme.Start"⟩

/-- A class with another one inside. -/
def shopMembers : List Member :=
  [.type ⟨"Shop", .class, ["public"], false, [], []⟩
    [.type ⟨"Cart", .class, ["public"], false, [], []⟩ []]]

theorem collect_ignores_notation_and_position_shop :
    (∀ member ∈ shopMembers, member.IsDeclaration) ∧
      Relation.EqvGen Moves (.using dataUsing :: shopMembers) (shopMembers ++ [.using dataUsing]) ∧
      collect (asNestedBlocks [dataUsing] [startAlias] shopMembers "Acme" "Web") =
        collect (asBlock [dataUsing] [startAlias] shopMembers "Acme" "Web") ∧
      collect (asFile [dataUsing] [startAlias] shopMembers "Acme" "Web") =
        collect (asBlock [dataUsing] [startAlias] shopMembers "Acme" "Web") ∧
      collect (.using dataUsing :: shopMembers) = collect (shopMembers ++ [.using dataUsing]) := by
  have plain : ∀ member ∈ shopMembers, member.IsDeclaration := by
    intro member inside
    rw [List.mem_singleton.mp inside]
    exact ⟨rfl, rfl⟩
  have moves : Relation.EqvGen Moves (.using dataUsing :: shopMembers)
      (shopMembers ++ [.using dataUsing]) :=
    .rel _ _ (.past [] [] dataUsing rfl)
  obtain ⟨written_eq, position_eq, -⟩ := collect_ignores_notation_and_position
  obtain ⟨nested, file⟩ := written_eq [dataUsing] [startAlias] shopMembers "Acme" "Web" plain
  exact ⟨plain, moves, nested, file, position_eq _ _ moves⟩

end ActionAtlas.CSharp
