import ActionAtlas.Proofs.CSharp.Sites
import ActionAtlas.Proofs.Text.Cut

/-!
What a source file records of the declarations in it.

The walk through a file carries along what it has passed on its way down. Each step keeps this in
accord with what stands around the place where it is, so that nothing of one declaration gets into
the record of another.
-/

namespace ActionAtlas.CSharp

open Source (Scope)

/-! ### Names of namespaces -/

theorem colonsToStops_append (before after : List Char) :
    namespaceParts.colonsToStops (before ++ '.' :: after) =
      namespaceParts.colonsToStops before ++ '.' :: namespaceParts.colonsToStops after := by
  induction before using namespaceParts.colonsToStops.induct with
  | case1 rest ih => simp [namespaceParts.colonsToStops, ih]
  | case2 c rest single ih =>
      rw [List.cons_append, namespaceParts.colonsToStops, namespaceParts.colonsToStops, ih]
      · rfl
      · exact single
      · rintro more rfl same
        cases rest with
        | nil => cases same
        | cons next others =>
            cases same
            exact single others rfl rfl
  | case3 => simp [namespaceParts.colonsToStops]

theorem namespaceParts_append (outer inner : String) :
    namespaceParts (outer ++ "." ++ inner) = namespaceParts outer ++ namespaceParts inner := by
  have stop : ".".toList = ['.'] := rfl
  simp only [namespaceParts, String.toList_append, stop, List.append_assoc, List.singleton_append,
    colonsToStops_append]
  rw [Text.pieces_append, List.map_append, List.filterMap_append]

/-- What can stand between the dots of a name: an identifier, without blanks around it. -/
structure IsNamePart (part : String) : Prop where
  nonempty : part ≠ ""
  undivided : ∀ c ∈ part.toList, c ≠ '.' ∧ c ≠ ':'
  trimmed : Text.trim part.toList = part.toList

theorem colonsToStops_of_no_colon {text : List Char} (none : ∀ c ∈ text, c ≠ ':') :
    namespaceParts.colonsToStops text = text := by
  induction text with
  | nil => rfl
  | cons c rest ih =>
      rw [List.forall_mem_cons] at none
      rw [namespaceParts.colonsToStops, ih none.2]
      intro more colon
      exact absurd colon none.1

theorem IsNamePart.namespaceParts_eq {part : String} (isPart : IsNamePart part) :
    namespaceParts part = [part] := by
  have single : Text.pieces '.' part.toList = [part.toList] :=
    Text.pieces_of_not_mem fun inside => (isPart.undivided '.' inside).1 rfl
  have visible : part.toList ≠ [] := by simpa using isPart.nonempty
  rw [namespaceParts, colonsToStops_of_no_colon fun c inside => (isPart.undivided c inside).2]
  simp [single, isPart.trimmed, visible]

theorem namespaceParts_dotted {parts : List String} (all : ∀ part ∈ parts, IsNamePart part) :
    namespaceParts (Text.dotted parts) = parts := by
  induction parts with
  | nil => rfl
  | cons first rest ih =>
      rw [List.forall_mem_cons] at all
      cases rest with
      | nil => exact all.1.namespaceParts_eq
      | cons second others =>
          rw [Text.dotted, String.intercalate_cons_cons, namespaceParts_append,
            all.1.namespaceParts_eq]
          exact congrArg (first :: ·) (ih all.2)

/-! ### Scopes -/

namespace Using

/-- The namespace that a directive opens. -/
def opened? (directive : Using) : Option String :=
  if directive.isStatic || directive.target.isEmpty then none
  else if directive.alias?.isSome then none
  else some (Tree.dropGlobalQualifier directive.target)

/-- The name that a directive gives to something else. -/
def aliased? (directive : Using) : Option (String × String) :=
  if directive.isStatic || directive.target.isEmpty then none
  else
    directive.alias?.bind fun name =>
      if name.isEmpty || name == directive.target then none
      else some (name, Tree.dropGlobalQualifier directive.target)

theorem apply_eq (scope : Scope) (directive : Using) :
    apply scope directive =
      { scope with
        usings := scope.usings ++ directive.opened?.toList
        aliases := scope.aliases ++ directive.aliased?.toList } := by
  rw [apply, opened?, aliased?]
  by_cases nothing : (directive.isStatic || directive.target.isEmpty) = true
  · simp only [if_pos nothing, Option.toList_none, List.append_nil]
  · rw [if_neg nothing, if_neg nothing, if_neg nothing]
    cases directive.alias? with
    | none => simp
    | some name =>
        simp only [Option.isSome_some, if_true, Option.bind_some]
        split <;> simp

theorem foldl_apply (directives : List Using) (scope : Scope) :
    directives.foldl apply scope =
      { scope with
        usings := scope.usings ++ directives.filterMap opened?
        aliases := scope.aliases ++ directives.filterMap aliased? } := by
  induction directives generalizing scope with
  | nil => simp
  | cons directive others ih =>
      rw [List.foldl_cons, ih, apply_eq]
      cases opened : directive.opened? <;> cases aliased : directive.aliased? <;>
        simp [opened, aliased]

end Using

namespace Container

def namespaceParts : Container → List String
  | .namespaceBlock name _ => CSharp.namespaceParts name
  | .type _ _ => []

def typeHead? : Container → Option TypeHead
  | .namespaceBlock _ _ => none
  | .type head _ => some head

/-- Directives that count inside. Those that stand in the body of a type do not. -/
def directives : Container → List Using
  | .namespaceBlock _ body => body.filterMap Member.using?
  | .type _ _ => []

end Container

/-- The namespace of a whole file, which is the last that it states. -/
def fileNamespaceParts (unit : List Member) : List String :=
  ((unit.filterMap Member.fileNamespace?).getLast?.map namespaceParts).getD []

def typeHeads (around : List Container) : List TypeHead :=
  around.filterMap Container.typeHead?

/-- The directives of a file and of the namespaces on the way in, outermost first. -/
def directivesAround (unit : List Member) (around : List Container) : List Using :=
  unit.filterMap Member.using? ++ around.flatMap Container.directives

/-- The scope of a place in so many namespaces and types, to which these directives apply. -/
def scopeOf (parts enclosing : List String) (directives : List Using) : Scope where
  namespaceParts := parts
  enclosing
  usings := directives.filterMap Using.opened?
  aliases := directives.filterMap Using.aliased?

/-- What a name can see that is written in a place of a file. -/
def scopeAt (unit : List Member) (around : List Container) : Scope :=
  scopeOf (fileNamespaceParts unit ++ around.flatMap Container.namespaceParts)
    ((typeHeads around).map TypeHead.name) (directivesAround unit around)

/-! ### Methods -/

section

variable {α β : Type} {full part : α → Option β}

theorem length_filterMap_le (narrower : ∀ item, part item = full item ∨ part item = none)
    (items : List α) : (items.filterMap part).length ≤ (items.filterMap full).length := by
  induction items with
  | nil => exact Nat.le_refl 0
  | cons item others ih =>
      rw [List.filterMap_cons, List.filterMap_cons]
      rcases narrower item with same | nothing
      · rw [same]
        cases full item with
        | none => exact ih
        | some value => exact Nat.succ_le_succ ih
      · rw [nothing]
        cases full item with
        | none => exact ih
        | some value => exact Nat.le_succ_of_le ih

theorem filterMap_eq_filterMap_iff (narrower : ∀ item, part item = full item ∨ part item = none)
    (items : List α) :
    items.filterMap full = items.filterMap part ↔ ∀ item ∈ items, full item = part item := by
  constructor
  · intro same
    induction items with
    | nil => simp
    | cons item others ih =>
        rw [List.filterMap_cons, List.filterMap_cons] at same
        have here : full item = part item := by
          rcases narrower item with equal | nothing
          · exact equal.symm
          · rw [nothing] at same ⊢
            cases given : full item with
            | none => rfl
            | some value =>
                have shorter := length_filterMap_le narrower others
                rw [given] at same
                have lengths := congrArg List.length same
                simp only [List.length_cons] at lengths
                omega
        rw [List.forall_mem_cons]
        refine ⟨here, ih ?_⟩
        rw [here] at same
        cases given : part item with
        | none => simpa only [given] using same
        | some value => simpa only [given, List.cons.injEq, true_and] using same
  · exact List.filterMap_congr

end

/-- A method that stands in the body of a type for its own sake. -/
def Member.ownMethod? : Member → Option Source.Method
  | .method declared isExplicit => if isExplicit then none else some declared
  | _ => none

/-- Explicit implementations get among the methods of a type if they are no ordinary methods. -/
theorem filterMap_method?_eq_iff (body : List Member) :
    body.filterMap Member.method? = body.filterMap Member.ownMethod? ↔
      ∀ declared, .method declared true ∈ body → declared.kind = .ordinary := by
  rw [filterMap_eq_filterMap_iff]
  · constructor
    · intro same declared member
      by_contra special
      simpa [Member.method?, Member.ownMethod?, special] using same _ member
    · intro ordinary member inside
      cases member with
      | method declared isExplicit =>
          cases isExplicit with
          | false => simp [Member.method?, Member.ownMethod?]
          | true => simp [Member.method?, Member.ownMethod?, ordinary declared inside]
      | _ => rfl
  · intro member
    cases member with
    | method declared isExplicit => cases isExplicit <;> simp [Member.method?, Member.ownMethod?]
    | _ => exact .inl rfl

/-! ### Records -/

theorem ofModifiers_eq_public_iff {absent : Accessibility} (hidden : absent ≠ .public)
    (modifiers : List String) :
    Accessibility.ofModifiers absent modifiers = .public ↔ "public" ∈ modifiers := by
  by_cases stated : "public" ∈ modifiers
  · simp [Accessibility.ofModifiers, stated]
  · simp only [Accessibility.ofModifiers, List.contains_iff_mem, stated, if_false, iff_false]
    split_ifs <;> first | exact hidden | nofun

theorem accessibility_eq_public_iff (type : Source.TypeDeclaration) :
    type.accessibility = .public ↔ "public" ∈ type.modifiers ∧ type.enclosingPublic = true := by
  have hidden : (if type.scope.enclosing.isEmpty then .internal else .private : Accessibility) ≠
      .public := by
    split <;> nofun
  rw [← ofModifiers_eq_public_iff hidden, Source.TypeDeclaration.accessibility]
  generalize Accessibility.ofModifiers _ type.modifiers = declared
  by_cases isPublic : declared = .public
  · cases type.enclosingPublic <;> simp [isPublic]
  · simp [isPublic]

/-- The record of a type declaration in a file, by its own text and by what stands around it. -/
structure IsRecord (unit : List Member) (around : List Container) (head : TypeHead)
    (body : List Member) (type : Source.TypeDeclaration) : Prop where
  name : type.name = head.name
  kind : type.kind = head.kind
  modifiers : type.modifiers = head.modifiers
  bases : type.bases = head.bases
  attributes : type.attributes = head.attributes
  scope : type.scope = scopeAt unit around
  accessibility : type.accessibility = .public ↔
    ∀ declared ∈ head :: typeHeads around, "public" ∈ declared.modifiers
  isGeneric : type.isGeneric = true ↔
    ∃ declared ∈ head :: typeHeads around, declared.hasTypeParameters = true
  methods : type.methods = body.filterMap Member.method?
  methods_eq_iff : type.methods = body.filterMap Member.ownMethod? ↔
    ∀ declared, .method declared true ∈ body → declared.kind = .ordinary

/-- What a walk carries along is what stands around. -/
structure Surroundings.Reflect (unit : List Member) (around : List Container)
    (carried : Surroundings) : Prop where
  scope : carried.scope = scopeAt unit around
  isPublic : carried.isPublic = true ↔ ∀ head ∈ typeHeads around, "public" ∈ head.modifiers
  isGeneric : carried.isGeneric = true ↔ ∃ head ∈ typeHeads around, head.hasTypeParameters = true

namespace Surroundings

variable {unit : List Member} {around : List Container} {carried : Surroundings}

theorem reflect_outermost (unit : List Member) :
    ((outermost.withUsings unit).withFileNamespace unit).Reflect unit [] := by
  constructor
  · rw [withFileNamespace, scopeAt, scopeOf, fileNamespaceParts, directivesAround]
    cases (unit.filterMap Member.fileNamespace?).getLast? <;>
      simp [withUsings, outermost, Using.foldl_apply, Scope.empty, typeHeads]
  · rw [withFileNamespace]
    cases (unit.filterMap Member.fileNamespace?).getLast? <;>
      simp [withUsings, outermost, typeHeads]
  · rw [withFileNamespace]
    cases (unit.filterMap Member.fileNamespace?).getLast? <;>
      simp [withUsings, outermost, typeHeads]

theorem Reflect.isRecord (reflect : carried.Reflect unit around) (head : TypeHead)
    (body : List Member) : IsRecord unit around head body (carried.declare head body) where
  name := rfl
  kind := rfl
  modifiers := rfl
  bases := rfl
  attributes := rfl
  scope := reflect.scope
  accessibility := by
    rw [accessibility_eq_public_iff, List.forall_mem_cons, ← reflect.isPublic]
    rfl
  isGeneric := by
    rw [declare, Bool.or_eq_true, reflect.isGeneric, or_comm]
    simp
  methods := rfl
  methods_eq_iff := filterMap_method?_eq_iff body

theorem Reflect.inNamespace (reflect : carried.Reflect unit around) (name : String)
    (body : List Member) :
    ((carried.inNamespace name).withUsings body).Reflect unit
      (around ++ [.namespaceBlock name body]) := by
  have heads : typeHeads (around ++ [.namespaceBlock name body]) = typeHeads around := by
    simp [typeHeads, Container.typeHead?]
  constructor
  · simp [withUsings, Surroundings.inNamespace, Using.foldl_apply, reflect.scope, scopeAt, scopeOf,
      heads, directivesAround, Container.namespaceParts, Container.directives]
  · rw [heads]
    exact reflect.isPublic
  · rw [heads]
    exact reflect.isGeneric

theorem Reflect.inType (reflect : carried.Reflect unit around) (head : TypeHead)
    (body : List Member) :
    (carried.inType (carried.declare head body)).Reflect unit (around ++ [.type head body]) := by
  have record := reflect.isRecord head body
  have heads : typeHeads (around ++ [.type head body]) = typeHeads around ++ [head] := by
    simp [typeHeads, Container.typeHead?]
  constructor
  · simp [Surroundings.inType, Scope.enter, reflect.scope, scopeAt, scopeOf, heads,
      directivesAround, Container.namespaceParts, Container.directives, declare]
  · rw [heads, Surroundings.inType, beq_iff_eq, record.accessibility]
    simp [or_imp, forall_and, and_comm]
  · rw [heads, Surroundings.inType, record.isGeneric]
    simp [or_and_right, exists_or, or_comm]

end Surroundings

/-! ### The walk -/

mutual

theorem records_sites (member : Member) {unit : List Member} {around : List Container}
    {carried : Surroundings} (reflect : carried.Reflect unit around) (index : Nat) :
    List.Forall₂
      (fun site type => IsRecord unit (around ++ site.around) site.head site.body type)
      (member.sites index) (member.types carried) := by
  match member with
  | .namespaceBlock name body =>
      have inside := records_sitesIn body (reflect.inNamespace name body) 0
      rw [Member.sites, Member.types, List.forall₂_map_left_iff]
      simp only [List.append_assoc] at inside
      exact inside
  | .type head body =>
      have inside := records_sitesIn body (reflect.inType head body) 0
      rw [Member.sites, Member.types]
      constructor
      · rw [List.append_nil]
        exact reflect.isRecord head body
      · rw [List.forall₂_map_left_iff]
        simp only [List.append_assoc] at inside
        exact inside
  | .using _ => exact .nil
  | .fileNamespace _ => exact .nil
  | .method _ _ => exact .nil
  | .other => exact .nil

theorem records_sitesIn (members : List Member) {unit : List Member} {around : List Container}
    {carried : Surroundings} (reflect : carried.Reflect unit around) (start : Nat) :
    List.Forall₂
      (fun site type => IsRecord unit (around ++ site.around) site.head site.body type)
      (Member.sitesIn start members) (Member.typesIn carried members) := by
  match members with
  | [] => exact .nil
  | member :: others =>
      exact List.rel_append (records_sites member reflect start)
        (records_sitesIn others reflect (start + 1))

end

/-- A file has one record for each type declaration in it, in the order of their positions. A
record has the namespaces and types around the declaration, and the methods of its own body. The
parts of a namespace are those that its name was put together from. -/
theorem collect_records_sites (unit : List Member) :
    (∃ sites : List Site,
      (∀ site, site ∈ sites ↔ site.StandsIn unit) ∧
      sites.Pairwise (fun first second => first.position < second.position) ∧
      List.Forall₂ (fun site type => IsRecord unit site.around site.head site.body type) sites
        (collect unit).types) ∧
    ∀ parts, (∀ part ∈ parts, IsNamePart part) → namespaceParts (Text.dotted parts) = parts := by
  refine ⟨⟨Member.sitesIn 0 unit, fun _ => Member.mem_sitesIn_iff,
    (Member.areOrderedFrom_sitesIn unit 0).pairwise, ?_⟩, fun _ => namespaceParts_dotted⟩
  exact records_sitesIn unit (Surroundings.reflect_outermost unit) 0

def plusOperator : Source.Method where
  name := "op_operator_declaration"
  kind := .operator
  isGeneric := false
  modifiers := ["static"]
  attributes := []
  parameters := []

/-- A class that implements the operator of an interface explicitly, and a class inside it. -/
def amountMembers : List Member :=
  [.namespaceBlock "Acme.Trade"
    [.type ⟨"Amount", .class, ["public"], false, [], []⟩
      [.method plusOperator true, .type ⟨"Unit", .enum, ["public"], false, [], []⟩ []]]]

theorem collect_records_sites_amountMembers :
    (∃ sites : List Site,
      (∀ site, site ∈ sites ↔ site.StandsIn amountMembers) ∧
      sites.Pairwise (fun first second => first.position < second.position) ∧
      List.Forall₂ (fun site type => IsRecord amountMembers site.around site.head site.body type)
        sites (collect amountMembers).types) ∧
    (∀ part ∈ ["Acme", "Trade"], IsNamePart part) ∧
    namespaceParts (Text.dotted ["Acme", "Trade"]) = ["Acme", "Trade"] ∧
    (collect amountMembers).types.map Source.TypeDeclaration.methods = [[plusOperator], []] := by
  have parts : ∀ part ∈ ["Acme", "Trade"], IsNamePart part := by
    intro part inside
    rcases List.mem_pair.mp inside with rfl | rfl
    · exact ⟨by decide, by simp, rfl⟩
    · exact ⟨by decide, by simp, rfl⟩
  obtain ⟨sites, names⟩ := collect_records_sites amountMembers
  exact ⟨sites, parts, names _ parts, rfl⟩

end ActionAtlas.CSharp
