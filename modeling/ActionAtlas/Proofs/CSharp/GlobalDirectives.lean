import ActionAtlas.Proofs.CSharp.Nearness

/-!
Directives that are meant for all files. Those that open a namespace are kept in one list, in the
order of the files, and a name that a scope leaves open is looked for in these namespaces. An alias
has no place in the list, so it is in effect in its own file alone.
-/

namespace ActionAtlas.CSharp

open Names (IsFirst NameTable Unaliased candidatesInNamespaces candidatesInTypes expandAlias?
  firstSegment furtherSegments isWellKnown)
open Source (Scope)

/-! ### The directives of a file -/

namespace Member

mutual

def innerDirectives : Member → List Using
  | .namespaceBlock _ body => body.filterMap using? ++ innerDirectivesIn body
  | .type _ body => innerDirectivesIn body
  | .using _ => []
  | .fileNamespace _ => []
  | .method _ _ => []
  | .other => []

def innerDirectivesIn : List Member → List Using
  | [] => []
  | member :: others => member.innerDirectives ++ innerDirectivesIn others

end

mutual

theorem innerGlobalUsings_eq (member : Member) :
    member.innerGlobalUsings = member.innerDirectives.filterMap Using.global? := by
  match member with
  | .namespaceBlock name body =>
      rw [innerGlobalUsings, innerDirectives, List.filterMap_append, innerGlobalUsingsIn_eq body]
  | .type head body => rw [innerGlobalUsings, innerDirectives, innerGlobalUsingsIn_eq body]
  | .using _ => rfl
  | .fileNamespace _ => rfl
  | .method _ _ => rfl
  | .other => rfl

theorem innerGlobalUsingsIn_eq (members : List Member) :
    innerGlobalUsingsIn members = (innerDirectivesIn members).filterMap Using.global? := by
  match members with
  | [] => rfl
  | member :: others =>
      rw [innerGlobalUsingsIn, innerDirectivesIn, List.filterMap_append,
        innerGlobalUsings_eq member, innerGlobalUsingsIn_eq others]

end

end Member

/-- All directives of a file that count somewhere, at any depth. -/
def directivesOf (unit : List Member) : List Using :=
  unit.filterMap Member.using? ++ Member.innerDirectivesIn unit

theorem globalUsings_collect (unit : List Member) :
    (collect unit).globalUsings = (directivesOf unit).filterMap Using.global? := by
  rw [collect, directivesOf, List.filterMap_append, Member.innerGlobalUsingsIn_eq]

theorem Using.global?_of_opened? {directive : Using} {target : String}
    (isGlobal : directive.isGlobal = true) (opens : directive.opened? = some target) :
    directive.global? = some target := by
  unfold Using.opened? at opens
  unfold Using.global?
  split at opens
  · cases opens
  · next readable =>
    split at opens
    · cases opens
    · next unnamed =>
      simp_all

/-! ### Names left open -/

/-- The namespace has a type of this name. -/
def has (table : NameTable) (written outer : String) : Bool :=
  table.declares (qualify outer written) || isWellKnown (qualify outer written)

/-- The table of the files that these units make. -/
def tableOf (units : List (List Member)) : NameTable :=
  NameTable.ofFiles (units.map collect)

/-- The namespaces that are opened for all files, in their order. -/
def openedForAll (units : List (List Member)) : List String :=
  (units.flatMap directivesOf).filterMap Using.global?

/-- What the namespaces opened for all files make of a name. -/
def meaningForAll (units : List (List Member)) (written : String) : String :=
  (((openedForAll units).find? (has (tableOf units) written)).map (qualify · written)).getD written

/-- Nothing in the scope itself says what the name stands for. -/
structure LeftToGlobals (table : NameTable) (scope : Scope) (written : String) : Prop where
  toUsings : LeftToUsings table scope written
  unopened : ∀ outer ∈ scope.usings, has table written outer = false

/-- The directive is what makes the name stand for a full name in a scope. -/
inductive ResolvesThrough (table : NameTable) (scope : Scope) (written : String)
    (directive : Using) : String → Prop
  | opened {target : String} (opens : directive.opened? = some target)
      (left : LeftToUsings table scope written)
      (first : IsFirst (fun outer => has table written outer = true)
        (scope.usings ++ table.globalUsings) target) :
      ResolvesThrough table scope written directive (qualify target written)
  | aliased {pair : String × String} (aliases : directive.aliased? = some pair)
      (first : IsFirst (fun pair => pair.1 = firstSegment written) scope.aliases pair) :
      ResolvesThrough table scope written directive (pair.2 ++ furtherSegments written)

section

variable {table : NameTable} {scope : Scope} {written : String}

theorem LeftToUsings.resolve_eq (left : LeftToUsings table scope written) :
    table.resolve scope written =
      (((scope.usings ++ table.globalUsings).find? (has table written)).map
        (qualify · written)).getD written := by
  have near := left.elsewhere
  rw [List.forall_mem_append] at near
  have inTypes : (candidatesInTypes scope written).find? table.declares = none := by
    simpa using near.1
  have inNamespaces : (candidatesInNamespaces scope written).find? table.declares = none := by
    simpa using near.2
  rw [Names.resolve_eq_getD, Names.expandAlias?_eq_none_iff.mpr left.unaliased, inTypes,
    inNamespaces, NameTable.candidatesInUsings, List.find?_map]
  rfl

theorem LeftToGlobals.resolve_eq (left : LeftToGlobals table scope written) :
    table.resolve scope written =
      ((table.globalUsings.find? (has table written)).map (qualify · written)).getD written := by
  have own : scope.usings.find? (has table written) = none := by
    simpa using left.unopened
  rw [left.toUsings.resolve_eq, List.find?_append, own, Option.none_or]

end

theorem qualify_left_inj {outer other written : String}
    (same : qualify outer written = qualify other written) : outer = other := by
  have shorter {outer : String} : written ≠ outer ++ "." ++ written := by
    intro longer
    have lengths := congrArg String.length longer
    simp at lengths
  rw [qualify, qualify] at same
  by_cases top : outer.isEmpty = true
  · by_cases otherTop : other.isEmpty = true
    · rw [String.isEmpty_iff.mp top, String.isEmpty_iff.mp otherTop]
    · rw [if_pos top, if_neg otherTop] at same
      exact absurd same shorter
  · by_cases otherTop : other.isEmpty = true
    · rw [if_neg top, if_pos otherTop] at same
      exact absurd same.symm shorter
    · rw [if_neg top, if_neg otherTop] at same
      simpa [← String.toList_inj] using same

/-- Of the namespaces that have a name the first one decides. -/
theorem getD_find?_eq_qualify_iff {written target : String} {holds : String → Bool}
    {namespaces : List String} (member : target ∈ namespaces) (here : holds target = true) :
    ((namespaces.find? holds).map (qualify · written)).getD written = qualify target written ↔
      IsFirst (fun outer => holds outer = true) namespaces target := by
  rw [← Names.find?_eq_some_iff_isFirst]
  cases found : namespaces.find? holds with
  | none => exact absurd here (List.find?_eq_none.mp found target member)
  | some first =>
      rw [Option.map_some, Option.getD_some, Option.some_inj]
      exact ⟨qualify_left_inj, fun same => congrArg (qualify · written) same⟩

theorem ResolvesThrough.resolve_eq {table : NameTable} {scope : Scope} {written name : String}
    {directive : Using} (through : ResolvesThrough table scope written directive name) :
    table.resolve scope written = name := by
  cases through with
  | opened opens left first =>
      rw [left.resolve_eq, Names.find?_eq_some_iff_isFirst.mpr first, Option.map_some,
        Option.getD_some]
  | aliased aliases first =>
      rw [NameTable.resolve, NameTable.resolve?,
        Names.expandAlias?_eq_some_iff.mpr ⟨_, first, rfl⟩, Option.getD_some]

theorem Using.opened?_of_aliased? {directive : Using} {pair : String × String}
    (aliases : directive.aliased? = some pair) : directive.opened? = none := by
  unfold Using.aliased? at aliases
  unfold Using.opened?
  split at aliases
  · cases aliases
  · next readable =>
    cases named : directive.alias? with
    | none => simp [named] at aliases
    | some name => simp [readable]

/-! ### Directives in effect -/

section

variable {units : List (List Member)} {unit : List Member} {directive : Using}
  {target written : String} {scope : Scope}

theorem globalUsings_tableOf (units : List (List Member)) :
    (tableOf units).globalUsings = (openedForAll units).eraseDups := by
  rw [tableOf, NameTable.globalUsings_ofFiles, List.flatMap_map, openedForAll,
    List.filterMap_flatMap]
  simp only [globalUsings_collect]

theorem mem_openedForAll (member : unit ∈ units) (stands : directive ∈ directivesOf unit)
    (isGlobal : directive.isGlobal = true) (opens : directive.opened? = some target) :
    target ∈ openedForAll units :=
  List.mem_filterMap.mpr ⟨directive, List.mem_flatMap.mpr ⟨unit, member, stands⟩,
    Using.global?_of_opened? isGlobal opens⟩

theorem LeftToGlobals.resolve_eq_meaningForAll
    (left : LeftToGlobals (tableOf units) scope written) :
    (tableOf units).resolve scope written = meaningForAll units written := by
  rw [left.resolve_eq, globalUsings_tableOf, FirstOccurrence.find?_eraseDups, meaningForAll]

/-- A name that is resolved through a directive for all files, in its own file. Another scope that
leaves the name open resolves it alike exactly if no namespace that is opened for all files before
has it. Behind an alias for all files it is resolved as if there were no alias. -/
theorem resolve_eq_iff_of_isGlobal (member : unit ∈ units) (stands : directive ∈ directivesOf unit)
    (isGlobal : directive.isGlobal = true) {around : List Container} {name : String}
    (through : ResolvesThrough (tableOf units) (scopeAt unit around) written directive name) :
    (tableOf units).resolve (scopeAt unit around) written = name ∧
      ∀ scope, LeftToGlobals (tableOf units) scope written →
        (∀ target, directive.opened? = some target →
          ((tableOf units).resolve scope written = name ↔
            IsFirst (fun outer => has (tableOf units) written outer = true) (openedForAll units)
              target)) ∧
        (∀ pair, directive.aliased? = some pair →
          ((tableOf units).resolve scope written = name ↔ meaningForAll units written = name)) := by
  refine ⟨through.resolve_eq, fun scope left => ?_⟩
  rw [left.resolve_eq_meaningForAll]
  refine ⟨fun target opens => ?_, fun pair aliases => Iff.rfl⟩
  cases through with
  | opened otherOpens _ first =>
      -- Its own file looks through its own namespaces first, so it tells only that the target has
      -- the name; other scopes have nothing but the common list.
      obtain rfl := Option.some.inj (opens.symm.trans otherOpens)
      exact getD_find?_eq_qualify_iff (mem_openedForAll member stands isGlobal opens) first.holds
  | aliased aliases _ => simp [Using.opened?_of_aliased? aliases] at opens

def openData : Using := ⟨true, false, none, "Acme.Data"⟩

def aliasStore : Using := ⟨true, false, some "Store", "Acme.Data.Table"⟩

def setupUnit : List Member := [.using openData, .using aliasStore]

def dataBody : List Member :=
  [.type ⟨"Row", .class, ["public"], false, [], []⟩ [],
    .type ⟨"Table", .class, ["public"], false, [], []⟩ []]

/-- A file with directives for all files, one with types, and one that uses them. -/
def dataUnits : List (List Member) :=
  [setupUnit, [.namespaceBlock "Acme.Data" dataBody], [.namespaceBlock "Web" [.type pageHead []]]]

def webScope : Scope :=
  scopeAt [.namespaceBlock "Web" [.type pageHead []]] [.namespaceBlock "Web" [.type pageHead []]]

theorem leftToGlobals_webScope {written : String}
    (elsewhere : (candidatesInTypes webScope written ++ candidatesInNamespaces webScope written).all
      (fun name => !(tableOf dataUnits).declares name) = true) :
    LeftToGlobals (tableOf dataUnits) webScope written := by
  have noAliases : webScope.aliases = [] := rfl
  have noUsings : webScope.usings = [] := rfl
  refine ⟨⟨?_, ?_⟩, ?_⟩
  · simp [Names.Unaliased, noAliases]
  · intro name inside
    simpa using List.all_eq_true.mp elsewhere name inside
  · simp [noUsings]

/-- The namespace is opened for the other files, the alias is not known there. -/
theorem resolve_eq_iff_of_isGlobal_dataUnits :
    ResolvesThrough (tableOf dataUnits) (scopeAt setupUnit []) "Row" openData "Acme.Data.Row" ∧
      (tableOf dataUnits).resolve webScope "Row" = "Acme.Data.Row" ∧
      ResolvesThrough (tableOf dataUnits) (scopeAt setupUnit []) "Store" aliasStore
        "Acme.Data.Table" ∧
      (tableOf dataUnits).resolve webScope "Store" ≠ "Acme.Data.Table" := by
  have inUnits : setupUnit ∈ dataUnits := .head _
  have opens : openData.opened? = some "Acme.Data" := by decide +kernel
  have aliases : aliasStore.aliased? = some ("Store", "Acme.Data.Table") := by decide +kernel
  have row : ResolvesThrough (tableOf dataUnits) (scopeAt setupUnit []) "Row" openData
      "Acme.Data.Row" := by
    have left : LeftToUsings (tableOf dataUnits) (scopeAt setupUnit []) "Row" :=
      ⟨Names.expandAlias?_eq_none_iff.mp (by decide +kernel), by decide +kernel⟩
    exact .opened opens left (Names.find?_eq_some_iff_isFirst.mp (by decide +kernel))
  have store : ResolvesThrough (tableOf dataUnits) (scopeAt setupUnit []) "Store" aliasStore
      "Acme.Data.Table" :=
    .aliased aliases ⟨[], [], rfl, by decide +kernel, by simp⟩
  obtain ⟨-, rowElsewhere⟩ := resolve_eq_iff_of_isGlobal inUnits (.head _) rfl row
  obtain ⟨-, storeElsewhere⟩ :=
    resolve_eq_iff_of_isGlobal inUnits (.tail _ (.head _)) rfl store
  refine ⟨row, ?_, store, fun known => ?_⟩
  · have left : LeftToGlobals (tableOf dataUnits) webScope "Row" :=
      leftToGlobals_webScope (by decide +kernel)
    refine ((rowElsewhere webScope left).1 _ opens).mpr ?_
    exact Names.find?_eq_some_iff_isFirst.mp (by decide +kernel)
  · have left : LeftToGlobals (tableOf dataUnits) webScope "Store" :=
      leftToGlobals_webScope (by decide +kernel)
    have unknown : meaningForAll dataUnits "Store" ≠ "Acme.Data.Table" := by decide +kernel
    exact unknown (((storeElsewhere webScope left).2 _ aliases).mp known)

end

end ActionAtlas.CSharp
