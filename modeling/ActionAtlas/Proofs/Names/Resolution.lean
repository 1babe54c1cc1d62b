import ActionAtlas.Proofs.Names.Table

/-!
What a written name stands for. The places where it is looked for have a rank: aliases, the
enclosing types, the enclosing namespaces and the namespaces in use. The first place that has the
name decides, and in it the nearest; a name that is nowhere stands for itself.
-/

namespace ActionAtlas.Names

open Source (Scope)

/-! ### The rule -/

def firstSegment (written : String) : String :=
  String.ofList (written.toList.takeWhile (· ≠ '.'))

/-- The segments behind the first one, each with the mark before it. -/
def furtherSegments (written : String) : String :=
  String.ofList (written.toList.dropWhile (· ≠ '.'))

/-- The first member of a list with a property. -/
def IsFirst {α : Type*} (holds : α → Prop) (items : List α) (item : α) : Prop :=
  ∃ before after, items = before ++ item :: after ∧ holds item ∧
    ∀ earlier ∈ before, ¬holds earlier

def Unaliased (scope : Scope) (written : String) : Prop :=
  ∀ pair ∈ scope.aliases, pair.1 ≠ firstSegment written

/-- The name inside the outermost `depth` of the enclosing types. -/
def nameInTypes (scope : Scope) (written : String) (depth : Nat) : String :=
  qualify (qualify scope.namespaceName (Text.dotted (scope.enclosing.take depth))) written

def depthsInTypes (files : List Source.File) (scope : Scope) (written : String) : Set Nat :=
  { depth | 1 ≤ depth ∧ depth ≤ scope.enclosing.length ∧
    Declares files (nameInTypes scope written depth) }

/-- The name inside the outermost `depth` parts of the namespace. -/
def nameInNamespaces (scope : Scope) (written : String) (depth : Nat) : String :=
  qualify (Text.dotted (scope.namespaceParts.take depth)) written

def depthsInNamespaces (files : List Source.File) (scope : Scope) (written : String) : Set Nat :=
  { depth | depth ≤ scope.namespaceParts.length ∧
    Declares files (nameInNamespaces scope written depth) }

def IsKnown (files : List Source.File) (name : String) : Prop :=
  Declares files name ∨ isWellKnown name = true

/-- The namespaces in use in a scope, with those that are in use everywhere behind. -/
def inUse (files : List Source.File) (scope : Scope) : List String :=
  scope.usings ++ files.flatMap Source.File.globalUsings

inductive Resolves (files : List Source.File) (scope : Scope) (written : String) : String → Prop
  | aliased {pair : String × String}
      (first : IsFirst (fun pair => pair.1 = firstSegment written) scope.aliases pair) :
      Resolves files scope written (pair.2 ++ furtherSegments written)
  | inTypes {depth : Nat} (unaliased : Unaliased scope written)
      (deepest : IsGreatest (depthsInTypes files scope written) depth) :
      Resolves files scope written (nameInTypes scope written depth)
  | inNamespaces {depth : Nat} (unaliased : Unaliased scope written)
      (outside : depthsInTypes files scope written = ∅)
      (deepest : IsGreatest (depthsInNamespaces files scope written) depth) :
      Resolves files scope written (nameInNamespaces scope written depth)
  | inUsings {outer : String} (unaliased : Unaliased scope written)
      (outside : depthsInTypes files scope written = ∅)
      (apart : depthsInNamespaces files scope written = ∅)
      (first : IsFirst (fun outer => IsKnown files (qualify outer written)) (inUse files scope)
        outer) :
      Resolves files scope written (qualify outer written)
  | itself (unaliased : Unaliased scope written)
      (outside : depthsInTypes files scope written = ∅)
      (apart : depthsInNamespaces files scope written = ∅)
      (unused : ∀ outer ∈ inUse files scope, ¬IsKnown files (qualify outer written)) :
      Resolves files scope written written

/-! ### Aliases -/

theorem cutFirst?_eq_none {mark : Char} {text : List Char}
    (unmarked : text.dropWhile (· ≠ mark) = []) : Text.cutFirst? mark text = none := by
  induction text with
  | nil => rfl
  | cons c rest ih =>
      by_cases same : c = mark
      · simp [same] at unmarked
      · rw [List.dropWhile_cons, if_pos (by simpa using same)] at unmarked
        rw [Text.cutFirst?, if_neg same, ih unmarked, Option.map_none]

theorem cutFirst?_eq_some {mark c : Char} {text rest : List Char}
    (marked : text.dropWhile (· ≠ mark) = c :: rest) :
    c = mark ∧ Text.cutFirst? mark text = some (text.takeWhile (· ≠ mark), rest) := by
  induction text with
  | nil => cases marked
  | cons d more ih =>
      by_cases same : d = mark
      · rw [List.dropWhile_cons, if_neg (by simpa using same), List.cons.injEq] at marked
        rw [← marked.1, ← marked.2, Text.cutFirst?, if_pos same, List.takeWhile_cons,
          if_neg (by simpa using same)]
        exact ⟨same, rfl⟩
      · rw [List.dropWhile_cons, if_pos (by simpa using same)] at marked
        obtain ⟨isMark, cut⟩ := ih marked
        rw [Text.cutFirst?, if_neg same, cut, List.takeWhile_cons, if_pos (by simpa using same)]
        exact ⟨isMark, rfl⟩

theorem expandAlias?_eq (scope : Scope) (written : String) :
    expandAlias? scope written =
      (scope.aliases.lookup (firstSegment written)).map (· ++ furtherSegments written) := by
  have whole : written.toList.takeWhile (· ≠ '.') ++ written.toList.dropWhile (· ≠ '.') =
      written.toList := List.takeWhile_append_dropWhile
  unfold expandAlias? splitHead
  cases behind : written.toList.dropWhile (· ≠ '.') with
  | nil =>
      have all : firstSegment written = written := by
        rw [behind, List.append_nil] at whole
        rw [firstSegment, whole, String.ofList_toList]
      have nothing : furtherSegments written = "" := by rw [furtherSegments, behind]
      simp [cutFirst?_eq_none behind, all, nothing]
  | cons c rest =>
      obtain ⟨rfl, cut⟩ := cutFirst?_eq_some behind
      simp only [cut, firstSegment, furtherSegments, behind]
      congr 1
      funext target
      rw [← String.toList_inj]
      simp

theorem find?_eq_some_iff_isFirst {α : Type*} {holds : α → Bool} {items : List α} {item : α} :
    items.find? holds = some item ↔ IsFirst (fun item => holds item = true) items item := by
  rw [List.find?_eq_some_iff_append, IsFirst]
  simp only [Bool.not_eq_true', Bool.not_eq_true]
  constructor
  · rintro ⟨found, before, after, split, others⟩
    exact ⟨before, after, split, found, others⟩
  · rintro ⟨before, after, split, found, others⟩
    exact ⟨found, before, after, split, others⟩

theorem expandAlias?_eq_some_iff {scope : Scope} {written name : String} :
    expandAlias? scope written = some name ↔
      ∃ pair, IsFirst (fun pair => pair.1 = firstSegment written) scope.aliases pair ∧
        pair.2 ++ furtherSegments written = name := by
  rw [expandAlias?_eq, Option.map_eq_some_iff]
  constructor
  · rintro ⟨target, found, rfl⟩
    obtain ⟨before, after, split, others⟩ := List.lookup_eq_some_iff.mp found
    refine ⟨(firstSegment written, target), ⟨before, after, split, rfl, ?_⟩, rfl⟩
    intro earlier inside same
    simpa [same] using others earlier inside
  · rintro ⟨⟨_, target⟩, ⟨before, after, split, rfl, others⟩, rfl⟩
    refine ⟨target, List.lookup_eq_some_iff.mpr ⟨before, after, split, ?_⟩, rfl⟩
    intro earlier inside
    exact bne_iff_ne.mpr (Ne.symm (others earlier inside))

theorem expandAlias?_eq_none_iff {scope : Scope} {written : String} :
    expandAlias? scope written = none ↔ Unaliased scope written := by
  rw [expandAlias?_eq, Option.map_eq_none_iff, List.lookup_eq_none_iff, Unaliased]
  simp only [bne_iff_ne, ne_comm]

/-! ### Depths -/

section Depths

variable {holds : String → Bool} {names : Nat → String} {start count : Nat}

def depthsWhere (holds : String → Bool) (names : Nat → String) (start count : Nat) : Set Nat :=
  { depth | start ≤ depth ∧ depth < start + count ∧ holds (names depth) = true }

theorem exists_isGreatest_of_find? {name : String}
    (found : ((List.range' start count).map names).reverse.find? holds = some name) :
    ∃ depth, IsGreatest (depthsWhere holds names start count) depth ∧ names depth = name := by
  induction count with
  | zero => cases found
  | succ count ih =>
      rw [List.range'_1_concat, List.map_append, List.map_singleton, List.reverse_concat,
        List.find?_cons] at found
      cases deepest : holds (names (start + count)) with
      | true =>
          rw [deepest] at found
          refine ⟨start + count, ⟨⟨by omega, by omega, deepest⟩, ?_⟩, Option.some.inj found⟩
          rintro depth ⟨-, bound, -⟩
          omega
      | false =>
          rw [deepest] at found
          obtain ⟨depth, ⟨⟨low, high, here⟩, above⟩, same⟩ := ih found
          refine ⟨depth, ⟨⟨low, by omega, here⟩, ?_⟩, same⟩
          rintro other ⟨lowest, bound, there⟩
          have inner : other ≠ start + count := by
            rintro rfl
            rw [deepest] at there
            cases there
          exact above ⟨lowest, by omega, there⟩

theorem find?_eq_none_iff_depths :
    ((List.range' start count).map names).reverse.find? holds = none ↔
      depthsWhere holds names start count = ∅ := by
  rw [List.find?_eq_none, Set.eq_empty_iff_forall_notMem]
  simp only [List.mem_reverse, List.mem_map, List.mem_range'_1, depthsWhere, Set.mem_ofPred_eq]
  constructor
  · rintro none_holds depth ⟨low, high, here⟩
    exact none_holds _ ⟨depth, ⟨low, high⟩, rfl⟩ here
  · rintro empty _ ⟨depth, ⟨low, high⟩, rfl⟩ here
    exact empty depth ⟨low, high, here⟩

theorem find?_eq_some_iff_depths {name : String} :
    ((List.range' start count).map names).reverse.find? holds = some name ↔
      ∃ depth, IsGreatest (depthsWhere holds names start count) depth ∧ names depth = name := by
  constructor
  · exact exists_isGreatest_of_find?
  · rintro ⟨depth, deepest, rfl⟩
    cases found : ((List.range' start count).map names).reverse.find? holds with
    | none =>
        rw [find?_eq_none_iff_depths] at found
        exact absurd deepest.1 (by simp [found])
    | some name =>
        obtain ⟨other, greatest, rfl⟩ := exists_isGreatest_of_find? found
        rw [greatest.unique deepest]

end Depths

theorem initialSegments_eq {α : Type*} (parts : List α) :
    initialSegments parts = ((List.range' 0 (parts.length + 1)).map parts.take).reverse := by
  rw [initialSegments, List.range_eq_range']

theorem candidatesInNamespaces_eq (scope : Scope) (written : String) :
    candidatesInNamespaces scope written =
      ((List.range' 0 (scope.namespaceParts.length + 1)).map
        (nameInNamespaces scope written)).reverse := by
  rw [candidatesInNamespaces, initialSegments_eq, List.map_reverse, List.map_map]
  rfl

/-- Only the empty one of the initial segments of the enclosing types is left out. -/
theorem candidatesInTypes_eq (scope : Scope) (written : String) :
    candidatesInTypes scope written =
      ((List.range' 1 scope.enclosing.length).map (nameInTypes scope written)).reverse := by
  have nonempty : ∀ enclosing ∈ (List.range' 1 scope.enclosing.length).map scope.enclosing.take,
      (!enclosing.isEmpty) = true := by
    intro enclosing member
    obtain ⟨depth, inside, rfl⟩ := List.mem_map.mp member
    rw [List.mem_range'_1] at inside
    have some_type : scope.enclosing.take depth ≠ [] := by
      intro empty
      have none_left := congrArg List.length empty
      rw [List.length_take, List.length_nil] at none_left
      omega
    simpa using some_type
  rw [candidatesInTypes, initialSegments_eq, List.range'_succ, List.map_cons, List.reverse_cons,
    List.filter_append, List.filter_reverse, List.filter_eq_self.mpr nonempty, List.take_zero]
  simp only [List.filter_cons, List.isEmpty_nil, Bool.not_true, Bool.false_eq_true, if_false,
    List.filter_nil, List.append_nil, List.map_reverse, List.map_map]
  rfl

/-! ### Places -/

section Places

variable {files : List Source.File} {scope : Scope} {written : String}

theorem depthsInTypes_eq (files : List Source.File) (scope : Scope) (written : String) :
    depthsInTypes files scope written =
      depthsWhere (NameTable.ofFiles files).declares (nameInTypes scope written) 1
        scope.enclosing.length := by
  ext depth
  simp only [depthsInTypes, depthsWhere, Set.mem_ofPred_eq, NameTable.declares_ofFiles_iff]
  constructor
  · rintro ⟨low, high, here⟩
    exact ⟨low, by omega, here⟩
  · rintro ⟨low, high, here⟩
    exact ⟨low, by omega, here⟩

theorem depthsInNamespaces_eq (files : List Source.File) (scope : Scope) (written : String) :
    depthsInNamespaces files scope written =
      depthsWhere (NameTable.ofFiles files).declares (nameInNamespaces scope written) 0
        (scope.namespaceParts.length + 1) := by
  ext depth
  simp only [depthsInNamespaces, depthsWhere, Set.mem_ofPred_eq, NameTable.declares_ofFiles_iff]
  constructor
  · rintro ⟨high, here⟩
    exact ⟨Nat.zero_le depth, by omega, here⟩
  · rintro ⟨-, high, here⟩
    exact ⟨by omega, here⟩

theorem find?_candidatesInTypes_eq_some_iff {name : String} :
    (candidatesInTypes scope written).find? (NameTable.ofFiles files).declares = some name ↔
      ∃ depth, IsGreatest (depthsInTypes files scope written) depth ∧
        nameInTypes scope written depth = name := by
  rw [candidatesInTypes_eq, find?_eq_some_iff_depths, depthsInTypes_eq]

theorem find?_candidatesInTypes_eq_none_iff :
    (candidatesInTypes scope written).find? (NameTable.ofFiles files).declares = none ↔
      depthsInTypes files scope written = ∅ := by
  rw [candidatesInTypes_eq, find?_eq_none_iff_depths, depthsInTypes_eq]

theorem find?_candidatesInNamespaces_eq_some_iff {name : String} :
    (candidatesInNamespaces scope written).find? (NameTable.ofFiles files).declares = some name ↔
      ∃ depth, IsGreatest (depthsInNamespaces files scope written) depth ∧
        nameInNamespaces scope written depth = name := by
  rw [candidatesInNamespaces_eq, find?_eq_some_iff_depths, depthsInNamespaces_eq]

theorem find?_candidatesInNamespaces_eq_none_iff :
    (candidatesInNamespaces scope written).find? (NameTable.ofFiles files).declares = none ↔
      depthsInNamespaces files scope written = ∅ := by
  rw [candidatesInNamespaces_eq, find?_eq_none_iff_depths, depthsInNamespaces_eq]

theorem declares_or_isWellKnown_iff {name : String} :
    ((NameTable.ofFiles files).declares name || isWellKnown name) = true ↔ IsKnown files name := by
  rw [Bool.or_eq_true, NameTable.declares_ofFiles_iff, IsKnown]

/-- That names in use everywhere are held once changes nothing for the search. -/
theorem find?_candidatesInUsings (files : List Source.File) (scope : Scope) (written : String) :
    (((NameTable.ofFiles files).candidatesInUsings scope written).find? fun name =>
        (NameTable.ofFiles files).declares name || isWellKnown name) =
      ((inUse files scope).find? fun outer =>
        (NameTable.ofFiles files).declares (qualify outer written)
          || isWellKnown (qualify outer written)).map fun outer => qualify outer written := by
  rw [NameTable.candidatesInUsings, NameTable.globalUsings_ofFiles, List.find?_map, inUse,
    List.find?_append, List.find?_append, FirstOccurrence.find?_eraseDups]
  rfl

theorem find?_candidatesInUsings_eq_some_iff {name : String} :
    (((NameTable.ofFiles files).candidatesInUsings scope written).find? fun name =>
        (NameTable.ofFiles files).declares name || isWellKnown name) = some name ↔
      ∃ outer, IsFirst (fun outer => IsKnown files (qualify outer written)) (inUse files scope)
        outer ∧ qualify outer written = name := by
  rw [find?_candidatesInUsings, Option.map_eq_some_iff]
  simp only [find?_eq_some_iff_isFirst, declares_or_isWellKnown_iff]

theorem find?_candidatesInUsings_eq_none_iff :
    (((NameTable.ofFiles files).candidatesInUsings scope written).find? fun name =>
        (NameTable.ofFiles files).declares name || isWellKnown name) = none ↔
      ∀ outer ∈ inUse files scope, ¬IsKnown files (qualify outer written) := by
  rw [find?_candidatesInUsings, Option.map_eq_none_iff, List.find?_eq_none]
  simp only [declares_or_isWellKnown_iff]

theorem resolve_eq_getD (table : NameTable) (scope : Scope) (written : String) :
    table.resolve scope written =
      ((((expandAlias? scope written).or
        ((candidatesInTypes scope written).find? table.declares)).or
        ((candidatesInNamespaces scope written).find? table.declares)).or
        ((table.candidatesInUsings scope written).find? fun name =>
          table.declares name || isWellKnown name)).getD written := by
  simp only [NameTable.resolve, NameTable.resolve?, List.find?_append]
  cases expandAlias? scope written with
  | some target => rfl
  | none =>
      cases (candidatesInTypes scope written).find? table.declares with
      | some found => rfl
      | none =>
          cases (candidatesInNamespaces scope written).find? table.declares with
          | some found => rfl
          | none =>
              simp only [Option.or_none, Option.none_or]
              split
              · next found => rw [found]
              · next missing =>
                rw [missing]
                by_cases wellKnown : isWellKnown written
                · rw [if_pos wellKnown]
                  rfl
                · rw [if_neg wellKnown]

theorem resolves_resolve (files : List Source.File) (scope : Scope) (written : String) :
    Resolves files scope written ((NameTable.ofFiles files).resolve scope written) := by
  rw [resolve_eq_getD]
  cases aliased : expandAlias? scope written with
  | some target =>
      obtain ⟨pair, first, rfl⟩ := expandAlias?_eq_some_iff.mp aliased
      exact .aliased first
  | none =>
      have unaliased := expandAlias?_eq_none_iff.mp aliased
      cases near : (candidatesInTypes scope written).find? (NameTable.ofFiles files).declares with
      | some found =>
          obtain ⟨depth, deepest, rfl⟩ := find?_candidatesInTypes_eq_some_iff.mp near
          exact .inTypes unaliased deepest
      | none =>
          have outside := find?_candidatesInTypes_eq_none_iff.mp near
          cases far : (candidatesInNamespaces scope written).find?
              (NameTable.ofFiles files).declares with
          | some found =>
              obtain ⟨depth, deepest, rfl⟩ := find?_candidatesInNamespaces_eq_some_iff.mp far
              exact .inNamespaces unaliased outside deepest
          | none =>
              have apart := find?_candidatesInNamespaces_eq_none_iff.mp far
              cases used : ((NameTable.ofFiles files).candidatesInUsings scope written).find?
                  fun name => (NameTable.ofFiles files).declares name || isWellKnown name with
              | some found =>
                  obtain ⟨outer, first, rfl⟩ := find?_candidatesInUsings_eq_some_iff.mp used
                  exact .inUsings unaliased outside apart first
              | none =>
                  exact .itself unaliased outside apart
                    (find?_candidatesInUsings_eq_none_iff.mp used)

theorem Resolves.resolve_eq {name : String} (resolves : Resolves files scope written name) :
    (NameTable.ofFiles files).resolve scope written = name := by
  rw [resolve_eq_getD]
  cases resolves with
  | aliased first =>
      rw [expandAlias?_eq_some_iff.mpr ⟨_, first, rfl⟩]
      rfl
  | inTypes unaliased deepest =>
      rw [expandAlias?_eq_none_iff.mpr unaliased,
        find?_candidatesInTypes_eq_some_iff.mpr ⟨_, deepest, rfl⟩]
      rfl
  | inNamespaces unaliased outside deepest =>
      rw [expandAlias?_eq_none_iff.mpr unaliased, find?_candidatesInTypes_eq_none_iff.mpr outside,
        find?_candidatesInNamespaces_eq_some_iff.mpr ⟨_, deepest, rfl⟩]
      rfl
  | inUsings unaliased outside apart first =>
      rw [expandAlias?_eq_none_iff.mpr unaliased, find?_candidatesInTypes_eq_none_iff.mpr outside,
        find?_candidatesInNamespaces_eq_none_iff.mpr apart,
        find?_candidatesInUsings_eq_some_iff.mpr ⟨_, first, rfl⟩]
      rfl
  | itself unaliased outside apart unused =>
      rw [expandAlias?_eq_none_iff.mpr unaliased, find?_candidatesInTypes_eq_none_iff.mpr outside,
        find?_candidatesInNamespaces_eq_none_iff.mpr apart,
        find?_candidatesInUsings_eq_none_iff.mpr unused]
      rfl

theorem qualify_eq_or (outer written : String) :
    qualify outer written = written ∨ qualify outer written = outer ++ "." ++ written := by
  unfold qualify
  split
  · exact .inl rfl
  · exact .inr rfl

theorem IsFirst.holds {α : Type*} {holds : α → Prop} {items : List α} {item : α}
    (first : IsFirst holds items item) : holds item := by
  obtain ⟨-, -, -, here, -⟩ := first
  exact here

theorem IsFirst.mem {α : Type*} {holds : α → Prop} {items : List α} {item : α}
    (first : IsFirst holds items item) : item ∈ items := by
  obtain ⟨before, after, rfl, -, -⟩ := first
  exact List.mem_append_right before List.mem_cons_self

theorem Resolves.eq_qualify {name : String} (resolves : Resolves files scope written name)
    (unaliased : Unaliased scope written) :
    name = written ∨ (∃ outer, name = qualify outer written) ∧ IsKnown files name := by
  cases resolves with
  | aliased first => exact absurd first.holds (unaliased _ first.mem)
  | inTypes _ deepest => exact .inr ⟨⟨_, rfl⟩, .inl deepest.1.2.2⟩
  | inNamespaces _ _ deepest => exact .inr ⟨⟨_, rfl⟩, .inl deepest.1.2⟩
  | inUsings _ _ _ first => exact .inr ⟨⟨_, rfl⟩, first.holds⟩
  | itself => exact .inl rfl

/-- A name is resolved to the one name that the rule gives. Without an alias that is the written
name or ends in a mark and the written name, and if it is another name it is declared or well
known. -/
theorem resolve_eq_iff_resolves (files : List Source.File) (scope : Scope) (written : String) :
    (∀ name, (NameTable.ofFiles files).resolve scope written = name ↔
        Resolves files scope written name) ∧
      (Unaliased scope written →
        ((NameTable.ofFiles files).resolve scope written = written ∨
          ∃ outer, (NameTable.ofFiles files).resolve scope written = outer ++ "." ++ written) ∧
        ((NameTable.ofFiles files).resolve scope written ≠ written →
          IsKnown files ((NameTable.ofFiles files).resolve scope written))) := by
  have resolves := resolves_resolve files scope written
  refine ⟨?_, ?_⟩
  · intro name
    constructor
    · rintro rfl
      exact resolves
    · exact Resolves.resolve_eq
  · intro unaliased
    rcases resolves.eq_qualify unaliased with same | ⟨⟨outer, placed⟩, known⟩
    · exact ⟨.inl same, fun differs => absurd same differs⟩
    · refine ⟨?_, fun _ => known⟩
      rw [placed]
      exact (qualify_eq_or outer written).imp_right fun longer => ⟨outer, longer⟩

/-- A class inside a class of the same namespace, one of its name beside that class, and one in a
namespace that is in use. -/
def shadowedItem : List Source.File :=
  let place (enclosing : List String) : Scope := ⟨["Web"], enclosing, [], []⟩
  [{ globalUsings := ["System"]
     types := [.plain (place []) "Item", .plain (place []) "Shop", .plain (place ["Shop"]) "Item",
       .plain ⟨["Data"], [], [], []⟩ "Row", .plain ⟨["Data"], [], [], []⟩ "Item"] }]

def shopScope : Scope := ⟨["Web"], ["Shop"], ["Archive", "Data"], [("Guid", "Web.Item")]⟩

theorem resolve_eq_iff_resolves_shadowedItem :
    Unaliased shopScope "Item" ∧ Resolves shadowedItem shopScope "Item" "Web.Shop.Item" ∧
      Resolves shadowedItem shopScope "Guid" "Web.Item" ∧ IsKnown shadowedItem "Web.Shop.Item" ∧
      Resolves shadowedItem shopScope "Row" "Data.Row" ∧ ¬isWellKnown "Data.Row" ∧
      Resolves shadowedItem shopScope "Exception" "System.Exception" ∧
      isWellKnown "System.Exception" ∧ Resolves shadowedItem shopScope "Gadget" "Gadget" := by
  have unaliased : Unaliased shopScope "Item" := by
    intro pair member
    rw [List.mem_singleton.mp member]
    decide +kernel
  have rule (written : String) := (resolve_eq_iff_resolves shadowedItem shopScope written).1
  have inner : (NameTable.ofFiles shadowedItem).resolve shopScope "Item" = "Web.Shop.Item" := by
    decide +kernel
  have named : (NameTable.ofFiles shadowedItem).resolve shopScope "Guid" = "Web.Item" := by
    decide +kernel
  have used : (NameTable.ofFiles shadowedItem).resolve shopScope "Row" = "Data.Row" := by
    decide +kernel
  have framework :
      (NameTable.ofFiles shadowedItem).resolve shopScope "Exception" = "System.Exception" := by
    decide +kernel
  have unknown : (NameTable.ofFiles shadowedItem).resolve shopScope "Gadget" = "Gadget" := by
    decide +kernel
  have known := ((resolve_eq_iff_resolves shadowedItem shopScope "Item").2 unaliased).2
  rw [inner] at known
  exact ⟨unaliased, (rule _ _).mp inner, (rule _ _).mp named, known (by decide),
    (rule _ _).mp used, by decide +kernel, (rule _ _).mp framework, by decide +kernel,
    (rule _ _).mp unknown⟩

end Places

end ActionAtlas.Names
