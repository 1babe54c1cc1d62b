import ActionAtlas.Proofs.Names.Agreement
import ActionAtlas.Proofs.Names.Assembly

/-!
The order in which the parts of a type are added. All but the accessibility and repeated interfaces
is the same in every order; the main statement says when these two are as well.
-/

namespace ActionAtlas

/-! ### Stated accessibilities -/

namespace Source.TypeDeclaration

def accessModifiers : List String := ["public", "protected", "internal", "private"]

/-- The accessibility that a declaration states, if one of its modifiers does. -/
def statedAccessibility? (type : TypeDeclaration) : Option Accessibility :=
  if type.modifiers.any accessModifiers.contains then
    some (Accessibility.ofModifiers .private type.modifiers)
  else none

variable {type : TypeDeclaration}

theorem ofModifiers_of_bare (absent : Accessibility) {modifiers : List String}
    (bare : ∀ modifier ∈ accessModifiers, modifier ∉ modifiers) :
    Accessibility.ofModifiers absent modifiers = absent := by
  simp [Accessibility.ofModifiers, bare "public" (by decide), bare "protected" (by decide),
    bare "internal" (by decide), bare "private" (by decide)]

theorem ofModifiers_eq_getD (absent : Accessibility) (type : TypeDeclaration) :
    Accessibility.ofModifiers absent type.modifiers = type.statedAccessibility?.getD absent := by
  unfold statedAccessibility?
  split
  · next stated =>
    obtain ⟨modifier, member, access⟩ := List.any_eq_true.mp stated
    simp only [accessModifiers, List.contains_eq_mem, List.mem_cons, List.not_mem_nil, or_false,
      decide_eq_true_eq] at access
    rcases access with rfl | rfl | rfl | rfl
    all_goals simp [Accessibility.ofModifiers, member]
  · next bare =>
    have without (modifier : String) (access : modifier ∈ accessModifiers) :
        modifier ∉ type.modifiers := by
      intro member
      exact bare (List.any_eq_true.mpr ⟨modifier, member, List.contains_iff_mem.mpr access⟩)
    exact ofModifiers_of_bare absent without

theorem accessibility_of_bare (bare : type.statedAccessibility? = none) :
    type.accessibility = if type.scope.enclosing = [] then .internal else .private := by
  rw [accessibility]
  simp only [ofModifiers_eq_getD, bare, Option.getD_none, List.isEmpty_iff]
  by_cases outermost : type.scope.enclosing = []
  · simp [outermost]
  · simp [outermost]

theorem accessibility_of_stated {access : Accessibility}
    (stated : type.statedAccessibility? = some access) (decided : type.accessibility ≠ .internal) :
    type.accessibility = access := by
  rw [accessibility] at decided ⊢
  simp only [ofModifiers_eq_getD, stated, Option.getD_some] at decided ⊢
  split at decided
  · exact absurd rfl decided
  · next visible => rw [if_neg visible]

end Source.TypeDeclaration

namespace Names

/-! ### Parts that agree -/

section Lists

variable {α β : Type*}

def AllAgree (view : α → β) (items : List α) : Prop :=
  ∀ item ∈ items, ∀ other ∈ items, view item = view other

/-- Those items that have the value have the same. -/
def AgreeWherePresent (view? : α → Option β) (items : List α) : Prop :=
  ∀ item ∈ items, ∀ other ∈ items, ∀ value ∈ view? item, ∀ otherValue ∈ view? other,
    value = otherValue

theorem allAgree_map {γ : Type*} {make : γ → α} {view : α → β} {items : List γ} :
    AllAgree view (items.map make) ↔ AllAgree (fun item => view (make item)) items := by
  simp only [AllAgree, List.forall_mem_map]

theorem agreeWherePresent_map {γ : Type*} {make : γ → α} {view? : α → Option β} {items : List γ} :
    AgreeWherePresent view? (items.map make) ↔
      AgreeWherePresent (fun item => view? (make item)) items := by
  simp only [AgreeWherePresent, List.forall_mem_map]

theorem findSome?_eq_of_mem {view? : α → Option β} {items : List α}
    (agree : AgreeWherePresent view? items) {item : α} {value : β} (member : item ∈ items)
    (present : view? item = some value) :
    items.findSome? view? = some value := by
  cases found : items.findSome? view? with
  | none =>
      rw [List.findSome?_eq_none_iff] at found
      rw [found item member] at present
      cases present
  | some first =>
      obtain ⟨other, inside, here⟩ := List.exists_of_findSome?_eq_some found
      rw [agree other inside item member first here value present]

theorem findSome?_eq_of_perm {view? : α → Option β} {items others : List α}
    (agree : AgreeWherePresent view? items) (perm : others.Perm items) :
    others.findSome? view? = items.findSome? view? := by
  cases found : others.findSome? view? with
  | none =>
      symm
      rw [List.findSome?_eq_none_iff] at found ⊢
      exact fun item inside => found item (perm.mem_iff.mpr inside)
  | some value =>
      obtain ⟨item, inside, present⟩ := List.exists_of_findSome?_eq_some found
      exact (findSome?_eq_of_mem agree (perm.mem_iff.mp inside) present).symm

theorem map_head?_eq_of_perm {view : α → β} {items others : List α}
    (agree : AllAgree view items) (perm : others.Perm items) :
    others.head?.map view = items.head?.map view := by
  cases items with
  | nil => rw [perm.eq_nil]
  | cons item more =>
      cases others with
      | nil => exact absurd perm (List.nil_perm.not.mpr (List.cons_ne_nil item more))
      | cons other rest =>
          rw [List.head?_cons, List.head?_cons, Option.map_some, Option.map_some,
            agree other (perm.mem_iff.mp List.mem_cons_self) item List.mem_cons_self]

end Lists

/-- Parts of one kind, all generic or none, of which those that state an accessibility state the
same and those that have a base class have the same. -/
structure AgreeingParts (table : NameTable) (parts : List Source.TypeDeclaration) : Prop where
  kind : AllAgree Source.TypeDeclaration.kind parts
  isGeneric : AllAgree Source.TypeDeclaration.isGeneric parts
  stated : AgreeWherePresent Source.TypeDeclaration.statedAccessibility? parts
  base : AgreeWherePresent (fun part => (table.splitBases part).1) parts

/-- A nested part that states no accessibility is private, while another part is more than that. -/
def HidesAccess (parts : List Source.TypeDeclaration) : Prop :=
  ∃ bare ∈ parts, bare.statedAccessibility? = none ∧ bare.scope.enclosing ≠ [] ∧
    ∃ wide ∈ parts, wide.accessibility ≠ .internal ∧ wide.accessibility ≠ .private

/-- No part repeats an interface, unless all parts repeat it equally often. -/
def RepeatsAlike (table : NameTable) (parts : List Source.TypeDeclaration) : Prop :=
  ∀ part ∈ parts, ∀ other ∈ parts, ∀ name ∈ (table.splitBases part).2,
    (table.splitBases part).2.count name = max 1 ((table.splitBases other).2.count name)

/-- All parts that are not internal have one accessibility. -/
def DecidesAlike (parts : List Source.TypeDeclaration) : Prop :=
  ∀ part ∈ parts, ∀ other ∈ parts, part.accessibility ≠ .internal →
    other.accessibility ≠ .internal → part.accessibility = other.accessibility

section Parts

variable {table : NameTable} {parts : List Source.TypeDeclaration}

theorem accessibility_eq_of_bare (unhidden : ¬HidesAccess parts)
    {bare wide : Source.TypeDeclaration} (inside : bare ∈ parts) (member : wide ∈ parts)
    (unstated : bare.statedAccessibility? = none) (decided : bare.accessibility ≠ .internal)
    (outer : wide.accessibility ≠ .internal) : bare.accessibility = wide.accessibility := by
  have hidden := Source.TypeDeclaration.accessibility_of_bare unstated
  by_cases nested : bare.scope.enclosing = []
  · rw [if_pos nested] at hidden
    exact absurd hidden decided
  · rw [if_neg nested] at hidden
    rw [hidden]
    by_contra wider
    exact unhidden ⟨bare, inside, unstated, nested, wide, member, outer, Ne.symm wider⟩

theorem AgreeingParts.decidesAlike_iff (agreeing : AgreeingParts table parts) :
    DecidesAlike parts ↔ ¬HidesAccess parts := by
  constructor
  · rintro alike ⟨bare, inside, unstated, nested, wide, member, outer, wider⟩
    have hidden : bare.accessibility = .private := by
      rw [Source.TypeDeclaration.accessibility_of_bare unstated, if_neg nested]
    apply wider
    rw [← alike bare inside wide member (by simp [hidden]) outer, hidden]
  · intro unhidden part inside other member decided otherDecided
    cases stated : part.statedAccessibility? with
    | none => exact accessibility_eq_of_bare unhidden inside member stated decided otherDecided
    | some access =>
        cases otherStated : other.statedAccessibility? with
        | none =>
            exact (accessibility_eq_of_bare unhidden member inside otherStated otherDecided
              decided).symm
        | some otherAccess =>
            rw [Source.TypeDeclaration.accessibility_of_stated stated decided,
              Source.TypeDeclaration.accessibility_of_stated otherStated otherDecided]
            exact agreeing.stated part inside other member access stated otherAccess otherStated

end Parts

/-! ### The same parts in another order -/

/-- The declarations of a full name with all names resolved. -/
def resolvedParts (files : List Source.File) (name : String) : List TypeDeclaration :=
  (declaredAs files name).map (NameTable.ofFiles files).declaration

/-- The other files declare the parts of a name in another order. -/
def Reorders (files other : List Source.File) (name : String) : Prop :=
  (resolvedParts other name).Perm (resolvedParts files name)

/-- Types that differ in their accessibility, the order of their members and in how often they
repeat an interface, if in anything. -/
structure SameUpToOrder (type other : TypeDeclaration) : Prop where
  kind_eq : other.kind = type.kind
  isGeneric_eq : other.isGeneric = type.isGeneric
  isAbstract_eq : other.isAbstract = type.isAbstract
  isStatic_eq : other.isStatic = type.isStatic
  base_eq : other.base? = type.base?
  interfaces_iff : ∀ name, name ∈ other.interfaces ↔ name ∈ type.interfaces
  attributes_perm : other.attributes.Perm type.attributes
  methods_perm : other.methods.Perm type.methods

namespace Joins

variable {first type : TypeDeclaration} {later : List TypeDeclaration}

theorem mem_interfaces_iff (joins : Joins first later type) (name : String) :
    name ∈ type.interfaces ↔ ∃ part ∈ first :: later, name ∈ part.interfaces := by
  rw [joins.interfaces_eq, FirstOccurrence.mem_append_eraseDups_removeAll, List.mem_flatMap,
    List.exists_mem_cons_iff]

/-- The first part alone can repeat an interface. -/
theorem count_interfaces (joins : Joins first later type) {name : String}
    (member : name ∈ type.interfaces) :
    type.interfaces.count name = max 1 (first.interfaces.count name) := by
  rw [joins.interfaces_eq, List.mem_append] at member
  rw [joins.interfaces_eq, List.count_append]
  by_cases known : name ∈ first.interfaces
  · have once := List.count_pos_iff.mpr known
    have nothing_more : name ∉
        ((later.flatMap TypeDeclaration.interfaces).removeAll first.interfaces).eraseDups := by
      simp [List.removeAll, known]
    rw [List.count_eq_zero.mpr nothing_more]
    omega
  · rw [List.count_eq_zero.mpr known,
      List.count_eq_one_of_mem (FirstOccurrence.nodup_eraseDups _) (member.resolve_left known)]
    rfl

theorem accessibility_of_first (joins : Joins first later type)
    (decided : first.accessibility ≠ .internal) : type.accessibility = first.accessibility := by
  rw [joins.accessibility_eq]
  simp [decided]

variable {first' type' : TypeDeclaration} {later' : List TypeDeclaration}

theorem mem_interfaces_iff_of_perm (joins : Joins first later type)
    (joins' : Joins first' later' type') (perm : (first' :: later').Perm (first :: later))
    (name : String) : name ∈ type'.interfaces ↔ name ∈ type.interfaces := by
  rw [joins'.mem_interfaces_iff, joins.mem_interfaces_iff]
  simp only [perm.mem_iff]

/-- Parts of one kind that have one base class make the same type in every order. -/
theorem sameUpToOrder (joins : Joins first later type) (joins' : Joins first' later' type')
    (perm : (first' :: later').Perm (first :: later))
    (kinds : AllAgree TypeDeclaration.kind (first :: later))
    (generic : AllAgree TypeDeclaration.isGeneric (first :: later))
    (bases : AgreeWherePresent TypeDeclaration.base? (first :: later)) :
    SameUpToOrder type type' := by
  have member : first' ∈ first :: later := perm.mem_iff.mp List.mem_cons_self
  refine ⟨?_, ?_, ?_, ?_, ?_, ?_, ?_, ?_⟩
  · rw [joins'.kind_eq, joins.kind_eq]
    exact kinds first' member first List.mem_cons_self
  · rw [joins'.isGeneric_eq, joins.isGeneric_eq]
    exact generic first' member first List.mem_cons_self
  · rw [joins'.isAbstract_eq, joins.isAbstract_eq, perm.any_eq]
  · rw [joins'.isStatic_eq, joins.isStatic_eq, perm.any_eq]
  · rw [joins'.base_eq, joins.base_eq]
    exact findSome?_eq_of_perm bases perm
  · exact joins.mem_interfaces_iff_of_perm joins' perm
  · rw [joins'.attributes_eq, joins.attributes_eq]
    exact perm.flatMap_right TypeDeclaration.attributes
  · rw [joins'.methods_eq, joins.methods_eq]
    exact perm.flatMap_right TypeDeclaration.methods

theorem accessibility_eq_of_perm (joins : Joins first later type)
    (joins' : Joins first' later' type') (perm : (first' :: later').Perm (first :: later))
    (alike : ∀ part ∈ first :: later, ∀ other ∈ first :: later, part.accessibility ≠ .internal →
      other.accessibility ≠ .internal → part.accessibility = other.accessibility) :
    type'.accessibility = type.accessibility := by
  rw [joins'.accessibility_eq, joins.accessibility_eq, List.find?_eq_findSome?_guard,
    List.find?_eq_findSome?_guard]
  congr 1
  refine findSome?_eq_of_perm (agreeWherePresent_map.mpr ?_)
    (perm.map TypeDeclaration.accessibility)
  intro part inside other member access here otherAccess there
  simp only [Option.mem_def, Option.guard_eq_some_iff, decide_eq_true_eq] at here there
  obtain ⟨rfl, decided⟩ := here
  obtain ⟨rfl, otherDecided⟩ := there
  exact alike part inside other member decided otherDecided

theorem interfaces_perm (joins : Joins first later type) (joins' : Joins first' later' type')
    (perm : (first' :: later').Perm (first :: later))
    (alike : ∀ part ∈ first :: later, ∀ other ∈ first :: later, ∀ name ∈ part.interfaces,
      part.interfaces.count name = max 1 (other.interfaces.count name)) :
    type'.interfaces.Perm type.interfaces := by
  have same := joins.mem_interfaces_iff_of_perm joins' perm
  rw [List.perm_iff_count]
  intro name
  by_cases known : name ∈ type.interfaces
  · obtain ⟨part, inside, present⟩ := (joins.mem_interfaces_iff name).mp known
    have member : first' ∈ first :: later := perm.mem_iff.mp List.mem_cons_self
    rw [joins.count_interfaces known, joins'.count_interfaces ((same name).mpr known),
      ← alike part inside first List.mem_cons_self name present,
      ← alike part inside first' member name present]
  · rw [List.count_eq_zero.mpr known, List.count_eq_zero.mpr (mt (same name).mp known)]

end Joins

/-! ### Files in another order -/

section Files

variable {files other : List Source.File} {name : String}

theorem exists_joins_of_get? {type : TypeDeclaration}
    (found : (assemble files).get? name = some type) :
    ∃ first later, resolvedParts files name = first :: later ∧ Joins first later type := by
  have joined := joined?_of_mem (SymbolGraph.mem_of_get?_eq_some found)
  rw [SymbolGraph.fullName_of_get?_eq_some found] at joined
  obtain ⟨first, later, parts, joins⟩ := exists_joins_of_joined? joined
  exact ⟨_, _, by rw [resolvedParts, parts, List.map_cons], joins⟩

theorem exists_get?_of_declares (declares : Declares files name) :
    ∃ type, (assemble files).get? name = some type := by
  obtain ⟨part, inside, named⟩ := declares
  have known : name ∈ (assemble files).types.map TypeDeclaration.fullName := by
    rw [fullNames_assemble, List.mem_eraseDups, List.mem_map]
    exact ⟨part, inside, named⟩
  obtain ⟨type, member, rfl⟩ := List.mem_map.mp known
  exact ⟨type, SymbolGraph.get?_fullName_of_nodup (nodup_fullNames_assemble files) member⟩

theorem declares_iff_resolvedParts : Declares files name ↔ resolvedParts files name ≠ [] := by
  rw [resolvedParts, Ne, List.map_eq_nil_iff, declaredAs, List.filter_eq_nil_iff]
  simp [Declares]

theorem Reorders.declares (reorders : Reorders files other name) (declares : Declares files name) :
    Declares other name := by
  rw [declares_iff_resolvedParts] at declares ⊢
  intro nothing
  apply declares
  rw [Reorders, nothing] at reorders
  exact reorders.symm.eq_nil

theorem reorders_of_agrees (perm : (declared other).Perm (declared files))
    (agrees : (NameTable.ofFiles other).Agrees (NameTable.ofFiles files)) :
    Reorders files other name := by
  rw [Reorders, resolvedParts, agrees.declaration_eq]
  exact (perm.filter _).map _

/-- Files in another order, as far as this does not change what the names stand for. -/
theorem reorders_of_perm (perm : other.Perm files)
    (usings : other.flatMap Source.File.globalUsings = files.flatMap Source.File.globalUsings)
    (kinds : ∀ name, AllAgree Source.TypeDeclaration.kind (declaredAs files name)) :
    Reorders files other name := by
  have types : (declared other).Perm (declared files) := perm.flatMap_right Source.File.types
  refine reorders_of_agrees types ⟨?_, ?_⟩
  · rw [NameTable.globalUsings_ofFiles, NameTable.globalUsings_ofFiles, usings]
  · intro name
    rw [NameTable.kind?_ofFiles, NameTable.kind?_ofFiles]
    exact map_head?_eq_of_perm (kinds name) (types.filter _)

/-- One file with a declaration before the others, and with all names that are in use. -/
def inFront (files : List Source.File) (part : Source.TypeDeclaration)
    (others : List Source.TypeDeclaration) : List Source.File :=
  [{ globalUsings := files.flatMap Source.File.globalUsings, types := part :: others }]

theorem declared_inFront (files : List Source.File) (part : Source.TypeDeclaration)
    (others : List Source.TypeDeclaration) :
    declared (inFront files part others) = part :: others := by
  rw [declared, inFront, List.flatMap_singleton]

section InFront

variable {part : Source.TypeDeclaration} {before after : List Source.TypeDeclaration}

/-- Moving a part changes no kind if the parts of its name are of one. -/
theorem agrees_inFront (split : declared files = before ++ part :: after)
    (kinds : ∀ other ∈ declaredAs files part.fullName, part.kind = other.kind) :
    (NameTable.ofFiles (inFront files part (before ++ after))).Agrees (NameTable.ofFiles files) where
  globalUsings_eq := by
    rw [NameTable.globalUsings_ofFiles, NameTable.globalUsings_ofFiles, inFront,
      List.flatMap_singleton]
  kind?_eq := by
    intro name
    rw [NameTable.kind?_ofFiles, NameTable.kind?_ofFiles]
    by_cases same : part.fullName = name
    · subst same
      have member : part ∈ declaredAs files part.fullName :=
        List.mem_filter.mpr ⟨by simp [split], beq_self_eq_true _⟩
      obtain ⟨first, later, parts⟩ := List.exists_cons_of_ne_nil (List.ne_nil_of_mem member)
      have kind_eq := kinds first (by simp [parts])
      rw [parts, declaredAs, declared_inFront]
      simp [kind_eq]
    · rw [declaredAs, declaredAs, declared_inFront, split]
      simp [same]

/-- Each part can be the first one. -/
theorem exists_reorders_first
    (kinds : AllAgree Source.TypeDeclaration.kind (declaredAs files name))
    (member : part ∈ declaredAs files name) :
    ∃ other later, Reorders files other name ∧
      resolvedParts other name = (NameTable.ofFiles files).declaration part :: later := by
  have named := fullName_of_mem_declaredAs member
  obtain ⟨before, after, split⟩ := List.append_of_mem (List.mem_filter.mp member).1
  have agrees : (NameTable.ofFiles (inFront files part (before ++ after))).Agrees
      (NameTable.ofFiles files) := by
    refine agrees_inFront split ?_
    rw [named]
    exact kinds part member
  have perm : (declared (inFront files part (before ++ after))).Perm (declared files) := by
    rw [declared_inFront, split]
    exact List.perm_middle.symm
  have parts : declaredAs (inFront files part (before ++ after)) name =
      part :: (before ++ after).filter fun type => type.fullName == name := by
    rw [declaredAs, declared_inFront, List.filter_cons_of_pos (by simp [named])]
  refine ⟨inFront files part (before ++ after),
    ((before ++ after).filter fun type => type.fullName == name).map
      (NameTable.ofFiles files).declaration, reorders_of_agrees perm agrees, ?_⟩
  rw [resolvedParts, agrees.declaration_eq, parts, List.map_cons]

end InFront

/-- The type of a name has a property in whichever order its parts are added. -/
def InEveryOrder (files : List Source.File) (name : String) (holds : TypeDeclaration → Prop) :
    Prop :=
  ∀ other, Reorders files other name → ∃ type, (assemble other).get? name = some type ∧ holds type

theorem inEveryOrder_of_joins {holds : TypeDeclaration → Prop} (declares : Declares files name)
    (joined : ∀ first later type, (first :: later).Perm (resolvedParts files name) →
      Joins first later type → holds type) : InEveryOrder files name holds := by
  intro other reorders
  obtain ⟨type, found⟩ := exists_get?_of_declares (reorders.declares declares)
  obtain ⟨first, later, parts, joins⟩ := exists_joins_of_get? found
  rw [Reorders, parts] at reorders
  exact ⟨type, found, joined first later type reorders joins⟩

theorem InEveryOrder.exists_joins {holds : TypeDeclaration → Prop}
    (every : InEveryOrder files name holds)
    (kinds : AllAgree Source.TypeDeclaration.kind (declaredAs files name))
    {part : Source.TypeDeclaration} (member : part ∈ declaredAs files name) :
    ∃ later type, Joins ((NameTable.ofFiles files).declaration part) later type ∧ holds type := by
  obtain ⟨other, rest, reorders, order⟩ := exists_reorders_first kinds member
  obtain ⟨type, found, here⟩ := every other reorders
  obtain ⟨first, later, parts, joins⟩ := exists_joins_of_get? found
  obtain ⟨rfl, -⟩ := List.cons.inj (parts.symm.trans order)
  exact ⟨later, type, joins, here⟩

theorem inEveryOrder_sameUpToOrder {type : TypeDeclaration}
    (found : (assemble files).get? name = some type) (declares : Declares files name)
    (agreeing : AgreeingParts (NameTable.ofFiles files) (declaredAs files name)) :
    InEveryOrder files name (SameUpToOrder type) := by
  obtain ⟨first, later, parts, joins⟩ := exists_joins_of_get? found
  refine inEveryOrder_of_joins declares fun first' later' type' perm joins' => ?_
  rw [parts] at perm
  refine joins.sameUpToOrder joins' perm ?_ ?_ ?_
  all_goals rw [← parts, resolvedParts]
  · exact allAgree_map.mpr agreeing.kind
  · exact allAgree_map.mpr agreeing.isGeneric
  · exact agreeWherePresent_map.mpr agreeing.base

theorem inEveryOrder_accessibility_iff {type : TypeDeclaration}
    (found : (assemble files).get? name = some type) (declares : Declares files name)
    (kinds : AllAgree Source.TypeDeclaration.kind (declaredAs files name)) :
    InEveryOrder files name (fun other => other.accessibility = type.accessibility) ↔
      DecidesAlike (declaredAs files name) := by
  constructor
  · intro every
    have decides (part : Source.TypeDeclaration) (member : part ∈ declaredAs files name)
        (decided : part.accessibility ≠ .internal) : type.accessibility = part.accessibility := by
      obtain ⟨later, other, joins, same⟩ := every.exists_joins kinds member
      rw [← same]
      exact joins.accessibility_of_first decided
    intro part inside other member decided otherDecided
    rw [← decides part inside decided, decides other member otherDecided]
  · intro alike
    obtain ⟨first, later, parts, joins⟩ := exists_joins_of_get? found
    refine inEveryOrder_of_joins declares fun first' later' type' perm joins' => ?_
    rw [parts] at perm
    refine joins.accessibility_eq_of_perm joins' perm ?_
    rw [← parts, resolvedParts]
    simp only [List.forall_mem_map]
    exact alike

theorem inEveryOrder_interfaces_iff {type : TypeDeclaration}
    (found : (assemble files).get? name = some type) (declares : Declares files name)
    (kinds : AllAgree Source.TypeDeclaration.kind (declaredAs files name)) :
    InEveryOrder files name (fun other => other.interfaces.Perm type.interfaces) ↔
      RepeatsAlike (NameTable.ofFiles files) (declaredAs files name) := by
  constructor
  · intro every part inside other member interface present
    have counted (part : Source.TypeDeclaration) (inside : part ∈ declaredAs files name)
        (known : interface ∈ type.interfaces) : type.interfaces.count interface =
          max 1 (((NameTable.ofFiles files).splitBases part).2.count interface) := by
      obtain ⟨later, other, joins, perm⟩ := every.exists_joins kinds inside
      rw [← perm.count_eq]
      exact joins.count_interfaces (perm.mem_iff.mpr known)
    have known : interface ∈ type.interfaces := by
      obtain ⟨later, other, joins, perm⟩ := every.exists_joins kinds inside
      exact perm.mem_iff.mp ((joins.mem_interfaces_iff interface).mpr
        ⟨_, List.mem_cons_self, present⟩)
    have once := List.count_pos_iff.mpr present
    have here := counted part inside known
    have there := counted other member known
    omega
  · intro alike
    obtain ⟨first, later, parts, joins⟩ := exists_joins_of_get? found
    refine inEveryOrder_of_joins declares fun first' later' type' perm joins' => ?_
    rw [parts] at perm
    refine joins.interfaces_perm joins' perm ?_
    rw [← parts, resolvedParts]
    simp only [List.forall_mem_map]
    exact alike

/-- Parts that agree make one type in whichever order they are added, up to the order of its
members. Its accessibility is the same as well exactly if no nested part without an accessibility
hides another one, and its interfaces are if they are repeated alike. -/
theorem inEveryOrder_iff (declares : Declares files name)
    (agreeing : AgreeingParts (NameTable.ofFiles files) (declaredAs files name)) :
    ∃ type, (assemble files).get? name = some type ∧
      InEveryOrder files name (SameUpToOrder type) ∧
      (InEveryOrder files name (fun other => other.accessibility = type.accessibility) ↔
        ¬HidesAccess (declaredAs files name)) ∧
      (InEveryOrder files name (fun other => other.interfaces.Perm type.interfaces) ↔
        RepeatsAlike (NameTable.ofFiles files) (declaredAs files name)) := by
  obtain ⟨type, found⟩ := exists_get?_of_declares declares
  refine ⟨type, found, inEveryOrder_sameUpToOrder found declares agreeing, ?_, ?_⟩
  · rw [inEveryOrder_accessibility_iff found declares agreeing.kind]
    exact agreeing.decidesAlike_iff
  · exact inEveryOrder_interfaces_iff found declares agreeing.kind

end Files

/-! ### A class that is public or not -/

def publicShop : Source.TypeDeclaration :=
  { Source.TypeDeclaration.plain ⟨["Web"], [], [], []⟩ "Shop" with
    modifiers := ["public", "partial"] }

def bareCart : Source.TypeDeclaration :=
  { Source.TypeDeclaration.plain ⟨["Web"], ["Shop"], [], []⟩ "Cart" with modifiers := ["partial"] }

def publicCart : Source.TypeDeclaration :=
  { bareCart with modifiers := ["public", "partial"] }

def cartFiles : List Source.File :=
  [{ globalUsings := [], types := [publicShop, bareCart] },
   { globalUsings := [], types := [publicShop, publicCart] }]

theorem declaredAs_cartFiles : declaredAs cartFiles "Web.Shop.Cart" = [bareCart, publicCart] := by
  have outer : (publicShop.fullName == "Web.Shop.Cart") = false := by decide +kernel
  have bare : (bareCart.fullName == "Web.Shop.Cart") = true := by decide +kernel
  have wide : (publicCart.fullName == "Web.Shop.Cart") = true := by decide +kernel
  simp [declaredAs, declared, cartFiles, outer, bare, wide]

theorem agreeingParts_cartFiles : AgreeingParts (NameTable.ofFiles cartFiles)
    (declaredAs cartFiles "Web.Shop.Cart") := by
  have bare : bareCart.statedAccessibility? = none := by decide
  have stated : publicCart.statedAccessibility? = some .public := by decide
  have noBase (part : Source.TypeDeclaration) (unbased : part.bases = []) :
      ((NameTable.ofFiles cartFiles).splitBases part).1 = none := by
    simp [NameTable.splitBases, unbased]
  rw [declaredAs_cartFiles]
  refine ⟨?_, ?_, ?_, ?_⟩
  · simp [AllAgree, publicCart]
  · simp [AllAgree, publicCart]
  · simp [AgreeWherePresent, bare, stated]
  · simp [AgreeWherePresent, noBase bareCart rfl, noBase publicCart rfl]

theorem reorders_cartFiles : Reorders cartFiles cartFiles.reverse "Web.Shop.Cart" := by
  have classes : ∀ part ∈ declared cartFiles, part.kind = .class := by
    simp [declared, cartFiles, publicShop, bareCart, publicCart, Source.TypeDeclaration.plain]
  refine reorders_of_perm (List.reverse_perm cartFiles) rfl ?_
  intro name part inside other member
  rw [classes part (List.mem_filter.mp inside).1, classes other (List.mem_filter.mp member).1]

/-- The part without an accessibility makes the class private if it is the first one. -/
theorem inEveryOrder_iff_cart :
    Reorders cartFiles cartFiles.reverse "Web.Shop.Cart" ∧
      ∃ type, (assemble cartFiles).get? "Web.Shop.Cart" = some type ∧
        type.accessibility = .private ∧
        ¬InEveryOrder cartFiles "Web.Shop.Cart" fun other => other.accessibility = .private := by
  have declares : Declares cartFiles "Web.Shop.Cart" :=
    ⟨bareCart, by simp [declared, cartFiles], by decide +kernel⟩
  obtain ⟨type, found, -, accessibility_iff, -⟩ :=
    inEveryOrder_iff declares agreeingParts_cartFiles
  have hides : HidesAccess (declaredAs cartFiles "Web.Shop.Cart") := by
    rw [declaredAs_cartFiles]
    exact ⟨bareCart, by simp, by decide, by decide, publicCart, by simp, by decide, by decide⟩
  have summary : (assemble cartFiles).types.map
      (fun type => (type.fullName, type.accessibility)) =
        [("Web.Shop", .public), ("Web.Shop.Cart", .private)] := by
    decide +kernel
  have listed := List.mem_map_of_mem (f := fun type : TypeDeclaration =>
    (type.fullName, type.accessibility)) (SymbolGraph.mem_of_get?_eq_some found)
  have hidden : type.accessibility = .private := by
    simpa [summary, SymbolGraph.fullName_of_get?_eq_some found] using listed
  rw [hidden] at accessibility_iff
  exact ⟨reorders_cartFiles, type, found, hidden, fun every => accessibility_iff.mp every hides⟩

end Names

end ActionAtlas
