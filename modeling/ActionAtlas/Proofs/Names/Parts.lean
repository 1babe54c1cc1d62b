import ActionAtlas.Proofs.Names.Table

/-!
Joining the parts of one type. The first part gives the type its name and kind, and the others are
joined to it one after the other; what this makes is said by the parts in their order.
-/

namespace ActionAtlas.Names

/-- The type is the first part with the later ones joined to it. -/
structure Joins (first : TypeDeclaration) (later : List TypeDeclaration) (type : TypeDeclaration) :
    Prop where
  name_eq : type.name = first.name
  namespaceName_eq : type.namespaceName = first.namespaceName
  kind_eq : type.kind = first.kind
  isGeneric_eq : type.isGeneric = first.isGeneric
  /-- The first part that is not internal decides. -/
  accessibility_eq : type.accessibility =
    (((first :: later).map TypeDeclaration.accessibility).find? (· ≠ .internal)).getD .internal
  isAbstract_eq : type.isAbstract = (first :: later).any TypeDeclaration.isAbstract
  isStatic_eq : type.isStatic = (first :: later).any TypeDeclaration.isStatic
  base_eq : type.base? = (first :: later).findSome? TypeDeclaration.base?
  interfaces_eq : type.interfaces = first.interfaces ++
    ((later.flatMap TypeDeclaration.interfaces).removeAll first.interfaces).eraseDups
  attributes_eq : type.attributes = (first :: later).flatMap TypeDeclaration.attributes
  methods_eq : type.methods = (first :: later).flatMap TypeDeclaration.methods

namespace Joins

variable {first type part : TypeDeclaration} {later : List TypeDeclaration}

theorem alone (first : TypeDeclaration) : Joins first [] first where
  name_eq := rfl
  namespaceName_eq := rfl
  kind_eq := rfl
  isGeneric_eq := rfl
  accessibility_eq := by
    by_cases internal : first.accessibility = .internal
    · simp [internal]
    · simp [internal]
  isAbstract_eq := by simp
  isStatic_eq := by simp
  base_eq := by simp
  interfaces_eq := by simp
  attributes_eq := by simp
  methods_eq := by simp

theorem fullName_eq (joins : Joins first later type) : type.fullName = first.fullName := by
  rw [TypeDeclaration.fullName, joins.name_eq, joins.namespaceName_eq, TypeDeclaration.fullName]

theorem mergePart (joins : Joins first later type) (part : TypeDeclaration) :
    Joins first (later ++ [part]) (mergePart type part) where
  name_eq := joins.name_eq
  namespaceName_eq := joins.namespaceName_eq
  kind_eq := joins.kind_eq
  isGeneric_eq := joins.isGeneric_eq
  accessibility_eq := by
    change (if type.accessibility = .internal then part.accessibility else type.accessibility) = _
    rw [joins.accessibility_eq, ← List.cons_append, List.map_append, List.find?_append]
    cases found : ((first :: later).map TypeDeclaration.accessibility).find? (· ≠ .internal) with
    | none =>
        by_cases internal : part.accessibility = .internal
        · simp [internal]
        · simp [internal]
    | some decided =>
        have outer : decided ≠ .internal := by simpa using List.find?_some found
        simp [outer]
  isAbstract_eq := by
    change (type.isAbstract || part.isAbstract) = _
    simp [joins.isAbstract_eq, Bool.or_assoc]
  isStatic_eq := by
    change (type.isStatic || part.isStatic) = _
    simp [joins.isStatic_eq, Bool.or_assoc]
  base_eq := by
    change type.base?.or part.base? = _
    rw [joins.base_eq, ← List.cons_append, List.findSome?_append, List.findSome?_singleton]
  interfaces_eq := by
    change NameTable.addNew type.interfaces part.interfaces = _
    have cut : ((later ++ [part]).flatMap TypeDeclaration.interfaces).removeAll first.interfaces =
        (later.flatMap TypeDeclaration.interfaces).removeAll first.interfaces ++
          part.interfaces.removeAll first.interfaces := by
      rw [List.flatMap_append, List.flatMap_singleton]
      exact List.filter_append ..
    rw [NameTable.addNew_eq, cut, List.eraseDups_append, joins.interfaces_eq, List.append_assoc]
    congr 3
    -- What is new to all parts so far is what is new to the first and then to the later ones.
    simp [List.removeAll, List.filter_filter, Bool.and_comm]
  attributes_eq := by
    change type.attributes ++ part.attributes = _
    simp [joins.attributes_eq]
  methods_eq := by
    change type.methods ++ part.methods = _
    simp [joins.methods_eq]

/-- Joining all later parts in their order. -/
theorem foldl_mergePart (first : TypeDeclaration) (later : List TypeDeclaration) :
    Joins first later (later.foldl Names.mergePart first) := by
  induction later using List.reverseRecOn with
  | nil => exact alone first
  | append_singleton before part ih =>
      rw [List.foldl_concat]
      exact ih.mergePart part

end Joins

end ActionAtlas.Names
