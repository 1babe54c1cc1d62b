import ActionAtlas.Proofs.Mvc.Area
import ActionAtlas.Proofs.Mvc.Correspondence
import ActionAtlas.Proofs.Mvc.Discovery

/-!
What discovery sees of a graph. Types may differ in all that it does not look at, and stand in
another order, as long as each name leads to types that are seen alike.
-/

namespace ActionAtlas.Mvc

/-- All that discovery looks at is the same of two types. -/
structure SeenAlike (type other : TypeDeclaration) : Prop where
  name_eq : other.name = type.name
  namespaceName_eq : other.namespaceName = type.namespaceName
  class_iff : other.kind = .class ↔ type.kind = .class
  public_iff : other.accessibility = .public ↔ type.accessibility = .public
  isStatic_eq : other.isStatic = type.isStatic
  isGeneric_eq : other.isGeneric = type.isGeneric
  isAbstract_eq : other.isAbstract = type.isAbstract
  baseName?_eq : other.baseName? = type.baseName?
  nonController_eq :
    Marker.nonController.marks other.attributes = Marker.nonController.marks type.attributes
  /-- Both have an area marker with the same name of an area, if any, or neither has one. -/
  areaMarker_eq : (Marker.area.find? other.attributes).map areaArgument? =
    (Marker.area.find? type.attributes).map areaArgument?
  actions_eq : actionsOf other = actionsOf type

namespace SeenAlike

variable {type other : TypeDeclaration}

theorem refl (type : TypeDeclaration) : SeenAlike type type :=
  ⟨rfl, rfl, .rfl, .rfl, rfl, rfl, rfl, rfl, rfl, rfl, rfl⟩

theorem fullName_eq (alike : SeenAlike type other) : other.fullName = type.fullName := by
  rw [TypeDeclaration.fullName, alike.name_eq, alike.namespaceName_eq, TypeDeclaration.fullName]

theorem shortName_eq (alike : SeenAlike type other) : other.shortName = type.shortName := by
  rw [TypeDeclaration.shortName, alike.name_eq, TypeDeclaration.shortName]

end SeenAlike

theorem map_findSome?_of_forall₂ {types others : List TypeDeclaration}
    (alike : List.Forall₂ SeenAlike types others) :
    (others.findSome? fun type => Marker.area.find? type.attributes).map areaArgument? =
      (types.findSome? fun type => Marker.area.find? type.attributes).map areaArgument? := by
  induction alike with
  | nil => rfl
  | @cons type other _ _ first _ ih =>
      have marker := first.areaMarker_eq
      rw [List.findSome?_cons, List.findSome?_cons]
      cases found : Marker.area.find? type.attributes with
      | none =>
          rw [found, Option.map_none, Option.map_eq_none_iff] at marker
          rw [marker]
          exact ih
      | some applied =>
          rw [found, Option.map_some] at marker
          obtain ⟨applied', found', -⟩ := Option.map_eq_some_iff.mp marker
          rw [found'] at marker ⊢
          exact marker

/-! ### Controllers that are seen alike -/

namespace SeenAlike

variable {graph other : SymbolGraph} {type type' : TypeDeclaration} (options : Options)

theorem isController_eq (alike : SeenAlike type type')
    (descends : descendsFromBase options other type' = descendsFromBase options graph type) :
    isController options other type' = isController options graph type := by
  have isClass : (type'.kind == .class) = (type.kind == .class) := by
    rw [Bool.eq_iff_iff, beq_iff_eq, beq_iff_eq, alike.class_iff]
  have isPublic : (type'.accessibility == .public) = (type.accessibility == .public) := by
    rw [Bool.eq_iff_iff, beq_iff_eq, beq_iff_eq, alike.public_iff]
  rw [isController, isController, isClass, isPublic, alike.isStatic_eq, alike.isGeneric_eq,
    alike.isAbstract_eq, alike.nonController_eq, descends]

theorem controllerOf?_eq (alike : SeenAlike type type')
    (descends : descendsFromBase options other type' = descendsFromBase options graph type)
    (area : areaOf other type' = areaOf graph type) :
    controllerOf? options other type' = controllerOf? options graph type := by
  rw [controllerOf?, controllerOf?, alike.isController_eq options descends, area, controllerName,
    controllerName, alike.shortName_eq, alike.actions_eq]

end SeenAlike

/-! ### Graphs in which names lead to the same -/

/-- Graphs of one size in which each name leads to types that are seen alike, or to none. -/
structure SameLookup (graph other : SymbolGraph) : Prop where
  length_eq : other.types.length = graph.types.length
  lookup : ∀ name, Option.Rel SeenAlike (graph.get? name) (other.get? name)

namespace SameLookup

variable {graph other : SymbolGraph} {type type' : TypeDeclaration}

theorem correspondence (same : SameLookup graph other) :
    Correspondence graph other SeenAlike where
  fullName_eq := fun _ _ alike => alike.fullName_eq
  baseName?_eq := fun _ _ alike => alike.baseName?_eq
  above := by
    intro type type' alike
    rw [SymbolGraph.baseOf?, SymbolGraph.baseOf?, alike.baseName?_eq]
    cases type.baseName? with
    | none => exact .none
    | some name => exact same.lookup name

theorem areaOf_eq (same : SameLookup graph other) (alike : SeenAlike type type') :
    areaOf other type' = areaOf graph type := by
  have above := same.correspondence.lineage same.length_eq alike
  have marker : (areaMarker? other type').map areaArgument? =
      (areaMarker? graph type).map areaArgument? := by
    exact map_findSome?_of_forall₂ above
  have area := congrArg (Option.bind · id) marker
  simp only [Option.bind_map, Function.id_comp] at area
  rw [Mvc.areaOf_eq, Mvc.areaOf_eq, area]

variable (options : Options)

theorem isController_eq (same : SameLookup graph other) (alike : SeenAlike type type') :
    isController options other type' = isController options graph type :=
  alike.isController_eq options
    (same.correspondence.descendsFromBase_eq options same.length_eq alike)

theorem controllerOf?_eq (same : SameLookup graph other) (alike : SeenAlike type type') :
    controllerOf? options other type' = controllerOf? options graph type :=
  alike.controllerOf?_eq options
    (same.correspondence.descendsFromBase_eq options same.length_eq alike) (same.areaOf_eq alike)

end SameLookup

/-! ### Types that are seen alike one by one -/

section

variable {graph other : SymbolGraph}

theorem sameLookup_of_forall₂ (alike : List.Forall₂ SeenAlike graph.types other.types) :
    SameLookup graph other where
  length_eq := alike.length_eq.symm
  lookup := rel_get?_of_forall₂ (fun _ _ alike => alike.fullName_eq) alike

theorem filterMap_eq_of_forall₂ {found? found?' : TypeDeclaration → Option (String × Controller)}
    (same : ∀ type type', SeenAlike type type' → found?' type' = found? type)
    {types others : List TypeDeclaration} (alike : List.Forall₂ SeenAlike types others) :
    others.filterMap found?' = types.filterMap found? := by
  induction alike with
  | nil => rfl
  | cons first _ ih => rw [List.filterMap_cons, List.filterMap_cons, same _ _ first, ih]

/-- Graphs whose types are seen alike, one by one, have one model. -/
theorem discover_eq_of_forall₂ (alike : List.Forall₂ SeenAlike graph.types other.types)
    (options : Options) : discover options other = discover options graph := by
  have same := sameLookup_of_forall₂ alike
  have found : controllers options other = controllers options graph :=
    filterMap_eq_of_forall₂ (fun _ _ alike => same.controllerOf?_eq options alike) alike
  rw [discover_eq, discover_eq, same.length_eq, found]

end

end ActionAtlas.Mvc
