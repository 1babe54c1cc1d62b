import Mathlib
import ActionAtlas.Mvc.Controller

/-!
What the model says of one controller: which methods are its actions, in which order, and what
each action keeps of its method.
-/

namespace ActionAtlas.Mvc

/-! ### Names without their endings -/

theorem withoutEnding_ne_empty (ending : String) {name : String} (named : name ≠ "") :
    withoutEnding ending name ≠ "" := by
  unfold withoutEnding
  split
  · intro empty
    have characters := congrArg String.toList empty
    simp at characters
  · exact named

/-! ### Methods that are actions -/

structure Eligible (method : MethodDeclaration) : Prop where
  isPublic : method.accessibility = .public
  notStatic : method.isStatic = false
  ordinary : method.kind = .ordinary
  notGeneric : method.isGeneric = false
  unmarked : ∀ applied ∈ method.attributes,
    applied.name ≠ "Microsoft.AspNetCore.Mvc.NonActionAttribute"

theorem isAction_iff (method : MethodDeclaration) : isAction method = true ↔ Eligible method := by
  have marked : Marker.nonAction.marks method.attributes = true ↔ _ :=
    Marker.marks_iff rfl method.attributes
  constructor
  · intro action
    simp only [isAction, MethodKind.isSpecial, Bool.and_eq_true, beq_iff_eq, Bool.not_eq_true',
      bne_eq_false_iff_eq] at action
    obtain ⟨⟨⟨⟨isPublic, notStatic⟩, ordinary⟩, notGeneric⟩, unmarked⟩ := action
    refine ⟨isPublic, notStatic, ordinary, notGeneric, ?_⟩
    intro applied member same
    rw [marked.mpr ⟨applied, member, same⟩] at unmarked
    cases unmarked
  · intro eligible
    have unmarked : Marker.nonAction.marks method.attributes = false := by
      rw [← Bool.not_eq_true, marked]
      rintro ⟨applied, member, same⟩
      exact eligible.unmarked applied member same
    simp [isAction, MethodKind.isSpecial, eligible.isPublic, eligible.notStatic, eligible.ordinary,
      eligible.notGeneric, unmarked]

instance : DecidablePred Eligible := fun method => decidable_of_iff _ (isAction_iff method)

def eligibleMethods (type : TypeDeclaration) : List MethodDeclaration :=
  type.methods.filter fun method => Eligible method

theorem filter_isAction (type : TypeDeclaration) :
    type.methods.filter isAction = eligibleMethods type := by
  apply List.filter_congr
  intro method _
  rw [Bool.eq_iff_iff, isAction_iff, decide_eq_true_iff]

theorem actionsOf_eq_nil_iff (type : TypeDeclaration) :
    actionsOf type = [] ↔ eligibleMethods type = [] := by
  rw [actionsOf, List.map_eq_nil_iff, filter_isAction]

/-! ### What a model keeps -/

/-- A parameter has a default value exactly if it declares one that is a constant. -/
structure ActionParameter.Describes (described : ActionParameter) (parameter : Parameter) :
    Prop where
  name_eq : described.name = parameter.name
  type_eq : described.type = parameter.type.text
  hasDefault_iff : described.hasDefault = true ↔
    ∃ value, parameter.default? = some (.constant value)
  default_iff : ∀ value, described.default? = some value ↔
    parameter.default? = some (.constant value)

structure Action.Describes (action : Action) (method : MethodDeclaration) : Prop where
  name_eq : action.name = actionName method.name
  name_ne : method.name ≠ "" → action.name ≠ ""
  parameters : List.Forall₂ ActionParameter.Describes action.parameters method.parameters

structure Controller.Describes (options : Options) (controller : Controller)
    (type : TypeDeclaration) : Prop where
  name_eq : controller.name = controllerName options type
  name_ne : type.shortName ≠ "" → controller.name ≠ ""
  actions : List.Forall₂ Action.Describes controller.actions (eligibleMethods type)

theorem ActionParameter.ofParameter_describes (parameter : Parameter) :
    (ofParameter parameter).Describes parameter := by
  have default_iff (value : Constant) : (ofParameter parameter).default? = some value ↔
      parameter.default? = some (.constant value) := by
    change parameter.default?.bind Evaluated.constant? = some value ↔ _
    rw [Option.bind_eq_some_iff]
    constructor
    · rintro ⟨written, found, known⟩
      cases written with
      | constant other =>
          have same : other = value := Option.some.inj known
          rw [found, same]
      | unresolved text => cases known
    · intro found
      exact ⟨.constant value, found, rfl⟩
  refine ⟨rfl, rfl, ?_, default_iff⟩
  rw [hasDefault, Option.isSome_iff_exists]
  exact exists_congr default_iff

theorem Action.ofMethod_describes (method : MethodDeclaration) :
    (ofMethod method).Describes method where
  name_eq := rfl
  name_ne := withoutEnding_ne_empty "Async"
  parameters := by
    change List.Forall₂ _ (method.parameters.map ActionParameter.ofParameter) _
    rw [List.forall₂_map_left_iff, List.forall₂_same]
    intro parameter _
    exact ActionParameter.ofParameter_describes parameter

def Controller.ofType (options : Options) (type : TypeDeclaration) : Controller where
  name := controllerName options type
  actions := actionsOf type

theorem Controller.ofType_describes (options : Options) (type : TypeDeclaration) :
    (ofType options type).Describes options type where
  name_eq := rfl
  name_ne := withoutEnding_ne_empty options.controllerSuffix
  actions := by
    change List.Forall₂ _ ((type.methods.filter isAction).map Action.ofMethod) _
    rw [filter_isAction, List.forall₂_map_left_iff, List.forall₂_same]
    intro method _
    exact Action.ofMethod_describes method

end ActionAtlas.Mvc
