import ActionAtlas.Proofs.Mvc.Seen

/-!
The view of a type: what of it can have an influence on a model. Everything else, such as
interfaces, other attributes, methods that are no actions, the type arguments of a base or the text
of a default value without a constant, cannot.
-/

namespace ActionAtlas

namespace Mvc

structure ParameterView where
  name : String
  typeText : String
  constant? : Option Constant
deriving DecidableEq

structure MethodView where
  actionName : String
  parameters : List ParameterView
deriving DecidableEq

structure TypeView where
  namespaceName : String
  name : String
  isClass : Bool
  isPublic : Bool
  isStatic : Bool
  isGeneric : Bool
  isAbstract : Bool
  baseName? : Option String
  isMarkedNonController : Bool
  /-- Whether there is an area marker, and the text that is the first argument of the first one. -/
  area? : Option (Option String)
  eligible : List MethodView
deriving DecidableEq

end Mvc

open Mvc

namespace Evaluated

def text? : Evaluated → Option String
  | .constant (.string text) => some text
  | _ => none

end Evaluated

def Parameter.view (parameter : Parameter) : ParameterView where
  name := parameter.name
  typeText := parameter.type.text
  constant? :=
    match parameter.default? with
    | some (.constant value) => some value
    | _ => none

def MethodDeclaration.view (method : MethodDeclaration) : MethodView where
  actionName := actionName method.name
  parameters := method.parameters.map Parameter.view

def TypeDeclaration.view (type : TypeDeclaration) : TypeView where
  namespaceName := type.namespaceName
  name := type.name
  isClass := type.kind = .class
  isPublic := type.accessibility = .public
  isStatic := type.isStatic
  isGeneric := type.isGeneric
  isAbstract := type.isAbstract
  baseName? := type.baseName?
  isMarkedNonController := type.attributes.any fun applied =>
    applied.name = "Microsoft.AspNetCore.Mvc.NonControllerAttribute"
  area? := (firstAreaMarker? type).map fun marker => marker.arguments.head?.bind Evaluated.text?
  eligible := (eligibleMethods type).map MethodDeclaration.view

namespace Mvc

/-! ### What is read off a view -/

theorem marks_nonController_eq (type : TypeDeclaration) :
    Marker.nonController.marks type.attributes = type.view.isMarkedNonController := by
  rw [Bool.eq_iff_iff, Marker.marks_iff rfl type.attributes]
  simp only [TypeDeclaration.view, List.any_eq_true, decide_eq_true_eq]

theorem areaArgument?_eq (marker : Attribute) :
    areaArgument? marker = marker.arguments.head?.bind Evaluated.text? := by
  rw [areaArgument?, Option.bind_assoc]
  refine Option.bind_congr fun written _ => ?_
  cases written with
  | unresolved text => rfl
  | constant value => cases value <;> rfl

theorem map_areaArgument?_eq (type : TypeDeclaration) :
    (Marker.area.find? type.attributes).map areaArgument? = type.view.area? := by
  rw [Marker.find?_area, funext areaArgument?_eq]
  rfl

def ParameterView.parameter (view : ParameterView) : ActionParameter where
  name := view.name
  type := view.typeText
  default? := view.constant?

def MethodView.action (view : MethodView) : Action where
  name := view.actionName
  parameters := view.parameters.map ParameterView.parameter

theorem parameter_view (parameter : Parameter) :
    parameter.view.parameter = ActionParameter.ofParameter parameter := by
  have constant : parameter.view.constant? = parameter.default?.bind Evaluated.constant? := by
    rw [Parameter.view]
    cases parameter.default? with
    | none => rfl
    | some written => cases written <;> rfl
  rw [ParameterView.parameter, constant]
  rfl

theorem action_view (method : MethodDeclaration) :
    method.view.action = Action.ofMethod method := by
  rw [MethodView.action, MethodDeclaration.view, List.map_map, Action.ofMethod]
  exact congrArg (Action.mk _) (List.map_congr_left fun parameter _ => parameter_view parameter)

theorem actionsOf_eq_map (type : TypeDeclaration) :
    actionsOf type = type.view.eligible.map MethodView.action := by
  rw [actionsOf, filter_isAction, TypeDeclaration.view, List.map_map]
  exact List.map_congr_left fun method _ => (action_view method).symm

/-! ### Types of one view -/

theorem seenAlike_of_view_eq {type other : TypeDeclaration} (same : type.view = other.view) :
    SeenAlike type other where
  name_eq := (congrArg TypeView.name same).symm
  namespaceName_eq := (congrArg TypeView.namespaceName same).symm
  class_iff := (decide_eq_decide.mp (congrArg TypeView.isClass same)).symm
  public_iff := (decide_eq_decide.mp (congrArg TypeView.isPublic same)).symm
  isStatic_eq := (congrArg TypeView.isStatic same).symm
  isGeneric_eq := (congrArg TypeView.isGeneric same).symm
  isAbstract_eq := (congrArg TypeView.isAbstract same).symm
  baseName?_eq := (congrArg TypeView.baseName? same).symm
  nonController_eq := by rw [marks_nonController_eq, marks_nonController_eq, same]
  areaMarker_eq := by rw [map_areaArgument?_eq, map_areaArgument?_eq, same]
  actions_eq := by rw [actionsOf_eq_map, actionsOf_eq_map, same]

/-- Graphs whose types have the same views, in the same order, have the same model. -/
theorem discover_eq_of_view_eq (options : Options) {graph other : SymbolGraph}
    (same : graph.types.map TypeDeclaration.view = other.types.map TypeDeclaration.view) :
    discover options graph = discover options other := by
  have views : List.Forall₂ (fun type type' => type.view = type'.view)
      graph.types other.types := by
    rwa [← List.forall₂_eq_eq_eq, List.forall₂_map_left_iff, List.forall₂_map_right_iff] at same
  exact (discover_eq_of_forall₂ (views.imp fun _ _ => seenAlike_of_view_eq) options).symm

def pagedMethod (type : TypeShape) (default? : Option Evaluated) (attributes : List Attribute) :
    MethodDeclaration where
  name := "ListAsync"
  kind := .ordinary
  accessibility := .public
  isStatic := false
  isGeneric := false
  attributes
  parameters := [⟨"page", type, default?⟩]

/-- A controller that has its area from its base, and a type that is no class. -/
def ledger : SymbolGraph :=
  .indexed [{ TypeDeclaration.plainClass "Books" "LedgerController"
        (some "Books.Page<Books.Entry>") [] with
      interfaces := ["Books.ILedger"]
      methods := [pagedMethod (.primitive .int) (some (.unresolved "First")) []] },
    { TypeDeclaration.plainClass "Books" "Page" (some "Microsoft.AspNetCore.Mvc.Controller") [] with
      isAbstract := true
      attributes := [⟨"Microsoft.AspNetCore.Mvc.AreaAttribute",
        [.constant (.string "Books"), .constant (.int 1)]⟩] },
    { TypeDeclaration.plainClass "Books" "Entry" none ["Total"] with kind := .struct }]

/-- The same as far as a model can tell. -/
def otherLedger : SymbolGraph :=
  .unindexed [{ TypeDeclaration.plainClass "Books" "LedgerController"
        (some "Books.Page <string>") [] with
      attributes := [⟨"Books.NoteAttribute", [.unresolved "Areas.Books"]⟩]
      methods := [{ pagedMethod (.primitive .int) none [] with isStatic := true },
        pagedMethod (.named "int") none [⟨"Books.NoteAttribute", []⟩]] },
    { TypeDeclaration.plainClass "Books" "Page" (some "Microsoft.AspNetCore.Mvc.Controller") [] with
      isAbstract := true
      attributes := [⟨"Books.NoteAttribute", []⟩, ⟨"Microsoft.AspNetCore.Mvc.AreaAttribute",
        [.constant (.string "Books")]⟩, ⟨"Microsoft.AspNetCore.Mvc.AreaAttribute", []⟩] },
    { TypeDeclaration.plainClass "Books" "Entry" none ["Total"] with kind := .record }]

theorem discover_eq_of_view_eq_ledger :
    ledger.types.map TypeDeclaration.view = otherLedger.types.map TypeDeclaration.view ∧
      discover frameworkOptions ledger = discover frameworkOptions otherLedger ∧
      (controllers frameworkOptions otherLedger).map
          (fun pair => (pair.1, pair.2.name, pair.2.actions)) =
        [("Books", "Ledger", [⟨"List", [⟨"page", "int", none⟩]⟩])] := by
  have same : ledger.types.map TypeDeclaration.view =
      otherLedger.types.map TypeDeclaration.view := by
    decide +kernel
  exact ⟨same, discover_eq_of_view_eq frameworkOptions same, by decide +kernel⟩

end Mvc

end ActionAtlas
