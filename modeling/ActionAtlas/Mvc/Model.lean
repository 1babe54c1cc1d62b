import ActionAtlas.Graph.Writer

/-!
The result of a discovery: areas with their controllers, actions and parameters, and its JSON.
-/

namespace ActionAtlas.Mvc

open Json (Value)

structure ActionParameter where
  name : String
  type : String
  default? : Option Constant
deriving DecidableEq, Repr

structure Action where
  name : String
  parameters : List ActionParameter
deriving DecidableEq, Repr

structure Controller where
  name : String
  actions : List Action
deriving DecidableEq, Repr

/-- The controllers of one area. The empty name is the default area. -/
structure Area where
  name : String
  controllers : List Controller
deriving DecidableEq, Repr

def ActionParameter.hasDefault (parameter : ActionParameter) : Bool :=
  parameter.default?.isSome

def Controller.action? (controller : Controller) (name : String) : Option Action :=
  controller.actions.find? fun action => action.name == name

def Area.controller? (area : Area) (name : String) : Option Controller :=
  area.controllers.find? fun controller => controller.name == name

def ActionParameter.toJson (parameter : ActionParameter) : Value :=
  .object [("name", .string parameter.name), ("type", .string parameter.type),
    ("hasDefaultValue", .bool parameter.hasDefault),
    ("defaultValue", optionToJson Constant.toJson parameter.default?)]

def Action.toJson (action : Action) : Value :=
  .object [("name", .string action.name),
    ("parameters", .array (action.parameters.map ActionParameter.toJson))]

def Controller.toJson (controller : Controller) : Value :=
  .object [("name", .string controller.name),
    ("actions", .array (controller.actions.map Action.toJson))]

def Area.toJson (area : Area) : Value :=
  .object [("name", .string area.name),
    ("controllers", .array (area.controllers.map Controller.toJson))]

def modelToJson (areas : List Area) : Value :=
  .array (areas.map Area.toJson)

end ActionAtlas.Mvc
