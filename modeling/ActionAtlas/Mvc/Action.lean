import ActionAtlas.Mvc.Marker
import ActionAtlas.Mvc.Model

/-!
Actions: which methods of a controller are actions, and what the model says of them.
-/

namespace ActionAtlas.Mvc

def isAction (method : MethodDeclaration) : Bool :=
  method.accessibility == .public && !method.isStatic && !method.kind.isSpecial
    && !method.isGeneric && !Marker.nonAction.marks method.attributes

/-- A name without an ending, unless nothing else would be left. -/
def withoutEnding (ending name : String) : String :=
  match Text.dropFinal? ending.toList name.toList with
  | some (c :: stem) => String.ofList (c :: stem)
  | _ => name

def actionName (methodName : String) : String :=
  withoutEnding "Async" methodName

/-- A default value counts only if it is a constant. -/
def ActionParameter.ofParameter (parameter : Parameter) : ActionParameter where
  name := parameter.name
  type := parameter.type.text
  default? := parameter.default?.bind Evaluated.constant?

def Action.ofMethod (method : MethodDeclaration) : Action where
  name := actionName method.name
  parameters := method.parameters.map ActionParameter.ofParameter

def actionsOf (type : TypeDeclaration) : List Action :=
  (type.methods.filter isAction).map Action.ofMethod

end ActionAtlas.Mvc
