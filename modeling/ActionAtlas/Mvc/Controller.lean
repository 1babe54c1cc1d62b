import ActionAtlas.Graph.Lineage
import ActionAtlas.Mvc.Action
import ActionAtlas.Mvc.Options

/-!
Controllers: which types are controllers, their area and their name.
-/

namespace ActionAtlas.Mvc

structure BaseSearch where
  met : List String
  next? : Option String

namespace BaseSearch

inductive Outcome where
  | answered (answer : Bool)
  | further (search : BaseSearch)

/-- The search begins at the base of a type; the type itself counts as met. -/
def start (type : TypeDeclaration) : BaseSearch :=
  ⟨[type.fullName], type.baseName?⟩

/-- Looks at one base. A controller base answers the search. A base met before and a base that
has none itself, or is not declared, end it. -/
def step (options : Options) (graph : SymbolGraph) (search : BaseSearch) : Outcome :=
  match search.next? with
  | none => .answered false
  | some base =>
    if options.controllerBases.contains base then .answered true
    else if search.met.contains base then .answered false
    else .further ⟨base :: search.met, (graph.get? base).bind TypeDeclaration.baseName?⟩

def answer? (options : Options) (graph : SymbolGraph) : Nat → BaseSearch → Option Bool
  | 0, _ => none
  | steps + 1, search =>
    match search.step options graph with
    | .answered answer => some answer
    | .further next => answer? options graph steps next

end BaseSearch

/-- Whether a base of the type, however far, is one of the controller bases. Each step but the last
two meets another type of the graph, so there are steps enough for any search. -/
def descendsFromBase (options : Options) (graph : SymbolGraph) (type : TypeDeclaration) : Bool :=
  ((BaseSearch.start type).answer? options graph (graph.types.length + 2)).getD false

def isController (options : Options) (graph : SymbolGraph) (type : TypeDeclaration) : Bool :=
  type.kind == .class && type.accessibility == .public && !type.isStatic && !type.isGeneric
    && !(options.skipAbstract && type.isAbstract)
    && !Marker.nonController.marks type.attributes
    && descendsFromBase options graph type

def areaArgument? (marker : Attribute) : Option String :=
  (marker.arguments.head?.bind Evaluated.constant?).bind Constant.string?

/-- The area of a type. The nearest area marker of its lineage decides, even if it gives no
name. -/
def areaOf (graph : SymbolGraph) (type : TypeDeclaration) : String :=
  match (graph.lineage type).findSome? fun ancestor => Marker.area.find? ancestor.attributes with
  | some marker => (areaArgument? marker).getD ""
  | none => ""

def controllerName (options : Options) (type : TypeDeclaration) : String :=
  withoutEnding options.controllerSuffix type.shortName

def controllerOf? (options : Options) (graph : SymbolGraph) (type : TypeDeclaration) :
    Option (String × Controller) :=
  if isController options graph type && !(actionsOf type).isEmpty then
    some (areaOf graph type, { name := controllerName options type, actions := actionsOf type })
  else none

end ActionAtlas.Mvc
