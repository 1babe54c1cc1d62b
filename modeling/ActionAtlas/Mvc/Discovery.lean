import ActionAtlas.Mvc.Controller
import ActionAtlas.Mvc.Grouping

/-!
Discovery: the areas, controllers and actions of a graph.
-/

namespace ActionAtlas.Mvc

inductive DiscoveryError where
  | timeout
deriving DecidableEq, Repr

def DiscoveryError.message : DiscoveryError → String
  | .timeout => "discovery exceeded timeout of 0ns"

def controllers (options : Options) (graph : SymbolGraph) : List (String × Controller) :=
  graph.types.filterMap (controllerOf? options graph)

/-- How the work on a list is shared out: it is done as it stands, or the list is cut in the middle
and the halves are shared out again. -/
inductive Sharing where
  | whole
  | halves (front back : Sharing)
deriving DecidableEq, Repr

namespace Sharing

def collect {α β : Type} (found? : α → Option β) : Sharing → List α → List β
  | whole, items => items.filterMap found?
  | halves front back, items =>
    front.collect found? (items.take (items.length / 2))
      ++ back.collect found? (items.drop (items.length / 2))

end Sharing

/-- Whether there are types enough to share the work out. A threshold of zero forbids it. -/
def sharesWork (options : Options) (graph : SymbolGraph) : Bool :=
  options.parallelThreshold != 0 && options.parallelThreshold ≤ graph.types.length

/-- The model of a graph, found with the work shared out in a given way where it is shared. A limit
of zero is over at once; time is not taken otherwise. -/
def discoverShared (sharing : Sharing) (options : Options) (graph : SymbolGraph) :
    Except DiscoveryError (List Area) :=
  if options.timeout? = some 0 ∧ graph.types.length ≠ 0 then .error .timeout
  else
    let found :=
      if sharesWork options graph then sharing.collect (controllerOf? options graph) graph.types
      else controllers options graph
    .ok (Grouping.ofPairs found).areas

def discover (options : Options) (graph : SymbolGraph) : Except DiscoveryError (List Area) :=
  discoverShared (.halves .whole .whole) options graph

end ActionAtlas.Mvc
