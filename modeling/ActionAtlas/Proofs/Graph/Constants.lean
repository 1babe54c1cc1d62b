import Mathlib
import ActionAtlas.Graph.SymbolGraph

/-!
The constants of a graph, wherever they stand: in the arguments of attributes and in default
values. Everything else of a graph stays when its constants are changed.
-/

namespace ActionAtlas

/-- Changes that agree on the constants of each item agree on a list of items. -/
theorem map_congr_of_constants {α : Type} {constants : α → List Constant} {change other : α → α}
    {first second : Constant → Constant}
    (each : ∀ item, (∀ value ∈ constants item, first value = second value) →
      change item = other item)
    {items : List α} (same : ∀ value ∈ items.flatMap constants, first value = second value) :
    items.map change = items.map other := by
  apply List.map_congr_left
  intro item member
  apply each item
  intro value inside
  exact same value (List.mem_flatMap_of_mem member inside)

namespace Evaluated

def constants (written : Evaluated) : List Constant :=
  written.constant?.toList

def mapConstants (change : Constant → Constant) : Evaluated → Evaluated
  | .constant value => .constant (change value)
  | .unresolved text => .unresolved text

theorem mapConstants_congr {first second : Constant → Constant} {written : Evaluated}
    (same : ∀ value ∈ written.constants, first value = second value) :
    written.mapConstants first = written.mapConstants second := by
  cases written with
  | constant value => exact congrArg constant (same value List.mem_cons_self)
  | unresolved text => rfl

end Evaluated

namespace Attribute

def constants (applied : Attribute) : List Constant :=
  applied.arguments.flatMap Evaluated.constants

def mapConstants (change : Constant → Constant) (applied : Attribute) : Attribute :=
  { applied with arguments := applied.arguments.map (Evaluated.mapConstants change) }

theorem mapConstants_congr {first second : Constant → Constant} {applied : Attribute}
    (same : ∀ value ∈ applied.constants, first value = second value) :
    applied.mapConstants first = applied.mapConstants second := by
  rw [mapConstants, mapConstants,
    map_congr_of_constants (fun _ => Evaluated.mapConstants_congr) same]

end Attribute

namespace Parameter

def constants (parameter : Parameter) : List Constant :=
  parameter.default?.toList.flatMap Evaluated.constants

def mapConstants (change : Constant → Constant) (parameter : Parameter) : Parameter :=
  { parameter with default? := parameter.default?.map (Evaluated.mapConstants change) }

theorem mapConstants_congr {first second : Constant → Constant} {parameter : Parameter}
    (same : ∀ value ∈ parameter.constants, first value = second value) :
    parameter.mapConstants first = parameter.mapConstants second := by
  have default : parameter.default?.map (Evaluated.mapConstants first) =
      parameter.default?.map (Evaluated.mapConstants second) := by
    apply Option.map_congr
    intro written given
    apply Evaluated.mapConstants_congr
    intro value inside
    exact same value (List.mem_flatMap_of_mem (Option.mem_toList.mpr given) inside)
  rw [mapConstants, default, mapConstants]

end Parameter

namespace MethodDeclaration

def constants (method : MethodDeclaration) : List Constant :=
  method.attributes.flatMap Attribute.constants ++ method.parameters.flatMap Parameter.constants

def mapConstants (change : Constant → Constant) (method : MethodDeclaration) :
    MethodDeclaration :=
  { method with
    attributes := method.attributes.map (Attribute.mapConstants change)
    parameters := method.parameters.map (Parameter.mapConstants change) }

theorem mapConstants_congr {first second : Constant → Constant} {method : MethodDeclaration}
    (same : ∀ value ∈ method.constants, first value = second value) :
    method.mapConstants first = method.mapConstants second := by
  rw [mapConstants, mapConstants,
    map_congr_of_constants (fun _ => Attribute.mapConstants_congr)
      fun value member => same value (List.mem_append_left _ member),
    map_congr_of_constants (fun _ => Parameter.mapConstants_congr)
      fun value member => same value (List.mem_append_right _ member)]

end MethodDeclaration

namespace TypeDeclaration

def constants (type : TypeDeclaration) : List Constant :=
  type.attributes.flatMap Attribute.constants ++ type.methods.flatMap MethodDeclaration.constants

def mapConstants (change : Constant → Constant) (type : TypeDeclaration) : TypeDeclaration :=
  { type with
    attributes := type.attributes.map (Attribute.mapConstants change)
    methods := type.methods.map (MethodDeclaration.mapConstants change) }

theorem mapConstants_congr {first second : Constant → Constant} {type : TypeDeclaration}
    (same : ∀ value ∈ type.constants, first value = second value) :
    type.mapConstants first = type.mapConstants second := by
  rw [mapConstants, mapConstants,
    map_congr_of_constants (fun _ => Attribute.mapConstants_congr)
      fun value member => same value (List.mem_append_left _ member),
    map_congr_of_constants (fun _ => MethodDeclaration.mapConstants_congr)
      fun value member => same value (List.mem_append_right _ member)]

end TypeDeclaration

def SymbolGraph.constants (graph : SymbolGraph) : List Constant :=
  graph.types.flatMap TypeDeclaration.constants

end ActionAtlas
