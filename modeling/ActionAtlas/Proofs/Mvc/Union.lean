import ActionAtlas.Proofs.Mvc.Discovery
import ActionAtlas.Proofs.Mvc.Locality

/-!
Two graphs, one behind the other. If no type of either extends what the other declares, both keep
their controllers, and the model of the whole is put together from the two models area by area.
-/

namespace ActionAtlas

/-! ### Graphs that do not extend each other -/

/-- No type has a base that the other graph declares. -/
def SymbolGraph.ExtendsNothingOf (graph other : SymbolGraph) : Prop :=
  ∀ type ∈ graph.types, ∀ name ∈ type.baseName?, name ∉ other.types.map TypeDeclaration.fullName

namespace SymbolGraph

instance (graph other : SymbolGraph) : Decidable (graph.ExtendsNothingOf other) :=
  inferInstanceAs (Decidable (∀ type ∈ graph.types, ∀ name ∈ type.baseName?,
    name ∉ other.types.map TypeDeclaration.fullName))

variable {graph other whole : SymbolGraph}

theorem get?_of_types_append (types : whole.types = graph.types ++ other.types) (name : String) :
    whole.get? name = (graph.get? name).or (other.get? name) := by
  rw [get?_eq_find?, types, List.find?_append, get?_eq_find?, get?_eq_find?]

theorem partOf_front (types : whole.types = graph.types ++ other.types)
    (apart : graph.ExtendsNothingOf other) : graph.PartOf whole where
  length_le := by simp [types]
  baseOf?_eq := by
    intro type member
    refine Option.bind_congr fun name own => ?_
    have missing := get?_eq_none_iff.mpr (apart type member name own)
    rw [get?_of_types_append types, missing, Option.or_none]

theorem partOf_back (types : whole.types = graph.types ++ other.types)
    (apart : other.ExtendsNothingOf graph) : other.PartOf whole where
  length_le := by simp [types]
  baseOf?_eq := by
    intro type member
    refine Option.bind_congr fun name own => ?_
    have missing := get?_eq_none_iff.mpr (apart type member name own)
    rw [get?_of_types_append types, missing, Option.none_or]

end SymbolGraph

namespace Mvc

/-! ### Areas of two models -/

def controllersIn (name : String) (areas : List Area) : List Controller :=
  (areas.filter fun area => area.name == name).flatMap Area.controllers

/-- The areas of one model, each with the controllers that the other has in it behind its own, and
then the areas that only the other has. -/
def unite (areas others : List Area) : List Area :=
  (areas.map fun area =>
      { area with controllers := area.controllers ++ controllersIn area.name others }) ++
    others.filter fun area => area.name ∉ areas.map Area.name

theorem controllersIn_ofPairs (name : String) (pairs : List (String × Controller)) :
    controllersIn name (Grouping.ofPairs pairs).areas = Grouping.pushedUnder name pairs := by
  rw [controllersIn, (Grouping.holds_ofPairs pairs).areas_eq, List.filter_map, List.flatMap_map]
  change ((Grouping.pushedNames pairs).filter (· == name)).flatMap _ = _
  rw [List.filter_beq]
  by_cases known : name ∈ Grouping.pushedNames pairs
  · rw [List.count_eq_one_of_mem (Grouping.pushedNames_nodup pairs) known]
    exact List.flatMap_singleton ..
  · rw [List.count_eq_zero_of_not_mem known, Grouping.pushedUnder_eq_nil known]
    rfl

/-- Grouping what two lists hold together unites their groupings. -/
theorem areas_ofPairs_append (pairs more : List (String × Controller)) :
    (Grouping.ofPairs (pairs ++ more)).areas =
      unite (Grouping.ofPairs pairs).areas (Grouping.ofPairs more).areas := by
  have whole := (Grouping.holds_ofPairs (pairs ++ more)).areas_eq
  have front := (Grouping.holds_ofPairs pairs).areas_eq
  have back := (Grouping.holds_ofPairs more).areas_eq
  rw [whole, Grouping.pushedNames_append, List.map_append, unite, names_ofPairs]
  congr 1
  · rw [front, List.map_map]
    refine List.map_congr_left fun name _ => ?_
    rw [Function.comp_apply, controllersIn_ofPairs, Grouping.pushedUnder_append]
  · rw [back, List.filter_map]
    refine List.map_congr_left fun name member => ?_
    -- An area that only the other model has keeps its controllers.
    have fresh : name ∉ Grouping.pushedNames pairs := by
      simpa using (List.mem_filter.mp member).2
    rw [Grouping.pushedUnder_append, Grouping.pushedUnder_eq_nil fresh, List.nil_append]

/-! ### The model of both graphs -/

variable {graph other whole : SymbolGraph}

theorem controllers_append (options : Options)
    (types : whole.types = graph.types ++ other.types) (front : graph.ExtendsNothingOf other)
    (back : other.ExtendsNothingOf graph) :
    controllers options whole = controllers options graph ++ controllers options other := by
  rw [controllers, types, List.filterMap_append,
    filterMap_controllerOf?_of_partOf options (SymbolGraph.partOf_front types front),
    filterMap_controllerOf?_of_partOf options (SymbolGraph.partOf_back types back)]

/-- Graphs that do not extend each other, even if they declare the same names, have as one graph the
model that unites theirs. -/
theorem discover_append {options : Options} (unlimited : options.timeout? = none)
    (types : whole.types = graph.types ++ other.types) (front : graph.ExtendsNothingOf other)
    (back : other.ExtendsNothingOf graph) :
    ∃ areas others, discover options graph = .ok areas ∧ discover options other = .ok others ∧
      discover options whole = .ok (unite areas others) := by
  refine ⟨_, _, discover_eq_ok unlimited graph, discover_eq_ok unlimited other, ?_⟩
  rw [discover_eq_ok unlimited whole, controllers_append options types front back,
    areas_ofPairs_append]

def inArea (area : String) (type : TypeDeclaration) : TypeDeclaration :=
  { type with
    attributes :=
      [⟨"Microsoft.AspNetCore.Mvc.AreaAttribute", [.constant (.string area)]⟩] }

/-- Two declarations of one name, and a class that extends itself. -/
def shop : SymbolGraph :=
  let framework := "Microsoft.AspNetCore.Mvc.Controller"
  .unindexed [.plainClass "Shop" "ItemController" (some "Shop.Page<Shop.Item>") ["Index"],
    inArea "Sales" (.plainClass "Shop" "Page" (some framework) ["Help"]),
    .plainClass "Shop" "ItemController" (some framework) ["List"],
    .plainClass "Shop" "Loop" (some "Shop.Loop") ["Index"]]

/-- One class extends another one that no graph declares. -/
def stock : SymbolGraph :=
  let framework := "Microsoft.AspNetCore.Mvc.Controller"
  .unindexed [.plainClass "Stock" "ItemController" (some framework) ["Count"],
    inArea "Sales" (.plainClass "Stock" "BinController" (some framework) ["List"]),
    .plainClass "Stock" "LostController" (some "Lost.Page") ["Index"],
    inArea "Stock" (.plainClass "Stock" "ShelfController" (some framework) ["List"])]

theorem discover_append_shopAndStock :
    frameworkOptions.timeout? = none ∧
      (SymbolGraph.indexed (shop.types ++ stock.types)).types = shop.types ++ stock.types ∧
      shop.ExtendsNothingOf stock ∧ stock.ExtendsNothingOf shop ∧
      (∃ areas others, discover frameworkOptions shop = .ok areas ∧
        discover frameworkOptions stock = .ok others ∧
        discover frameworkOptions (.indexed (shop.types ++ stock.types)) =
          .ok (unite areas others)) ∧
      (controllers frameworkOptions shop).map Prod.fst = ["Sales", "Sales", ""] ∧
      (controllers frameworkOptions stock).map Prod.fst = ["", "Sales", "Stock"] := by
  have front : shop.ExtendsNothingOf stock := by decide +kernel
  have back : stock.ExtendsNothingOf shop := by decide +kernel
  exact ⟨rfl, rfl, front, back, discover_append rfl rfl front back, by decide +kernel,
    by decide +kernel⟩

end Mvc

end ActionAtlas
