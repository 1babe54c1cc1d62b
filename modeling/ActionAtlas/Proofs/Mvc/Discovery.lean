import ActionAtlas.Mvc.Discovery
import ActionAtlas.Proofs.Mvc.Action
import ActionAtlas.Proofs.Mvc.BaseSearch
import ActionAtlas.Proofs.Mvc.Grouping

/-!
Discovery without a time limit gives a model of the graph: one entry for each type that is a
controller with actions, and no other.
-/

namespace ActionAtlas.Mvc

/-- The types that a model lists, in the order of their declaration: the controllers that declare
an action. -/
def listedTypes (options : Options) (graph : SymbolGraph) : List TypeDeclaration :=
  graph.types.filter fun type => isController options graph type ∧ eligibleMethods type ≠ []

def entries (areas : List Area) : List (String × Controller) :=
  areas.flatMap fun area => area.controllers.map fun controller => (area.name, controller)

def entryOf (options : Options) (graph : SymbolGraph) (type : TypeDeclaration) :
    String × Controller :=
  (areaOf graph type, Controller.ofType options type)

/-- The areas are the model of the graph. Entries are counted by the positions of their types. -/
structure Models (options : Options) (graph : SymbolGraph) (areas : List Area) : Prop where
  entries_perm : (entries areas).Perm ((listedTypes options graph).map (entryOf options graph))
  names_nodup : (areas.map Area.name).Nodup
  names_eq : areas.map Area.name = ((listedTypes options graph).map (areaOf graph)).eraseDups
  controllers_ne : ∀ area ∈ areas, area.controllers ≠ []
  controllers_eq : ∀ area ∈ areas, area.controllers =
    ((listedTypes options graph).filter fun type => areaOf graph type = area.name).map
      (Controller.ofType options)
  describes : ∀ type ∈ listedTypes options graph,
    (Controller.ofType options type).Describes options type

/-! ### Controllers along the types -/

theorem controllers_eq_map (options : Options) (graph : SymbolGraph) :
    controllers options graph = (listedTypes options graph).map (entryOf options graph) := by
  unfold controllers listedTypes
  induction graph.types with
  | nil => rfl
  | cons type others ih =>
      have listed : (controllerOf? options graph type =
          if isController options graph type ∧ eligibleMethods type ≠ [] then
            some (entryOf options graph type) else none) := by
        have empty := actionsOf_eq_nil_iff type
        simp only [controllerOf?, Bool.and_eq_true, Bool.not_eq_true', List.isEmpty_eq_false_iff,
          ne_eq, empty]
        rfl
      rw [List.filterMap_cons, listed, ih]
      by_cases present : isController options graph type ∧ eligibleMethods type ≠ []
      · rw [if_pos present, List.filter_cons, if_pos (decide_eq_true present)]
        rfl
      · rw [if_neg present, List.filter_cons, if_neg (by rwa [decide_eq_true_iff])]

/-! ### From pushes to entries -/

theorem map_pushedUnder (name : String) (pairs : List (String × Controller)) :
    ((Grouping.pushedUnder name pairs).map fun controller => (name, controller)) =
      pairs.filter fun pair => pair.1 == name := by
  have own (pair : String × Controller) (member : pair ∈ pairs.filter fun pair => pair.1 == name) :
      (name, pair.2) = id pair :=
    Prod.ext (eq_of_beq (List.mem_filter.mp member).2).symm rfl
  rw [Grouping.pushedUnder, List.map_map]
  exact (List.map_congr_left own).trans (List.map_id _)

/-- Sorting pairs by names that occur once, and among which each pair finds its own, loses no pair
and makes none. -/
theorem flatMap_filter_perm (names : List String) (pairs : List (String × Controller))
    (distinct : names.Nodup) (covered : ∀ pair ∈ pairs, pair.1 ∈ names) :
    (names.flatMap fun name => pairs.filter fun pair => pair.1 == name).Perm pairs := by
  induction names generalizing pairs with
  | nil =>
      have empty : pairs = [] := List.eq_nil_iff_forall_not_mem.mpr fun pair member =>
        absurd (covered pair member) List.not_mem_nil
      rw [empty]
      rfl
  | cons name others ih =>
      obtain ⟨fresh, rest⟩ := List.nodup_cons.mp distinct
      have left : ∀ pair ∈ pairs.filter fun pair => !(pair.1 == name), pair.1 ∈ others := by
        intro pair member
        obtain ⟨inside, differs⟩ := List.mem_filter.mp member
        have different : pair.1 ≠ name := by simpa using differs
        exact (List.mem_cons.mp (covered pair inside)).resolve_left different
      have same : (others.flatMap fun other => pairs.filter fun pair => pair.1 == other) =
          others.flatMap fun other =>
            (pairs.filter fun pair => !(pair.1 == name)).filter fun pair => pair.1 == other := by
        apply List.flatMap_congr
        intro other member
        rw [List.filter_filter]
        apply List.filter_congr
        intro pair _
        by_cases here : pair.1 = other
        · have different : other ≠ name := by
            rintro rfl
            exact fresh member
          simp [here, different]
        · simp [here]
      rw [List.flatMap_cons, same]
      exact ((ih _ rest left).append_left _).trans (List.filter_append_perm _ pairs)

theorem entries_ofPairs (pairs : List (String × Controller)) :
    (entries (Grouping.ofPairs pairs).areas).Perm pairs := by
  have holds := Grouping.holds_ofPairs pairs
  have sorted : entries (Grouping.ofPairs pairs).areas =
      (Grouping.pushedNames pairs).flatMap fun name => pairs.filter fun pair => pair.1 == name := by
    rw [entries, holds.areas_eq, List.flatMap_map]
    apply List.flatMap_congr
    intro name _
    exact map_pushedUnder name pairs
  rw [sorted]
  apply flatMap_filter_perm _ _ (Grouping.pushedNames_nodup pairs)
  intro pair member
  exact Grouping.mem_pushedNames.mpr ⟨pair, member, rfl⟩

/-! ### The model -/

theorem Sharing.collect_eq_filterMap {α β : Type} (found? : α → Option β) (sharing : Sharing)
    (items : List α) : sharing.collect found? items = items.filterMap found? := by
  induction sharing generalizing items with
  | whole => rfl
  | halves front back front_ih back_ih =>
      rw [collect, front_ih, back_ih, ← List.filterMap_append, List.take_append_drop]

theorem discover_eq (options : Options) (graph : SymbolGraph) :
    discover options graph =
      if options.timeout? = some 0 ∧ graph.types.length ≠ 0 then .error .timeout
      else .ok (Grouping.ofPairs (controllers options graph)).areas := by
  have same : Sharing.collect (controllerOf? options graph) (.halves .whole .whole) graph.types =
      controllers options graph :=
    Sharing.collect_eq_filterMap (controllerOf? options graph) _ graph.types
  rw [discover, discoverShared, same, ite_self]

theorem discoverShared_eq_ok {options : Options} (unlimited : options.timeout? = none)
    (sharing : Sharing) (graph : SymbolGraph) :
    discoverShared sharing options graph =
      .ok (Grouping.ofPairs (controllers options graph)).areas := by
  have same : sharing.collect (controllerOf? options graph) graph.types =
      controllers options graph :=
    Sharing.collect_eq_filterMap (controllerOf? options graph) sharing graph.types
  rw [discoverShared, if_neg (by simp [unlimited]), same, ite_self]

theorem discover_eq_ok {options : Options} (unlimited : options.timeout? = none)
    (graph : SymbolGraph) :
    discover options graph = .ok (Grouping.ofPairs (controllers options graph)).areas :=
  discoverShared_eq_ok unlimited _ graph

theorem names_ofPairs (pairs : List (String × Controller)) :
    (Grouping.ofPairs pairs).areas.map Area.name = Grouping.pushedNames pairs :=
  (Grouping.holds_ofPairs pairs).names_eq

theorem pushedUnder_map_entryOf (options : Options) (graph : SymbolGraph) (name : String)
    (types : List TypeDeclaration) :
    Grouping.pushedUnder name (types.map (entryOf options graph)) =
      (types.filter fun type => areaOf graph type = name).map (Controller.ofType options) := by
  rw [Grouping.pushedUnder, List.filter_map, List.map_map]
  rfl

theorem models_ofPairs (options : Options) (graph : SymbolGraph) :
    Models options graph (Grouping.ofPairs (controllers options graph)).areas := by
  have holds := Grouping.holds_ofPairs (controllers options graph)
  have names := names_ofPairs (controllers options graph)
  refine ⟨?_, ?_, ?_, ?_, ?_, ?_⟩
  · rw [← controllers_eq_map]
    exact entries_ofPairs (controllers options graph)
  · rw [names]
    exact Grouping.pushedNames_nodup (controllers options graph)
  · rw [names, Grouping.pushedNames, controllers_eq_map, List.map_map]
    rfl
  · intro area member
    rw [holds.areas_eq, List.mem_map] at member
    obtain ⟨name, known, rfl⟩ := member
    obtain ⟨pair, pushed, same⟩ := Grouping.mem_pushedNames.mp known
    intro empty
    have inside : pair.2 ∈ Grouping.pushedUnder name (controllers options graph) :=
      List.mem_map.mpr ⟨pair, List.mem_filter.mpr ⟨pushed, beq_iff_eq.mpr same⟩, rfl⟩
    rw [show Grouping.pushedUnder name (controllers options graph) = [] from empty] at inside
    exact List.not_mem_nil inside
  · intro area member
    rw [holds.areas_eq, List.mem_map] at member
    obtain ⟨name, -, rfl⟩ := member
    change Grouping.pushedUnder name (controllers options graph) = _
    rw [controllers_eq_map, pushedUnder_map_entryOf]
  · intro type _
    exact Controller.ofType_describes options type

/-- Without a time limit discovery succeeds, however the work is shared out, and gives the
model. -/
theorem discover_models (options : Options) (graph : SymbolGraph) (sharing : Sharing)
    (unlimited : options.timeout? = none) :
    ∃ areas, discoverShared sharing options graph = .ok areas ∧ discover options graph = .ok areas ∧
      Models options graph areas :=
  ⟨_, discoverShared_eq_ok unlimited sharing graph, discover_eq_ok unlimited graph,
    models_ofPairs options graph⟩

/-- Two declarations of one name, and a controller without actions. -/
def homes : SymbolGraph :=
  .indexed [.plainClass "N" "HomeController" (some "Microsoft.AspNetCore.Mvc.Controller") ["Index"],
    .plainClass "N" "HomeController" (some "Microsoft.AspNetCore.Mvc.Controller") ["ListAsync"],
    .plainClass "N" "IdleController" (some "Microsoft.AspNetCore.Mvc.Controller") []]

def sharingOptions : Options :=
  { frameworkOptions with parallelThreshold := 1 }

theorem discover_models_homes :
    sharingOptions.timeout? = none ∧
      ∃ areas, discoverShared (.halves .whole .whole) sharingOptions homes = .ok areas ∧
        discover sharingOptions homes = .ok areas ∧ Models sharingOptions homes areas :=
  ⟨rfl, discover_models sharingOptions homes (.halves .whole .whole) rfl⟩

end ActionAtlas.Mvc
