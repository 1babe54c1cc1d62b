import ActionAtlas.Proofs.Mvc.Discovery
import ActionAtlas.Proofs.Mvc.Seen

/-!
The order in which a graph has its types. Where full names occur once, each name is found in any
order, so the same controllers are found in the same areas. Areas and controllers then stand in the
order of the types.
-/

namespace ActionAtlas

theorem SymbolGraph.get?_eq_of_perm {graph other : SymbolGraph}
    (perm : other.types.Perm graph.types)
    (distinct : (graph.types.map TypeDeclaration.fullName).Nodup) (name : String) :
    other.get? name = graph.get? name := by
  cases found : other.get? name with
  | none =>
      symm
      rw [get?_eq_find?, List.find?_eq_none] at found ⊢
      exact fun type member => found type (perm.mem_iff.mpr member)
  | some type =>
      have member : type ∈ graph.types := perm.mem_iff.mp (mem_of_get?_eq_some found)
      rw [← fullName_of_get?_eq_some found, get?_fullName_of_nodup distinct member]

namespace Mvc

/-- Areas of the same names, each with the same controllers up to their order. -/
structure SameControllers (areas others : List Area) : Prop where
  names_perm : (others.map Area.name).Perm (areas.map Area.name)
  controllers_perm : ∀ area ∈ areas, ∀ other ∈ others, other.name = area.name →
    other.controllers.Perm area.controllers

def listedAmong (options : Options) (graph : SymbolGraph) (types : List TypeDeclaration) :
    List TypeDeclaration :=
  types.filter fun type => isController options graph type ∧ eligibleMethods type ≠ []

/-- The areas of types that are judged as in the graph, but stand in an order of their own: the
names in the order of their first occurrence, and the controllers of each in the order of their
types. -/
structure Follows (options : Options) (graph : SymbolGraph) (types : List TypeDeclaration)
    (areas : List Area) : Prop where
  names_eq : areas.map Area.name =
    ((listedAmong options graph types).map (areaOf graph)).eraseDups
  controllers_eq : ∀ area ∈ areas, area.controllers =
    ((listedAmong options graph types).filter fun type => areaOf graph type = area.name).map
      (Controller.ofType options)

inductive SameOutcome : Except DiscoveryError (List Area) → Except DiscoveryError (List Area) →
    Prop where
  | found {areas others : List Area} (same : SameControllers areas others) :
      SameOutcome (.ok areas) (.ok others)
  | timeout : SameOutcome (.error .timeout) (.error .timeout)

section

variable {graph other : SymbolGraph} (options : Options)

theorem sameLookup_of_perm (perm : other.types.Perm graph.types)
    (distinct : (graph.types.map TypeDeclaration.fullName).Nodup) : SameLookup graph other where
  length_eq := perm.length_eq
  lookup := by
    intro name
    rw [SymbolGraph.get?_eq_of_perm perm distinct]
    cases graph.get? name with
    | none => exact .none
    | some type => exact .some (.refl type)

theorem SameLookup.areaOf_eq_areaOf (same : SameLookup graph other) : areaOf other = areaOf graph :=
  funext fun type => same.areaOf_eq (.refl type)

theorem SameLookup.listedTypes_eq (same : SameLookup graph other) :
    listedTypes options other = listedAmong options graph other.types := by
  apply List.filter_congr
  intro type _
  rw [same.isController_eq options (.refl type)]

theorem listedTypes_perm (same : SameLookup graph other) (perm : other.types.Perm graph.types) :
    (listedTypes options other).Perm (listedTypes options graph) := by
  rw [same.listedTypes_eq]
  exact perm.filter _

theorem Models.follows {areas : List Area} (models : Models options other areas)
    (same : SameLookup graph other) : Follows options graph other.types areas where
  names_eq := by
    rw [← same.listedTypes_eq, ← same.areaOf_eq_areaOf]
    exact models.names_eq
  controllers_eq := by
    rw [← same.listedTypes_eq, ← same.areaOf_eq_areaOf]
    exact models.controllers_eq

theorem Models.sameControllers {areas others : List Area} (models : Models options graph areas)
    (models' : Models options other others) (same : SameLookup graph other)
    (perm : other.types.Perm graph.types) : SameControllers areas others := by
  have listed := listedTypes_perm options same perm
  refine ⟨?_, ?_⟩
  · refine (List.perm_ext_iff_of_nodup models'.names_nodup models.names_nodup).mpr fun name => ?_
    rw [models'.names_eq, models.names_eq, List.mem_eraseDups, List.mem_eraseDups,
      same.areaOf_eq_areaOf]
    exact (listed.map _).mem_iff
  · intro area member another inside named
    rw [models.controllers_eq area member, models'.controllers_eq another inside,
      same.areaOf_eq_areaOf, named]
    exact (listed.filter _).map _

/-- The order of the types decides on the order of areas and controllers only. -/
theorem sameOutcome_of_perm (perm : other.types.Perm graph.types)
    (distinct : (graph.types.map TypeDeclaration.fullName).Nodup) :
    SameOutcome (discover options graph) (discover options other) := by
  have same := sameLookup_of_perm perm distinct
  rw [discover_eq, discover_eq, same.length_eq]
  split
  · exact .timeout
  · exact .found ((models_ofPairs options graph).sameControllers options
      (models_ofPairs options other) same perm)

/-- Types in another order have the same controllers in the same areas, and these follow the new
order. -/
theorem discover_of_perm (unlimited : options.timeout? = none)
    (perm : other.types.Perm graph.types)
    (distinct : (graph.types.map TypeDeclaration.fullName).Nodup) :
    ∃ areas others, discover options graph = .ok areas ∧ discover options other = .ok others ∧
      SameControllers areas others ∧ Follows options graph other.types others := by
  have same := sameLookup_of_perm perm distinct
  have models := models_ofPairs options graph
  have models' := models_ofPairs options other
  exact ⟨_, _, discover_eq_ok unlimited graph, discover_eq_ok unlimited other,
    models.sameControllers options models' same perm, models'.follows options same⟩

end

/-- Controllers that stand in front of the class from which they have their area, and behind them
two classes that extend each other. -/
def office : SymbolGraph :=
  let framework := "Microsoft.AspNetCore.Mvc.Controller"
  .indexed [.plainClass "Office" "HomeController" (some framework) ["Index"],
    .plainClass "Office" "UserController" (some "Office.Page<Office.User>") ["List", "EditAsync"],
    .plainClass "Office" "RoleController" (some "Office.Page") ["List"],
    { TypeDeclaration.plainClass "Office" "Page" (some framework) [] with
      isAbstract := true
      attributes := [⟨"Microsoft.AspNetCore.Mvc.AreaAttribute", [.constant (.string "Staff")]⟩] },
    .plainClass "Office" "Left" (some "Office.Right") ["Index"],
    .plainClass "Office" "Right" (some "Office.Left") ["Index"]]

def reversedOffice : SymbolGraph :=
  .unindexed office.types.reverse

theorem discover_of_perm_reversedOffice :
    frameworkOptions.timeout? = none ∧ reversedOffice.types.Perm office.types ∧
      (office.types.map TypeDeclaration.fullName).Nodup ∧
      (∃ areas others, discover frameworkOptions office = .ok areas ∧
        discover frameworkOptions reversedOffice = .ok others ∧ SameControllers areas others ∧
        Follows frameworkOptions office reversedOffice.types others) ∧
      (controllers frameworkOptions reversedOffice).map (fun pair => (pair.1, pair.2.name)) =
        [("Staff", "Role"), ("Staff", "User"), ("", "Home")] := by
  have perm : reversedOffice.types.Perm office.types := List.reverse_perm office.types
  have distinct : (office.types.map TypeDeclaration.fullName).Nodup := by decide +kernel
  exact ⟨rfl, perm, distinct, discover_of_perm frameworkOptions rfl perm distinct,
    by decide +kernel⟩

end Mvc

end ActionAtlas
