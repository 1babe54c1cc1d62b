import ActionAtlas.Proofs.Mvc.Discovery

/-!
Options that let more types be controllers. A search along the bases of a type may end earlier under
them, but then with success, so what is found without them is found with them too, in the same areas
and in the same order.
-/

namespace ActionAtlas.Mvc

/-- The wide options have the controller bases of the narrow ones, leave abstract types out only if
these do, and name controllers as these do. -/
structure Options.WidenedBy (narrow wide : Options) : Prop where
  suffix_eq : wide.controllerSuffix = narrow.controllerSuffix
  bases : ∀ base ∈ narrow.controllerBases, base ∈ wide.controllerBases
  skips : wide.skipAbstract = true → narrow.skipAbstract = true

/-- Each area is among the others, and its controllers are there in their order, perhaps with more
between them. -/
def KeptIn (areas others : List Area) : Prop :=
  ∀ area ∈ areas, ∃ other ∈ others, other.name = area.name ∧
    area.controllers.Sublist other.controllers

/-- Discovery succeeds under both options, and keeps under the wide ones what it finds under the
narrow ones. -/
def KeepsFound (graph : SymbolGraph) (narrow wide : Options) : Prop :=
  ∃ areas others, discover narrow graph = .ok areas ∧ discover wide graph = .ok others ∧
    KeptIn areas others

variable {narrow wide : Options} {graph : SymbolGraph} {type : TypeDeclaration}

/-! ### Searches for a controller base -/

namespace BaseSearch

variable {search next : BaseSearch}

theorem step_of_answered (wider : narrow.WidenedBy wide)
    (step : search.step narrow graph = .answered true) :
    search.step wide graph = .answered true := by
  unfold BaseSearch.step at step ⊢
  split at step
  · cases step
  · next base here =>
    split at step
    · next wanted =>
      have known := wider.bases base (List.contains_iff_mem.mp wanted)
      simp only [if_pos (List.contains_iff_mem.mpr known)]
    · split at step
      · cases step
      · cases step

/-- Where a search goes on, it goes on in the same way under any other options, or succeeds. -/
theorem step_of_further (wide : Options)
    (step : search.step narrow graph = .further next) :
    search.step wide graph = .answered true ∨ search.step wide graph = .further next := by
  unfold BaseSearch.step at step ⊢
  split at step
  · cases step
  · next base here =>
    split at step
    · cases step
    · split at step
      · cases step
      · next fresh =>
        cases step
        by_cases wanted : wide.controllerBases.contains base = true
        · exact .inl (by simp only [if_pos wanted])
        · exact .inr (by simp only [if_neg wanted, if_neg fresh])

theorem answer?_of_widenedBy (wider : narrow.WidenedBy wide) {steps : Nat}
    (answered : search.answer? narrow graph steps = some true) :
    search.answer? wide graph steps = some true := by
  -- Until the wide search succeeds, both have met the same names.
  induction steps generalizing search with
  | zero => cases answered
  | succ steps ih =>
      rw [answer?] at answered ⊢
      cases narrowly : search.step narrow graph with
      | answered answer =>
          rw [narrowly] at answered
          cases answered
          rw [step_of_answered wider narrowly]
      | further next =>
          rw [narrowly] at answered
          rcases step_of_further wide narrowly with success | same
          · rw [success]
          · rw [same]
            exact ih answered

end BaseSearch

/-! ### Controllers -/

theorem descendsFromBase_of_widenedBy (wider : narrow.WidenedBy wide)
    (descends : descendsFromBase narrow graph type = true) :
    descendsFromBase wide graph type = true := by
  unfold descendsFromBase at descends ⊢
  cases answer : (BaseSearch.start type).answer? narrow graph (graph.types.length + 2) with
  | none =>
      rw [answer] at descends
      cases descends
  | some found =>
      rw [answer, Option.getD_some] at descends
      subst descends
      rw [BaseSearch.answer?_of_widenedBy wider answer, Option.getD_some]

theorem isController_of_widenedBy (wider : narrow.WidenedBy wide)
    (controller : isController narrow graph type = true) :
    isController wide graph type = true := by
  simp only [isController, Bool.and_eq_true] at controller ⊢
  obtain ⟨⟨⟨form, concrete⟩, unmarked⟩, descends⟩ := controller
  refine ⟨⟨⟨form, ?_⟩, unmarked⟩, descendsFromBase_of_widenedBy wider descends⟩
  cases skipped : wide.skipAbstract with
  | false => rfl
  | true => rwa [wider.skips skipped] at concrete

theorem listedTypes_sublist (wider : narrow.WidenedBy wide) (graph : SymbolGraph) :
    (listedTypes narrow graph).Sublist (listedTypes wide graph) := by
  apply List.monotone_filter_right
  intro type listed
  rw [decide_eq_true_iff] at listed ⊢
  exact ⟨isController_of_widenedBy wider listed.1, listed.2⟩

theorem Models.keptIn {areas others : List Area} (models : Models narrow graph areas)
    (models' : Models wide graph others) (wider : narrow.WidenedBy wide) : KeptIn areas others := by
  have listed := listedTypes_sublist wider graph
  intro area member
  have named : area.name ∈ others.map Area.name := by
    have known : area.name ∈ areas.map Area.name := List.mem_map_of_mem member
    rw [models.names_eq, List.mem_eraseDups] at known
    rw [models'.names_eq, List.mem_eraseDups]
    exact (listed.map _).subset known
  obtain ⟨other, inside, same⟩ := List.mem_map.mp named
  have controller : Controller.ofType wide = Controller.ofType narrow := by
    funext type
    rw [Controller.ofType, Controller.ofType, controllerName, controllerName, wider.suffix_eq]
  refine ⟨other, inside, same, ?_⟩
  rw [models.controllers_eq area member, models'.controllers_eq other inside, same, controller]
  exact (listed.filter _).map _

theorem keepsFound_of_widenedBy (narrowly : narrow.timeout? = none) (widely : wide.timeout? = none)
    (wider : narrow.WidenedBy wide) (graph : SymbolGraph) : KeepsFound graph narrow wide :=
  ⟨_, _, discover_eq_ok narrowly graph, discover_eq_ok widely graph,
    (models_ofPairs narrow graph).keptIn (models_ofPairs wide graph) wider⟩

end ActionAtlas.Mvc
