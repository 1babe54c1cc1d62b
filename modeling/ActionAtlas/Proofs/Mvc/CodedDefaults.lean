import ActionAtlas.Proofs.Mvc.Reload
import ActionAtlas.Proofs.Names.CodedDefaults

/-!
Graphs whose default values are characters in one and the codes of these characters in the other.
Loading the written graphs does not make them one, and each action whose method differs is told
differently in the model.
-/

namespace ActionAtlas

/-! ### Loading -/

theorem Parameter.tellsApart_reloaded : TellsApart Coded reloaded := by
  intro written coded codes same
  cases codes with
  | of default? coded =>
      have tells : TellsApart (CodedDefault written.type) fun default? =>
          (default?.map (Evaluated.mapConstants .reread)).map (Evaluated.forType written.type) := by
        apply CodedDefault.tellsApart
        intro integral c
        simp [Evaluated.mapConstants, Evaluated.forType, integral.forType_eq, Constant.codeOf,
          Constant.reread, Constant.plain]
      rw [tells _ _ coded (congrArg Parameter.default? same)]

theorem MethodDeclaration.tellsApart_reloaded : TellsApart Coded reloaded := by
  intro written coded codes same
  have parameters := congrArg MethodDeclaration.parameters same
  rw [parameters_reloaded, parameters_reloaded] at parameters
  cases codes with
  | of parameters' coded =>
      have equal := Parameter.tellsApart_reloaded.map _ _ coded parameters
      rw [equal]

theorem TypeDeclaration.tellsApart_reloaded : TellsApart Coded reloaded := by
  intro written coded codes same
  have methods := congrArg TypeDeclaration.methods same
  rw [methods_reloaded, methods_reloaded] at methods
  cases codes with
  | of methods' coded =>
      have equal := MethodDeclaration.tellsApart_reloaded.map _ _ coded methods
      rw [equal]

namespace Mvc

open Json

/-! ### Walks and actions -/

variable {graph other : SymbolGraph} {type type' : TypeDeclaration}

theorem isAction_eq {method method' : MethodDeclaration}
    (codes : MethodDeclaration.Coded method method') : isAction method' = isAction method := by
  cases codes
  rfl

theorem coded_eligibleMethods (codes : TypeDeclaration.Coded type type') :
    List.Forall₂ MethodDeclaration.Coded (eligibleMethods type) (eligibleMethods type') := by
  rw [← filter_isAction, ← filter_isAction]
  cases codes with
  | of methods coded =>
      refine List.rel_filter ?_ coded
      intro method method' codes
      change isAction method = true ↔ isAction method' = true
      rw [isAction_eq codes]

theorem correspondence_of_coded
    (each : List.Forall₂ TypeDeclaration.Coded graph.types other.types) :
    Correspondence graph other TypeDeclaration.Coded := by
  refine correspondence_of_forall₂ (fun _ _ codes => codes.fullName_eq) ?_ each
  intro type type' codes
  cases codes
  rfl

section

variable (each : List.Forall₂ TypeDeclaration.Coded graph.types other.types)
  (codes : TypeDeclaration.Coded type type')

include each codes

theorem isController_of_coded (options : Options) :
    isController options other type' = isController options graph type := by
  have descends := (correspondence_of_coded each).descendsFromBase_eq options
    each.length_eq.symm codes
  rw [isController, isController, descends]
  cases codes
  rfl

theorem areaOf_of_coded : areaOf other type' = areaOf graph type := by
  have above := (correspondence_of_coded each).lineage each.length_eq.symm codes
  have attributes : (other.lineage type').map TypeDeclaration.attributes =
      (graph.lineage type).map TypeDeclaration.attributes := by
    refine map_eq_of_forall₂ ?_ above
    intro type type' codes
    cases codes
    rfl
  have marker : areaMarker? other type' = areaMarker? graph type := by
    have found := congrArg (List.findSome? Marker.area.find?) attributes
    rwa [List.findSome?_map, List.findSome?_map] at found
  rw [areaOf_eq, areaOf_eq, marker]

end

theorem coded_listedTypes (each : List.Forall₂ TypeDeclaration.Coded graph.types other.types)
    (options : Options) :
    List.Forall₂ TypeDeclaration.Coded (listedTypes options graph) (listedTypes options other) := by
  refine List.rel_filter ?_ each
  intro type type' codes
  have actions : eligibleMethods type' = [] ↔ eligibleMethods type = [] := by
    rw [← List.length_eq_zero_iff, ← (coded_eligibleMethods codes).length_eq,
      List.length_eq_zero_iff]
  simp only [decide_eq_true_eq, isController_of_coded each codes, ne_eq, actions]

/-! ### What is told -/

theorem spelled_number_ne_string (number : Number) (text : String) :
    (Value.number number).spelled ≠ (Value.string text).spelled := by
  intro same
  have texts : number.write = Quoted.write text := by
    simpa only [Value.spelled, Value.string.injEq, String.ofList_inj, Value.write] using same
  have leads := leads_writeNumber number
  rw [texts] at leads
  have lexemes := leads.unique (Lexeme.leads_quoted text)
  unfold Number.lexeme at lexemes
  split at lexemes
  · cases lexemes
  · cases lexemes

theorem tellsApart_told_parameter :
    TellsApart Parameter.Coded fun parameter =>
      (ActionParameter.ofParameter parameter).toJson.spelled := by
  intro written coded codes same
  cases codes with
  | of default? coded =>
      have tells : TellsApart (CodedDefault written.type) fun default? =>
          (optionToJson Constant.toJson (default?.bind Evaluated.constant?)).spelled := by
        apply CodedDefault.tellsApart
        intro _ c
        exact spelled_number_ne_string _ _
      simp only [ActionParameter.toJson, Value.spelled, Value.spelledFields, Value.object.injEq,
        List.cons.injEq, Prod.mk.injEq, true_and, and_true] at same
      rw [tells _ _ coded same.2.2.2]

theorem tellsApart_told_method :
    TellsApart MethodDeclaration.Coded fun method => (Action.ofMethod method).toJson.spelled := by
  intro written coded codes same
  cases codes with
  | of parameters coded =>
      simp only [Action.toJson, Action.ofMethod, Value.spelled, Value.spelledFields,
        Value.spelledItems_eq_map, List.map_map, Value.object.injEq, List.cons.injEq,
        Prod.mk.injEq, true_and, and_true, Value.array.injEq] at same
      rw [tellsApart_told_parameter.map _ _ coded same]

theorem spelled_ofType_eq_iff (options : Options) {type type' : TypeDeclaration}
    (codes : TypeDeclaration.Coded type type') :
    (Controller.ofType options type').toJson.spelled =
        (Controller.ofType options type).toJson.spelled ↔
      eligibleMethods type' = eligibleMethods type := by
  have name : controllerName options type' = controllerName options type := by
    cases codes
    rfl
  have json : (Controller.ofType options type').toJson.spelled =
        (Controller.ofType options type).toJson.spelled ↔
      ((eligibleMethods type').map fun method => (Action.ofMethod method).toJson.spelled) =
        (eligibleMethods type).map fun method => (Action.ofMethod method).toJson.spelled := by
    simp only [Controller.toJson, Controller.ofType, name, actionsOf, filter_isAction,
      Value.spelled, Value.spelledFields, Value.spelledItems_eq_map, List.map_map,
      Value.object.injEq, List.cons.injEq, Prod.mk.injEq, true_and, and_true, Value.array.injEq]
    rfl
  rw [json]
  exact ⟨tellsApart_told_method.map _ _ (coded_eligibleMethods codes), fun same => by rw [same]⟩

/-! ### Models -/

theorem exists_pairs_of_forall₂ {τ : Type} {related : τ → τ → Prop} {items others : List τ}
    (each : List.Forall₂ related items others) :
    ∃ pairs : List (τ × τ), items = pairs.map Prod.fst ∧ others = pairs.map Prod.snd ∧
      ∀ pair ∈ pairs, related pair.1 pair.2 := by
  induction each with
  | nil => exact ⟨[], rfl, rfl, by simp⟩
  | @cons item other _ _ first _ ih =>
      obtain ⟨pairs, fronts, backs, each⟩ := ih
      refine ⟨(item, other) :: pairs, ?_, ?_, List.forall_mem_cons.mpr ⟨first, each⟩⟩
      · rw [fronts, List.map_cons]
      · rw [backs, List.map_cons]

/-- Graphs of coded types have one model exactly if their actions are the same. -/
theorem pretty_eq_iff_of_coded (each : List.Forall₂ TypeDeclaration.Coded graph.types other.types)
    (options : Options) :
    (modelToJson (Grouping.ofPairs (controllers options other)).areas).pretty =
        (modelToJson (Grouping.ofPairs (controllers options graph)).areas).pretty ↔
      (listedTypes options other).map eligibleMethods =
        (listedTypes options graph).map eligibleMethods := by
  obtain ⟨pairs, fronts, backs, codes⟩ := exists_pairs_of_forall₂ (coded_listedTypes each options)
  rw [Value.pretty_eq_iff, spelled_modelToJson_eq_iff, map_told_controllers, map_told_controllers,
    fronts, backs, sorted_map, sorted_map, List.map_map, List.map_map, List.map_inj_left,
    sorted_eq_iff fun pair member => .inl (areaOf_of_coded each (codes pair member))]
  apply forall₂_congr
  intro pair member
  rw [areaOf_of_coded each (codes pair member), spelled_ofType_eq_iff options (codes pair member)]
  simp

end Mvc

end ActionAtlas
