import ActionAtlas.Proofs.Graph.RoundTrip
import ActionAtlas.Proofs.Mvc.Area
import ActionAtlas.Proofs.Mvc.Correspondence
import ActionAtlas.Proofs.Mvc.ModelText
import ActionAtlas.Proofs.Names.Settled

/-!
Discovery on a graph that was written and loaded again.

Loading changes constants only, so the same types are controllers with the same actions. What may
differ is the area of a type, since a character becomes a text, and the text of a double.
-/

namespace ActionAtlas

/-! ### What loading keeps -/

def MethodDeclaration.reloaded (method : MethodDeclaration) : MethodDeclaration :=
  (method.mapConstants .reread).convert

def Parameter.reloaded (parameter : Parameter) : Parameter :=
  (parameter.mapConstants .reread).convert

theorem TypeDeclaration.methods_reloaded (type : TypeDeclaration) :
    type.reloaded.methods = type.methods.map MethodDeclaration.reloaded := by
  change (type.methods.map _).map _ = _
  rw [List.map_map]
  rfl

theorem MethodDeclaration.parameters_reloaded (method : MethodDeclaration) :
    method.reloaded.parameters = method.parameters.map Parameter.reloaded := by
  change (method.parameters.map _).map _ = _
  rw [List.map_map]
  rfl

namespace SymbolGraph

theorem get?_reloaded (graph : SymbolGraph) (name : String) :
    graph.reloaded.get? name = (graph.get? name).map TypeDeclaration.reloaded := by
  rw [get?_eq_find?, get?_eq_find?]
  exact List.find?_map

theorem baseOf?_reloaded (graph : SymbolGraph) (type : TypeDeclaration) :
    graph.reloaded.baseOf? type.reloaded = (graph.baseOf? type).map TypeDeclaration.reloaded := by
  change type.baseName?.bind graph.reloaded.get? = (type.baseName?.bind graph.get?).map _
  cases type.baseName? with
  | none => rfl
  | some name => exact graph.get?_reloaded name

theorem length_types_reloaded (graph : SymbolGraph) :
    graph.reloaded.types.length = graph.types.length :=
  List.length_map TypeDeclaration.reloaded

end SymbolGraph

namespace Mvc

theorem correspondence_reloaded (graph : SymbolGraph) :
    Correspondence graph graph.reloaded fun type type' => type.reloaded = type' where
  fullName_eq := by
    rintro type _ rfl
    rfl
  baseName?_eq := by
    rintro type _ rfl
    rfl
  above := by
    rintro type _ rfl
    rw [SymbolGraph.baseOf?_reloaded]
    cases graph.baseOf? type with
    | none => exact .none
    | some base => exact .some rfl

theorem lineage_reloaded (graph : SymbolGraph) (type : TypeDeclaration) :
    graph.reloaded.lineage type.reloaded =
      (graph.lineage type).map TypeDeclaration.reloaded := by
  have along := (correspondence_reloaded graph).lineage graph.length_types_reloaded
    (rfl : type.reloaded = type.reloaded)
  symm
  rwa [← List.forall₂_eq_eq_eq, List.forall₂_map_left_iff]

theorem Marker.find?_mapConstants (marker : Marker) (change : Constant → Constant)
    (attributes : List Attribute) :
    marker.find? (attributes.map (Attribute.mapConstants change)) =
      (marker.find? attributes).map (Attribute.mapConstants change) :=
  List.find?_map

theorem Marker.marks_mapConstants (marker : Marker) (change : Constant → Constant)
    (attributes : List Attribute) :
    marker.marks (attributes.map (Attribute.mapConstants change)) = marker.marks attributes := by
  rw [marks, find?_mapConstants, Option.isSome_map]
  rfl

theorem isAction_reloaded (method : MethodDeclaration) :
    isAction method.reloaded = isAction method := by
  have marked := Marker.nonAction.marks_mapConstants .reread method.attributes
  simp only [isAction, MethodDeclaration.reloaded, MethodDeclaration.convert,
    MethodDeclaration.mapConstants, marked]

theorem isController_reloaded (options : Options) (graph : SymbolGraph) (type : TypeDeclaration) :
    isController options graph.reloaded type.reloaded = isController options graph type := by
  have descends := (correspondence_reloaded graph).descendsFromBase_eq options
    graph.length_types_reloaded (rfl : type.reloaded = type.reloaded)
  have marked : Marker.nonController.marks type.reloaded.attributes =
      Marker.nonController.marks type.attributes :=
    Marker.nonController.marks_mapConstants .reread type.attributes
  rw [isController, descends, marked]
  rfl

theorem eligibleMethods_reloaded (type : TypeDeclaration) :
    eligibleMethods type.reloaded = (eligibleMethods type).map MethodDeclaration.reloaded := by
  rw [← filter_isAction, ← filter_isAction, TypeDeclaration.methods_reloaded, List.filter_map]
  congr 1
  apply List.filter_congr
  intro method _
  exact isAction_reloaded method

theorem listedTypes_reloaded (options : Options) (graph : SymbolGraph) :
    listedTypes options graph.reloaded =
      (listedTypes options graph).map TypeDeclaration.reloaded := by
  change (graph.types.map TypeDeclaration.reloaded).filter _ = _
  rw [List.filter_map]
  congr 1
  apply List.filter_congr
  intro type _
  simp only [Function.comp_apply, isController_reloaded, eligibleMethods_reloaded, ne_eq,
    List.map_eq_nil_iff]

/-! ### Areas -/

theorem areaMarker?_reloaded (graph : SymbolGraph) (type : TypeDeclaration) :
    areaMarker? graph.reloaded type.reloaded =
      (areaMarker? graph type).map (Attribute.mapConstants .reread) := by
  rw [areaMarker?, areaMarker?, lineage_reloaded, List.findSome?_map,
    List.map_findSome?]
  congr 1
  funext ancestor
  exact Marker.area.find?_mapConstants .reread ancestor.attributes

/-- The area of a type is not taken from a character. -/
def KeepsArea (graph : SymbolGraph) (type : TypeDeclaration) : Prop :=
  ∀ marker c, areaMarker? graph type = some marker →
    marker.arguments.head? ≠ some (.constant (.char c))

/-- Of all constants only a character becomes a text or is one no longer. -/
theorem Constant.string?_reread {constant : Constant} (other : ∀ c, constant ≠ .char c) :
    constant.reread.string? = constant.string? := by
  cases constant with
  | char c => exact absurd rfl (other c)
  | uint value =>
      have read : (Constant.uint value).reread = if value.toNat < 0x8000000000000000 then
          .int (Int64.ofNat value.toNat) else .uint value := rfl
      rw [read]
      split <;> rfl
  | float value =>
      rw [Constant.reread]
      split <;> rfl
  | _ => rfl

theorem areaArgument?_reread {marker : Attribute}
    (keeps : ∀ c, marker.arguments.head? ≠ some (.constant (.char c))) :
    areaArgument? (marker.mapConstants .reread) = areaArgument? marker := by
  simp only [areaArgument?, Attribute.mapConstants, List.head?_map]
  cases first : marker.arguments.head? with
  | none => rfl
  | some written =>
      cases written with
      | unresolved text => rfl
      | constant value =>
          apply Constant.string?_reread
          rintro c rfl
          exact keeps c first

theorem areaOf_reloaded {graph : SymbolGraph} {type : TypeDeclaration}
    (keeps : KeepsArea graph type) :
    areaOf graph.reloaded type.reloaded = areaOf graph type := by
  rw [areaOf_eq, areaOf_eq, areaMarker?_reloaded]
  cases found : areaMarker? graph type with
  | none => rfl
  | some marker =>
      rw [Option.map_some, Option.bind_some, Option.bind_some,
        areaArgument?_reread fun c => keeps marker c found]

/-- A character gives no area until it is a text. -/
theorem areaOf_of_not_keepsArea {graph : SymbolGraph} {type : TypeDeclaration}
    (differs : ¬KeepsArea graph type) :
    areaOf graph type = "" ∧ areaOf graph.reloaded type.reloaded ≠ "" := by
  simp only [KeepsArea, not_forall, not_not] at differs
  obtain ⟨marker, c, found, first⟩ := differs
  rw [areaOf_eq, areaOf_eq, areaMarker?_reloaded, found, Option.map_some, Option.bind_some,
    Option.bind_some]
  simp only [areaArgument?, Attribute.mapConstants, List.head?_map, first]
  constructor
  · rfl
  · change String.singleton c ≠ ""
    intro empty
    have characters := congrArg String.toList empty
    rw [String.toList_singleton] at characters
    cases characters

theorem areaOf_reloaded_iff (graph : SymbolGraph) (type : TypeDeclaration) :
    areaOf graph.reloaded type.reloaded = areaOf graph type ↔ KeepsArea graph type := by
  constructor
  · intro same
    by_contra differs
    obtain ⟨none, some⟩ := areaOf_of_not_keepsArea differs
    exact some (same.trans none)
  · exact areaOf_reloaded

/-! ### Default values -/

open Json

def KeepsText (x : Decimal.Binary64) : Prop :=
  (Number.float x.reread).write = (Number.float x).write

theorem spelled_toJson_float (x : Decimal.Binary64) :
    (Constant.float x).toJson.spelled = .string (String.ofList (Number.float x).write) := by
  by_cases finite : x.isFinite = true
  · rw [Constant.toJson, if_pos finite]
    rfl
  · rw [Constant.toJson, if_neg finite, Number.write, if_neg finite]
    rfl

theorem toJson_forType_string (text : String) (shape : TypeShape) :
    ((Constant.string text).forType shape).toJson = .string text := by
  unfold Constant.forType
  cases shape.constantType? with
  | none => rfl
  | some primitive =>
      simp only [Constant.forPrimitive]
      split
      · next c single =>
        have whole : String.singleton c = text := by
          apply String.toList_injective
          rw [String.toList_singleton, single]
        rw [Constant.toJson, whole]
      · rfl

theorem forType_int_of_uint {value : UInt64} {shape : TypeShape}
    (settled : (Constant.uint value).forType shape = .uint value) (n : Int64) :
    (Constant.int n).forType shape = .int n := by
  unfold Constant.forType at settled ⊢
  cases given : shape.constantType? with
  | none => rfl
  | some primitive =>
      rw [given] at settled
      simp only [Constant.forPrimitive] at settled ⊢
      by_cases real : primitive.isReal = true
      · rw [if_pos real] at settled
        cases settled
      · rw [if_neg real]

theorem spelled_reread_iff {constant : Constant} {shape : TypeShape}
    (settled : constant.forType shape = constant) :
    (constant.reread.forType shape).toJson.spelled = constant.toJson.spelled ↔
      ∀ x, constant = .float x → x.isFinite = true → KeepsText x := by
  -- Constants that are read as they are need no conversion again.
  have kept (same : constant.reread = constant) :
      (constant.reread.forType shape).toJson.spelled = constant.toJson.spelled := by
    rw [same, settled]
  cases constant with
  | null => exact iff_of_true (kept rfl) nofun
  | bool value => exact iff_of_true (kept rfl) nofun
  | int value => exact iff_of_true (kept rfl) nofun
  | string value => exact iff_of_true (kept rfl) nofun
  | char value =>
      refine iff_of_true ?_ nofun
      exact congrArg Value.spelled (toJson_forType_string (String.singleton value) shape)
  | uint value =>
      refine iff_of_true ?_ nofun
      by_cases small : value.toNat < 0x8000000000000000
      · have signed : (Constant.uint value).reread = .int (Int64.ofNat value.toNat) := if_pos small
        have size : (Int64.ofNat value.toNat).toInt = value.toNat :=
          Int64.toInt_ofNat_of_lt small
        rw [signed, forType_int_of_uint settled, Constant.toJson, Constant.toJson, size]
      · exact kept (if_neg small)
  | float x =>
      by_cases finite : x.isFinite = true
      · have read : (Constant.float x).reread = .float x.reread := if_pos finite
        have held : (Constant.float x.reread).forType shape = .float x.reread := by
          unfold Constant.forType
          cases shape.constantType? <;> rfl
        rw [read, held, spelled_toJson_float, spelled_toJson_float, Value.string.injEq]
        constructor
        · rintro same y ⟨⟩ -
          exact String.ofList_injective same
        · intro keeps
          exact congrArg String.ofList (keeps x rfl finite)
      · have read : (Constant.float x).reread = .null := if_neg finite
        have held : Constant.null.forType shape = .null := by
          unfold Constant.forType
          cases shape.constantType? <;> rfl
        refine iff_of_true ?_ ?_
        · rw [read, held, spelled_toJson_float, Number.write, if_neg finite]
          rfl
        · rintro y ⟨⟩ shown
          exact absurd shown finite

def KeepsDefault (parameter : Parameter) : Prop :=
  ∀ x, parameter.default? = some (.constant (.float x)) → x.isFinite = true → KeepsText x

theorem spelled_ofParameter_reloaded_iff {parameter : Parameter}
    (settled : parameter.convert = parameter) :
    (ActionParameter.ofParameter parameter.reloaded).toJson.spelled =
        (ActionParameter.ofParameter parameter).toJson.spelled ↔
      KeepsDefault parameter := by
  obtain ⟨name, type, default?⟩ := parameter
  cases default? with
  | none => exact iff_of_true rfl nofun
  | some written =>
      cases written with
      | unresolved text => exact iff_of_true rfl nofun
      | constant value =>
          simp only [Parameter.convert, Option.map_some, Evaluated.forType, Parameter.mk.injEq,
            Option.some.injEq, Evaluated.constant.injEq, true_and] at settled
          have told := spelled_reread_iff settled
          have json : (ActionParameter.ofParameter
                (Parameter.reloaded ⟨name, type, some (.constant value)⟩)).toJson.spelled =
              (ActionParameter.ofParameter ⟨name, type, some (.constant value)⟩).toJson.spelled ↔
              (value.reread.forType type).toJson.spelled = value.toJson.spelled := by
            simp only [ActionParameter.toJson, Value.spelled, Value.spelledFields,
              Value.object.injEq, List.cons.injEq, Prod.mk.injEq, true_and, and_true]
            exact ⟨fun same => same.2.2.2, fun same => ⟨rfl, rfl, rfl, same⟩⟩
          rw [json, told]
          constructor
          · intro keeps x given
            exact keeps x (Evaluated.constant.inj (Option.some.inj given))
          · rintro keeps x rfl
            exact keeps x rfl

/-! ### Controllers -/

theorem spelled_ofMethod_reloaded_iff {method : MethodDeclaration}
    (settled : ∀ parameter ∈ method.parameters, parameter.convert = parameter) :
    (Action.ofMethod method.reloaded).toJson.spelled = (Action.ofMethod method).toJson.spelled ↔
      ∀ parameter ∈ method.parameters, KeepsDefault parameter := by
  have json : (Action.ofMethod method.reloaded).toJson.spelled =
        (Action.ofMethod method).toJson.spelled ↔
      (method.parameters.map fun parameter =>
          (ActionParameter.ofParameter parameter.reloaded).toJson.spelled) =
        method.parameters.map fun parameter =>
          (ActionParameter.ofParameter parameter).toJson.spelled := by
    simp only [Action.toJson, Action.ofMethod, MethodDeclaration.parameters_reloaded,
      Value.spelled, Value.spelledFields, Value.spelledItems_eq_map, List.map_map,
      Value.object.injEq, List.cons.injEq, Prod.mk.injEq, true_and, and_true, Value.array.injEq]
    exact ⟨fun same => same.2, fun same => ⟨rfl, same⟩⟩
  rw [json, List.map_inj_left]
  apply forall₂_congr
  intro parameter member
  exact spelled_ofParameter_reloaded_iff (settled parameter member)

theorem spelled_ofType_reloaded_iff (options : Options) {type : TypeDeclaration}
    (settled : type.IsSettled) :
    (Controller.ofType options type.reloaded).toJson.spelled =
        (Controller.ofType options type).toJson.spelled ↔
      ∀ method ∈ eligibleMethods type, ∀ parameter ∈ method.parameters, KeepsDefault parameter := by
  have json : (Controller.ofType options type.reloaded).toJson.spelled =
        (Controller.ofType options type).toJson.spelled ↔
      ((eligibleMethods type).map fun method => (Action.ofMethod method.reloaded).toJson.spelled) =
        (eligibleMethods type).map fun method => (Action.ofMethod method).toJson.spelled := by
    simp only [Controller.toJson, Controller.ofType, actionsOf, filter_isAction,
      eligibleMethods_reloaded, Value.spelled, Value.spelledFields, Value.spelledItems_eq_map,
      List.map_map, Value.object.injEq, List.cons.injEq, Prod.mk.injEq, true_and, and_true,
      Value.array.injEq]
    exact ⟨fun same => same.2, fun same => ⟨rfl, same⟩⟩
  rw [json, List.map_inj_left]
  apply forall₂_congr
  intro method member
  exact spelled_ofMethod_reloaded_iff (settled method (List.mem_of_mem_filter member))

/-! ### Models -/

theorem map_told_controllers (options : Options) (graph : SymbolGraph) :
    (Grouping.ofPairs (controllers options graph)).areas.map Area.told =
      sorted (areaOf graph) (fun type => (Controller.ofType options type).toJson.spelled)
        (listedTypes options graph) := by
  rw [controllers_eq_map]
  exact map_told_ofPairs _ _ _

theorem sorted_map {α β : Type} (area : β → String) (told : β → Value) (change : α → β)
    (items : List α) :
    sorted area told (items.map change) =
      sorted (fun item => area (change item)) (fun item => told (change item)) items := by
  rw [sorted, sorted, List.map_map]
  apply List.map_congr_left
  intro name _
  rw [List.filter_map, List.map_map]
  rfl

/-- What a listed type says in the model is the same after loading. -/
structure Survives (graph : SymbolGraph) (type : TypeDeclaration) : Prop where
  area : KeepsArea graph type
  defaults : ∀ method ∈ eligibleMethods type, ∀ parameter ∈ method.parameters,
    KeepsDefault parameter

theorem pretty_reloaded_iff (options : Options) (graph : SymbolGraph)
    (settled : ∀ type ∈ graph.types, type.IsSettled) :
    (modelToJson (Grouping.ofPairs (controllers options graph.reloaded)).areas).pretty =
        (modelToJson (Grouping.ofPairs (controllers options graph)).areas).pretty ↔
      ∀ type ∈ listedTypes options graph, Survives graph type := by
  rw [Value.pretty_eq_iff, spelled_modelToJson_eq_iff, map_told_controllers, map_told_controllers,
    listedTypes_reloaded, sorted_map, sorted_eq_iff]
  · apply forall₂_congr
    intro type member
    have own : type.IsSettled := settled type (List.mem_of_mem_filter member)
    rw [areaOf_reloaded_iff, spelled_ofType_reloaded_iff options own]
    exact ⟨fun both => ⟨both.1, both.2⟩, fun survives => ⟨survives.area, survives.defaults⟩⟩
  · intro type _
    by_cases keeps : KeepsArea graph type
    · exact .inl (areaOf_reloaded keeps)
    · exact .inr (areaOf_of_not_keepsArea keeps)

end Mvc

end ActionAtlas
