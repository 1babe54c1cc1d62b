import ActionAtlas.Proofs.Json.Spelled
import ActionAtlas.Proofs.Mvc.Discovery

/-!
What the text of a model tells: the areas in their order, each with its controllers up to the
spelling of constants. Sorting the same items by two areas tells the same only if the areas agree,
as far as items may only have left the default area.
-/

namespace ActionAtlas.Mvc

open Json

/-! ### Items sorted by area -/

section Sorted

variable {τ : Type}

/-- The areas of items in the order in which they first occur, each with what is told of its
items. -/
def sorted (area : τ → String) (told : τ → Value) (items : List τ) : List (String × List Value) :=
  (items.map area).eraseDups.map fun name =>
    (name, (items.filter fun item => area item == name).map told)

theorem lookup_sorted (area : τ → String) (told : τ → Value) (items : List τ) (name : String) :
    ((sorted area told items).lookup name).getD [] =
      (items.filter fun item => area item == name).map told := by
  by_cases known : name ∈ (items.map area).eraseDups
  · rw [sorted, List.lookup_graph _ known, Option.getD_some]
  · have missing : (sorted area told items).lookup name = none := by
      rw [List.lookup_eq_none_iff]
      intro entry member
      obtain ⟨other, inside, rfl⟩ := List.mem_map.mp member
      rw [bne_iff_ne]
      rintro rfl
      exact known inside
    have empty : (items.filter fun item => area item == name) = [] := by
      rw [List.filter_eq_nil_iff]
      intro item member same
      apply known
      rw [List.mem_eraseDups, ← eq_of_beq same]
      exact List.mem_map_of_mem member
    rw [missing, empty]
    rfl

theorem sorted_congr {first second : τ → String} {told other : τ → Value} {items : List τ}
    (same : ∀ item ∈ items, first item = second item ∧ told item = other item) :
    sorted first told items = sorted second other items := by
  have areas : items.map first = items.map second :=
    List.map_congr_left fun item member => (same item member).1
  rw [sorted, sorted, areas]
  apply List.map_congr_left
  intro name _
  have members : (items.filter fun item => first item == name) =
      items.filter fun item => second item == name := by
    apply List.filter_congr
    intro item member
    rw [(same item member).1]
  rw [members]
  congr 1
  apply List.map_congr_left
  intro item member
  exact (same item (List.mem_of_mem_filter member)).2

/-- Items that leave the default area are missed there. -/
theorem area_eq_of_sorted_eq {first second : τ → String} {told other : τ → Value} {items : List τ}
    (drift : ∀ item ∈ items, first item = second item ∨ second item = "" ∧ first item ≠ "")
    (same : sorted first told items = sorted second other items) :
    ∀ item ∈ items, first item = second item := by
  have counts := congrArg List.length
    ((lookup_sorted first told items "").symm.trans
      ((congrArg (fun areas => (areas.lookup "").getD []) same).trans
        (lookup_sorted second other items "")))
  rw [List.length_map, List.length_map] at counts
  have narrower : (items.filter fun item => first item == "") =
      (items.filter fun item => second item == "").filter fun item => first item == "" := by
    rw [List.filter_filter]
    apply List.filter_congr
    intro item member
    rcases drift item member with equal | ⟨default, left⟩
    · rw [equal, Bool.and_self]
    · rw [beq_false_of_ne left, Bool.false_and]
  have whole : (items.filter fun item => first item == "") =
      items.filter fun item => second item == "" := by
    apply List.Sublist.eq_of_length _ counts
    rw [narrower]
    exact List.filter_sublist
  intro item member
  rcases drift item member with equal | ⟨default, left⟩
  · exact equal
  · have inside : item ∈ items.filter fun item => second item == "" :=
      List.mem_filter.mpr ⟨member, beq_iff_eq.mpr default⟩
    rw [← whole, List.mem_filter] at inside
    exact absurd (eq_of_beq inside.2) left

theorem sorted_eq_iff {first second : τ → String} {told other : τ → Value} {items : List τ}
    (drift : ∀ item ∈ items, first item = second item ∨ second item = "" ∧ first item ≠ "") :
    sorted first told items = sorted second other items ↔
      ∀ item ∈ items, first item = second item ∧ told item = other item := by
  constructor
  · intro same item member
    have areas := area_eq_of_sorted_eq drift same
    refine ⟨areas item member, ?_⟩
    have members : (items.filter fun one => first one == second item) =
        items.filter fun one => second one == second item := by
      apply List.filter_congr
      intro one inside
      rw [areas one inside]
    have here := (lookup_sorted first told items (second item)).symm.trans
      ((congrArg (fun areas => (areas.lookup (second item)).getD []) same).trans
        (lookup_sorted second other items (second item)))
    rw [members, List.map_inj_left] at here
    exact here item (List.mem_filter.mpr ⟨member, beq_self_eq_true _⟩)
  · exact sorted_congr

end Sorted

/-! ### Models -/

def Area.told (area : Area) : String × List Value :=
  (area.name, area.controllers.map fun controller => controller.toJson.spelled)

def spelledArea (told : String × List Value) : Value :=
  .object [("name", (Value.string told.1).spelled), ("controllers", .array told.2)]

theorem spelledArea_injective : Function.Injective spelledArea := by
  rintro ⟨name, controllers⟩ ⟨other, others⟩ same
  simp only [spelledArea, Value.object.injEq, List.cons.injEq, Prod.mk.injEq, true_and, and_true,
    Value.array.injEq, Value.spelled, Value.string.injEq, Value.write] at same
  obtain ⟨names, rfl⟩ := same
  have texts := String.ofList_injective names
  rw [← List.append_nil (Quoted.write name), ← List.append_nil (Quoted.write other)] at texts
  rw [(Quoted.write_append_inj texts).1]

theorem Area.spelled_toJson (area : Area) : area.toJson.spelled = spelledArea area.told := by
  simp only [toJson, Value.spelled, Value.spelledFields, Value.spelledItems_eq_map, List.map_map,
    spelledArea, told]
  rfl

theorem spelled_modelToJson_eq_iff (first second : List Area) :
    (modelToJson first).spelled = (modelToJson second).spelled ↔
      first.map Area.told = second.map Area.told := by
  have spelled (areas : List Area) : (modelToJson areas).spelled =
      .array ((areas.map Area.told).map spelledArea) := by
    rw [modelToJson, Value.spelled, Value.spelledItems_eq_map, List.map_map, List.map_map]
    congr 1
    apply List.map_congr_left
    intro area _
    exact area.spelled_toJson
  rw [spelled, spelled, Value.array.injEq]
  exact (List.map_injective_iff.mpr spelledArea_injective).eq_iff

theorem map_told_ofPairs {τ : Type} (area : τ → String) (controller : τ → Controller)
    (items : List τ) :
    (Grouping.ofPairs (items.map fun item => (area item, controller item))).areas.map Area.told =
      sorted area (fun item => (controller item).toJson.spelled) items := by
  rw [(Grouping.holds_ofPairs _).areas_eq, List.map_map, sorted, Grouping.pushedNames,
    List.map_map]
  apply List.map_congr_left
  intro name _
  simp only [Function.comp_apply, Area.told, Grouping.pushedUnder, List.filter_map, List.map_map]
  rfl

end ActionAtlas.Mvc
