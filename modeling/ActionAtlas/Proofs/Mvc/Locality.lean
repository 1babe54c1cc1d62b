import ActionAtlas.Proofs.Mvc.BaseSearch
import ActionAtlas.Proofs.Mvc.Seen

/-!
Parts of a graph. What a type is to discovery hangs on its bases, and on nothing else that the
graph declares: where the bases of all types of a part are the same in the whole, so are its
controllers.
-/

namespace ActionAtlas

/-- In the whole graph, the types of the part have the bases that they have in the part. -/
structure SymbolGraph.PartOf (part whole : SymbolGraph) : Prop where
  length_le : part.types.length ≤ whole.types.length
  baseOf?_eq : ∀ type ∈ part.types, whole.baseOf? type = part.baseOf? type

namespace Mvc

variable {part whole : SymbolGraph} {type : TypeDeclaration} (options : Options)

/-- Bases are types of the part, so the types of the part correspond to themselves. -/
theorem correspondence_of_partOf (inside : part.PartOf whole) :
    Correspondence part whole fun type type' => type ∈ part.types ∧ type = type' where
  fullName_eq := by
    rintro type _ ⟨-, rfl⟩
    rfl
  baseName?_eq := by
    rintro type _ ⟨-, rfl⟩
    rfl
  above := by
    rintro type _ ⟨member, rfl⟩
    rw [inside.baseOf?_eq type member]
    cases found : part.baseOf? type with
    | none => exact .none
    | some base =>
        obtain ⟨name, -, lookup⟩ := Option.bind_eq_some_iff.mp found
        exact .some ⟨SymbolGraph.mem_of_get?_eq_some lookup, rfl⟩

theorem lineage_eq_of_partOf (inside : part.PartOf whole) (member : type ∈ part.types) :
    whole.lineage type = part.lineage type := by
  have along := (correspondence_of_partOf inside).lineageFrom (whole.types.length + 1) []
    ⟨member, rfl⟩
  have same : part.lineageFrom (whole.types.length + 1) [] type =
      whole.lineageFrom (whole.types.length + 1) [] type := by
    rw [← List.forall₂_eq_eq_eq]
    exact along.imp fun _ _ both => both.2
  have room := inside.length_le.trans (Nat.le_succ _)
  rw [SymbolGraph.lineage, ← same, SymbolGraph.lineageFrom_eq_lineage_of_mem member room]

theorem descendsFromBase_eq_of_partOf (inside : part.PartOf whole) (member : type ∈ part.types) :
    descendsFromBase options whole type = descendsFromBase options part type := by
  -- The search in the whole has more steps, but the one in the part needs no more than its own.
  have room : part.types.length + 1 ≤ whole.types.length + 2 :=
    (Nat.succ_le_succ inside.length_le).trans (Nat.le_succ _)
  rw [descendsFromBase, (correspondence_of_partOf inside).answer?_start_eq options _ ⟨member, rfl⟩,
    BaseSearch.answer?_start options member room, Option.getD_some]

theorem areaOf_eq_of_partOf (inside : part.PartOf whole) (member : type ∈ part.types) :
    areaOf whole type = areaOf part type := by
  rw [areaOf, lineage_eq_of_partOf inside member, areaOf]

/-- The types of a part are in the whole the controllers that they are in the part. -/
theorem filterMap_controllerOf?_of_partOf (inside : part.PartOf whole) :
    part.types.filterMap (controllerOf? options whole) = controllers options part := by
  apply List.filterMap_congr
  intro type member
  exact (SeenAlike.refl type).controllerOf?_eq options
    (descendsFromBase_eq_of_partOf options inside member) (areaOf_eq_of_partOf inside member)

end Mvc

end ActionAtlas
