import Mathlib.Data.List.DropRight
import ActionAtlas.Graph.Lineage
import ActionAtlas.Proofs.Text.Cut

/-!
The names under which bases are declared. A written base may have type arguments, and what stands
before them, without the blanks at its end, names its definition.
-/

namespace ActionAtlas

/-- The name that a written type name says before its type arguments. -/
inductive NamesDefinition : String → String → Prop
  | plain {name : String} (bare : '<' ∉ name.toList) : NamesDefinition name name
  | applied {name blanks arguments : String} (bare : '<' ∉ name.toList)
      (blank : ∀ c ∈ blanks.toList, Text.isBlank c = true)
      (closed : ∀ c ∈ name.toList.getLast?, Text.isBlank c = false) :
      NamesDefinition (name ++ blanks ++ "<" ++ arguments) name

/-- Only the blanks at the end are trimmed there, and all of them. -/
theorem Text.trimEnd_eq_iff {text front : List Char} : trimEnd text = front ↔
    (∃ blanks, text = front ++ blanks ∧ ∀ c ∈ blanks, isBlank c = true) ∧
      ∀ c ∈ front.getLast?, isBlank c = false := by
  have dropped (text : List Char) : trimEnd text = text.rdropWhile isBlank := rfl
  rw [dropped]
  constructor
  · rintro rfl
    refine ⟨⟨text.rtakeWhile isBlank, List.rdropWhile_append_rtakeWhile.symm, fun c inside =>
      List.mem_rtakeWhile_imp inside⟩, fun c last => ?_⟩
    obtain ⟨some, rfl⟩ := List.mem_getLast?_eq_getLast last
    exact Bool.not_eq_true _ ▸ List.rdropWhile_last_not isBlank text some
  · rintro ⟨⟨blanks, rfl, blank⟩, closed⟩
    rw [List.rdropWhile, List.reverse_append,
      List.dropWhile_append_of_pos fun c inside => blank c (List.mem_reverse.mp inside)]
    refine List.rdropWhile_eq_self_iff.mpr fun some last => ?_
    rw [closed _ (List.getLast_mem_getLast? some)] at last
    cases last

theorem genericDefinition_eq_iff {written name : String} :
    genericDefinition written = name ↔ NamesDefinition written name := by
  rw [genericDefinition]
  constructor
  · rintro rfl
    cases cut : Text.cutFirst? '<' written.toList with
    | none => exact .plain (Text.cutFirst?_eq_none_iff.mp cut)
    | some parts =>
        obtain ⟨before, arguments⟩ := parts
        obtain ⟨whole, absent⟩ := Text.cutFirst?_eq_some_iff.mp cut
        obtain ⟨front, trimmed⟩ : ∃ front, Text.trimEnd before = front := ⟨_, rfl⟩
        obtain ⟨⟨blanks, rfl, blank⟩, closed⟩ := Text.trimEnd_eq_iff.mp trimmed
        have told : written = String.ofList front ++ String.ofList blanks ++ "<" ++
            String.ofList arguments := by
          rw [← String.toList_inj, whole]
          simp
        simp only [trimmed]
        rw [told]
        refine .applied ?_ ?_ ?_
        · rw [String.toList_ofList]
          exact fun inside => absent (List.mem_append_left blanks inside)
        · rwa [String.toList_ofList]
        · rwa [String.toList_ofList]
  · rintro (bare | ⟨bare, blank, closed⟩)
    · rw [Text.cutFirst?_eq_none_iff.mpr bare]
    · next blanks arguments =>
      have absent : '<' ∉ name.toList ++ blanks.toList := by
        rw [List.mem_append, not_or]
        exact ⟨bare, fun inside => absurd (blank '<' inside) (by decide)⟩
      have cut : Text.cutFirst? '<' (name ++ blanks ++ "<" ++ arguments).toList =
          some (name.toList ++ blanks.toList, arguments.toList) :=
        Text.cutFirst?_eq_some_iff.mpr ⟨by simp, absent⟩
      rw [cut]
      simp only
      rw [Text.trimEnd_eq_iff.mpr ⟨⟨_, rfl, blank⟩, closed⟩, String.ofList_toList]

/-- The base of a type is declared under this name, if it is declared at all. -/
def TypeDeclaration.HasBase (type : TypeDeclaration) (name : String) : Prop :=
  ∃ written ∈ type.base?, NamesDefinition written name

theorem TypeDeclaration.baseName?_eq_some_iff {type : TypeDeclaration} {name : String} :
    type.baseName? = some name ↔ type.HasBase name := by
  rw [baseName?, Option.map_eq_some_iff]
  simp only [genericDefinition_eq_iff]
  rfl

end ActionAtlas
