import Mathlib.Data.List.Basic
import ActionAtlas.Files.Name
import ActionAtlas.Proofs.Path

/-!
The paths of files below a root. A path that has come from a root by names is seen from there as
what is read of the names, and where they are all in UTF-8 it tells them.
-/

namespace ActionAtlas

open ActionAtlas.Path (slash fullStop)

/-! ### Names -/

namespace FileName

theorem ext {name other : FileName} (same : name.bytes = other.bytes) : name = other := by
  cases name
  cases other
  cases same
  rfl

variable (name : FileName)

theorem ne_nil : name.bytes ≠ [] := by
  have proper := name.proper
  simp only [isFileName, Bool.and_eq_true, decide_eq_true_eq] at proper
  exact proper.1.1.1

theorem ne_fullStop : name.bytes ≠ [fullStop] := by
  have proper := name.proper
  simp only [isFileName, Bool.and_eq_true, decide_eq_true_eq] at proper
  exact proper.1.1.2

theorem ne_fullStops : name.bytes ≠ [fullStop, fullStop] := by
  have proper := name.proper
  simp only [isFileName, Bool.and_eq_true, decide_eq_true_eq] at proper
  exact proper.1.2

theorem slash_not_mem : slash ∉ name.bytes := by
  have proper := name.proper
  simp only [isFileName, Bool.and_eq_true, Bool.not_eq_true', List.contains_eq_mem,
    decide_eq_false_iff_not] at proper
  exact proper.2

theorem ofPiece?_bytes : Path.Component.ofPiece? name.bytes = some (.name name.bytes) := by
  rw [Path.Component.ofPiece?, if_neg (not_or.mpr ⟨name.ne_nil, name.ne_fullStop⟩),
    if_neg name.ne_fullStops]

theorem between_bytes : Path.between name.bytes = [name.bytes] := by
  refine Text.runs_of_no_mark fun b inside => ?_
  rw [beq_eq_false_iff_ne]
  rintro rfl
  exact name.slash_not_mem inside

/-- An extension stands behind the last full stop, and something before this. -/
theorem extension?_eq_some_iff {name : FileName} {ending : List UInt8} :
    name.extension? = some ending ↔
      fullStop ∉ ending ∧ ∃ stem, stem ≠ [] ∧ name.bytes = stem ++ fullStop :: ending := by
  refine ⟨fun extension => ?_, ?_⟩
  · rw [extension?] at extension
    split at extension
    · next first more behind cut =>
        cases extension
        obtain ⟨bytes_eq, absent⟩ := Text.cutLast?_eq_some_iff.mp cut
        exact ⟨absent, _, List.cons_ne_nil first more, bytes_eq⟩
    · cases extension
  · rintro ⟨absent, stem, some, bytes_eq⟩
    have cut : Text.cutLast? fullStop name.bytes = Option.some (stem, ending) :=
      Text.cutLast?_eq_some_iff.mpr ⟨bytes_eq, absent⟩
    rw [extension?, cut]
    cases stem with
    | nil => exact absurd rfl some
    | cons first more => rfl

/-- The name is a text in UTF-8. -/
def IsText : Prop :=
  ∃ text, name.bytes = Text.bytes text

variable {name}

theorem IsText.bytes_text (isText : name.IsText) : Text.bytes name.text = name.bytes := by
  obtain ⟨text, bytes_eq⟩ := isText
  rw [FileName.text, bytes_eq, Text.lossy_bytes]

end FileName

/-! ### Paths -/

namespace Path

theorem filterMap_ofPiece?_name (name : FileName) :
    [name.bytes].filterMap Component.ofPiece? = [.name name.bytes] := by
  rw [List.filterMap_cons, name.ofPiece?_bytes]
  rfl

theorem components_name (name : FileName) : components name.bytes = [.name name.bytes] := by
  have noLead : lead name.bytes [] = [] := by simp [lead, name.ne_fullStop]
  rw [components, name.between_bytes, componentsOfPieces_cons, noLead, List.nil_append,
    filterMap_ofPiece?_name]

theorem components_append_name (path : List UInt8) (name : FileName) :
    components (path ++ slash :: name.bytes) =
      components (path ++ [slash]) ++ [.name name.bytes] := by
  obtain ⟨first, others, cut⟩ := List.exists_cons_of_ne_nil (between_ne_nil path)
  have nothing : [([] : List UInt8)].filterMap Component.ofPiece? = [] := rfl
  rw [components, components, between_append, between_append, cut, name.between_bytes]
  change componentsOfPieces (first :: (others ++ [name.bytes])) =
    componentsOfPieces (first :: (others ++ [[]])) ++ _
  rw [componentsOfPieces_cons, componentsOfPieces_cons, ← List.cons_append, ← List.cons_append,
    List.filterMap_append, List.filterMap_append, filterMap_ofPiece?_name, nothing]
  simp [lead]

/-- Pushing a name puts one component at the end, also where the path ends in a slash. -/
theorem components_push (path : List UInt8) (name : FileName) :
    components (push path name.bytes) = components path ++ [.name name.bytes] := by
  by_cases empty : path = []
  · rw [empty, push, if_pos (.inl rfl), List.nil_append, components_name]
    rfl
  · by_cases closed : path.getLast? = some slash
    · obtain ⟨front, rfl⟩ := List.getLast?_eq_some_iff.mp closed
      rw [push, if_pos (.inr closed), List.append_assoc, List.singleton_append,
        components_append_name]
    · rw [push, if_neg (not_or.mpr ⟨empty, closed⟩), components_append_name,
        components_append_slash empty]

end Path

/-! ### Below a root -/

/-- What is read of the names, with slashes between them. -/
def Location.render (location : Location) : String :=
  if location = [] then "." else "/".intercalate (location.map FileName.text)

def Location.IsText (location : Location) : Prop :=
  ∀ name ∈ location, name.IsText

namespace Location

variable {location other : Location}

theorem components_path (root : List UInt8) (location : Location) :
    Path.components (location.path root) =
      Path.components root ++ location.map fun name => .name name.bytes := by
  induction location generalizing root with
  | nil => rw [List.map_nil, List.append_nil, path, List.foldl_nil]
  | cons name others ih =>
      rw [path, List.foldl_cons, ← path, ih, Path.components_push, List.append_assoc,
        List.map_cons, List.singleton_append]

theorem render_components (location : Location) :
    Path.render (location.map fun name => .name name.bytes) = location.render := by
  have texts : (location.map fun name => Path.Component.name name.bytes).filterMap
      Path.Component.text? = location.map FileName.text := by
    rw [List.filterMap_map, ← List.filterMap_eq_map]
    rfl
  rw [Path.render, texts, render]
  cases location with
  | nil => rfl
  | cons name others => rfl

/-- A root always leads to the paths that come from it by names. -/
theorem below_path (root : List UInt8) (location : Location) :
    Path.below root (location.path root) = .ok location.render := by
  have leads : (Path.components root).isPrefixOf (Path.components (location.path root)) = true := by
    rw [components_path, List.isPrefixOf_iff_prefix]
    exact List.prefix_append _ _
  have found : Path.below? root (location.path root) = some location.render := by
    rw [Path.below?, leads, if_pos rfl, components_path, List.drop_left, render_components]
  rw [Path.below, found]

theorem render_of_ne_nil (some : location ≠ []) :
    location.render = "/".intercalate (location.map FileName.text) := by
  rw [render, if_neg some]

theorem bytes_render (some : location ≠ []) (isText : location.IsText) :
    Text.bytes location.render = [slash].intercalate (location.map FileName.bytes) := by
  have each : (location.map FileName.text).map Text.bytes = location.map FileName.bytes := by
    rw [List.map_map]
    exact List.map_congr_left fun name inside => (isText name inside).bytes_text
  rw [render_of_ne_nil some, ← each, Text.bytes_intercalate]
  rfl

theorem render_inj (some : location ≠ []) (isText : location.IsText) (otherSome : other ≠ [])
    (otherIsText : other.IsText) (same : location.render = other.render) : location = other := by
  have back {location : Location} (some : location ≠ []) (isText : location.IsText) :
      Path.between (Text.bytes location.render) = location.map FileName.bytes := by
    have undivided : ∀ bytes ∈ location.map FileName.bytes, slash ∉ bytes := by
      intro bytes inside
      obtain ⟨name, -, rfl⟩ := List.mem_map.mp inside
      exact name.slash_not_mem
    rw [bytes_render some isText, Path.between, Text.runs_eq_splitOnP]
    exact List.splitOn_intercalate slash undivided (mt List.map_eq_nil_iff.mp some)
  have names := back some isText
  rw [same, back otherSome otherIsText] at names
  exact ((List.map_inj_right fun name next bytes => FileName.ext bytes).mp names).symm

end Location

end ActionAtlas
