import ActionAtlas.Proofs.Graph.Shape
import ActionAtlas.Proofs.Json.Yields

/-!
Shapes that are read are written no deeper than they were read, in whichever of the accepted forms
they stood. Every field of a shape is required, so what its draft begins with never gets into the
result.
-/

namespace ActionAtlas.TypeShape

open Json

theorem depthOfItems_listToJson_le_iff {shapes : List TypeShape} {bound : Nat} :
    Value.depthOfItems (listToJson shapes) ≤ bound ↔
      ∀ shape ∈ shapes, shape.toJson.depth ≤ bound := by
  induction shapes with
  | nil => simp [listToJson, Value.depthOfItems]
  | cons shape others ih => simp [listToJson, Value.depthOfItems, ih]

/-! ### Parts and drafts -/

/-- What a part gives as a shape, or as a list of shapes, is written within `bound` levels. -/
structure Part.Within (bound : Nat) (part : Part) : Prop where
  shape : ∀ shape, part.shape = .ok shape → shape.toJson.depth ≤ bound
  shapes : ∀ shapes, part.shapes = .ok shapes → Value.depthOfItems (listToJson shapes) < bound

theorem Part.Within.mono {part : Part} {bound more : Nat} (within : part.Within bound)
    (le : bound ≤ more) : part.Within more where
  shape := fun shape given => (within.shape shape given).trans le
  shapes := fun shapes given => (within.shapes shapes given).trans_le le

/-- The fields in `stored` leave room for a shape of one level more. -/
structure Draft.Fits (bound : Nat) (draft : Draft) (stored : List String) : Prop where
  arguments : "arguments" ∈ stored → Value.depthOfItems (listToJson draft.arguments) < bound
  element : "element" ∈ stored ∨ "underlying" ∈ stored → draft.element.toJson.depth ≤ bound

theorem Draft.fits_nil (bound : Nat) (draft : Draft) : draft.Fits bound [] := by
  constructor <;> simp

theorem Draft.Fits.store {draft next : Draft} {name : String} {part : Part} {bound : Nat}
    {stored : List String} (fits : draft.Fits bound stored) (within : part.Within bound)
    (given : draft.store name part = .ok next) : next.Fits bound (name :: stored) := by
  have arguments := fits.arguments
  have element := fits.element
  unfold Draft.store at given
  split at given
  · obtain ⟨builtIn, -, rfl⟩ := map_eq_ok_iff.mp given
    constructor <;> simpa
  · obtain ⟨fullName, -, rfl⟩ := map_eq_ok_iff.mp given
    constructor <;> simpa
  · obtain ⟨shapes, read, rfl⟩ := map_eq_ok_iff.mp given
    exact ⟨fun _ => within.shapes shapes read, by simpa⟩
  · obtain ⟨rank, -, rfl⟩ := map_eq_ok_iff.mp given
    constructor <;> simpa
  · next other _ =>
    obtain ⟨shape, read, rfl⟩ := map_eq_ok_iff.mp given
    refine ⟨?_, fun _ => within.shape shape read⟩
    intro member
    exact arguments ((List.mem_cons.mp member).resolve_left fun same => other same.symm)

theorem Draft.Fits.depth_finish_le {draft : Draft} {bound : Nat} {stored : List String} {tag : Tag}
    (fits : draft.Fits bound stored) (all : ∀ name ∈ tag.fields, name ∈ stored) :
    (draft.finish tag).toJson.depth ≤ bound + 1 := by
  cases tag with
  | primitive => simp [finish, toJson, Value.depth, Value.depthOfFields]
  | named => simp [finish, toJson, Value.depth, Value.depthOfFields]
  | generic =>
      have arguments := fits.arguments (all _ (by simp [Tag.fields]))
      simp [finish, toJson, Value.depth, Value.depthOfFields]
      omega
  | array =>
      have element := fits.element (.inl (all _ (by simp [Tag.fields])))
      simp [finish, toJson, Value.depth, Value.depthOfFields, Value.integer]
      exact element
  | nullable =>
      have element := fits.element (.inr (all _ (by simp [Tag.fields])))
      simp [finish, toJson, Value.depth, Value.depthOfFields]
      exact element

theorem depth_ofFields_le {tag : Tag} {parts : List (String × Part)} {draft : Draft}
    {seen : List String} {shape : TypeShape} {bound : Nat}
    (within : ∀ field ∈ parts, field.2.Within bound) (fits : draft.Fits bound seen)
    (given : ofFields tag parts draft seen = .ok shape) : shape.toJson.depth ≤ bound + 1 := by
  induction parts generalizing draft seen with
  | nil =>
      rw [ofFields] at given
      split at given
      · cases given
      · next none =>
        cases given
        apply fits.depth_finish_le
        intro name member
        simpa using List.find?_eq_none.mp none name member
  | cons field others ih =>
      obtain ⟨name, part⟩ := field
      have rest (other : String × Part) (member : other ∈ others) : other.2.Within bound :=
        within other (List.mem_cons_of_mem _ member)
      rw [ofFields] at given
      split at given
      · split at given
        · cases given
        · obtain ⟨next, stored, given⟩ := bind_eq_ok_iff.mp given
          exact ih rest (fits.store (within _ List.mem_cons_self) stored) given
      · exact ih rest fits given

theorem depth_ofItems_le {tag : Tag} {names stored : List String} {parts : List Part}
    {draft : Draft} {shape : TypeShape} {bound : Nat} (within : ∀ part ∈ parts, part.Within bound)
    (fits : draft.Fits bound stored) (all : ∀ name ∈ tag.fields, name ∈ names ∨ name ∈ stored)
    (given : ofItems tag names parts draft = .ok shape) : shape.toJson.depth ≤ bound + 1 := by
  induction names generalizing parts stored draft with
  | nil =>
      cases parts with
      | nil =>
          cases given
          exact fits.depth_finish_le (by simpa using all)
      | cons extra others => cases given
  | cons name names ih =>
      cases parts with
      | nil => cases given
      | cons part parts =>
          obtain ⟨next, store, given⟩ := bind_eq_ok_iff.mp given
          refine ih (fun other member => within other (List.mem_cons_of_mem part member))
            (fits.store (within part List.mem_cons_self) store) ?_ given
          intro other member
          have known := all other member
          rw [List.mem_cons] at known ⊢
          tauto

theorem depth_splitFields_le {fields others : List (String × Part)} {tag? : Option Tag}
    {shape : TypeShape} {bound : Nat} (within : ∀ field ∈ fields, field.2.Within bound)
    (before : ∀ field ∈ others, field.2.Within bound)
    (given : splitFields fields tag? others = .ok shape) : shape.toJson.depth ≤ bound + 1 := by
  induction fields generalizing tag? others with
  | nil =>
      cases tag? with
      | none => cases given
      | some tag =>
          refine depth_ofFields_le ?_ (Draft.fits_nil bound _) given
          intro field member
          exact before field (List.mem_reverse.mp member)
  | cons field fields ih =>
      obtain ⟨name, part⟩ := field
      have rest (other : String × Part) (member : other ∈ fields) : other.2.Within bound :=
        within other (List.mem_cons_of_mem _ member)
      rw [splitFields] at given
      split at given
      · split at given
        · cases given
        · obtain ⟨tag, -, given⟩ := bind_eq_ok_iff.mp given
          exact ih rest before given
      · refine ih rest ?_ given
        intro other member
        rcases List.mem_cons.mp member with rfl | inside
        · exact within _ List.mem_cons_self
        · exact before other inside

theorem depth_ofArray_le {parts : List Part} {shape : TypeShape} {bound : Nat}
    (within : ∀ part ∈ parts, part.Within bound) (given : ofArray parts = .ok shape) :
    shape.toJson.depth ≤ bound + 1 := by
  cases parts with
  | nil => cases given
  | cons first parts =>
      obtain ⟨tag, -, given⟩ := bind_eq_ok_iff.mp given
      exact depth_ofItems_le (fun part member => within part (List.mem_cons_of_mem first member))
        (Draft.fits_nil bound _) (fun _ member => .inl member) given

/-! ### Values -/

mutual

theorem within_part (value : Value) : (part value).Within value.depth := by
  match value with
  | .array items =>
      have within := within_partsOfItems items
      refine ⟨fun shape given => depth_ofArray_le within given, ?_⟩
      intro shapes given
      apply Nat.lt_succ_of_le
      rw [depthOfItems_listToJson_le_iff]
      intro shape member
      obtain ⟨part, inside, read⟩ := exists_of_mapM_eq_ok given shape member
      exact (within part inside).shape shape read
  | .object fields =>
      have within := within_partsOfFields fields
      refine ⟨fun shape given => depth_splitFields_le within (by simp) given, ?_⟩
      intro shapes given
      cases given
  | .null => exact ⟨nofun, nofun⟩
  | .bool _ => exact ⟨nofun, nofun⟩
  | .number _ => exact ⟨nofun, nofun⟩
  | .string _ => exact ⟨nofun, nofun⟩

theorem within_partsOfItems (items : List Value) :
    ∀ part ∈ partsOfItems items, part.Within (Value.depthOfItems items) := by
  match items with
  | [] => simp [partsOfItems]
  | item :: others =>
      intro part member
      rcases List.mem_cons.mp member with rfl | inside
      · exact (within_part item).mono (Nat.le_max_left _ _)
      · exact (within_partsOfItems others part inside).mono (Nat.le_max_right _ _)

theorem within_partsOfFields (fields : List (String × Value)) :
    ∀ field ∈ partsOfFields fields, field.2.Within (Value.depthOfFields fields) := by
  match fields with
  | [] => simp [partsOfFields]
  | (name, value) :: others =>
      intro field member
      rcases List.mem_cons.mp member with rfl | inside
      · exact (within_part value).mono (Nat.le_max_left _ _)
      · exact (within_partsOfFields others field inside).mono (Nat.le_max_right _ _)

end

/-! ### Documents -/

theorem depthOfFields_takeEntries_le {room : Nat} {entries : List (Option String × Document)}
    {tag? taken? : Option Tag} {others fields : List (String × Value)}
    (before : Value.depthOfFields others ≤ room)
    (given : takeEntries room entries tag? others = .ok (taken?, fields)) :
    Value.depthOfFields fields ≤ room := by
  induction entries generalizing tag? others with
  | nil =>
      cases given
      rw [Value.depthOfFields_le_iff] at before ⊢
      intro field member
      exact before field (List.mem_reverse.mp member)
  | cons entry entries ih =>
      obtain ⟨name?, document⟩ := entry
      cases name? with
      | none => cases given
      | some name =>
          rw [takeEntries] at given
          split at given
          · split at given
            · cases given
            · obtain ⟨tag, -, given⟩ := bind_eq_ok_iff.mp given
              exact ih before given
          · obtain ⟨value, read, given⟩ := bind_eq_ok_iff.mp given
            refine ih ?_ given
            exact Nat.max_le.mpr ⟨depth_value_le document read, before⟩

theorem raise_eq_ok_iff {α : Type} {result : Except Mismatch α} {value : α} :
    raise result = .ok value ↔ result = .ok value := by
  cases result <;> simp [raise, Except.mapError]

theorem yields_decoder : Yields decoder fun room shape => shape.toJson.depth ≤ room := by
  intro room document shape given
  unfold decoder at given
  split at given
  · next entries ending =>
    obtain ⟨inner, rfl, inside⟩ := descend_eq_ok_iff.mp given
    obtain ⟨⟨tag?, fields⟩, taken, inside⟩ := bind_eq_ok_iff.mp inside
    obtain ⟨_, -, inside⟩ := bind_eq_ok_iff.mp inside
    have shallow := depthOfFields_takeEntries_le (Nat.zero_le inner) taken
    cases tag? with
    | none => cases inside
    | some tag =>
        refine depth_ofFields_le ?_ (Draft.fits_nil inner _) (raise_eq_ok_iff.mp inside)
        intro field member
        exact (within_partsOfFields fields field member).mono shallow
  · next items ending =>
    obtain ⟨inner, rfl, inside⟩ := descend_eq_ok_iff.mp given
    cases items with
    | nil =>
        obtain ⟨_, -, inside⟩ := bind_eq_ok_iff.mp inside
        cases inside
    | cons first others =>
        obtain ⟨tag, -, inside⟩ := bind_eq_ok_iff.mp inside
        obtain ⟨values, read, inside⟩ := bind_eq_ok_iff.mp inside
        obtain ⟨_, -, inside⟩ := bind_eq_ok_iff.mp inside
        have shallow := depthOfItems_values_le others read
        refine depth_ofItems_le ?_ (Draft.fits_nil inner _) (fun _ member => .inl member)
          (raise_eq_ok_iff.mp inside)
        intro part member
        exact (within_partsOfItems values part member).mono shallow
  · exact absurd given refuse_ne_ok

end ActionAtlas.TypeShape
