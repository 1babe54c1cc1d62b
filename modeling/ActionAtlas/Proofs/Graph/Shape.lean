import ActionAtlas.Graph.Reader
import ActionAtlas.Graph.Writer
import ActionAtlas.Proofs.Json.Decode

/-!
Shapes of types read back as they were written, at any depth. A shape is an object whose first
field is its tag; the other fields are kept as values, which changes none of them, and then read
by the fields that the tag has.
-/

namespace ActionAtlas.TypeShape

open Json

/-! ### The written form -/

def tag : TypeShape → Tag
  | primitive _ => .primitive
  | named _ => .named
  | generic _ _ => .generic
  | array _ _ => .array
  | nullable _ => .nullable

def fields : TypeShape → List (String × Value)
  | primitive builtIn => [("primitive", .string builtIn.keyword)]
  | named fullName => [("full_name", .string fullName)]
  | generic fullName arguments =>
    [("full_name", .string fullName), ("arguments", .array (listToJson arguments))]
  | array element rank => [("element", element.toJson), ("rank", .integer rank.toNat)]
  | nullable underlying => [("underlying", underlying.toJson)]

theorem toJson_eq (shape : TypeShape) :
    shape.toJson = .object ((tagField, .string shape.tag.term) :: shape.fields) := by
  cases shape <;> rw [toJson] <;> rfl

theorem fields_ne_tagField (shape : TypeShape) : ∀ field ∈ shape.fields, field.1 ≠ tagField := by
  cases shape <;> simp [fields, tagField]

theorem Tag.ofName_term (tag : Tag) : ofName tag.term = .ok tag := by
  cases tag <;> rfl

mutual

theorem reread_toJson (shape : TypeShape) : shape.toJson.reread = shape.toJson := by
  match shape with
  | primitive _ => rfl
  | named _ => rfl
  | generic fullName arguments =>
      simp only [toJson, Value.reread, Value.rereadFields, rereadItems_listToJson arguments]
  | array element rank =>
      have word : Numeral.InWords rank.toNat := by
        have := rank.toNat_lt
        constructor <;> omega
      simp only [toJson, Value.reread, Value.rereadFields, reread_toJson element, Value.integer,
        Number.isFinite, Number.reread?_integer word, Option.getD_some, if_true]
  | nullable underlying =>
      simp only [toJson, Value.reread, Value.rereadFields, reread_toJson underlying]

theorem rereadItems_listToJson (shapes : List TypeShape) :
    Value.rereadItems (listToJson shapes) = listToJson shapes := by
  match shapes with
  | [] => rfl
  | shape :: others =>
      rw [listToJson, Value.rereadItems, reread_toJson shape, rereadItems_listToJson others]

end

mutual

theorem isReadable_toJson (shape : TypeShape) : shape.toJson.isReadable = true := by
  match shape with
  | primitive _ => rfl
  | named _ => rfl
  | generic fullName arguments =>
      simp only [toJson, Value.isReadable, Value.fieldsAreReadable,
        areReadable_listToJson arguments, Bool.and_true]
  | array element rank =>
      have word : Numeral.InWords rank.toNat := by
        have := rank.toNat_lt
        constructor <;> omega
      simp only [toJson, Value.isReadable, Value.fieldsAreReadable, isReadable_toJson element,
        Value.integer, Number.isReadable, Number.reread?_integer word, Option.isSome_some,
        Bool.or_true, Bool.and_true]
  | nullable underlying =>
      simp only [toJson, Value.isReadable, Value.fieldsAreReadable, isReadable_toJson underlying,
        Bool.and_true]

theorem areReadable_listToJson (shapes : List TypeShape) :
    Value.areReadable (listToJson shapes) = true := by
  match shapes with
  | [] => rfl
  | shape :: others =>
      rw [listToJson, Value.areReadable, isReadable_toJson shape, areReadable_listToJson others]
      rfl

end

theorem rereadFields_fields (shape : TypeShape) :
    Value.rereadFields shape.fields = shape.fields := by
  have whole := reread_toJson shape
  rw [toJson_eq, Value.reread, Value.rereadFields, Value.object.injEq, List.cons.injEq] at whole
  exact whole.2

/-! ### Reading by fields -/

theorem splitFields_some (tag : Tag) (parts before : List (String × Part))
    (apart : ∀ part ∈ parts, part.1 ≠ tagField) :
    splitFields parts (some tag) before = ofFields tag (before.reverse ++ parts) .blank [] := by
  induction parts generalizing before with
  | nil => rw [splitFields, List.append_nil]
  | cons part others ih =>
      obtain ⟨name, part⟩ := part
      rw [splitFields, if_neg (apart (name, part) List.mem_cons_self),
        ih _ fun other member => apart other (List.mem_cons_of_mem _ member), List.reverse_cons,
        List.append_assoc]
      rfl

theorem partsOfFields_eq_map (fields : List (String × Value)) :
    partsOfFields fields = fields.map fun field => (field.1, part field.2) := by
  induction fields with
  | nil => rfl
  | cons field others ih => rw [partsOfFields, ih, List.map_cons]

/-- A shape that is read from its fields is read from its value. -/
theorem shape_part_of_fields {shape : TypeShape}
    (read : ofFields shape.tag (partsOfFields shape.fields) .blank [] = .ok shape) :
    (part shape.toJson).shape = .ok shape := by
  have apart : ∀ field ∈ partsOfFields shape.fields, field.1 ≠ tagField := by
    rw [partsOfFields_eq_map]
    intro field member
    obtain ⟨written, inside, rfl⟩ := List.mem_map.mp member
    exact fields_ne_tagField shape written inside
  have tagged : Tag.ofValue (.string shape.tag.term) = .ok shape.tag := Tag.ofName_term shape.tag
  rw [toJson_eq]
  simp only [part, partsOfFields, splitFields, if_true, Option.isSome_none, Bool.false_eq_true,
    if_false, tagged]
  exact (splitFields_some shape.tag (partsOfFields shape.fields) [] apart).trans read

mutual

theorem ofFields_fields (shape : TypeShape) :
    ofFields shape.tag (partsOfFields shape.fields) .blank [] = .ok shape := by
  match shape with
  | primitive builtIn =>
      have known := Primitive.ofKeyword?_keyword builtIn
      simp [tag, fields, partsOfFields, ofFields, Tag.fields, Draft.store, part, Part.builtIn,
        Part.builtInNamed, known, Except.map, Except.bind, Draft.finish]
  | named fullName => rfl
  | generic fullName arguments =>
      have read := mapM_shape arguments
      simp [tag, fields, partsOfFields, ofFields, Tag.fields, Draft.store, part, Part.string,
        read, Except.map, Except.bind, Draft.finish]
  | array element rank =>
      have read := shape_part_of_fields (ofFields_fields element)
      have size : (part (.integer rank.toNat)).size = .ok rank := by
        simp [part, Value.integer, Part.size]
      simp [tag, fields, partsOfFields, ofFields, Tag.fields, Draft.store, size, read, Except.map,
        Except.bind, Draft.finish]
  | nullable underlying =>
      have read := shape_part_of_fields (ofFields_fields underlying)
      simp [tag, fields, partsOfFields, ofFields, Tag.fields, Draft.store, read, Except.map,
        Except.bind, Draft.finish]

theorem mapM_shape (shapes : List TypeShape) :
    (partsOfItems (listToJson shapes)).mapM Part.shape = .ok shapes := by
  match shapes with
  | [] => rfl
  | shape :: others =>
      have first := shape_part_of_fields (ofFields_fields shape)
      rw [listToJson, partsOfItems, List.mapM_cons, first, mapM_shape others]
      rfl

end

/-! ### Decoding -/

theorem takeEntries_entries (tag : Tag) (room : Nat) (fields before : List (String × Value))
    (apart : ∀ field ∈ fields, field.1 ≠ tagField) :
    takeEntries room (Value.entries fields) (some tag) before =
      within (fields.all fun field => field.2.fits room)
        (some tag, before.reverse ++ Value.rereadFields fields) := by
  induction fields generalizing before with
  | nil =>
      rw [Value.rereadFields, List.append_nil]
      rfl
  | cons field others ih =>
      obtain ⟨name, value⟩ := field
      have rest := ih ((name, value.reread) :: before)
        fun other member => apart other (List.mem_cons_of_mem _ member)
      rw [Value.entries, takeEntries, if_neg (apart (name, value) List.mem_cons_self),
        reads_value value room, List.all_cons]
      apply within_bind
      rw [rest, List.reverse_cons, List.append_assoc]
      rfl

theorem reads_decoder (shape : TypeShape) : Reads decoder shape.toJson shape := by
  have content := ofFields_fields shape
  rw [toJson_eq]
  intro room
  apply descend_within room _ (fun room => (Value.object _).fits room) shape
    (Value.fits_object_zero _)
  intro room
  have tagged : tagDecoder room (.string (some shape.tag.term)) = .ok shape.tag := by
    rw [tagDecoder, Tag.ofName_term]
    rfl
  have taken : takeEntries room
        (Value.entries ((tagField, .string shape.tag.term) :: shape.fields)) none [] =
      within (shape.fields.all fun field => field.2.fits room) (some shape.tag, shape.fields) := by
    have rest := takeEntries_entries shape.tag room shape.fields [] (fields_ne_tagField shape)
    rw [rereadFields_fields] at rest
    simp only [Value.entries, Value.document, takeEntries, if_true, Option.isSome_none,
      Bool.false_eq_true, if_false, tagged]
    exact rest
  rw [Value.fits_object_succ, List.all_cons, Value.fits_string, Bool.true_and, taken]
  apply within_bind_ok
  simp only [content]
  rfl

end ActionAtlas.TypeShape
