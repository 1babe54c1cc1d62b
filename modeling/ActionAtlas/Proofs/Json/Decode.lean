import ActionAtlas.Json.Decode
import ActionAtlas.Proofs.Json.Document

/-!
Decoding of written values.

A decoder reads a value as a result if it gives the result whenever the value is no deeper than
there is room and all its numbers have a value, and otherwise finds the text malformed. Each
combinator of decoders keeps this, so that the laws of a format are put together like its decoders.
-/

namespace ActionAtlas.Json

/-! ### Values that can be read at all -/

def Number.isReadable (number : Number) : Bool :=
  !number.isFinite || number.reread?.isSome

namespace Value

mutual

def isReadable : Value → Bool
  | null => true
  | bool _ => true
  | number value => value.isReadable
  | string _ => true
  | array items => areReadable items
  | object fields => fieldsAreReadable fields

def areReadable : List Value → Bool
  | [] => true
  | item :: others => item.isReadable && areReadable others

def fieldsAreReadable : List (String × Value) → Bool
  | [] => true
  | (_, value) :: others => value.isReadable && fieldsAreReadable others

end

/-- Whether a value can be read where so many arrays and objects may be opened. -/
def fits (room : Nat) (value : Value) : Bool :=
  value.depth ≤ room && value.isReadable

theorem depthOfItems_le_iff {items : List Value} {room : Nat} :
    depthOfItems items ≤ room ↔ ∀ item ∈ items, item.depth ≤ room := by
  induction items with
  | nil => simp [depthOfItems]
  | cons item others ih => simp [depthOfItems, ih]

theorem depthOfFields_le_iff {fields : List (String × Value)} {room : Nat} :
    depthOfFields fields ≤ room ↔ ∀ field ∈ fields, field.2.depth ≤ room := by
  induction fields with
  | nil => simp [depthOfFields]
  | cons field others ih => simp [depthOfFields, ih]

theorem areReadable_eq_all (items : List Value) : areReadable items = items.all isReadable := by
  induction items with
  | nil => rfl
  | cons item others ih => rw [areReadable, ih, List.all_cons]

theorem fieldsAreReadable_eq_all (fields : List (String × Value)) :
    fieldsAreReadable fields = fields.all fun field => field.2.isReadable := by
  induction fields with
  | nil => rfl
  | cons field others ih => rw [fieldsAreReadable, ih, List.all_cons]

theorem fits_array_zero (items : List Value) : (array items).fits 0 = false := by
  simp [fits, depth]

theorem fits_object_zero (fields : List (String × Value)) : (object fields).fits 0 = false := by
  simp [fits, depth]

theorem fits_array_succ (items : List Value) (room : Nat) :
    (array items).fits (room + 1) = items.all (fits room) := by
  rw [Bool.eq_iff_iff]
  simp only [fits, depth, isReadable, areReadable_eq_all, Nat.add_le_add_iff_right,
    depthOfItems_le_iff, Bool.and_eq_true, decide_eq_true_eq, List.all_eq_true]
  constructor
  · rintro ⟨shallow, readable⟩ item member
    exact ⟨shallow item member, readable item member⟩
  · intro all
    exact ⟨fun item member => (all item member).1, fun item member => (all item member).2⟩

theorem fits_object_succ (fields : List (String × Value)) (room : Nat) :
    (object fields).fits (room + 1) = fields.all fun field => field.2.fits room := by
  rw [Bool.eq_iff_iff]
  simp only [fits, depth, isReadable, fieldsAreReadable_eq_all, Nat.add_le_add_iff_right,
    depthOfFields_le_iff, Bool.and_eq_true, decide_eq_true_eq, List.all_eq_true]
  constructor
  · rintro ⟨shallow, readable⟩ field member
    exact ⟨shallow field member, readable field member⟩
  · intro all
    exact ⟨fun field member => (all field member).1, fun field member => (all field member).2⟩

theorem fits_string (text : String) (room : Nat) : (string text).fits room = true := by
  simp [fits, depth, isReadable]

theorem fits_bool (value : Bool) (room : Nat) : (bool value).fits room = true := by
  simp [fits, depth, isReadable]

theorem fits_number (value : Number) (room : Nat) :
    (number value).fits room = value.isReadable := by
  simp [fits, depth, isReadable]

theorem fits_null (room : Nat) : null.fits room = true := by
  simp [fits, depth, isReadable]

end Value

/-! ### Decoders that read a value -/

def within (fits : Bool) (result : α) : Decoded α :=
  if fits then .ok result else .error .malformed

theorem within_bind (fits more : Bool) (result : α) (next : α → Decoded β) (final : β)
    (continued : next result = within more final) :
    (within fits result).bind next = within (fits && more) final := by
  cases fits with
  | true => exact continued
  | false => rfl

theorem within_bind_ok (fits : Bool) (result : α) (next : α → Decoded β) (final : β)
    (continued : next result = .ok final) : (within fits result).bind next = within fits final := by
  cases fits with
  | true => exact continued
  | false => rfl

theorem within_map (fits : Bool) (result : α) (change : α → β) :
    (within fits result).map change = within fits (change result) := by
  cases fits <;> rfl

theorem within_eq_ok_iff {fits : Bool} {result other : α} :
    within fits result = .ok other ↔ fits = true ∧ result = other := by
  cases fits <;> simp [within]

def Reads (decoder : Decoder α) (value : Value) (result : α) : Prop :=
  ∀ room, decoder room value.document = within (value.fits room) result

theorem Reads.map {decoder : Decoder α} {value : Value} {result : α}
    (reads : Reads decoder value result) (change : α → β) :
    Reads (fun room document => (decoder room document).map change) value (change result) := by
  intro room
  exact (congrArg (Except.map change) (reads room)).trans (within_map _ result change)

theorem descend_within (room : Nat) (inside : Nat → Decoded α) (fits : Nat → Bool) (result : α)
    (none : fits 0 = false) (content : ∀ room, inside room = within (fits (room + 1)) result) :
    descend room inside = within (fits room) result := by
  cases room with
  | zero =>
      rw [none]
      rfl
  | succ room => exact content room

theorem reads_string (text : String) : Reads Decoder.string (.string text) text := by
  intro room
  rw [Value.fits_string]
  rfl

theorem reads_bool (value : Bool) : Reads Decoder.bool (.bool value) value := by
  intro room
  rw [Value.fits_bool]
  rfl

theorem mapM_documents {element : Decoder α} {room : Nat} (toJson : β → Value) (result : β → α)
    (items : List β) (each : ∀ item ∈ items, Reads element (toJson item) (result item)) :
    (Value.documents (items.map toJson)).mapM (element room) =
      within ((items.map toJson).all (Value.fits room)) (items.map result) := by
  induction items with
  | nil => rfl
  | cons item others ih =>
      have rest := ih fun other member => each other (List.mem_cons_of_mem item member)
      rw [List.map_cons, Value.documents, List.mapM_cons, each item List.mem_cons_self room, rest,
        List.all_cons]
      apply within_bind
      exact within_bind_ok _ _ _ _ rfl

theorem reads_list {element : Decoder α} (toJson : β → Value) (result : β → α) (items : List β)
    (each : ∀ item ∈ items, Reads element (toJson item) (result item)) :
    Reads (Decoder.list element) (.array (items.map toJson)) (items.map result) := by
  intro room
  apply descend_within room _ (fun room => (Value.array (items.map toJson)).fits room)
    _ (Value.fits_array_zero _)
  intro room
  rw [Value.fits_array_succ, mapM_documents toJson result items each]
  exact within_bind_ok _ _ _ _ rfl

theorem reads_option_none (inner : Decoder α) : Reads (Decoder.option inner) .null none := by
  intro room
  rw [Value.fits_null]
  rfl

theorem reads_option_some {inner : Decoder α} {value : Value} {result : α}
    (apart : ∀ room, Decoder.option inner room value.document =
      (inner room value.document).map some)
    (reads : Reads inner value result) : Reads (Decoder.option inner) value (some result) := by
  intro room
  rw [apart room, reads room, within_map]

theorem reads_choice [Inhabited α] {table : List (String × α)} {name : String} {meaning : α}
    (found : table.lookup name = some meaning) :
    Reads (Decoder.choice table) (.string name) meaning := by
  have known : (table.map (·.1)).contains name = true := by
    obtain ⟨before, after, same, -⟩ := List.lookup_eq_some_iff.mp found
    simp [same]
  intro room
  rw [Value.fits_string]
  have bare : Decoder.choice table room (Document.string (some name)) =
      .ok ((table.lookup name).getD default) := if_pos known
  rw [Value.document, bare, found]
  rfl

theorem reads_variant {known : List String} {bare : String → Decoded α}
    {payload : String → Decoder α} {name : String} {value : Value} {result : α}
    (listed : known.contains name = true) (reads : Reads (payload name) value result) :
    Reads (Decoder.variant known bare payload) (.object [(name, value)]) result := by
  intro room
  apply descend_within room _ (fun room => (Value.object [(name, value)]).fits room) result
    (Value.fits_object_zero _)
  intro room
  have content := reads room
  rw [Value.fits_object_succ, List.all_cons, List.all_nil, Bool.and_true]
  simp only [Value.entries, listed, Bool.not_true, content, List.isEmpty_nil]
  exact within_bind_ok _ _ _ _ rfl

/-! ### Records -/

/-- The entries are values of the fields, in their order, and reading them one after the other
makes `final` of the draft. -/
inductive Fills : List (Field σ) → List (String × Value) → σ → σ → Prop where
  | nil {draft : σ} : Fills [] [] draft draft
  | cons {field : Field σ} {value : Value} {fields : List (Field σ)}
      {entries : List (String × Value)} {draft next final : σ}
      (reads : ∀ room, field.read room value.document draft = within (value.fits room) next)
      (rest : Fills fields entries next final) :
      Fills (field :: fields) ((field.name, value) :: entries) draft final

theorem Fills.of {decoder : Decoder α} {value : Value} {result : α} {name : String}
    {required : Bool} {store : α → σ → σ} {fields : List (Field σ)}
    {entries : List (String × Value)} {draft final : σ} (reads : Reads decoder value result)
    (rest : Fills fields entries (store result draft) final) :
    Fills (.of name required decoder store :: fields) ((name, value) :: entries) draft final := by
  refine .cons ?_ rest
  intro room
  change (decoder room value.document).map _ = _
  rw [reads room, within_map]

namespace Record

theorem find?_name {fields : List (Field σ)} (distinct : (fields.map Field.name).Nodup)
    {field : Field σ} (member : field ∈ fields) :
    fields.find? (fun other => other.name == field.name) = some field := by
  induction fields with
  | nil => cases member
  | cons first others ih =>
      rw [List.map_cons, List.nodup_cons] at distinct
      rcases List.mem_cons.mp member with rfl | inside
      · simp
      · have apart : first.name ≠ field.name := by
          intro same
          exact distinct.1 (same ▸ List.mem_map_of_mem inside)
        rw [List.find?_cons, beq_false_of_ne apart]
        exact ih distinct.2 inside

theorem readEntries_of_fills (record : Record σ) (distinct : (record.fields.map Field.name).Nodup)
    (room : Nat) {fields : List (Field σ)} {entries : List (String × Value)} {draft final : σ}
    (fills : Fills fields entries draft final) (inside : ∀ field ∈ fields, field ∈ record.fields)
    (seen : List String) (fresh : ((fields.map Field.name).reverse ++ seen).Nodup) :
    record.readEntries room (Value.entries entries) draft seen =
      within (entries.all fun entry => entry.2.fits room)
        (final, (fields.map Field.name).reverse ++ seen) := by
  induction fills generalizing seen with
  | nil => rfl
  | @cons field value fields entries draft next final reads rest ih =>
      rw [List.map_cons, List.reverse_cons, List.append_assoc, List.singleton_append] at fresh ⊢
      have known := find?_name distinct (inside field List.mem_cons_self)
      have unseen : seen.contains field.name = false := by
        have later := (List.nodup_append.mp fresh).2.1
        simpa using (List.nodup_cons.mp later).1
      simp only [Value.entries, readEntries, known, unseen, Bool.false_eq_true, if_false, reads,
        List.all_cons]
      apply within_bind
      exact ih (fun other member => inside other (List.mem_cons_of_mem field member)) _ fresh

/-- An object with all fields of a record in their order is read field by field. -/
theorem reads_of_fills {record : Record σ} (distinct : (record.fields.map Field.name).Nodup)
    {entries : List (String × Value)} {final : σ}
    (fills : Fills record.fields entries record.draft final) :
    Reads record.read (.object entries) final := by
  have all : record.missing? ((record.fields.map Field.name).reverse ++ []) = none := by
    rw [missing?, Option.map_eq_none_iff, List.find?_eq_none]
    intro field member
    simpa using fun _ => ⟨field, member, rfl⟩
  intro room
  apply descend_within room _ (fun room => (Value.object entries).fits room) _
    (Value.fits_object_zero _)
  intro room
  have read := readEntries_of_fills record distinct room fills (fun _ member => member) []
    (by rwa [List.append_nil, List.nodup_reverse])
  rw [Value.fits_object_succ, read]
  apply within_bind_ok
  simp only [all]
  rfl

end Record

/-! ### Values as they stand -/

namespace Value

mutual

def reread : Value → Value
  | null => null
  | bool value => bool value
  | number value => if value.isFinite then number (value.reread?.getD value) else null
  | string text => string text
  | array items => array (rereadItems items)
  | object fields => object (rereadFields fields)

def rereadItems : List Value → List Value
  | [] => []
  | item :: others => item.reread :: rereadItems others

def rereadFields : List (String × Value) → List (String × Value)
  | [] => []
  | (name, value) :: others => (name, value.reread) :: rereadFields others

end

end Value

mutual

theorem reads_value (value : Value) : Reads Document.value value value.reread := by
  intro room
  match value with
  | .null => exact (congrArg (within · Value.null) (Value.fits_null room)).symm
  | .bool value => exact (congrArg (within · _) (Value.fits_bool value room)).symm
  | .string text => exact (congrArg (within · _) (Value.fits_string text room)).symm
  | .number value =>
      rw [Value.fits_number, Value.document, Number.document, Value.reread, Number.isReadable]
      by_cases finite : value.isFinite = true
      · rw [if_pos finite, if_pos finite, finite]
        cases value.reread? <;> rfl
      · rw [if_neg finite, if_neg finite, Bool.eq_false_of_not_eq_true finite]
        rfl
  | .array items =>
      apply descend_within room _ (fun room => (Value.array items).fits room) _
        (Value.fits_array_zero items)
      intro room
      rw [Value.fits_array_succ, values_documents items room]
      exact within_bind_ok _ _ _ _ rfl
  | .object fields =>
      apply descend_within room _ (fun room => (Value.object fields).fits room) _
        (Value.fits_object_zero fields)
      intro room
      rw [Value.fits_object_succ, fields_entries fields room]
      exact within_bind_ok _ _ _ _ rfl

theorem values_documents (items : List Value) (room : Nat) :
    Document.values room (Value.documents items) =
      within (items.all (Value.fits room)) (Value.rereadItems items) := by
  match items with
  | [] => rfl
  | item :: others =>
      rw [Value.documents, Document.values, reads_value item room, values_documents others room,
        List.all_cons]
      apply within_bind
      exact within_bind_ok _ _ _ _ rfl

theorem fields_entries (fields : List (String × Value)) (room : Nat) :
    Document.fields room (Value.entries fields) =
      within (fields.all fun field => field.2.fits room) (Value.rereadFields fields) := by
  match fields with
  | [] => rfl
  | (name, value) :: others =>
      rw [Value.entries, Document.fields, reads_value value room, fields_entries others room,
        List.all_cons]
      apply within_bind
      exact within_bind_ok _ _ _ _ rfl

end

/-! ### Whole texts -/

/-- A written value is decoded as its decoder reads it. -/
theorem Reads.decode {decoder : Decoder α} {value : Value} {result : α}
    (reads : Reads decoder value result) {text : String} (written : value.WrittenAs text) :
    decode decoder text = within (value.fits depthLimit) result := by
  rw [Json.decode, written.reading_eq, reads depthLimit]
  exact within_bind_ok _ _ _ _ rfl

end ActionAtlas.Json
