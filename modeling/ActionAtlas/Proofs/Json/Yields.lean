import Mathlib
import ActionAtlas.Json.Decode

/-!
What decoders can give, whatever document they read. A decoder yields a property if its results have
it, each with the room that was left for it; every combinator of decoders passes on what its parts
yield.
-/

namespace ActionAtlas.Json

/-! ### Results that are there -/

theorem bind_eq_ok_iff {ε α β : Type} {first : Except ε α} {next : α → Except ε β} {result : β} :
    first.bind next = .ok result ↔ ∃ value, first = .ok value ∧ next value = .ok result := by
  cases first <;> simp [Except.bind]

theorem map_eq_ok_iff {ε α β : Type} {first : Except ε α} {change : α → β} {result : β} :
    first.map change = .ok result ↔ ∃ value, first = .ok value ∧ change value = result := by
  cases first <;> simp [Except.map]

theorem refuse_ne_ok {α : Type} {document : Document} {wanted : Wanted} {result : α} :
    document.refuse wanted ≠ .ok result := by
  rw [Document.refuse, ne_eq, bind_eq_ok_iff]
  simp

theorem descend_eq_ok_iff {α : Type} {room : Nat} {inside : Nat → Decoded α} {result : α} :
    descend room inside = .ok result ↔ ∃ inner, room = inner + 1 ∧ inside inner = .ok result := by
  cases room <;> simp [descend]

theorem exists_of_mapM_eq_ok {ε α β : Type} {read : α → Except ε β} {items : List α}
    {results : List β} (given : items.mapM read = .ok results) :
    ∀ result ∈ results, ∃ item ∈ items, read item = .ok result := by
  induction items generalizing results with
  | nil =>
      cases given
      simp
  | cons item others ih =>
      rw [List.mapM_cons] at given
      obtain ⟨first, readFirst, given⟩ := bind_eq_ok_iff.mp given
      obtain ⟨rest, readRest, given⟩ := bind_eq_ok_iff.mp given
      cases given
      intro result member
      rcases List.mem_cons.mp member with here | further
      · exact ⟨item, List.mem_cons_self, here ▸ readFirst⟩
      · obtain ⟨other, inside, read⟩ := ih readRest result further
        exact ⟨other, List.mem_cons_of_mem item inside, read⟩

theorem decode_eq {α : Type} (decoder : Decoder α) (text : String) :
    decode decoder text = (decoder depthLimit (Reading.ofText text).document).bind fun result =>
      if (Reading.ofText text).trailing then .error .malformed else .ok result := by
  unfold decode
  generalize Reading.ofText text = reading
  obtain ⟨document, trailing⟩ := reading
  cases trailing <;> rfl

/-! ### Decoders -/

def Yields {α : Type} (decoder : Decoder α) (good : Nat → α → Prop) : Prop :=
  ∀ room document result, decoder room document = .ok result → good room result

section

variable {α : Type}

theorem yields_any (decoder : Decoder α) : Yields decoder fun _ _ => True :=
  fun _ _ _ _ => trivial

theorem Yields.list {element : Decoder α} {good : Nat → α → Prop} (each : Yields element good) :
    Yields (Decoder.list element) fun room items => ∀ item ∈ items, good (room - 1) item := by
  intro room document items given
  unfold Decoder.list at given
  split at given
  · obtain ⟨inner, rfl, given⟩ := descend_eq_ok_iff.mp given
    obtain ⟨read, readAll, given⟩ := bind_eq_ok_iff.mp given
    obtain ⟨_, -, given⟩ := bind_eq_ok_iff.mp given
    cases given
    intro item member
    obtain ⟨document, -, one⟩ := exists_of_mapM_eq_ok readAll item member
    exact each inner document item one
  · exact absurd given refuse_ne_ok

theorem Yields.option {inner : Decoder α} {good : Nat → α → Prop} (each : Yields inner good) :
    Yields (Decoder.option inner) fun room value? => ∀ value ∈ value?, good room value := by
  intro room document value? given
  unfold Decoder.option at given
  split at given
  · cases given
    simp
  · cases given
  · obtain ⟨value, read, rfl⟩ := map_eq_ok_iff.mp given
    rintro other ⟨⟩
    exact each room document value read

theorem yields_variant {known : List String} {bare : String → Decoded α}
    {payload : String → Decoder α} {good : α → Prop}
    (ofBare : ∀ name result, bare name = .ok result → good result)
    (ofPayload : ∀ name, Yields (payload name) fun _ => good) :
    Yields (Decoder.variant known bare payload) fun _ => good := by
  intro room document result given
  unfold Decoder.variant at given
  split at given
  · next name =>
    split at given
    · exact ofBare name result given
    · cases given
  · next entries ending =>
    obtain ⟨inner, rfl, inside⟩ := descend_eq_ok_iff.mp given
    cases entries with
    | nil =>
        cases ending with
        | nameless found => exact absurd inside refuse_ne_ok
        | closed => cases inside
        | separator flaw => cases inside
    | cons entry others =>
        obtain ⟨name?, value⟩ := entry
        cases name? with
        | none => cases inside
        | some name =>
            simp only [bind, pure, Except.pure] at inside
            split at inside
            · cases inside
            · obtain ⟨read, readPayload, inside⟩ := bind_eq_ok_iff.mp inside
              split at inside
              · cases inside
              · obtain ⟨_, -, inside⟩ := bind_eq_ok_iff.mp inside
                cases inside
                exact ofPayload name inner value result readPayload
  · cases given
  · cases given
  · cases given

end

/-! ### Records -/

section

variable {α σ : Type} {kept : Nat → σ → Prop}

def Field.Keeps (field : Field σ) (kept : Nat → σ → Prop) : Prop :=
  ∀ room document draft next, field.read room document draft = .ok next →
    kept room draft → kept room next

theorem Field.keeps_of {name : String} {required : Bool} {decoder : Decoder α}
    {store : α → σ → σ} {good : Nat → α → Prop} (yields : Yields decoder good)
    (stored : ∀ room value draft, good room value → kept room draft →
      kept room (store value draft)) :
    (Field.of name required decoder store).Keeps kept := by
  intro room document draft next given before
  obtain ⟨value, read, rfl⟩ := map_eq_ok_iff.mp given
  exact stored room value draft (yields room document value read) before

namespace Record

variable {record : Record σ}

theorem kept_readEntries (each : ∀ field ∈ record.fields, field.Keeps kept) {room : Nat}
    {entries : List (Option String × Document)} {draft final : σ} {seen all : List String}
    (before : kept room draft)
    (given : record.readEntries room entries draft seen = .ok (final, all)) :
    kept room final := by
  induction entries generalizing draft seen with
  | nil =>
      cases given
      exact before
  | cons entry others ih =>
      obtain ⟨name?, value⟩ := entry
      cases name? with
      | none => cases given
      | some name =>
          rw [readEntries] at given
          split at given
          · obtain ⟨_, -, given⟩ := bind_eq_ok_iff.mp given
            exact ih before given
          · next field found =>
            split at given
            · cases given
            · obtain ⟨next, read, given⟩ := bind_eq_ok_iff.mp given
              have member := List.mem_of_find?_eq_some found
              exact ih (each field member room value draft next read before) given

theorem kept_readItems {room count : Nat} {ending : Ending} {fields : List (Field σ)}
    {items : List Document} {draft final : σ} (each : ∀ field ∈ fields, field.Keeps kept)
    (before : kept room draft)
    (given : record.readItems room ending count fields items draft = .ok final) :
    kept room final := by
  induction fields generalizing count items draft with
  | nil =>
      cases items with
      | nil =>
          obtain ⟨_, -, rfl⟩ := map_eq_ok_iff.mp given
          exact before
      | cons item others => cases given
  | cons field fields ih =>
      have further (other : Field σ) (member : other ∈ fields) : other.Keeps kept :=
        each other (List.mem_cons_of_mem field member)
      cases items with
      | nil =>
          obtain ⟨_, -, given⟩ := bind_eq_ok_iff.mp given
          split at given
          · cases given
          · exact ih further before given
      | cons item others =>
          obtain ⟨next, read, given⟩ := bind_eq_ok_iff.mp given
          exact ih further (each field List.mem_cons_self room item draft next read before) given

/-- What holds of the draft of a record, and is kept by each of its fields, holds of all that is
read. -/
theorem yields_read (kept : Nat → σ → Prop) (start : ∀ room, kept room record.draft)
    (each : ∀ field ∈ record.fields, field.Keeps kept) :
    Yields record.read fun room result => kept (room - 1) result := by
  intro room document result given
  unfold read at given
  split at given
  · obtain ⟨inner, rfl, given⟩ := descend_eq_ok_iff.mp given
    obtain ⟨⟨draft, seen⟩, entries, given⟩ := bind_eq_ok_iff.mp given
    obtain ⟨_, -, given⟩ := bind_eq_ok_iff.mp given
    have final := kept_readEntries each (start inner) entries
    split at given
    · cases given
    · cases given
      exact final
  · obtain ⟨inner, rfl, given⟩ := descend_eq_ok_iff.mp given
    exact kept_readItems each (start inner) given
  · exact absurd given refuse_ne_ok

end Record

end

/-! ### Values as they stand -/

mutual

theorem depth_value_le (document : Document) {room : Nat} {value : Value}
    (given : document.value room = .ok value) : value.depth ≤ room := by
  match document with
  | .null => cases given; exact Nat.zero_le room
  | .bool _ => cases given; exact Nat.zero_le room
  | .number none => cases given
  | .number (some _) => cases given; exact Nat.zero_le room
  | .string none => cases given
  | .string (some _) => cases given; exact Nat.zero_le room
  | .array items _ =>
      obtain ⟨inner, rfl, inside⟩ := descend_eq_ok_iff.mp given
      obtain ⟨values, read, inside⟩ := bind_eq_ok_iff.mp inside
      obtain ⟨_, -, inside⟩ := bind_eq_ok_iff.mp inside
      cases inside
      exact Nat.succ_le_succ (depthOfItems_values_le items read)
  | .object entries _ =>
      obtain ⟨inner, rfl, inside⟩ := descend_eq_ok_iff.mp given
      obtain ⟨fields, read, inside⟩ := bind_eq_ok_iff.mp inside
      obtain ⟨_, -, inside⟩ := bind_eq_ok_iff.mp inside
      cases inside
      exact Nat.succ_le_succ (depthOfFields_fields_le entries read)
  | .ended => cases given
  | .brokenString _ _ => cases given
  | .brokenNull _ => cases given
  | .broken _ _ => cases given

theorem depthOfItems_values_le (items : List Document) {room : Nat} {values : List Value}
    (given : Document.values room items = .ok values) : Value.depthOfItems values ≤ room := by
  match items with
  | [] => cases given; exact Nat.zero_le room
  | item :: others =>
      obtain ⟨value, read, given⟩ := bind_eq_ok_iff.mp given
      obtain ⟨rest, readRest, given⟩ := bind_eq_ok_iff.mp given
      cases given
      exact Nat.max_le.mpr ⟨depth_value_le item read, depthOfItems_values_le others readRest⟩

theorem depthOfFields_fields_le (entries : List (Option String × Document)) {room : Nat}
    {fields : List (String × Value)} (given : Document.fields room entries = .ok fields) :
    Value.depthOfFields fields ≤ room := by
  match entries with
  | [] => cases given; exact Nat.zero_le room
  | (none, _) :: _ => cases given
  | (some _, document) :: others =>
      obtain ⟨value, read, given⟩ := bind_eq_ok_iff.mp given
      obtain ⟨rest, readRest, given⟩ := bind_eq_ok_iff.mp given
      cases given
      exact Nat.max_le.mpr ⟨depth_value_le document read, depthOfFields_fields_le others readRest⟩

end

end ActionAtlas.Json
