import ActionAtlas.Proofs.Json.Lexeme

/-!
What an indented text tells of its value: everything, but of a leaf only how it is spelled. Two
values have the same text exactly if they are equal up to the spelling of their leaves.
-/

namespace ActionAtlas.Json.Value

mutual

/-- The value with its leaves replaced by their texts. -/
def spelled : Value → Value
  | array items => array (spelledItems items)
  | object fields => object (spelledFields fields)
  | null => string (String.ofList (write null))
  | bool value => string (String.ofList (write (bool value)))
  | number value => string (String.ofList (write (number value)))
  | string text => string (String.ofList (write (string text)))

def spelledItems : List Value → List Value
  | [] => []
  | item :: others => item.spelled :: spelledItems others

def spelledFields : List (String × Value) → List (String × Value)
  | [] => []
  | (name, value) :: others => (name, value.spelled) :: spelledFields others

end

theorem spelledItems_eq_map (items : List Value) : spelledItems items = items.map spelled := by
  induction items with
  | nil => rfl
  | cons item others ih => rw [spelledItems, ih, List.map_cons]

structure IsLeaf (value : Value) : Prop where
  leads : ∃ lexeme, Lexeme.Leads value.write lexeme ∧ lexeme ≠ .openArray ∧ lexeme ≠ .openObject
  layOut_eq : ∀ level, value.layOut level = value.write
  spelled_eq : value.spelled = string (String.ofList value.write)

theorem isLeaf_null : IsLeaf null :=
  ⟨⟨_, Lexeme.leads_null, nofun, nofun⟩, fun _ => rfl, rfl⟩

theorem isLeaf_bool (value : Bool) : IsLeaf (bool value) :=
  ⟨⟨_, Lexeme.leads_writeBool value, nofun, nofun⟩, fun _ => rfl, rfl⟩

theorem isLeaf_number (value : Number) : IsLeaf (number value) := by
  refine ⟨⟨_, leads_writeNumber value, ?_, ?_⟩, fun _ => rfl, rfl⟩
  · unfold Number.lexeme
    split <;> nofun
  · unfold Number.lexeme
    split <;> nofun

theorem isLeaf_string (text : String) : IsLeaf (string text) :=
  ⟨⟨_, Lexeme.leads_quoted text, nofun, nofun⟩, fun _ => rfl, rfl⟩

theorem leaf_or_nested (value : Value) :
    value.IsLeaf ∨ (∃ items, value = array items) ∨ ∃ fields, value = object fields := by
  cases value with
  | null => exact .inl isLeaf_null
  | bool value => exact .inl (isLeaf_bool value)
  | number value => exact .inl (isLeaf_number value)
  | string text => exact .inl (isLeaf_string text)
  | array items => exact .inr (.inl ⟨items, rfl⟩)
  | object fields => exact .inr (.inr ⟨fields, rfl⟩)

/-! ### Texts tell values apart -/

theorem IsLeaf.layOut_ne {value : Value} (leaf : value.IsLeaf) (level : Nat) {mark : Char}
    {opening : Lexeme} (opens : ∀ rest, Lexeme.first mark rest = (opening, rest))
    (opening_eq : opening = .openArray ∨ opening = .openObject) {rest tail : List Char}
    (ends : Terminates rest) : value.layOut level ++ rest ≠ mark :: tail := by
  intro same
  obtain ⟨lexeme, ⟨c, back, text, -, read⟩, noArray, noObject⟩ := leaf.leads
  rw [leaf.layOut_eq, text, List.cons_append, List.cons.injEq] at same
  obtain ⟨rfl, -⟩ := same
  have found := read rest ends
  rw [opens, Prod.mk.injEq] at found
  rcases opening_eq with rfl | rfl
  · exact noArray found.1.symm
  · exact noObject found.1.symm

theorem exists_cons_layOut_array (items : List Value) (level : Nat) :
    ∃ tail, (array items).layOut level = '[' :: tail := by
  cases items with
  | nil => exact ⟨_, rfl⟩
  | cons item others => exact ⟨_, rfl⟩

theorem exists_cons_layOut_object (fields : List (String × Value)) (level : Nat) :
    ∃ tail, (object fields).layOut level = '\x7b' :: tail := by
  cases fields with
  | nil => exact ⟨_, rfl⟩
  | cons field others => exact ⟨_, rfl⟩

/-- A text that opens an array is that of an array. -/
theorem exists_array_of_layOut {value : Value} {level : Nat} {rest tail : List Char}
    (ends : Terminates rest) (same : value.layOut level ++ rest = '[' :: tail) :
    ∃ items, value = array items := by
  rcases value.leaf_or_nested with leaf | nested | ⟨fields, rfl⟩
  · exact absurd same (leaf.layOut_ne level (fun _ => rfl) (.inl rfl) ends)
  · exact nested
  · obtain ⟨back, text⟩ := exists_cons_layOut_object fields level
    rw [text] at same
    cases same

theorem exists_object_of_layOut {value : Value} {level : Nat} {rest tail : List Char}
    (ends : Terminates rest) (same : value.layOut level ++ rest = '\x7b' :: tail) :
    ∃ fields, value = object fields := by
  rcases value.leaf_or_nested with leaf | ⟨items, rfl⟩ | nested
  · exact absurd same (leaf.layOut_ne level (fun _ => rfl) (.inr rfl) ends)
  · obtain ⟨back, text⟩ := exists_cons_layOut_array items level
    rw [text] at same
    cases same
  · exact nested

theorem IsLeaf.spelled_eq_of_layOut {first second : Value} (leaf : first.IsLeaf) {level : Nat}
    {rest behind : List Char} (ends : Terminates rest) (stops : Terminates behind)
    (same : first.layOut level ++ rest = second.layOut level ++ behind) :
    first.spelled = second.spelled ∧ rest = behind := by
  rcases second.leaf_or_nested with other | ⟨items, rfl⟩ | ⟨fields, rfl⟩
  · obtain ⟨lexeme, leads, -⟩ := leaf.leads
    obtain ⟨next, others, -⟩ := other.leads
    rw [leaf.layOut_eq, other.layOut_eq] at same
    obtain ⟨texts, rests⟩ := leads.append_inj others ends stops same
    rw [leaf.spelled_eq, other.spelled_eq, texts]
    exact ⟨rfl, rests⟩
  · obtain ⟨tail, text⟩ := exists_cons_layOut_array items level
    rw [text] at same
    exact absurd same (leaf.layOut_ne level (fun _ => rfl) (.inl rfl) ends)
  · obtain ⟨tail, text⟩ := exists_cons_layOut_object fields level
    rw [text] at same
    exact absurd same (leaf.layOut_ne level (fun _ => rfl) (.inr rfl) ends)

theorem fieldName_append_inj {name title : String} {rest behind : List Char}
    (same : Quoted.write name ++ ':' :: ' ' :: rest = Quoted.write title ++ ':' :: ' ' :: behind) :
    name = title ∧ rest = behind := by
  obtain ⟨names, rests⟩ := Quoted.write_append_inj same
  simp only [List.cons.injEq, true_and] at rests
  exact ⟨names, rests⟩

mutual

theorem layOut_append_inj (first second : Value) {level : Nat} {rest behind : List Char}
    (ends : Terminates rest) (stops : Terminates behind)
    (same : first.layOut level ++ rest = second.layOut level ++ behind) :
    first.spelled = second.spelled ∧ rest = behind := by
  match first with
  | null => exact isLeaf_null.spelled_eq_of_layOut ends stops same
  | bool value => exact (isLeaf_bool value).spelled_eq_of_layOut ends stops same
  | number value => exact (isLeaf_number value).spelled_eq_of_layOut ends stops same
  | string text => exact (isLeaf_string text).spelled_eq_of_layOut ends stops same
  | array [] =>
      obtain ⟨others, rfl⟩ := exists_array_of_layOut stops same.symm
      cases others with
      | nil =>
          cases same
          exact ⟨rfl, rfl⟩
      | cons other others => cases same
  | array (item :: items) =>
      obtain ⟨others, rfl⟩ := exists_array_of_layOut stops same.symm
      cases others with
      | nil => cases same
      | cons other others =>
          simp only [layOut, List.isEmpty_cons, if_neg Bool.false_ne_true, List.append_assoc,
            List.cons_append, List.cons.injEq, true_and] at same
          have inner := layOutItems_append_inj (item :: items) (other :: others) nofun nofun
            (List.append_cancel_left same)
          rw [spelled, spelled, inner.1]
          exact ⟨rfl, inner.2⟩
  | object [] =>
      obtain ⟨others, rfl⟩ := exists_object_of_layOut stops same.symm
      cases others with
      | nil =>
          cases same
          exact ⟨rfl, rfl⟩
      | cons other others => cases same
  | object (field :: fields) =>
      obtain ⟨others, rfl⟩ := exists_object_of_layOut stops same.symm
      cases others with
      | nil => cases same
      | cons other others =>
          simp only [layOut, List.isEmpty_cons, if_neg Bool.false_ne_true, List.append_assoc,
            List.cons_append, List.cons.injEq, true_and] at same
          have inner := layOutFields_append_inj (field :: fields) (other :: others) nofun nofun
            (List.append_cancel_left same)
          rw [spelled, spelled, inner.1]
          exact ⟨rfl, inner.2⟩

theorem layOutItems_append_inj (first second : List Value) (present : first ≠ [])
    (given : second ≠ []) {level : Nat} {rest behind : List Char}
    (same : layOutItems level first ++ rest = layOutItems level second ++ behind) :
    spelledItems first = spelledItems second ∧ rest = behind := by
  match first, second with
  | [], _ => exact absurd rfl present
  | _ :: _, [] => exact absurd rfl given
  | [item], [other] =>
      simp only [layOutItems, List.append_assoc] at same
      obtain ⟨one, rests⟩ := layOut_append_inj item other (terminates_newLine level _)
        (terminates_newLine level _) same
      rw [spelledItems, spelledItems, one]
      exact ⟨rfl, List.append_cancel_left (List.append_cancel_left rests)⟩
  | [item], other :: next :: others =>
      simp only [layOutItems, List.append_assoc, List.cons_append] at same
      obtain ⟨-, rests⟩ := layOut_append_inj item other (terminates_newLine level _)
        (terminates_comma _) same
      simp [newLine] at rests
  | item :: next :: items, [other] =>
      simp only [layOutItems, List.append_assoc, List.cons_append] at same
      obtain ⟨-, rests⟩ := layOut_append_inj item other (terminates_comma _)
        (terminates_newLine level _) same
      simp [newLine] at rests
  | item :: next :: items, other :: following :: others =>
      simp only [layOutItems, List.append_assoc, List.cons_append] at same
      obtain ⟨one, rests⟩ := layOut_append_inj item other (terminates_comma _)
        (terminates_comma _) same
      rw [List.cons.injEq] at rests
      obtain ⟨more, ended⟩ := layOutItems_append_inj (next :: items) (following :: others) nofun
        nofun (List.append_cancel_left rests.2)
      rw [spelledItems, one, more, spelledItems]
      exact ⟨rfl, ended⟩

theorem layOutFields_append_inj (first second : List (String × Value)) (present : first ≠ [])
    (given : second ≠ []) {level : Nat} {rest behind : List Char}
    (same : layOutFields level first ++ rest = layOutFields level second ++ behind) :
    spelledFields first = spelledFields second ∧ rest = behind := by
  match first, second with
  | [], _ => exact absurd rfl present
  | _ :: _, [] => exact absurd rfl given
  | [(name, value)], [(title, other)] =>
      simp only [layOutFields, List.append_assoc, List.cons_append] at same
      obtain ⟨rfl, values⟩ := fieldName_append_inj same
      obtain ⟨one, rests⟩ := layOut_append_inj value other (terminates_newLine level _)
        (terminates_newLine level _) values
      rw [spelledFields, spelledFields, one]
      refine ⟨rfl, ?_⟩
      have closing := List.append_cancel_left rests
      rw [List.cons.injEq] at closing
      exact closing.2
  | [(name, value)], (title, other) :: next :: others =>
      simp only [layOutFields, List.append_assoc, List.cons_append] at same
      obtain ⟨rfl, values⟩ := fieldName_append_inj same
      obtain ⟨-, rests⟩ := layOut_append_inj value other (terminates_newLine level _)
        (terminates_comma _) values
      simp [newLine] at rests
  | (name, value) :: next :: fields, [(title, other)] =>
      simp only [layOutFields, List.append_assoc, List.cons_append] at same
      obtain ⟨rfl, values⟩ := fieldName_append_inj same
      obtain ⟨-, rests⟩ := layOut_append_inj value other (terminates_comma _)
        (terminates_newLine level _) values
      simp [newLine] at rests
  | (name, value) :: next :: fields, (title, other) :: following :: others =>
      simp only [layOutFields, List.append_assoc, List.cons_append] at same
      obtain ⟨rfl, values⟩ := fieldName_append_inj same
      obtain ⟨one, rests⟩ := layOut_append_inj value other (terminates_comma _)
        (terminates_comma _) values
      rw [List.cons.injEq] at rests
      obtain ⟨more, ended⟩ := layOutFields_append_inj (next :: fields) (following :: others) nofun
        nofun (List.append_cancel_left rests.2)
      rw [spelledFields, one, more, spelledFields]
      exact ⟨rfl, ended⟩

end

/-! ### Values that are spelled alike have one text -/

theorem IsLeaf.layOut_eq_of_spelled {first second : Value} (leaf : first.IsLeaf)
    (same : first.spelled = second.spelled) (level : Nat) :
    first.layOut level = second.layOut level := by
  rw [leaf.spelled_eq] at same
  rcases second.leaf_or_nested with other | ⟨items, rfl⟩ | ⟨fields, rfl⟩
  · rw [other.spelled_eq, string.injEq] at same
    rw [leaf.layOut_eq, other.layOut_eq, String.ofList_injective same]
  · rw [spelled] at same
    cases same
  · rw [spelled] at same
    cases same

mutual

theorem layOut_congr (first second : Value) (same : first.spelled = second.spelled)
    (level : Nat) : first.layOut level = second.layOut level := by
  match first with
  | null => exact isLeaf_null.layOut_eq_of_spelled same level
  | bool value => exact (isLeaf_bool value).layOut_eq_of_spelled same level
  | number value => exact (isLeaf_number value).layOut_eq_of_spelled same level
  | string text => exact (isLeaf_string text).layOut_eq_of_spelled same level
  | array items =>
      rcases second.leaf_or_nested with other | ⟨others, rfl⟩ | ⟨fields, rfl⟩
      · exact (other.layOut_eq_of_spelled same.symm level).symm
      · rw [spelled, spelled, array.injEq] at same
        have inner := layOutItems_congr items others same level
        cases items with
        | nil =>
            cases others with
            | nil => rfl
            | cons other others => cases same
        | cons item items =>
            cases others with
            | nil => cases same
            | cons other others => simp only [layOut, List.isEmpty_cons, inner]
      · cases same
  | object fields =>
      rcases second.leaf_or_nested with other | ⟨items, rfl⟩ | ⟨others, rfl⟩
      · exact (other.layOut_eq_of_spelled same.symm level).symm
      · cases same
      · rw [spelled, spelled, object.injEq] at same
        have inner := layOutFields_congr fields others same level
        cases fields with
        | nil =>
            cases others with
            | nil => rfl
            | cons other others => cases same
        | cons field fields =>
            cases others with
            | nil => cases same
            | cons other others => simp only [layOut, List.isEmpty_cons, inner]

theorem layOutItems_congr (first second : List Value)
    (same : spelledItems first = spelledItems second) (level : Nat) :
    layOutItems level first = layOutItems level second := by
  match first, second with
  | [], [] => rfl
  | [], _ :: _ => cases same
  | _ :: _, [] => cases same
  | [item], [other] =>
      obtain ⟨one, -⟩ := List.cons.inj same
      rw [layOutItems, layOutItems, layOut_congr item other one]
  | [item], other :: next :: others => cases (List.cons.inj same).2
  | item :: next :: items, [other] => cases (List.cons.inj same).2
  | item :: next :: items, other :: following :: others =>
      obtain ⟨one, more⟩ := List.cons.inj same
      rw [layOutItems, layOutItems, layOut_congr item other one,
        layOutItems_congr (next :: items) (following :: others) more]

theorem layOutFields_congr (first second : List (String × Value))
    (same : spelledFields first = spelledFields second) (level : Nat) :
    layOutFields level first = layOutFields level second := by
  match first, second with
  | [], [] => rfl
  | [], _ :: _ => cases same
  | _ :: _, [] => cases same
  | [(name, value)], [(title, other)] =>
      obtain ⟨one, -⟩ := List.cons.inj same
      obtain ⟨names, values⟩ := Prod.mk.inj one
      rw [layOutFields, layOutFields, names, layOut_congr value other values]
  | [(name, value)], (title, other) :: next :: others => cases (List.cons.inj same).2
  | (name, value) :: next :: fields, [(title, other)] => cases (List.cons.inj same).2
  | (name, value) :: next :: fields, (title, other) :: following :: others =>
      obtain ⟨one, more⟩ := List.cons.inj same
      obtain ⟨names, values⟩ := Prod.mk.inj one
      rw [layOutFields, layOutFields, names, layOut_congr value other values,
        layOutFields_congr (next :: fields) (following :: others) more]

end

/-- The indented texts of two values are equal exactly if the values are spelled alike. -/
theorem pretty_eq_iff (first second : Value) :
    first.pretty = second.pretty ↔ first.spelled = second.spelled := by
  constructor
  · intro same
    have texts : first.layOut 0 ++ [] = second.layOut 0 ++ [] := by
      rw [List.append_nil, List.append_nil]
      exact String.ofList_injective same
    exact (layOut_append_inj first second terminates_nil terminates_nil texts).1
  · intro same
    rw [pretty, pretty, layOut_congr first second same]

end ActionAtlas.Json.Value
