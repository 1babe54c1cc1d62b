import ActionAtlas.Json.Document
import ActionAtlas.Proofs.Json.Lexeme

/-!
The documents of written values. The lexemes of a value, whatever stands around them, build the
document of that value and then lead on as a complete value does.
-/

namespace ActionAtlas.Json

/-- The document of a number, which is that of `null` for those that are no numerals. -/
def Number.document (number : Number) : Document :=
  if number.isFinite then .number number.reread? else .null

namespace Value

mutual

def document : Value → Document
  | null => .null
  | bool value => .bool value
  | number value => value.document
  | string text => .string (some text)
  | array items => .array (documents items) .closed
  | object fields => .object (entries fields) .closed

def documents : List Value → List Document
  | [] => []
  | item :: others => item.document :: documents others

def entries : List (String × Value) → List (Option String × Document)
  | [] => []
  | (name, value) :: others => (some name, value.document) :: entries others

end

end Value

namespace Document

def proceed (next : Next) (rest : List Lexeme) : Reading :=
  match next with
  | .further expected frames => build expected frames rest
  | .complete document => ⟨document, !rest.isEmpty⟩
  | .flawed document => ⟨document, false⟩

theorem build_cons (expected : Expected) (frames : List Frame) (lexeme : Lexeme)
    (rest : List Lexeme) :
    build expected frames (lexeme :: rest) = proceed (step expected frames lexeme) rest :=
  rfl

/-- A value is wanted, in the place that `frames` tell. Only a closing bracket may mean something
else. -/
def WantsValue (expected : Expected) (outer frames : List Frame) : Prop :=
  ∀ lexeme, lexeme ≠ .closeArray → step expected outer lexeme = enter lexeme frames

theorem wantsValue_value (frames : List Frame) : WantsValue .value frames frames :=
  fun _ _ => rfl

theorem wantsValue_firstItem (frames : List Frame) :
    WantsValue .firstItem frames (.item [] :: frames) := by
  intro lexeme other
  cases lexeme with
  | closeArray => exact absurd rfl other
  | _ => rfl

theorem wantsValue_nextItem (before : List Document) (frames : List Frame) :
    WantsValue (.nextItem before) frames (.item before :: frames) := by
  intro lexeme other
  cases lexeme with
  | closeArray => exact absurd rfl other
  | _ => rfl

def WantsName (expected : Expected) (before : List (Option String × Document)) : Prop :=
  ∀ frames name, step expected frames (.string name) = .further (.colon before name) frames

theorem wantsName_firstName : WantsName .firstName [] :=
  fun _ _ => rfl

theorem wantsName_nextName (before : List (Option String × Document)) :
    WantsName (.nextName before) before :=
  fun _ _ => rfl

mutual

theorem build_lexemes (value : Value) {expected : Expected} {outer frames : List Frame}
    (wanted : WantsValue expected outer frames) (rest : List Lexeme) :
    build expected outer (value.lexemes ++ rest) = proceed (resume value.document frames) rest := by
  match value with
  | .null =>
      rw [Value.lexemes, List.singleton_append, build_cons, wanted .null nofun]
      rfl
  | .bool value =>
      rw [Value.lexemes, List.singleton_append, build_cons, wanted (.bool value) nofun]
      rfl
  | .number value =>
      rw [Value.lexemes, List.singleton_append, build_cons, Value.document, Number.lexeme,
        Number.document]
      by_cases finite : value.isFinite = true
      · rw [if_pos finite, if_pos finite, wanted (.number value.reread?) nofun]
        rfl
      · rw [if_neg finite, if_neg finite, wanted .null nofun]
        rfl
  | .string text =>
      rw [Value.lexemes, List.singleton_append, build_cons, wanted (.string (some text)) nofun]
      rfl
  | .array [] =>
      rw [Value.lexemes, List.cons_append, build_cons, wanted .openArray nofun]
      rfl
  | .array (item :: others) =>
      have inner := build_itemLexemes (item :: others) nofun (wantsValue_firstItem frames) rest
      rw [Value.lexemes, List.cons_append, build_cons, wanted .openArray nofun]
      exact inner
  | .object [] =>
      rw [Value.lexemes, List.cons_append, build_cons, wanted .openObject nofun]
      rfl
  | .object (field :: others) =>
      have inner := build_fieldLexemes (field :: others) nofun wantsName_firstName frames rest
      rw [Value.lexemes, List.cons_append, build_cons, wanted .openObject nofun]
      exact inner

theorem build_itemLexemes (items : List Value) (present : items ≠ []) {before : List Document}
    {expected : Expected} {frames : List Frame}
    (wanted : WantsValue expected frames (.item before :: frames)) (rest : List Lexeme) :
    build expected frames (Value.itemLexemes items ++ rest) =
      proceed (resume (array (before.reverse ++ Value.documents items) .closed) frames) rest := by
  match items with
  | [] => exact absurd rfl present
  | [item] =>
      rw [Value.itemLexemes, List.append_assoc, build_lexemes item wanted]
      simp [Value.documents, proceed, resume, build_cons, step]
  | item :: next :: others =>
      have inner := build_itemLexemes (next :: others) nofun
        (wantsValue_nextItem (item.document :: before) frames) rest
      rw [Value.itemLexemes, List.append_assoc, build_lexemes item wanted]
      simpa [Value.documents, proceed, resume, build_cons, step] using inner

theorem build_fieldLexemes (fields : List (String × Value)) (present : fields ≠ [])
    {before : List (Option String × Document)} {expected : Expected}
    (wanted : WantsName expected before) (frames : List Frame) (rest : List Lexeme) :
    build expected frames (Value.fieldLexemes fields ++ rest) =
      proceed (resume (object (before.reverse ++ Value.entries fields) .closed) frames) rest := by
  match fields with
  | [] => exact absurd rfl present
  | [(name, value)] =>
      simp only [Value.fieldLexemes, List.cons_append, List.append_assoc]
      rw [build_cons, wanted frames name, proceed, build_cons]
      simp only [step, proceed]
      rw [build_lexemes value (wantsValue_value (.entry before name :: frames))]
      simp [Value.entries, proceed, resume, build_cons, step]
  | (name, value) :: next :: others =>
      have inner := build_fieldLexemes (next :: others) nofun
        (wantsName_nextName ((name, value.document) :: before)) frames rest
      simp only [Value.fieldLexemes, List.cons_append, List.append_assoc]
      rw [build_cons, wanted frames name, proceed, build_cons]
      simp only [step, proceed]
      rw [build_lexemes value (wantsValue_value (.entry before name :: frames))]
      simpa [Value.entries, proceed, resume, build_cons, step] using inner

end

end Document

theorem Value.WrittenAs.reading_eq {value : Value} {text : String}
    (written : value.WrittenAs text) : Reading.ofText text = ⟨value.document, false⟩ := by
  have built := Document.build_lexemes value (Document.wantsValue_value []) []
  rw [List.append_nil] at built
  rw [Reading.ofText, Reading.ofLexemes, written.lexemes_eq, built]
  rfl

end ActionAtlas.Json
