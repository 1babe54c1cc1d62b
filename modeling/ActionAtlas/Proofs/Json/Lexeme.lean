import ActionAtlas.Json.Lexeme
import ActionAtlas.Proofs.Json.Numeral
import ActionAtlas.Proofs.Json.Quoted

/-!
The lexemes of written values. Both written forms have the same ones, since they differ in blanks
only.
-/

namespace ActionAtlas.Json

/-! ### One lexeme at a time -/

namespace Lexeme

theorem ofText_of_first {c : Char} {rest behind : List Char} {lexeme : Lexeme}
    (visible : isBlank c = false) (read : first c rest = (lexeme, behind))
    (sound : lexeme.isBroken = false) : ofText (c :: rest) = lexeme :: ofText behind := by
  rw [ofText, visible, if_neg Bool.false_ne_true, read]
  simp only [sound, if_neg Bool.false_ne_true]

theorem ofText_blank {c : Char} (blank : isBlank c = true) (rest : List Char) :
    ofText (c :: rest) = ofText rest := by
  rw [ofText, if_pos blank]

theorem ofText_openArray (rest : List Char) : ofText ('[' :: rest) = openArray :: ofText rest :=
  ofText_of_first rfl rfl rfl

theorem ofText_closeArray (rest : List Char) : ofText (']' :: rest) = closeArray :: ofText rest :=
  ofText_of_first rfl rfl rfl

theorem ofText_openObject (rest : List Char) :
    ofText ('\x7b' :: rest) = openObject :: ofText rest :=
  ofText_of_first rfl rfl rfl

theorem ofText_closeObject (rest : List Char) :
    ofText ('\x7d' :: rest) = closeObject :: ofText rest :=
  ofText_of_first rfl rfl rfl

theorem ofText_comma (rest : List Char) : ofText (',' :: rest) = comma :: ofText rest :=
  ofText_of_first rfl rfl rfl

theorem ofText_colon (rest : List Char) : ofText (':' :: rest) = colon :: ofText rest :=
  ofText_of_first rfl rfl rfl

/-- The text is the lexeme, whatever follows that cannot prolong it. -/
def Leads (text : List Char) (lexeme : Lexeme) : Prop :=
  ∃ c tail, text = c :: tail ∧ isBlank c = false ∧
    ∀ rest, Terminates rest → first c (tail ++ rest) = (lexeme, rest)

theorem ofText_of_leads {text rest : List Char} {lexeme : Lexeme} (leads : Leads text lexeme)
    (sound : lexeme.isBroken = false) (ends : Terminates rest) :
    ofText (text ++ rest) = lexeme :: ofText rest := by
  obtain ⟨c, tail, rfl, visible, read⟩ := leads
  exact ofText_of_first visible (read rest ends) sound

/-- A text that is a lexeme ends where any other does. -/
theorem Leads.append_inj {text other rest behind : List Char} {lexeme next : Lexeme}
    (leads : Leads text lexeme) (others : Leads other next) (ends : Terminates rest)
    (stops : Terminates behind) (same : text ++ rest = other ++ behind) :
    text = other ∧ rest = behind := by
  obtain ⟨c, tail, rfl, -, read⟩ := leads
  obtain ⟨d, back, rfl, -, again⟩ := others
  rw [List.cons_append, List.cons_append, List.cons.injEq] at same
  obtain ⟨rfl, same⟩ := same
  have found := read rest ends
  rw [same, again behind stops, Prod.mk.injEq] at found
  obtain ⟨-, rfl⟩ := found
  exact ⟨congrArg (c :: ·) (List.append_cancel_right same), rfl⟩

theorem Leads.unique {text : List Char} {lexeme other : Lexeme} (leads : Leads text lexeme)
    (likewise : Leads text other) : lexeme = other := by
  obtain ⟨c, tail, rfl, -, read⟩ := leads
  obtain ⟨c', tail', same, -, read'⟩ := likewise
  obtain ⟨rfl, rfl⟩ := List.cons.inj same
  have first := read [] terminates_nil
  rw [read' [] terminates_nil] at first
  exact (Prod.ext_iff.mp first).1.symm

theorem leads_null : Leads "null".toList null :=
  ⟨'n', "ull".toList, rfl, rfl, fun _ _ => rfl⟩

theorem leads_writeBool (value : Bool) : Leads (writeBool value) (bool value) := by
  cases value with
  | true => exact ⟨'t', "rue".toList, rfl, rfl, fun _ _ => rfl⟩
  | false => exact ⟨'f', "alse".toList, rfl, rfl, fun _ _ => rfl⟩

theorem leads_quoted (text : String) : Leads (Quoted.write text) (string (some text)) := by
  refine ⟨'"', Quoted.encode text.toList ++ ['"'], rfl, rfl, ?_⟩
  intro rest _
  simp only [first, quoted, List.append_assoc, List.singleton_append, Quoted.decode_encode,
    String.ofList_toList]

theorem exists_cons_of_read_eq_ok {text rest : List Char} {n : Numeral}
    (read : Numeral.read text = .ok (n, rest)) :
    ∃ c tail, text = c :: tail ∧ (c = '-' ∨ c.isDigit = true) := by
  cases text with
  | nil => cases read
  | cons c tail =>
      refine ⟨c, tail, rfl, ?_⟩
      by_contra other
      obtain ⟨unsigned, noDigit⟩ := not_or.mp other
      have failed : Numeral.wholeDigits (c :: tail) = .error .malformed := by
        simp [Numeral.wholeDigits, Numeral.someDigits, Numeral.digits, noDigit,
          Numeral.missingDigit]
      simp [Numeral.read, unsigned, failed, bind, Except.bind] at read

theorem first_numeral {c : Char} (start : c = '-' ∨ c.isDigit = true) (rest : List Char) :
    first c rest = numeral (c :: rest) := by
  unfold first
  split
  case h_11 => exact if_pos start
  all_goals
    rcases start with other | other
    · cases other
    · cases other

theorem isBlank_numeral {c : Char} (start : c = '-' ∨ c.isDigit = true) : isBlank c = false := by
  by_contra blank
  simp only [isBlank, Bool.not_eq_false, Bool.or_eq_true, decide_eq_true_eq] at blank
  rcases blank with ((rfl | rfl) | rfl) | rfl <;> rcases start with other | other <;> cases other

theorem leads_number {number : Number} (finite : number.isFinite = true) :
    Leads number.write (Lexeme.number number.reread?) := by
  obtain ⟨n, spelled, value⟩ := Number.exists_spelling_write finite
  have alone := spelled [] terminates_nil
  rw [List.append_nil] at alone
  obtain ⟨c, tail, same, start⟩ := exists_cons_of_read_eq_ok alone
  refine ⟨c, tail, same, isBlank_numeral start, ?_⟩
  intro rest ends
  rw [first_numeral start, numeral, ← List.cons_append, ← same, spelled rest ends, value]

end Lexeme

/-! ### Whole values -/

def Number.lexeme (number : Number) : Lexeme :=
  if number.isFinite then .number number.reread? else .null

namespace Value

mutual

def lexemes : Value → List Lexeme
  | null => [.null]
  | bool value => [.bool value]
  | number value => [value.lexeme]
  | string text => [.string (some text)]
  | array items => .openArray :: itemLexemes items
  | object fields => .openObject :: fieldLexemes fields

def itemLexemes : List Value → List Lexeme
  | [] => [.closeArray]
  | [item] => item.lexemes ++ [.closeArray]
  | item :: next :: others => item.lexemes ++ .comma :: itemLexemes (next :: others)

def fieldLexemes : List (String × Value) → List Lexeme
  | [] => [.closeObject]
  | [(name, value)] => .string (some name) :: .colon :: (value.lexemes ++ [.closeObject])
  | (name, value) :: next :: others =>
    .string (some name) :: .colon :: (value.lexemes ++ .comma :: fieldLexemes (next :: others))

end

end Value

theorem leads_writeNumber (number : Number) : Lexeme.Leads number.write number.lexeme := by
  by_cases finite : number.isFinite = true
  · rw [Number.lexeme, if_pos finite]
    exact Lexeme.leads_number finite
  · rw [Number.lexeme, if_neg finite]
    cases number with
    | integer n => exact absurd rfl finite
    | float x =>
        have written : (Number.float x).write = "null".toList := if_neg finite
        rw [written]
        exact Lexeme.leads_null

theorem isBroken_lexeme (number : Number) : number.lexeme.isBroken = false := by
  unfold Number.lexeme
  split <;> rfl

theorem ofText_quoted_colon (name : String) (rest : List Char) :
    Lexeme.ofText (Quoted.write name ++ ':' :: rest) =
      .string (some name) :: .colon :: Lexeme.ofText rest := by
  rw [Lexeme.ofText_of_leads (Lexeme.leads_quoted name) rfl (terminates_cons.mpr (by decide)),
    Lexeme.ofText_colon]

/-! ### The compact form -/

theorem terminates_comma (rest : List Char) : Terminates (',' :: rest) :=
  terminates_cons.mpr (by decide)

theorem terminates_closeArray (rest : List Char) : Terminates (']' :: rest) :=
  terminates_cons.mpr (by decide)

theorem terminates_closeObject (rest : List Char) : Terminates ('\x7d' :: rest) :=
  terminates_cons.mpr (by decide)

open Lexeme in
mutual

theorem ofText_write (value : Value) (rest : List Char) (ends : Terminates rest) :
    ofText (value.write ++ rest) = value.lexemes ++ ofText rest := by
  match value with
  | .null => exact ofText_of_leads leads_null rfl ends
  | .bool value => exact ofText_of_leads (leads_writeBool value) rfl ends
  | .number value => exact ofText_of_leads (leads_writeNumber value) (isBroken_lexeme value) ends
  | .string text => exact ofText_of_leads (leads_quoted text) rfl ends
  | .array items =>
      rw [Value.write, List.cons_append, ofText_openArray, ofText_writeItems items rest]
      rfl
  | .object fields =>
      rw [Value.write, List.cons_append, ofText_openObject, ofText_writeFields fields rest]
      rfl

theorem ofText_writeItems (items : List Value) (rest : List Char) :
    ofText (Value.writeItems items ++ rest) = Value.itemLexemes items ++ ofText rest := by
  match items with
  | [] => exact ofText_closeArray rest
  | [item] =>
      simp only [Value.writeItems, Value.itemLexemes, List.append_assoc, List.cons_append,
        List.nil_append]
      rw [ofText_write item _ (terminates_closeArray rest), ofText_closeArray]
  | item :: next :: others =>
      simp only [Value.writeItems, Value.itemLexemes, List.append_assoc, List.cons_append]
      rw [ofText_write item _ (terminates_comma _), ofText_comma,
        ofText_writeItems (next :: others) rest]

theorem ofText_writeFields (fields : List (String × Value)) (rest : List Char) :
    ofText (Value.writeFields fields ++ rest) = Value.fieldLexemes fields ++ ofText rest := by
  match fields with
  | [] => exact ofText_closeObject rest
  | [(name, value)] =>
      simp only [Value.writeFields, Value.fieldLexemes, List.append_assoc, List.cons_append,
        List.nil_append]
      rw [ofText_quoted_colon, ofText_write value _ (terminates_closeObject rest),
        ofText_closeObject]
  | (name, value) :: next :: others =>
      simp only [Value.writeFields, Value.fieldLexemes, List.append_assoc, List.cons_append]
      rw [ofText_quoted_colon, ofText_write value _ (terminates_comma _), ofText_comma,
        ofText_writeFields (next :: others) rest]

end

/-! ### The indented form -/

theorem terminates_newLine (level : Nat) (rest : List Char) :
    Terminates (Value.newLine level ++ rest) :=
  terminates_cons.mpr (by decide)

theorem ofText_newLine (level : Nat) (rest : List Char) :
    Lexeme.ofText (Value.newLine level ++ rest) = Lexeme.ofText rest := by
  have blanks (count : Nat) :
      Lexeme.ofText (List.replicate count ' ' ++ rest) = Lexeme.ofText rest := by
    induction count with
    | zero => rfl
    | succ count ih =>
        rw [List.replicate_succ, List.cons_append, Lexeme.ofText_blank rfl, ih]
  rw [Value.newLine, List.cons_append, Lexeme.ofText_blank rfl, blanks]

open Lexeme in
mutual

theorem ofText_layOut (level : Nat) (value : Value) (rest : List Char) (ends : Terminates rest) :
    ofText (value.layOut level ++ rest) = value.lexemes ++ ofText rest := by
  match value with
  | .null => exact ofText_of_leads leads_null rfl ends
  | .bool value => exact ofText_of_leads (leads_writeBool value) rfl ends
  | .number value => exact ofText_of_leads (leads_writeNumber value) (isBroken_lexeme value) ends
  | .string text => exact ofText_of_leads (leads_quoted text) rfl ends
  | .array [] =>
      exact (ofText_openArray (']' :: rest)).trans
        (congrArg (Lexeme.openArray :: ·) (ofText_closeArray rest))
  | .array (item :: others) =>
      have inner := ofText_layOutItems level (item :: others) rest
      simp only [Value.layOut, List.isEmpty_cons, if_neg Bool.false_ne_true, List.append_assoc,
        List.cons_append]
      rw [ofText_openArray, ofText_newLine, inner]
      rfl
  | .object [] =>
      exact (ofText_openObject ('\x7d' :: rest)).trans
        (congrArg (Lexeme.openObject :: ·) (ofText_closeObject rest))
  | .object (field :: others) =>
      have inner := ofText_layOutFields level (field :: others) rest
      simp only [Value.layOut, List.isEmpty_cons, if_neg Bool.false_ne_true, List.append_assoc,
        List.cons_append]
      rw [ofText_openObject, ofText_newLine, inner]
      rfl

theorem ofText_layOutItems (level : Nat) (items : List Value) (rest : List Char) :
    ofText (Value.layOutItems level items ++ rest) = Value.itemLexemes items ++ ofText rest := by
  match items with
  | [] =>
      rw [Value.layOutItems, List.append_assoc, ofText_newLine]
      exact ofText_closeArray rest
  | [item] =>
      simp only [Value.layOutItems, Value.itemLexemes, List.append_assoc, List.cons_append,
        List.nil_append]
      rw [ofText_layOut (level + 1) item _ (terminates_newLine level _), ofText_newLine,
        ofText_closeArray]
  | item :: next :: others =>
      simp only [Value.layOutItems, Value.itemLexemes, List.append_assoc, List.cons_append]
      rw [ofText_layOut (level + 1) item _ (terminates_comma _), ofText_comma, ofText_newLine,
        ofText_layOutItems level (next :: others) rest]

theorem ofText_layOutFields (level : Nat) (fields : List (String × Value)) (rest : List Char) :
    ofText (Value.layOutFields level fields ++ rest) =
      Value.fieldLexemes fields ++ ofText rest := by
  have space (rest : List Char) : ofText (' ' :: rest) = ofText rest := ofText_blank rfl rest
  match fields with
  | [] =>
      rw [Value.layOutFields, List.append_assoc, ofText_newLine]
      exact ofText_closeObject rest
  | [(name, value)] =>
      simp only [Value.layOutFields, Value.fieldLexemes, List.append_assoc, List.cons_append,
        List.nil_append]
      rw [ofText_quoted_colon, space,
        ofText_layOut (level + 1) value _ (terminates_newLine level _), ofText_newLine,
        ofText_closeObject]
  | (name, value) :: next :: others =>
      simp only [Value.layOutFields, Value.fieldLexemes, List.append_assoc, List.cons_append]
      rw [ofText_quoted_colon, space,
        ofText_layOut (level + 1) value _ (terminates_comma _), ofText_comma, ofText_newLine,
        ofText_layOutFields level (next :: others) rest]

end

/-! ### Whole texts -/

/-- A text is one of the two written forms of a value, perhaps with blanks behind it. -/
def Value.WrittenAs (value : Value) (text : String) : Prop :=
  ∃ blanks : List Char, (∀ c ∈ blanks, Lexeme.isBlank c = true) ∧
    (text.toList = value.write ++ blanks ∨ text.toList = value.layOut 0 ++ blanks)

theorem Value.writtenAs_compact (value : Value) : value.WrittenAs value.compact :=
  ⟨[], by simp, .inl (by rw [compact, String.toList_ofList, List.append_nil])⟩

theorem Value.writtenAs_pretty (value : Value) : value.WrittenAs value.pretty :=
  ⟨[], by simp, .inr (by rw [pretty, String.toList_ofList, List.append_nil])⟩

theorem ofText_blanks {blanks : List Char} (all : ∀ c ∈ blanks, Lexeme.isBlank c = true) :
    Lexeme.ofText blanks = [] := by
  induction blanks with
  | nil => rw [Lexeme.ofText]
  | cons c blanks ih =>
      rw [Lexeme.ofText_blank (all c List.mem_cons_self)]
      exact ih fun d member => all d (List.mem_cons_of_mem c member)

theorem terminates_blanks {blanks : List Char} (all : ∀ c ∈ blanks, Lexeme.isBlank c = true) :
    Terminates blanks := by
  intro c first
  have blank := all c (List.mem_of_mem_head? first)
  simp only [Lexeme.isBlank, Bool.or_eq_true, decide_eq_true_eq] at blank
  rcases blank with ((rfl | rfl) | rfl) | rfl <;> decide

theorem Value.WrittenAs.lexemes_eq {value : Value} {text : String}
    (written : value.WrittenAs text) : Lexeme.ofText text.toList = value.lexemes := by
  obtain ⟨blanks, all, same | same⟩ := written
  · rw [same, ofText_write value blanks (terminates_blanks all), ofText_blanks all,
      List.append_nil]
  · rw [same, ofText_layOut 0 value blanks (terminates_blanks all), ofText_blanks all,
      List.append_nil]

end ActionAtlas.Json
