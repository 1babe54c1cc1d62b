import ActionAtlas.CSharp.Expression
import ActionAtlas.Proofs.Text.Cut

/-!
What a literal stands for. A text has a value if it is cut off as one token wherever it stands, and
if an expression of this token has the value.
-/

namespace ActionAtlas.CSharp

/-! ### Tokens -/

namespace Token

/-- A token is cut off behind as many characters as belong to it. -/
theorem scan_eq_cons {c : Char} {text rest : List Char} {kind : TokenKind}
    (visible : isBlank c = false)
    (extent : Extent.token c (text ++ rest) = (kind, text.length + 1)) (gap : List Char) :
    scan gap (c :: text ++ rest) = ⟨kind, gap.reverse, c :: text⟩ :: scan [] rest := by
  rw [List.cons_append, scan, if_neg (by rw [visible]; exact Bool.false_ne_true), extent]
  simp only [Nat.add_sub_cancel, List.take_left, List.drop_left]

end Token

namespace Extent

theorem takeWhile_quotes (count : Nat) {rest : List Char} (ends : rest.head? ≠ some '"') :
    (List.replicate count '"' ++ rest).takeWhile (· == '"') = List.replicate count '"' := by
  have none : rest.takeWhile (· == '"') = [] := by
    cases rest with
    | nil => rfl
    | cons c more =>
        have other : ¬(c == '"') = true := by simpa using ends
        rw [List.takeWhile_cons, if_neg other]
  rw [List.takeWhile_append_of_pos (by simp), none, List.append_nil]

theorem quotes_replicate (count : Nat) {rest : List Char} (ends : rest.head? ≠ some '"') :
    quotes (List.replicate count '"' ++ rest) = count := by
  rw [quotes, takeWhile_quotes count ends, List.length_replicate]

theorem token_quote (rest : List Char) : token '"' rest = string ('"' :: rest) := rfl

end Extent

/-! ### Values -/

theorem Tree.evaluate_token {token : Token} {value : Constant} (said : token.kind ≠ .comment)
    (constant : Literal.constant? token.kind token.text = some value) :
    evaluate [.token token] = .constant value := by
  have noComment : ¬(Tree.token token).isComment = true := by
    simpa [isComment, Token.isComment] using said
  have alone : expressionOf [.token token] = .literal token.kind token.text := by
    rw [expressionOf, if_neg noComment]
    rfl
  rw [evaluate, alone, Expression.constant?, constant]

namespace Literal

/-- Text that does not belong to a literal before it: it begins neither with a quote nor with the
mark of an encoding. -/
structure MayFollow (rest : List Char) : Prop where
  unquoted : rest.head? ≠ some '"'
  unencoded : Extent.encoding rest = 0

theorem mayFollow_nil : MayFollow [] :=
  ⟨by simp, rfl⟩

/-- Wherever the text stands, it is one token, and the expression of this token has the value. -/
def Denotes (written : List Char) (value : Constant) : Prop :=
  ∀ gap rest : List Char, MayFollow rest →
    ∃ token : Token, token.source = gap.reverse ++ written ∧
      Token.scan gap (written ++ rest) = token :: Token.scan [] rest ∧
      Tree.evaluate [.token token] = .constant value

theorem denotes_of_extent {c : Char} {text : List Char} {kind : TokenKind} {value : Constant}
    (visible : isBlank c = false) (said : kind ≠ .comment)
    (extent : ∀ rest, MayFollow rest → Extent.token c (text ++ rest) = (kind, text.length + 1))
    (constant : constant? kind (c :: text) = some value) : Denotes (c :: text) value := by
  intro gap rest follows
  exact ⟨⟨kind, gap.reverse, c :: text⟩, rfl,
    Token.scan_eq_cons visible (extent rest follows) gap, Tree.evaluate_token said constant⟩

theorem Denotes.unique {written : List Char} {value other : Constant}
    (denotes : Denotes written value) (denotesOther : Denotes written other) : value = other := by
  obtain ⟨token, -, scanned, evaluated⟩ := denotes [] [] mayFollow_nil
  obtain ⟨otherToken, -, otherScanned, otherEvaluated⟩ := denotesOther [] [] mayFollow_nil
  have same : token = otherToken := (List.cons.inj (scanned.symm.trans otherScanned)).1
  rw [← same, evaluated] at otherEvaluated
  exact Evaluated.constant.inj otherEvaluated

theorem between?_append (opening inner closing : List Char) :
    between? opening closing (opening ++ inner ++ closing) = some inner := by
  rw [between?, List.append_assoc, Text.dropInitial?_append]
  exact Text.dropFinal?_append inner closing

end Literal

end ActionAtlas.CSharp
