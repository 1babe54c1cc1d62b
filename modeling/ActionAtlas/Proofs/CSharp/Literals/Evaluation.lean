import ActionAtlas.Proofs.CSharp.Brackets.Places
import ActionAtlas.Proofs.CSharp.Literals.Standing

/-!
What a text is evaluated to as an expression. Its tokens are cut off whole wherever it stands, and
they form trees of their own, whatever brackets are open around them.
-/

namespace ActionAtlas.CSharp

def AreBlank (text : List Char) : Prop :=
  ∀ c ∈ text, isBlank c = true

theorem areBlank_nil : AreBlank [] :=
  fun _ inside => absurd inside List.not_mem_nil

theorem AreBlank.reverse {text : List Char} (blank : AreBlank text) : AreBlank text.reverse :=
  fun c inside => blank c (List.mem_reverse.mp inside)

/-- The blanks before a token are its gap. -/
theorem Token.scan_blanks {blanks : List Char} (blank : AreBlank blanks) (gap text : List Char) :
    Token.scan gap (blanks ++ text) = Token.scan (blanks.reverse ++ gap) text := by
  induction blanks generalizing gap with
  | nil => rfl
  | cons c others ih =>
      rw [AreBlank, List.forall_mem_cons] at blank
      rw [List.cons_append, Token.scan, if_pos blank.1, ih blank.2, List.reverse_cons,
        List.append_assoc, List.singleton_append]

theorem Token.scan_single {c : Char} {rest : List Char} {kind : TokenKind}
    (visible : isBlank c = false) (extent : Extent.token c rest = (kind, 1)) (gap : List Char) :
    Token.scan gap (c :: rest) = ⟨kind, gap.reverse, [c]⟩ :: Token.scan [] rest :=
  @Token.scan_eq_cons c [] rest kind visible extent gap

/-! ### Texts -/

/-- A text with no blank at either end. -/
structure IsTrimmed (text : List Char) : Prop where
  first : ∃ c ∈ text.head?, isBlank c = false
  last : ∃ c ∈ text.getLast?, isBlank c = false

theorem isTrimmed_of_visible {text : List Char} (some : text ≠ [])
    (visible : ∀ c ∈ text, isBlank c = false) : IsTrimmed text :=
  ⟨⟨text.head some, List.head?_eq_some_head some, visible _ (List.head_mem some)⟩,
    ⟨text.getLast some, List.getLast?_eq_some_getLast some, visible _ (List.getLast_mem some)⟩⟩

theorem textBlank_of_not_isBlank {c : Char} (visible : isBlank c = false) :
    Text.isBlank c = false :=
  (Bool.or_eq_false_iff.mp visible).1

theorem IsTrimmed.trim_eq {text : List Char} (trimmed : IsTrimmed text) :
    Text.trim text = text := by
  obtain ⟨⟨first, isFirst, firstVisible⟩, last, isLast, lastVisible⟩ := trimmed
  have front : Text.trimStart text = text := by
    obtain ⟨rest, rfl⟩ := List.head?_eq_some_iff.mp isFirst
    rw [Text.trimStart, List.dropWhile_cons_of_neg]
    rw [textBlank_of_not_isBlank firstVisible]
    exact Bool.false_ne_true
  obtain ⟨before, rfl⟩ := List.getLast?_eq_some_iff.mp isLast
  rw [Text.trim, front, Text.trimEnd, List.reverse_append, List.reverse_singleton,
    List.singleton_append, List.dropWhile_cons_of_neg, List.reverse_cons, List.reverse_reverse]
  rw [textBlank_of_not_isBlank lastVisible]
  exact Bool.false_ne_true

theorem Tree.slice_eq {trees : List Tree} {gap text : List Char} (blank : AreBlank gap)
    (trimmed : IsTrimmed text) (sources_eq : sources trees = gap ++ text) :
    slice trees = String.ofList text := by
  obtain ⟨first, isFirst, visible⟩ := trimmed.first
  obtain ⟨rest, text_eq⟩ := List.head?_eq_some_iff.mp isFirst
  have dropped : (gap ++ text).dropWhile isBlank = text := by
    rw [List.dropWhile_append_of_pos blank, text_eq, List.dropWhile_cons_of_neg]
    rw [visible]
    exact Bool.false_ne_true
  rw [slice, sources_eq, dropped, trimmed.trim_eq]

/-- Wherever the text stands, behind blanks and before what may follow it, it is cut off as whole
tokens, and by themselves these form trees of this kind. -/
def FormsTrees (mayFollow : List Char → Prop) (written : List Char) (kind : List Tree → Prop) :
    Prop :=
  ∀ gap rest : List Char, AreBlank gap → mayFollow rest →
    ∃ tokens : List Token, ∃ trees : List Tree,
      Token.scan gap (written ++ rest) = tokens ++ Token.scan [] rest ∧
      Tree.Forms tokens trees ∧ Tree.sources trees = gap.reverse ++ written ∧ kind trees

def IsEvaluated (mayFollow : List Char → Prop) (written : List Char) (result : Evaluated) : Prop :=
  FormsTrees mayFollow written fun trees => Tree.evaluate trees = result

theorem IsEvaluated.unique {mayFollow : List Char → Prop} (alone : mayFollow [])
    {written : List Char} {result other : Evaluated}
    (evaluated : IsEvaluated mayFollow written result)
    (evaluatedOther : IsEvaluated mayFollow written other) : result = other := by
  obtain ⟨tokens, trees, scanned, forms, -, result_eq⟩ := evaluated [] [] areBlank_nil alone
  obtain ⟨others, otherTrees, otherScanned, formsOthers, -, other_eq⟩ :=
    evaluatedOther [] [] areBlank_nil alone
  have tokens_eq : tokens = others :=
    List.append_cancel_right (scanned.symm.trans otherScanned)
  subst tokens_eq
  rw [← result_eq, ← other_eq, forms.unique formsOthers]

/-! ### Expressions -/

/-- Trees that are read as an expression: no comment is among them, and no comma. -/
structure Tree.AreReadAs (expression : Expression) (trees : List Tree) : Prop where
  some : trees ≠ []
  said : ∀ tree ∈ trees, tree.isComment = false
  undivided : ∀ tree ∈ trees, tree.isMark "," = false
  expressionOf_eq : expressionOf trees = expression

def IsReadAs (mayFollow : List Char → Prop) (written : List Char) (expression : Expression) :
    Prop :=
  FormsTrees mayFollow written (Tree.AreReadAs expression)

/-- The result of an expression written like this. -/
def Expression.resultOf (expression : Expression) (written : List Char) : Evaluated :=
  match expression.constant? with
  | some value => .constant value
  | none => .unresolved (String.ofList written)

theorem Tree.trimComments_of_said {trees : List Tree}
    (said : ∀ tree ∈ trees, tree.isComment = false) : trimComments trees = trees := by
  have kept (others : List Tree) (saidOthers : ∀ tree ∈ others, tree.isComment = false) :
      others.dropWhile isComment = others := by
    cases others with
    | nil => rfl
    | cons tree more =>
        rw [List.dropWhile_cons_of_neg]
        rw [saidOthers tree List.mem_cons_self]
        exact Bool.false_ne_true
  rw [trimComments, kept trees said, kept trees.reverse, List.reverse_reverse]
  exact fun tree inside => said tree (List.mem_reverse.mp inside)

theorem IsReadAs.isEvaluated {mayFollow : List Char → Prop} {written : List Char}
    {expression : Expression} (isReadAs : IsReadAs mayFollow written expression)
    (trimmed : IsTrimmed written) :
    IsEvaluated mayFollow written (expression.resultOf written) := by
  intro gap rest blank follows
  obtain ⟨tokens, trees, scanned, forms, sources_eq, areReadAs⟩ := isReadAs gap rest blank follows
  refine ⟨tokens, trees, scanned, forms, sources_eq, ?_⟩
  change Tree.evaluate trees = expression.resultOf written
  rw [Tree.evaluate, areReadAs.expressionOf_eq, Tree.trimComments_of_said areReadAs.said,
    Tree.slice_eq blank.reverse trimmed sources_eq]
  rfl

theorem Tree.areReadAs_literal (token : Token) (unpunctuated : token.kind ≠ .punctuation)
    (said : token.kind ≠ .comment) :
    AreReadAs (.literal token.kind token.text) [.token token] := by
  have noComment : (Tree.token token).isComment = false := by
    simpa [isComment, Token.isComment] using said
  have noComma : (Tree.token token).isMark "," = false := by
    simp [isMark, Token.isMark, unpunctuated]
  refine ⟨List.cons_ne_nil _ _, List.forall_mem_singleton.mpr noComment,
    List.forall_mem_singleton.mpr noComma, ?_⟩
  rw [expressionOf, if_neg (by rw [noComment]; exact Bool.false_ne_true)]
  rfl

theorem isReadAs_literal {mayFollow : List Char → Prop} {c : Char} {text : List Char}
    {kind : TokenKind} (visible : isBlank c = false) (unpunctuated : kind ≠ .punctuation)
    (said : kind ≠ .comment)
    (extent : ∀ rest, mayFollow rest → Extent.token c (text ++ rest) = (kind, text.length + 1)) :
    IsReadAs mayFollow (c :: text) (.literal kind (c :: text)) := by
  intro gap rest _ follows
  exact ⟨[⟨kind, gap.reverse, c :: text⟩], [.token ⟨kind, gap.reverse, c :: text⟩],
    Token.scan_eq_cons visible (extent rest follows) gap,
    Tree.forms_of_unpunctuated unpunctuated, List.append_nil _,
    Tree.areReadAs_literal ⟨kind, gap.reverse, c :: text⟩ unpunctuated said⟩

theorem Tree.areReadAs_group {expression : Expression} {trees : List Tree}
    (areReadAs : AreReadAs expression trees) (gap innerGap : List Char) :
    AreReadAs (.parenthesized expression)
      [.group (parenthesis gap '(') trees (parenthesis innerGap ')')] := by
  have saidFirst : trees.head?.any isComment = false := by
    cases trees with
    | nil => rfl
    | cons tree others => exact areReadAs.said tree List.mem_cons_self
  have noComma : trees.any (isMark ",") = false := by
    simpa using areReadAs.undivided
  have isRound : (parenthesis gap '(').isMark "(" = true := by
    simp [Token.isMark, parenthesis]
  refine ⟨List.cons_ne_nil _ _, List.forall_mem_singleton.mpr rfl,
    List.forall_mem_singleton.mpr rfl, ?_⟩
  have alone : expressionOf [.group (parenthesis gap '(') trees (parenthesis innerGap ')')] =
      Tree.expression (.group (parenthesis gap '(') trees (parenthesis innerGap ')')) := by
    rw [expressionOf, if_neg (by exact Bool.false_ne_true)]
    rfl
  rw [alone, Tree.expression, isRound, saidFirst, noComma, areReadAs.expressionOf_eq]
  rfl

theorem IsReadAs.parenthesized {mayFollow mayFollowGroup : List Char → Prop}
    {written before after : List Char} {expression : Expression}
    (isReadAs : IsReadAs mayFollow written expression) (blankBefore : AreBlank before)
    (blankAfter : AreBlank after)
    (follows : ∀ rest, mayFollowGroup rest → mayFollow (after ++ ')' :: rest)) :
    IsReadAs mayFollowGroup ('(' :: (before ++ written ++ after ++ [')']))
      (.parenthesized expression) := by
  intro gap rest _ restFollows
  obtain ⟨tokens, trees, scanned, forms, sources_eq, areReadAs⟩ :=
    isReadAs before.reverse _ blankBefore.reverse (follows rest restFollows)
  have opening (text : List Char) : Token.scan gap ('(' :: text) =
      Tree.parenthesis gap.reverse '(' :: Token.scan [] text :=
    Token.scan_single rfl rfl gap
  have closing : Token.scan after.reverse (')' :: rest) =
      Tree.parenthesis after ')' :: Token.scan [] rest := by
    rw [Token.scan_single rfl rfl, List.reverse_reverse, Tree.parenthesis]
  refine ⟨Tree.parenthesis gap.reverse '(' :: (tokens ++ [Tree.parenthesis after ')']),
    [.group (Tree.parenthesis gap.reverse '(') trees (Tree.parenthesis after ')')], ?_,
    forms.parenthesized gap.reverse after, ?_, Tree.areReadAs_group areReadAs gap.reverse after⟩
  · have inner : Token.scan [] (before ++ written ++ after ++ [')'] ++ rest) =
        tokens ++ (Tree.parenthesis after ')' :: Token.scan [] rest) := by
      have inside : before ++ written ++ after ++ [')'] ++ rest =
          before ++ (written ++ (after ++ ')' :: rest)) := by
        simp only [List.append_assoc, List.singleton_append]
      rw [inside, Token.scan_blanks blankBefore, List.append_nil, scanned,
        Token.scan_blanks blankAfter, List.append_nil, closing]
    rw [List.cons_append, opening, inner, List.cons_append, List.append_assoc,
      List.singleton_append]
  · rw [List.reverse_reverse] at sources_eq
    simp [Tree.sources, Tree.source, Tree.parenthesis, Token.source, sources_eq]

def Sign.char : Sign → Char
  | .plus => '+'
  | .minus => '-'

theorem Tree.forms_sign (sign : Sign) (gap : List Char) :
    Forms [⟨.punctuation, gap, [sign.char]⟩] [.token ⟨.punctuation, gap, [sign.char]⟩] := by
  intro state
  cases sign <;> rfl

theorem Tree.areReadAs_signed {expression : Expression} {trees : List Tree}
    (areReadAs : AreReadAs expression trees) (sign : Sign) (gap : List Char) :
    AreReadAs (.signed sign expression)
      (.token ⟨.punctuation, gap, [sign.char]⟩ :: trees) := by
  have isSign : (Tree.token ⟨.punctuation, gap, [sign.char]⟩).sign? = some sign := by
    cases sign <;> simp [sign?, isMark, Token.isMark, Sign.char]
  have noComma : (Tree.token ⟨.punctuation, gap, [sign.char]⟩).isMark "," = false := by
    cases sign <;> simp [isMark, Token.isMark, Sign.char]
  have operand : ¬trees.all isComment = true := by
    obtain ⟨tree, others, rfl⟩ := List.exists_cons_of_ne_nil areReadAs.some
    rw [List.all_cons, areReadAs.said tree List.mem_cons_self]
    exact Bool.false_ne_true
  refine ⟨List.cons_ne_nil _ _, List.forall_mem_cons.mpr ⟨rfl, areReadAs.said⟩,
    List.forall_mem_cons.mpr ⟨noComma, areReadAs.undivided⟩, ?_⟩
  rw [expressionOf, if_neg (by exact Bool.false_ne_true), if_neg operand, isSign,
    areReadAs.expressionOf_eq]

theorem IsReadAs.signed {mayFollow : List Char → Prop} {written gap : List Char}
    {expression : Expression} (isReadAs : IsReadAs mayFollow written expression) {sign : Sign}
    (blank : AreBlank gap)
    (apart : ∀ rest, mayFollow rest →
      Extent.token sign.char (gap ++ written ++ rest) = (.punctuation, 1)) :
    IsReadAs mayFollow (sign.char :: (gap ++ written)) (.signed sign expression) := by
  intro before rest _ follows
  obtain ⟨tokens, trees, scanned, forms, sources_eq, areReadAs⟩ :=
    isReadAs gap.reverse rest blank.reverse follows
  have visible : isBlank sign.char = false := by
    cases sign <;> rfl
  refine ⟨⟨.punctuation, before.reverse, [sign.char]⟩ :: tokens,
    .token ⟨.punctuation, before.reverse, [sign.char]⟩ :: trees, ?_,
    (Tree.forms_sign sign before.reverse).append forms, ?_,
    Tree.areReadAs_signed areReadAs sign before.reverse⟩
  · have cut : Token.scan before (sign.char :: (gap ++ written) ++ rest) =
        ⟨.punctuation, before.reverse, [sign.char]⟩ :: Token.scan [] (gap ++ written ++ rest) :=
      Token.scan_single visible (apart rest follows) before
    rw [cut, List.append_assoc, Token.scan_blanks blank, List.append_nil, scanned]
    rfl
  · rw [List.reverse_reverse] at sources_eq
    rw [Tree.sources, sources_eq, Tree.source, Token.source]
    simp only [List.append_assoc, List.singleton_append]

theorem Literal.Denotes.isEvaluated {written : List Char} {value : Constant}
    (denotes : Denotes written value) : IsEvaluated MayFollow written (.constant value) := by
  intro gap rest _ follows
  obtain ⟨token, source_eq, scanned, evaluated⟩ := denotes gap rest follows
  have unpunctuated : token.kind ≠ .punctuation := by
    intro punctuation
    have none : (Tree.expressionOf [.token token]).constant? = none := by
      rw [Tree.expressionOf]
      split
      · rfl
      · have literal : (Tree.token token).expression = .literal token.kind token.text := rfl
        rw [if_pos List.all_nil, literal,
          Expression.constant?, punctuation]
        rfl
    rw [Tree.evaluate, none] at evaluated
    cases evaluated
  exact ⟨[token], [.token token], scanned, Tree.forms_of_unpunctuated unpunctuated,
    (List.append_nil _).trans source_eq, evaluated⟩

end ActionAtlas.CSharp
