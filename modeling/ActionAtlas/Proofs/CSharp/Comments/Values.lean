import ActionAtlas.CSharp.AttributeReader
import ActionAtlas.Proofs.CSharp.Comments.Cutting
import ActionAtlas.Proofs.Mvc.Texts

/-!
Expressions and attributes without their comments.

A comment right behind a parenthesis around a value hides the value, and one inside the name of an
attribute becomes a part of it. All other comments in attributes are passed over.
-/

namespace ActionAtlas.CSharp.Tree

/-! ### Expressions -/

mutual

/-- In the place of a value, no comment stands right behind an opening parenthesis. -/
def isClearOperand : Tree → Bool
  | token _ => true
  | group opening children _ =>
    !opening.isMark "(" || !children.head?.any isComment && isClearValue children

def isClearValue : List Tree → Bool
  | [] => true
  | tree :: others =>
    if tree.isComment then isClearValue others
    else if others.all isComment then tree.isClearOperand
    else tree.sign?.isNone || isClearValue others

end

section

variable (spacing : List Char → List Char)

theorem all_isComment_spoken (trees : List Tree) :
    (spoken spacing trees).all isComment = trees.all isComment := by
  rw [spoken_eq, Silence.all_spoken (fun _ comment => comment) (spaced_isComment spacing)]

theorem spaced_sign? (tree : Tree) : (tree.spaced spacing).sign? = tree.sign? := by
  simp only [sign?, spaced_isMark]

mutual

theorem expression_spaced (tree : Tree) (clear : tree.isClearOperand = true) :
    (tree.spaced spacing).expression = tree.expression := by
  match tree with
  | token t =>
      rw [spaced, expression, expression]
      rfl
  | group opening children closing =>
      rw [spaced, expression, expression, Token.spaced_isMark]
      cases parenthesis : opening.isMark "(" with
      | false => rfl
      | true =>
          rw [isClearOperand, parenthesis, Bool.not_true, Bool.false_or, Bool.and_eq_true] at clear
          have said : (spoken spacing children).head?.any isComment = false := by
            cases first : (spoken spacing children).head? with
            | none => rfl
            | some tree =>
                exact isComment_of_mem_spoken spacing (List.mem_of_mem_head? first)
          have commas : (spoken spacing children).any (isMark ",") = children.any (isMark ",") := by
            rw [spoken_eq, Silence.any_spoken (fun _ comment => isMark_of_isComment comment ",")
              (fun tree => spaced_isMark spacing tree ",")]
          have first : children.head?.any isComment = false := by simpa using clear.1
          rw [said, commas, first, expressionOf_spoken children clear.2]

theorem expressionOf_spoken (trees : List Tree) (clear : isClearValue trees = true) :
    expressionOf (spoken spacing trees) = expressionOf trees := by
  match trees with
  | [] => rw [spoken_nil]
  | tree :: others =>
      rw [isClearValue] at clear
      cases comment : tree.isComment with
      | true =>
          rw [if_pos comment] at clear
          rw [spoken_cons_of_comment spacing comment, expressionOf, if_pos comment]
          exact expressionOf_spoken others clear
      | false =>
          have said : ¬tree.isComment = true := by simp [comment]
          have said' : ¬(tree.spaced spacing).isComment = true := by simp [comment]
          rw [if_neg said] at clear
          rw [spoken_cons spacing comment, expressionOf, expressionOf, if_neg said, if_neg said',
            all_isComment_spoken, spaced_sign?]
          by_cases alone : others.all isComment = true
          · rw [if_pos alone] at clear
            rw [if_pos alone, if_pos alone, expression_spaced tree clear]
          · rw [if_neg alone, Bool.or_eq_true] at clear
            rw [if_neg alone, if_neg alone]
            cases sign : tree.sign? with
            | none => rfl
            | some sign =>
                have behind : isClearValue others = true := by simpa [sign] using clear
                simp only [expressionOf_spoken others behind]

end

theorem constant?_evaluate (trees : List Tree) :
    (evaluate trees).constant? = (expressionOf trees).constant? := by
  rw [evaluate]
  cases (expressionOf trees).constant? <;> rfl

theorem evaluate_spoken {trees : List Tree} (clear : isClearValue trees = true) :
    (evaluate (spoken spacing trees)).withoutText = (evaluate trees).withoutText := by
  rw [Evaluated.withoutText_eq_iff, constant?_evaluate, constant?_evaluate,
    expressionOf_spoken spacing trees clear]

theorem isInstanceAlone_spoken (trees : List Tree) :
    isInstanceAlone (spoken spacing trees) = isInstanceAlone trees := by
  rw [isInstanceAlone, isInstanceAlone, trimComments_spoken, ← spoken_trimComments]
  cases trimmed : trimComments trees with
  | nil => rw [spoken_nil]
  | cons first rest =>
      rw [spoken_cons spacing (Silence.said_of_trimmed trimmed)]
      cases rest with
      | nil => simp only [spoken_nil, isInstance, spaced_isWord]
      | cons second others =>
          -- the last tree is no comment, so two trees stay two
          have more : spoken spacing (second :: others) ≠ [] := by
            intro silent
            have comments : ∀ tree ∈ second :: others, tree.isComment = true := by
              simpa [spoken_eq, Silence.spoken] using silent
            have ends : (trimComments trees).reverse =
                (second :: others).getLast (List.cons_ne_nil _ _) ::
                  (first :: (second :: others).dropLast).reverse := by
              rw [trimmed, ← List.reverse_concat, List.cons_append,
                List.dropLast_append_getLast (List.cons_ne_nil second others)]
            have last := Silence.said_of_trimmed_reverse ends
            rw [comments _ (List.getLast_mem _)] at last
            cases last
          cases said : spoken spacing (second :: others) with
          | nil => exact absurd said more
          | cons _ _ => rfl

/-! ### Arguments of attributes -/

def labelMarks : List String := [":", "="]

/-- The value of an argument, behind its label. -/
def argumentValue (trees : List Tree) : List Tree :=
  (dropLabel labelMarks (trees.dropWhile isComment)).dropWhile isComment

def hasLabel (marks : List String) (trees : List Tree) : Bool :=
  match trees.dropWhile isComment with
  | [] => false
  | label :: others =>
    match others.dropWhile isComment with
    | [] => false
    | mark :: _ => label.word?.isSome && marks.any (mark.isMark ·)

theorem dropLabel_of_not_hasLabel {marks : List String} {trees : List Tree}
    (bare : hasLabel marks trees = false) : dropLabel marks trees = trees.dropWhile isComment := by
  rw [hasLabel] at bare
  rw [dropLabel]
  cases written : trees.dropWhile isComment with
  | nil => rfl
  | cons label others =>
      rw [written] at bare
      cases behind : others.dropWhile isComment with
      | nil => simp only [behind]
      | cons mark rest =>
          simp only [behind] at bare ⊢
          exact if_neg (by rw [bare]; exact Bool.false_ne_true)

theorem dropLabel_of_hasLabel {marks : List String} {trees : List Tree}
    (labelled : hasLabel marks trees = true) :
    ∃ label others mark, trees.dropWhile isComment = label :: others ∧ label.word?.isSome = true ∧
      others.dropWhile isComment = mark :: dropLabel marks trees := by
  rw [hasLabel] at labelled
  cases written : trees.dropWhile isComment with
  | nil =>
      rw [written] at labelled
      cases labelled
  | cons label others =>
      rw [written] at labelled
      cases behind : others.dropWhile isComment with
      | nil =>
          simp only [behind] at labelled
          cases labelled
      | cons mark rest =>
          simp only [behind] at labelled
          refine ⟨label, others, mark, rfl, (Bool.and_eq_true _ _ ▸ labelled).1, ?_⟩
          rw [dropLabel, written]
          simp only [behind]
          rw [if_pos labelled]

theorem hasLabel_spoken (marks : List String) (trees : List Tree) :
    hasLabel marks (spoken spacing trees) = hasLabel marks trees := by
  rw [hasLabel, hasLabel, dropWhile_isComment_spoken, ← spoken_dropWhile_isComment]
  cases written : trees.dropWhile isComment with
  | nil => rw [spoken_nil]
  | cons label others =>
      rw [spoken_cons spacing (Silence.said_of_dropWhile written)]
      simp only [dropWhile_isComment_spoken, spaced_word?]
      rw [← spoken_dropWhile_isComment]
      cases behind : others.dropWhile isComment with
      | nil => rw [spoken_nil]
      | cons mark rest =>
          rw [spoken_cons spacing (Silence.said_of_dropWhile behind)]
          simp only [spaced_isMark]

theorem dropLabel_spoken (marks : List String) (trees : List Tree) :
    dropLabel marks (spoken spacing trees) = spoken spacing (dropLabel marks trees) := by
  have same := hasLabel_spoken spacing marks trees
  cases labelled : hasLabel marks trees with
  | false =>
      rw [dropLabel_of_not_hasLabel labelled, dropLabel_of_not_hasLabel (same.trans labelled),
        dropWhile_isComment_spoken, spoken_dropWhile_isComment]
  | true =>
      obtain ⟨label, others, mark, written, -, behind⟩ := dropLabel_of_hasLabel labelled
      obtain ⟨label', others', mark', written', -, behind'⟩ :=
        dropLabel_of_hasLabel (same.trans labelled)
      rw [dropWhile_isComment_spoken, ← spoken_dropWhile_isComment, written,
        spoken_cons spacing (Silence.said_of_dropWhile written), List.cons.injEq] at written'
      rw [← written'.2, dropWhile_isComment_spoken, ← spoken_dropWhile_isComment, behind,
        spoken_cons spacing (Silence.said_of_dropWhile behind), List.cons.injEq] at behind'
      exact behind'.2.symm

theorem argumentValue_spoken (trees : List Tree) :
    argumentValue (spoken spacing trees) = spoken spacing (argumentValue trees) := by
  rw [argumentValue, argumentValue, dropWhile_isComment_spoken, spoken_dropWhile_isComment,
    ← dropLabel_spoken, spoken_dropWhile_isComment, dropLabel_spoken, dropWhile_isComment_spoken]

/-- What stands for an argument that is no value by itself: something does if it has a label. -/
theorem isSome_find?_before (trees : List Tree) :
    ((((trees.dropWhile isComment).take ((trees.dropWhile isComment).length
        - (argumentValue trees).length)).reverse.find? fun tree =>
          tree.isComment || tree.word?.isSome).isSome) =
      hasLabel labelMarks (trees.dropWhile isComment) := by
  have twice : (trees.dropWhile isComment).dropWhile isComment = trees.dropWhile isComment :=
    List.dropWhile_idempotent isComment trees
  cases labelled : hasLabel labelMarks (trees.dropWhile isComment) with
  | false =>
      have whole : argumentValue trees = trees.dropWhile isComment := by
        rw [argumentValue, dropLabel_of_not_hasLabel labelled, twice, twice]
      rw [whole, Nat.sub_self, List.take_zero]
      rfl
  | true =>
      obtain ⟨label, others, mark, written, word, behind⟩ := dropLabel_of_hasLabel labelled
      rw [twice] at written
      have shorter : (argumentValue trees).length ≤ others.length := by
        have first := (List.dropWhile_suffix isComment (l := others)).length_le
        have second := (List.dropWhile_suffix isComment
          (l := dropLabel labelMarks (trees.dropWhile isComment))).length_le
        rw [behind, List.length_cons] at first
        rw [argumentValue]
        omega
      have some_left : (label :: others).length - (argumentValue trees).length =
          (others.length - (argumentValue trees).length) + 1 := by
        rw [List.length_cons]
        omega
      rw [written, some_left, List.take_succ_cons, List.find?_isSome]
      exact ⟨label, by simp, by simp [word]⟩

theorem attributeArgument?_spoken {trees : List Tree}
    (clear : isClearValue (argumentValue trees) = true) :
    (attributeArgument? (spoken spacing trees)).map Evaluated.withoutText =
      (attributeArgument? trees).map Evaluated.withoutText := by
  have unfolded (trees : List Tree) : attributeArgument? trees =
      if (argumentValue trees).isEmpty then none
      else if isInstanceAlone (argumentValue trees) then
        (((trees.dropWhile isComment).take ((trees.dropWhile isComment).length
          - (argumentValue trees).length)).reverse.find? fun tree =>
            tree.isComment || tree.word?.isSome).map fun tree => .unresolved (slice [tree])
      else some (evaluate (argumentValue trees)) := rfl
  have empty : (spoken spacing (argumentValue trees)).isEmpty = (argumentValue trees).isEmpty := by
    cases value : argumentValue trees with
    | nil => rw [spoken_nil]
    | cons tree others =>
        rw [spoken_cons spacing (Silence.said_of_dropWhile value)]
        rfl
  have textless {found : Option Tree} :
      (found.map fun tree => Evaluated.unresolved (slice [tree])).map Evaluated.withoutText =
        if found.isSome then some (.unresolved "") else none := by
    cases found <;> rfl
  rw [unfolded, unfolded, argumentValue_spoken, empty, isInstanceAlone_spoken]
  by_cases nothing : (argumentValue trees).isEmpty = true
  · rw [if_pos nothing, if_pos nothing]
  · rw [if_neg nothing, if_neg nothing]
    by_cases alone : isInstanceAlone (argumentValue trees) = true
    · rw [if_pos alone, if_pos alone, textless, textless, ← argumentValue_spoken,
        isSome_find?_before, isSome_find?_before, dropWhile_isComment_spoken, hasLabel_spoken]
      rw [hasLabel, hasLabel, List.dropWhile_idempotent isComment trees]
    · rw [if_neg alone, if_neg alone, Option.map_some, Option.map_some,
        evaluate_spoken spacing clear]

theorem attributeArguments_spoken {trees : List Tree}
    (clear : ∀ piece ∈ commaPieces trees, isClearValue (argumentValue piece) = true) :
    (attributeArguments (spoken spacing trees)).map Evaluated.withoutText =
      (attributeArguments trees).map Evaluated.withoutText := by
  rw [attributeArguments, attributeArguments, commaPieces_spoken, List.filterMap_map,
    List.map_filterMap, List.map_filterMap]
  exact List.filterMap_congr fun piece member =>
    attributeArgument?_spoken spacing (clear piece member)

/-! ### Attributes -/

/-- The name of an attribute and what stands between its parentheses. -/
def attributeParts? (trees : List Tree) : Option (List Tree × List Tree) :=
  match (trimComments trees).reverse with
  | [] => none
  | last :: before =>
    match last.inside? "(" with
    | some arguments =>
      if (trimComments before.reverse).isEmpty then none
      else some (trimComments before.reverse, arguments)
    | none => some (trimComments trees, [])

/-- A name that is kept as it stands is spelled by its tokens alone. -/
def keepsText (trees : List Tree) : Bool :=
  slice trees == slice (spoken spacing trees)

def isClearAttribute (trees : List Tree) : Bool :=
  (attributeParts? trees).all fun parts =>
    keepsText spacing parts.1 && (commaPieces parts.2).all fun piece =>
      isClearValue (argumentValue piece)

/-- Comments stand neither in the names of attributes, nor in what a list of them is for, nor where
they hide a value. -/
def isClearList (trees : List Tree) : Bool :=
  match cutAt? ":" (trees.dropWhile isComment) with
  | some (written, behind) =>
    keepsText spacing written && (commaPieces behind).all (isClearAttribute spacing)
  | none => (commaPieces (trees.dropWhile isComment)).all (isClearAttribute spacing)

theorem attribute?_eq (trees : List Tree) :
    attribute? trees = (attributeParts? trees).map fun parts =>
      ⟨dropGlobalQualifier (slice parts.1), attributeArguments parts.2⟩ := by
  rw [attribute?, attributeParts?]
  simp only
  cases (trimComments trees).reverse with
  | nil => rfl
  | cons last before =>
      simp only
      cases last.inside? "(" with
      | none => rfl
      | some arguments =>
          simp only
          split
          · rfl
          · rfl

theorem isEmpty_trimComments_spoken (trees : List Tree) :
    (trimComments (spoken spacing trees)).isEmpty = (trimComments trees).isEmpty := by
  rw [trimComments_spoken, Bool.eq_iff_iff, List.isEmpty_iff, List.isEmpty_iff,
    trimComments_eq_nil_iff spacing]

theorem attributeParts?_spoken (trees : List Tree) :
    attributeParts? (spoken spacing trees) =
      (attributeParts? trees).map fun parts =>
        (spoken spacing parts.1, spoken spacing parts.2) := by
  rw [attributeParts?, attributeParts?, trimComments_spoken, ← spoken_trimComments,
    ← spoken_reverse]
  cases ends : (trimComments trees).reverse with
  | nil => rw [spoken_nil]; rfl
  | cons last before =>
      rw [spoken_cons spacing (Silence.said_of_trimmed_reverse ends)]
      simp only [spaced_inside?]
      cases last.inside? "(" with
      | none => simp only [Option.map_none, Option.map_some, spoken_nil]
      | some arguments =>
          simp only [Option.map_some]
          rw [← spoken_reverse, isEmpty_trimComments_spoken, trimComments_spoken]
          split
          · rfl
          · rw [Option.map_some, spoken_trimComments]

theorem attribute?_spoken {trees : List Tree} (clear : isClearAttribute spacing trees = true) :
    (attribute? (spoken spacing trees)).map Source.Attribute.withoutTexts =
      (attribute? trees).map Source.Attribute.withoutTexts := by
  rw [attribute?_eq, attribute?_eq, attributeParts?_spoken]
  cases given : attributeParts? trees with
  | none => rfl
  | some parts =>
      rw [isClearAttribute, given, Option.all_some, Bool.and_eq_true, List.all_eq_true] at clear
      have name : slice (spoken spacing parts.1) = slice parts.1 := (eq_of_beq clear.1).symm
      have arguments := attributeArguments_spoken spacing clear.2
      simp only [Option.map_some, Source.Attribute.withoutTexts, name, arguments]

theorem filterMap_attribute?_spoken {trees : List Tree}
    (clear : (commaPieces trees).all (isClearAttribute spacing) = true) :
    ((commaPieces (spoken spacing trees)).filterMap attribute?).map Source.Attribute.withoutTexts =
      ((commaPieces trees).filterMap attribute?).map Source.Attribute.withoutTexts := by
  rw [List.all_eq_true] at clear
  rw [commaPieces_spoken, List.filterMap_map, List.map_filterMap, List.map_filterMap]
  exact List.filterMap_congr fun piece member => attribute?_spoken spacing (clear piece member)

theorem attributesFor_spoken (target : String) {trees : List Tree}
    (clear : isClearList spacing trees = true) :
    (attributesFor target (spoken spacing trees)).map Source.Attribute.withoutTexts =
      (attributesFor target trees).map Source.Attribute.withoutTexts := by
  rw [isClearList] at clear
  rw [attributesFor, attributesFor, dropWhile_isComment_spoken, ← spoken_dropWhile_isComment]
  simp only [cutAt?_spoken]
  cases cut : cutAt? ":" (trees.dropWhile isComment) with
  | none =>
      simp only [cut] at clear
      exact filterMap_attribute?_spoken spacing clear
  | some parts =>
      simp only [cut, Bool.and_eq_true] at clear
      have written : slice (spoken spacing parts.1) = slice parts.1 := (eq_of_beq clear.1).symm
      simp only [Option.map_some, written]
      split
      · exact filterMap_attribute?_spoken spacing clear.2
      · rfl

theorem flatMap_attributesFor_spoken (target : String) {lists : List (List Tree)}
    (clear : lists.all (isClearList spacing) = true) :
    ((lists.map (spoken spacing)).flatMap (attributesFor target)).map
        Source.Attribute.withoutTexts =
      (lists.flatMap (attributesFor target)).map Source.Attribute.withoutTexts := by
  rw [List.all_eq_true] at clear
  rw [List.flatMap_map, List.map_flatMap, List.map_flatMap]
  exact List.flatMap_congr fun list member =>
    attributesFor_spoken spacing target (clear list member)

theorem takeAttributeLists_spoken (trees : List Tree) :
    takeAttributeLists (spoken spacing trees) =
      ((takeAttributeLists trees).1.map (spoken spacing),
        spoken spacing (takeAttributeLists trees).2) := by
  induction trees with
  | nil => rw [spoken_nil]; rfl
  | cons tree others ih =>
      cases comment : tree.isComment with
      | true =>
          have list : tree.inside? "[" = none := by
            obtain ⟨t, rfl, -⟩ := exists_token_of_isComment comment
            rfl
          rw [spoken_cons_of_comment spacing comment, ih, takeAttributeLists, list]
          simp only [comment, if_true]
      | false =>
          rw [spoken_cons spacing comment, takeAttributeLists, takeAttributeLists, spaced_inside?]
          cases tree.inside? "[" with
          | none =>
              simp only [Option.map_none, spaced_isComment, comment, Bool.false_eq_true, if_false,
                List.map_nil]
              rw [spoken_cons spacing comment]
          | some list => simp only [Option.map_some, ih, List.map_cons]

end

end ActionAtlas.CSharp.Tree
