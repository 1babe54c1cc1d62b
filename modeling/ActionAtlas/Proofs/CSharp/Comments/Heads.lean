import ActionAtlas.Proofs.CSharp.Comments.Types
import ActionAtlas.Proofs.CSharp.Comments.Values

/-!
Heads of types, namespaces and using directives without their comments.

The name of a namespace and the target of a using directive are kept as they stand, with comments
inside of them; a comment behind a target takes its place. In the head of a type comments show in
its attributes only.
-/

namespace ActionAtlas.CSharp

def TypeHead.withoutTexts (head : TypeHead) : TypeHead :=
  { head with
    bases := Source.namesOfBases head.bases
    attributes := head.attributes.map Source.Attribute.withoutTexts }

namespace Tree

variable (spacing : List Char → List Char)

/-! ### Modifiers -/

theorem followsModifier_map (trees : List Tree) :
    followsModifier (trees.map (spaced spacing)) = followsModifier trees := by
  match trees with
  | [] => rfl
  | [next] => simp only [List.map_cons, List.map_nil, followsModifier, spaced_word?]
  | next :: following :: others =>
      simp only [List.map_cons, followsModifier, spaced_word?, spaced_isGroup]

theorem takeModifiers_spoken (trees : List Tree) :
    takeModifiers (spoken spacing trees) =
      ((takeModifiers trees).1, spoken spacing (takeModifiers trees).2) := by
  induction trees with
  | nil =>
      rw [spoken_nil]
      exact congrArg ([], ·) (spoken_nil spacing).symm
  | cons tree others ih =>
      cases comment : tree.isComment with
      | true => rw [spoken_cons_of_comment spacing comment, ih, takeModifiers, if_pos comment]
      | false =>
          have follows : followsModifier (withoutComments (spoken spacing others)) =
              followsModifier (withoutComments others) := by
            rw [withoutComments_spoken, followsModifier_map]
          rw [spoken_cons spacing comment, takeModifiers, takeModifiers, spaced_isComment,
            spaced_word?, follows, ih, comment]
          simp only [Bool.false_eq_true, if_false]
          cases tree.word? with
          | none => exact congrArg ([], ·) (spoken_cons spacing comment others).symm
          | some word =>
              simp only
              split
              · rfl
              · exact congrArg ([], ·) (spoken_cons spacing comment others).symm

theorem skipComments_skipComments (trees : List Tree) :
    skipComments (skipComments trees) = skipComments trees :=
  List.dropWhile_idempotent isComment trees

theorem skipComments_of_said {tree : Tree} (said : tree.isComment = false) (others : List Tree) :
    skipComments (tree :: others) = tree :: others := by
  rw [skipComments, List.dropWhile_cons, said]
  rfl

theorem skipComments_takeModifiers (trees : List Tree) :
    skipComments (takeModifiers trees).2 = (takeModifiers trees).2 := by
  induction trees with
  | nil => rfl
  | cons tree others ih =>
      rw [takeModifiers]
      cases comment : tree.isComment with
      | true => exact ih
      | false =>
          simp only [Bool.false_eq_true, if_false]
          cases tree.word? with
          | none => exact skipComments_of_said comment others
          | some word =>
              simp only
              split
              · exact ih
              · exact skipComments_of_said comment others

/-! ### Types -/

theorem head?_skipComments_spoken (trees : List Tree) :
    (skipComments (spoken spacing trees)).head? =
      (skipComments trees).head?.map (spaced spacing) := by
  rw [skipComments_spoken, ← spoken_skipComments]
  cases rest : skipComments trees with
  | nil =>
      rw [spoken_nil]
      rfl
  | cons tree others =>
      rw [spoken_cons spacing (Silence.said_of_dropWhile rest)]
      rfl

theorem skipComments_of_typeIntroduction? {trees named : List Tree} {modifiers : List String}
    {kind : TypeKind} (found : typeIntroduction? trees = some (modifiers, kind, named)) :
    skipComments named = named := by
  cases trees with
  | nil => cases found
  | cons first others =>
      simp only [typeIntroduction?] at found
      split_ifs at found
      · cases found
        exact skipComments_skipComments others
      · cases found
        exact skipComments_skipComments others
      · cases found
        exact skipComments_skipComments others
      · cases found
        exact skipComments_skipComments others
      · cases behind : skipComments others with
        | nil => simp [behind] at found
        | cons second more =>
            simp only [behind] at found
            split_ifs at found
            · cases found
              exact skipComments_skipComments more
            · cases found
              exact skipComments_of_said (Silence.said_of_dropWhile behind) _
      · split at found
        · split_ifs at found
          cases found
          exact skipComments_skipComments _
        · cases found

theorem typeIntroduction?_spoken {trees : List Tree} (start : skipComments trees = trees) :
    typeIntroduction? (spoken spacing trees) =
      (typeIntroduction? trees).map fun found =>
        (found.1, found.2.1, spoken spacing found.2.2) := by
  cases trees with
  | nil =>
      rw [spoken_nil]
      rfl
  | cons first others =>
      have said := Silence.said_of_dropWhile start
      rw [spoken_cons spacing said]
      simp only [typeIntroduction?, spaced_isWord, skipComments_spoken]
      rw [← spoken_skipComments]
      split
      · rfl
      split
      · rfl
      split
      · rfl
      split
      · rfl
      split
      · cases behind : skipComments others with
        | nil =>
            rw [spoken_nil]
            rfl
        | cons second more =>
            have said' := Silence.said_of_dropWhile behind
            have word (trees : List Tree) :
                (skipComments (spoken spacing trees)).head?.any (·.word?.isSome) =
                  (skipComments trees).head?.any (·.word?.isSome) := by
              rw [head?_skipComments_spoken, Option.any_map]
              simp only [spaced_word?]
            rw [spoken_cons spacing said']
            simp only [spaced_isWord, spaced_word?, word]
            split
            · rw [Option.map_some, skipComments_spoken, spoken_skipComments]
            split
            · rw [Option.map_some, spoken_cons spacing said', skipComments_spoken,
                spoken_skipComments]
            · rfl
      split
      · rw [takeModifiers_spoken]
        have next := skipComments_takeModifiers (skipComments others)
        cases rest : (takeModifiers (skipComments others)).2 with
        | nil =>
            rw [spoken_nil]
            rfl
        | cons struct more =>
            rw [rest] at next
            rw [spoken_cons spacing (Silence.said_of_dropWhile next)]
            simp only [spaced_isWord, skipComments_spoken]
            split
            · rw [Option.map_some, spoken_skipComments]
            · rfl
      · rfl

theorem beforeConstraints_spoken (previous? : Option Tree) (trees : List Tree) :
    beforeConstraints (previous?.map (spaced spacing)) (spoken spacing trees) =
      spoken spacing (beforeConstraints previous? trees) := by
  induction trees generalizing previous? with
  | nil => rw [spoken_nil, beforeConstraints, beforeConstraints, spoken_nil]
  | cons tree others ih =>
      cases comment : tree.isComment with
      | true =>
          rw [spoken_cons_of_comment spacing comment, ih, beforeConstraints, if_pos comment,
            spoken_cons_of_comment spacing comment]
      | false =>
          have opens : ((previous?.map (spaced spacing)).any fun previous =>
                !([",", ".", "::"].any (previous.isMark ·))) =
              previous?.any fun previous => !([",", ".", "::"].any (previous.isMark ·)) := by
            rw [Option.any_map]
            simp only [spaced_isMark]
          have passed := ih (some tree)
          rw [Option.map_some] at passed
          rw [spoken_cons spacing comment, beforeConstraints, beforeConstraints, spaced_isComment,
            comment, spaced_isWord, opens, passed]
          simp only [Bool.false_eq_true, if_false]
          split_ifs
          · rw [spoken_nil]
          · rw [spoken_cons spacing comment]

theorem baseList_spoken (trees : List Tree) :
    baseList (spoken spacing trees) = spoken spacing (baseList trees) := by
  have comments (tree : Tree) (comment : tree.isComment = true) :
      (tree.isComment || tree.isGroup "<" || tree.isGroup "(") = true := by
    rw [comment]
    rfl
  have same (tree : Tree) : ((tree.spaced spacing).isComment ||
        (tree.spaced spacing).isGroup "<" || (tree.spaced spacing).isGroup "(") =
      (tree.isComment || tree.isGroup "<" || tree.isGroup "(") := by
    simp only [spaced_isComment, spaced_isGroup]
  rw [baseList, spoken_eq, ← Silence.spoken_dropWhile_of comments same, ← spoken_eq, baseList]
  cases rest : trees.dropWhile fun tree =>
      tree.isComment || tree.isGroup "<" || tree.isGroup "(" with
  | nil => simp only [spoken_nil]
  | cons colon others =>
      have first := List.head?_dropWhile_not
        (fun tree : Tree => tree.isComment || tree.isGroup "<" || tree.isGroup "(") trees
      rw [rest] at first
      have said : colon.isComment = false := by
        simp only [List.head?_cons, Bool.or_eq_false_iff] at first
        exact first.1.1
      rw [spoken_cons spacing said]
      simp only [spaced_isMark]
      split_ifs
      · exact beforeConstraints_spoken spacing none others
      · rw [spoken_nil]

theorem typeHead?_spoken (modifiers : List String) {lists : List (List Tree)} {trees : List Tree}
    (start : skipComments trees = trees) (clear : lists.all (isClearList spacing) = true) :
    (typeHead? (lists.map (spoken spacing)) modifiers (spoken spacing trees)).map
        TypeHead.withoutTexts =
      (typeHead? lists modifiers trees).map TypeHead.withoutTexts := by
  have attributes := flatMap_attributesFor_spoken spacing "type" clear
  rw [typeHead?, typeIntroduction?_spoken spacing start, typeHead?]
  cases found : typeIntroduction? trees with
  | none => rfl
  | some introduction =>
      obtain ⟨more, kind, named⟩ := introduction
      have start' := skipComments_of_typeIntroduction? found
      simp only [Option.map_some, Option.bind_some]
      cases named with
      | nil => rw [spoken_nil]
      | cons first others =>
          have generic : (skipComments (spoken spacing others)).head?.any (isGroup "<") =
              (skipComments others).head?.any (isGroup "<") := by
            rw [head?_skipComments_spoken, Option.any_map]
            simp only [spaced_isGroup]
          have bases : Source.namesOfBases (Tree.bases (baseList (spoken spacing others))) =
              Source.namesOfBases (Tree.bases (baseList others)) := by
            rw [baseList_spoken, Source.namesOfBases, filterMap_dottedName?_bases,
              Source.namesOfBases]
          rw [spoken_cons spacing (Silence.said_of_dropWhile start')]
          simp only [spaced_word?, Option.map_map, Function.comp_def, TypeHead.withoutTexts,
            generic, bases, attributes]

/-! ### Namespaces -/

def isClearNamespace (trees : List Tree) : Bool :=
  match trees with
  | first :: others => !first.isWord "namespace" || keepsText spacing (trimComments others)
  | [] => true

theorem namespaceName?_spoken {trees : List Tree} (start : skipComments trees = trees)
    (clear : isClearNamespace spacing trees = true) :
    namespaceName? (spoken spacing trees) = namespaceName? trees := by
  cases trees with
  | nil => rw [spoken_nil]
  | cons first others =>
      rw [spoken_cons spacing (Silence.said_of_dropWhile start), namespaceName?,
        namespaceName?, spaced_isWord, trimComments_spoken]
      cases introduced : first.isWord "namespace" with
      | false => simp only [Bool.false_and, Bool.false_eq_true, if_false]
      | true =>
          rw [isClearNamespace, introduced, Bool.not_true, Bool.false_or] at clear
          have name := eq_of_beq clear
          rw [spoken_trimComments] at name
          simp only [name]

/-! ### Using directives -/

theorem takeUsingWords_suffix (trees : List Tree) : (takeUsingWords trees).2 <:+ trees := by
  induction trees with
  | nil => exact List.suffix_rfl
  | cons tree others ih =>
      have passed : (takeUsingWords others).2 <:+ tree :: others :=
        ih.trans (List.suffix_cons tree others)
      rw [takeUsingWords]
      split_ifs
      · exact passed
      · exact passed
      · simp only
        split_ifs
        · exact passed
        · exact List.suffix_rfl
      · exact List.suffix_rfl

theorem isWord_of_isComment {tree : Tree} (comment : tree.isComment = true) (spelling : String) :
    tree.isWord spelling = false := by
  obtain ⟨t, rfl, kind⟩ := exists_token_of_isComment comment
  simp [isWord, Token.isWord, kind]

theorem takeUsingWords_spoken (trees : List Tree) :
    takeUsingWords (spoken spacing trees) =
      ((takeUsingWords trees).1, spoken spacing (takeUsingWords trees).2) := by
  induction trees with
  | nil =>
      rw [spoken_nil]
      exact congrArg (false, ·) (spoken_nil spacing).symm
  | cons tree others ih =>
      cases comment : tree.isComment with
      | true =>
          rw [spoken_cons_of_comment spacing comment, ih, takeUsingWords,
            isWord_of_isComment comment, isWord_of_isComment comment, comment]
          simp only [Bool.false_eq_true, if_false, if_true]
          split_ifs with shorter
          · rfl
          · -- nothing was taken behind the comment
            have whole : (takeUsingWords others).2 = others :=
              (takeUsingWords_suffix others).eq_of_length_le (Nat.le_of_not_lt shorter)
            rw [whole, spoken_cons_of_comment spacing comment]
      | false =>
          rw [spoken_cons spacing comment, takeUsingWords, takeUsingWords, ih, spaced_isWord,
            spaced_isWord, spaced_isComment, comment]
          simp only [Bool.false_eq_true, if_false]
          split_ifs
          · rfl
          · rfl
          · rw [spoken_cons spacing comment]

/-- The target of a directive, with the comments around it. -/
def targetTrees (trees : List Tree) : List Tree :=
  let trees := (takeUsingWords trees).2
  match cutAt? "=" trees with
  | some (_, behind) => behind
  | none => trees

/-- No comment stands behind the target or inside of it. -/
def isClearTarget (trees : List Tree) : Bool :=
  !trees.getLast?.any isComment && keepsText spacing (skipComments trees)

theorem usingTarget?_eq_none_iff {trees : List Tree} : usingTarget? trees = none ↔ trees = [] := by
  rw [usingTarget?]
  constructor
  · intro nothing
    cases last : trees.getLast? with
    | none => exact List.getLast?_eq_none_iff.mp last
    | some tree =>
        rw [last] at nothing
        cases given : (skipComments trees).getLast? with
        | none =>
            simp only [given, Option.none_or] at nothing
            cases nothing
        | some tree =>
            simp only [given, Option.some_or] at nothing
            cases nothing
  · rintro rfl
    rfl

/-- A target is what stands there if that ends in something else than a comment. -/
theorem usingTarget?_of_last {trees : List Tree} {last : Tree} (ends : trees.getLast? = some last)
    (said : last.isComment = false) : usingTarget? trees = some (slice (skipComments trees)) := by
  have target : (skipComments trees).getLast? = some last := by
    obtain ⟨before, rfl⟩ := List.getLast?_eq_some_iff.mp ends
    have kept : skipComments (before ++ [last]) = skipComments before ++ [last] := by
      rw [skipComments, List.dropWhile_append]
      split_ifs with empty
      · rw [List.isEmpty_iff] at empty
        rw [skipComments, empty, List.dropWhile_cons, said]
        rfl
      · rfl
    rw [kept, List.getLast?_concat]
  rw [usingTarget?, target, Option.some_or]
  simp only [said, Bool.false_eq_true, if_false]

theorem usingTarget?_spoken {trees : List Tree}
    (clear : ((usingTarget? trees).isNone || isClearTarget spacing trees) = true) :
    usingTarget? (spoken spacing trees) = usingTarget? trees := by
  rcases Bool.or_eq_true _ _ ▸ clear with nothing | clear
  · rw [Option.isNone_iff_eq_none, usingTarget?_eq_none_iff] at nothing
    rw [nothing, spoken_nil]
  · rw [isClearTarget, Bool.and_eq_true] at clear
    cases ends : trees.getLast? with
    | none => rw [List.getLast?_eq_none_iff.mp ends, spoken_nil]
    | some last =>
        have said : last.isComment = false := by simpa [ends] using clear.1
        have ends' : (spoken spacing trees).getLast? = some (last.spaced spacing) := by
          obtain ⟨before, rfl⟩ := List.getLast?_eq_some_iff.mp ends
          rw [spoken_append, spoken_cons spacing said, spoken_nil, List.getLast?_concat]
        have said' : (last.spaced spacing).isComment = false := by rw [spaced_isComment, said]
        have text := eq_of_beq clear.2
        rw [spoken_skipComments] at text
        rw [usingTarget?_of_last ends said, usingTarget?_of_last ends' said', skipComments_spoken,
          text]

/-- What stands behind the keyword of a using directive, and whether it is for all files. -/
def behindUsing? (trees : List Tree) : Option (Bool × List Tree) :=
  match trees with
  | [] => none
  | first :: others =>
    if first.isWord "using" then some (false, others)
    else
      match skipComments others with
      | [] => none
      | second :: more =>
        if first.isWord "global" && second.isWord "using" then some (true, more) else none

theorem usingDirective?_eq (trees : List Tree) :
    usingDirective? trees = (behindUsing? trees).bind fun found => using? found.1 found.2 := by
  cases trees with
  | nil => rfl
  | cons first others =>
      rw [usingDirective?, behindUsing?]
      split_ifs
      · rfl
      · cases skipComments others with
        | nil => rfl
        | cons second more =>
            simp only
            split_ifs <;> rfl

def isClearUsing (trees : List Tree) : Bool :=
  (behindUsing? trees).all fun found =>
    (using? found.1 found.2).isNone || isClearTarget spacing (targetTrees found.2)

theorem using?_spoken (isGlobal : Bool) {trees : List Tree}
    (clear : ((using? isGlobal trees).isNone || isClearTarget spacing (targetTrees trees)) = true) :
    using? isGlobal (spoken spacing trees) = using? isGlobal trees := by
  rw [using?, targetTrees] at clear
  rw [using?, takeUsingWords_spoken, using?]
  simp only [cutAt?_spoken] at clear ⊢
  cases cut : cutAt? "=" (takeUsingWords trees).2 with
  | none =>
      have parenthesis : (withoutComments (spoken spacing (takeUsingWords trees).2)).head?.any
            (isGroup "(") =
          (withoutComments (takeUsingWords trees).2).head?.any (isGroup "(") := by
        rw [withoutComments_spoken, List.head?_map, Option.any_map]
        simp only [spaced_isGroup]
      simp only [cut, Option.map_none, parenthesis] at clear ⊢
      split_ifs at clear ⊢
      · rfl
      · rw [Option.isNone_map] at clear
        rw [usingTarget?_spoken spacing clear]
  | some parts =>
      simp only [cut, Option.map_some, withoutComments_spoken] at clear ⊢
      generalize withoutComments parts.1 = names at clear ⊢
      rcases names with _ | ⟨name, _ | ⟨second, others⟩⟩
      · rfl
      · simp only [List.map_cons, List.map_nil, spaced_word?] at clear ⊢
        cases word : name.word? with
        | none => rfl
        | some given =>
            rw [word, Option.bind_some, Option.isNone_map] at clear
            rw [Option.bind_some, Option.bind_some, usingTarget?_spoken spacing clear]
      · rfl

theorem behindUsing?_spoken {trees : List Tree} (start : skipComments trees = trees) :
    behindUsing? (spoken spacing trees) =
      (behindUsing? trees).map fun found => (found.1, spoken spacing found.2) := by
  cases trees with
  | nil =>
      rw [spoken_nil]
      rfl
  | cons first others =>
      rw [spoken_cons spacing (Silence.said_of_dropWhile start), behindUsing?, behindUsing?,
        spaced_isWord, skipComments_spoken, ← spoken_skipComments]
      split_ifs
      · rw [Option.map_some, spoken_skipComments]
      · cases behind : skipComments others with
        | nil =>
            rw [spoken_nil]
            rfl
        | cons second more =>
            rw [spoken_cons spacing (Silence.said_of_dropWhile behind)]
            simp only [spaced_isWord]
            split_ifs <;> rfl

theorem usingDirective?_spoken {trees : List Tree} (start : skipComments trees = trees)
    (clear : isClearUsing spacing trees = true) :
    usingDirective? (spoken spacing trees) = usingDirective? trees := by
  rw [isClearUsing] at clear
  rw [usingDirective?_eq, usingDirective?_eq, behindUsing?_spoken spacing start]
  cases found : behindUsing? trees with
  | none => rfl
  | some behind =>
      rw [found, Option.all_some] at clear
      exact using?_spoken spacing behind.1 clear

end Tree

end ActionAtlas.CSharp
