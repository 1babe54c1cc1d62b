import ActionAtlas.CSharp.TypeReader
import ActionAtlas.Proofs.CSharp.Comments.Cutting

/-!
Types without their comments.

Inside of a list of type arguments a comment at the end of an argument is an argument of its own,
and a comma in a comment counts as a mark between the dimensions of an array. Elsewhere the
comments in a type are passed over, unless the type is kept as it stands.
-/

namespace ActionAtlas

open Source (TypeSyntax)

namespace Source.TypeSyntax

mutual

/-- Nothing in the type is kept as it stands in the text. -/
def isSpelled : TypeSyntax → Bool
  | predefined _ => true
  | name segments => areSegmentsSpelled segments
  | array element _ => element.isSpelled
  | nullable underlying => underlying.isSpelled
  | verbatim _ => false

def areSegmentsSpelled : List (String × List TypeSyntax) → Bool
  | [] => true
  | (_, arguments) :: others => areSpelled arguments && areSegmentsSpelled others

def areSpelled : List TypeSyntax → Bool
  | [] => true
  | type :: others => type.isSpelled && areSpelled others

end

theorem isSpelled_of_mem {types : List TypeSyntax} (spelled : areSpelled types = true)
    {type : TypeSyntax} (member : type ∈ types) : type.isSpelled = true := by
  induction types with
  | nil => cases member
  | cons first others ih =>
      rw [areSpelled, Bool.and_eq_true] at spelled
      rcases List.mem_cons.mp member with rfl | later
      · exact spelled.1
      · exact ih spelled.2 later

end Source.TypeSyntax

namespace CSharp

/-- All commas between brackets are marks, none of them stands in a comment. -/
def Tree.isClearRank (spacing : List Char → List Char) (tree : Tree) : Bool :=
  !tree.isGroup "[" || tree.source.count ',' == (tree.spaced spacing).source.count ','

/-! ### Parts of types -/

namespace TypePart

variable (spacing : List Char → List Char) (arguments : TypePart → List TypeSyntax)

def spaced (part : TypePart) : TypePart :=
  ⟨part.tree.spaced spacing, arguments part⟩

def isComment (part : TypePart) : Bool :=
  part.tree.isComment

/-- The parts that are no comments, spaced anew, with these type arguments. -/
def spoken (parts : List TypePart) : List TypePart :=
  Silence.spoken isComment (spaced spacing arguments) parts

@[simp] theorem spoken_nil : spoken spacing arguments [] = [] := rfl

theorem spoken_cons_of_comment {part : TypePart} (comment : part.isComment = true)
    (others : List TypePart) :
    spoken spacing arguments (part :: others) = spoken spacing arguments others :=
  Silence.spoken_cons_of_silent comment others

theorem spoken_cons {part : TypePart} (said : part.isComment = false)
    (others : List TypePart) :
    spoken spacing arguments (part :: others) =
      part.spaced spacing arguments :: spoken spacing arguments others :=
  Silence.spoken_cons said others

@[simp] theorem spoken_reverse (parts : List TypePart) :
    spoken spacing arguments parts.reverse = (spoken spacing arguments parts).reverse :=
  Silence.spoken_reverse

@[simp] theorem spaced_isComment (part : TypePart) :
    (part.spaced spacing arguments).tree.isComment = part.tree.isComment :=
  Tree.spaced_isComment spacing part.tree

theorem commaPieces_spoken (parts : List TypePart) :
    commaPieces (spoken spacing arguments parts) =
      (commaPieces parts).map (spoken spacing arguments) :=
  Silence.runs_spoken (fun _ comment => Tree.isMark_of_isComment comment ",")
    (fun part => Tree.spaced_isMark spacing part.tree ",") parts

/-! ### Passing words -/

/-- Whether a part is a passing word with a type behind it. -/
def passes (part : TypePart) (others : List TypePart) : Bool :=
  passingWords.any (fun word => part.tree.isWord word) &&
    (others.find? (!·.tree.isComment)).any fun following =>
      following.tree.word?.isSome || following.tree.isGroup "("

theorem dropPassing_cons {part : TypePart} (said : part.tree.isComment = false)
    (others : List TypePart) :
    dropPassing (part :: others) =
      if passes part others then dropPassing others else part :: others := by
  have said' : ¬part.tree.isComment = true := by simp [said]
  cases others with
  | nil =>
      rw [dropPassing, passes, List.find?_nil, Option.any_none, Bool.and_false]
      rfl
  | cons next others =>
      rw [dropPassing, if_neg said']
      rfl

theorem spoken_dropPassing_of_comment {part : TypePart} (comment : part.tree.isComment = true)
    (others : List TypePart) :
    spoken spacing arguments (dropPassing (part :: others)) =
      spoken spacing arguments (dropPassing others) := by
  cases others with
  | nil => rw [dropPassing, dropPassing, spoken_cons_of_comment spacing arguments comment]
  | cons next others => rw [dropPassing, if_pos comment]

theorem find?_spoken (parts : List TypePart) :
    (spoken spacing arguments parts).find? (!·.tree.isComment) =
      (parts.find? (!·.tree.isComment)).map (spaced spacing arguments) :=
  Silence.find?_spoken (fun _ comment => congrArg not comment)
    (fun part => congrArg not (spaced_isComment spacing arguments part)) parts

theorem passes_spoken (part : TypePart) (others : List TypePart) :
    passes (part.spaced spacing arguments) (spoken spacing arguments others) =
      passes part others := by
  rw [passes, find?_spoken, Option.any_map, passes]
  simp only [spaced, Tree.spaced_isWord, Tree.spaced_word?, Tree.spaced_isGroup]

theorem dropPassing_spoken (parts : List TypePart) :
    dropPassing (spoken spacing arguments parts) =
      spoken spacing arguments (dropPassing parts) := by
  induction parts with
  | nil => rfl
  | cons part others ih =>
      cases comment : part.tree.isComment with
      | true =>
          rw [spoken_cons_of_comment spacing arguments comment, ih,
            spoken_dropPassing_of_comment spacing arguments comment]
      | false =>
          have said : (part.spaced spacing arguments).tree.isComment = false := by
            rw [spaced_isComment, comment]
          rw [spoken_cons spacing arguments comment, dropPassing_cons said,
            dropPassing_cons comment, passes_spoken, ih]
          split
          · rfl
          · exact (spoken_cons spacing arguments comment others).symm

/-! ### Names -/

@[simp] theorem spaced_word? (part : TypePart) :
    (part.spaced spacing arguments).tree.word? = part.tree.word? :=
  Tree.spaced_word? spacing part.tree

@[simp] theorem spaced_isGroup (part : TypePart) (spelling : String) :
    (part.spaced spacing arguments).tree.isGroup spelling = part.tree.isGroup spelling :=
  Tree.spaced_isGroup spacing part.tree spelling

@[simp] theorem spaced_isWord (part : TypePart) (spelling : String) :
    (part.spaced spacing arguments).tree.isWord spelling = part.tree.isWord spelling :=
  Tree.spaced_isWord spacing part.tree spelling

@[simp] theorem spaced_isMark (part : TypePart) (spelling : String) :
    (part.spaced spacing arguments).tree.isMark spelling = part.tree.isMark spelling :=
  Tree.spaced_isMark spacing part.tree spelling

/-- The names of segments, and with the same type arguments the segments as a whole. -/
theorem segments_spaced (parts : List TypePart) :
    (segments (parts.map (spaced spacing arguments))).map (·.1) = (segments parts).map (·.1) ∧
      ((∀ part ∈ parts, arguments part = part.arguments) →
        segments (parts.map (spaced spacing arguments)) = segments parts) := by
  induction parts using segments.induct with
  | case1 => exact ⟨rfl, fun _ => rfl⟩
  | case2 part =>
      rw [List.map_singleton, segments, segments, spaced_word?]
      exact ⟨rfl, fun _ => rfl⟩
  | case3 part next others none ih =>
      rw [List.map_cons, List.map_cons, segments, segments, spaced_word?, none]
      refine ⟨ih.1, fun same => ?_⟩
      rw [List.forall_mem_cons] at same
      exact ih.2 same.2
  | case4 part next others first word angle ih =>
      simp only [List.map_cons, segments, spaced_word?, word, spaced_isGroup, angle, if_true]
      refine ⟨congrArg (first :: ·) ih.1, fun same => ?_⟩
      rw [List.forall_mem_cons, List.forall_mem_cons] at same
      rw [ih.2 same.2.2, spaced, same.2.1]
  | case5 part next others first word other ih =>
      simp only [List.map_cons, segments, spaced_word?, word, spaced_isGroup, other,
        Bool.false_eq_true, if_false]
      refine ⟨congrArg (first :: ·) ih.1, fun same => ?_⟩
      rw [List.forall_mem_cons] at same
      exact congrArg ((first, []) :: ·) (ih.2 same.2)

theorem dropGlobal_spaced (parts : List TypePart) :
    dropGlobal (parts.map (spaced spacing arguments)) =
      (dropGlobal parts).map (spaced spacing arguments) := by
  match parts with
  | [] => rfl
  | [_] => rfl
  | first :: second :: others =>
      rw [List.map_cons, List.map_cons, dropGlobal, dropGlobal, spaced_isWord, spaced_isMark]
      split
      · rfl
      · rfl

theorem mem_of_mem_dropGlobal {part : TypePart} {parts : List TypePart}
    (member : part ∈ dropGlobal parts) : part ∈ parts := by
  unfold dropGlobal at member
  split at member
  · split at member
    · exact List.mem_cons_of_mem _ (List.mem_cons_of_mem _ member)
    · exact member
  · exact member

/-- The type that parts without comments make, or else the given text. -/
def coreOf (text : String) (parts : List TypePart) : TypeSyntax :=
  match parts with
  | [] => .verbatim text
  | first :: others =>
    match first.tree.word? with
    | none => .verbatim text
    | some word =>
      if others.isEmpty ∧ predefinedTypes.contains word then .predefined word
      else if others.isEmpty ∧ word = "var" ∨ word = "delegate" ∨ !parts.all fitsName then
        .verbatim text
      else .name (segments (dropGlobal parts))

theorem core_eq (parts : List TypePart) :
    core parts = coreOf (slice parts) (parts.filter (!·.tree.isComment)) := rfl

theorem coreOf_map (text text' : String) (parts : List TypePart) :
    (coreOf text (parts.map (spaced spacing arguments))).dottedName? =
        (coreOf text' parts).dottedName? ∧
      ((coreOf text' parts).isSpelled = true →
        (∀ part ∈ parts, arguments part = part.arguments) →
        coreOf text (parts.map (spaced spacing arguments)) = coreOf text' parts) := by
  have fits (part : TypePart) : (part.spaced spacing arguments).fitsName = part.fitsName := by
    simp only [fitsName, spaced_word?, spaced_isMark, spaced_isGroup]
  have all_fit : (parts.map (spaced spacing arguments)).all fitsName = parts.all fitsName := by
    rw [List.all_map]
    exact congrArg (List.all parts) (funext fits)
  cases parts with
  | nil => exact ⟨rfl, nofun⟩
  | cons first others =>
      rw [List.map_cons, coreOf, coreOf, spaced_word?, ← List.map_cons, all_fit, dropGlobal_spaced,
        List.isEmpty_map]
      cases first.tree.word? with
      | none => exact ⟨rfl, nofun⟩
      | some name =>
          simp only
          split
          · exact ⟨rfl, fun _ _ => rfl⟩
          · split
            · exact ⟨rfl, nofun⟩
            · obtain ⟨names, whole⟩ := segments_spaced spacing arguments
                (dropGlobal (first :: others))
              refine ⟨congrArg (fun names => some (Text.dotted names)) names, fun _ same => ?_⟩
              rw [whole fun part member => same part (mem_of_mem_dropGlobal member)]

/-- The innermost part of a type, which has no dimensions and no question mark behind it. -/
theorem core_spoken (parts : List TypePart) :
    (core (spoken spacing arguments parts)).dottedName? = (core parts).dottedName? ∧
      ((core parts).isSpelled = true → (∀ part ∈ parts, arguments part = part.arguments) →
        core (spoken spacing arguments parts) = core parts) := by
  have said : (spoken spacing arguments parts).filter (!·.tree.isComment) =
      (parts.filter (!·.tree.isComment)).map (spaced spacing arguments) :=
    Silence.filter_spoken (spaced_isComment spacing arguments) parts
  rw [core_eq, core_eq, said]
  obtain ⟨names, whole⟩ := coreOf_map spacing arguments
    (slice (spoken spacing arguments parts)) (slice parts) (parts.filter (!·.tree.isComment))
  exact ⟨names, fun spelled same => whole spelled fun part member =>
    same part (List.mem_filter.mp member).1⟩

/-! ### Types -/

theorem dottedName?_ofReversed_spoken (parts : List TypePart) :
    (ofReversed (spoken spacing arguments parts)).dottedName? =
      (ofReversed parts).dottedName? := by
  induction parts using ofReversed.induct with
  | case1 => rfl
  | case2 last before comment ih =>
      rw [spoken_cons_of_comment spacing arguments comment, ih, ofReversed, if_pos comment]
  | case3 last before said brackets ih =>
      rw [spoken_cons spacing arguments (Bool.eq_false_of_not_eq_true said), ofReversed, ofReversed]
      simp only [spaced_isComment, said, spaced_isGroup, brackets]
      rfl
  | case4 last before said other mark ih =>
      rw [spoken_cons spacing arguments (Bool.eq_false_of_not_eq_true said), ofReversed, ofReversed]
      simp only [spaced_isComment, said, spaced_isGroup, other, spaced_isMark, mark]
      rfl
  | case5 last before said other mark =>
      have said' : last.isComment = false := Bool.eq_false_of_not_eq_true said
      rw [ofReversed, if_neg said, if_neg other, if_neg mark,
        ← (core_spoken spacing arguments _).1, spoken_reverse,
        spoken_cons spacing arguments said', ofReversed]
      simp only [spaced_isComment, said, spaced_isGroup, other, spaced_isMark, mark]
      rfl

theorem ofReversed_spoken {parts : List TypePart}
    (spelled : (ofReversed parts).isSpelled = true)
    (clear : ∀ part ∈ parts, part.tree.isClearRank spacing = true ∧
      arguments part = part.arguments) :
    ofReversed (spoken spacing arguments parts) = ofReversed parts := by
  induction parts using ofReversed.induct with
  | case1 => rfl
  | case2 last before comment ih =>
      rw [List.forall_mem_cons] at clear
      rw [ofReversed, if_pos comment] at spelled ⊢
      rw [spoken_cons_of_comment spacing arguments comment, ih spelled clear.2]
  | case3 last before said brackets ih =>
      rw [List.forall_mem_cons] at clear
      have ranks : (last.spaced spacing arguments).rank = last.rank := by
        have commas := clear.1.1
        rw [Tree.isClearRank, brackets, Bool.not_true, Bool.false_or] at commas
        rw [rank, spaced, ← eq_of_beq commas, rank]
      rw [ofReversed, if_neg said, if_pos brackets, TypeSyntax.isSpelled] at spelled
      rw [spoken_cons spacing arguments (Bool.eq_false_of_not_eq_true said), ofReversed, ofReversed,
        ranks, ih spelled clear.2]
      simp only [spaced_isComment, said, spaced_isGroup, brackets, Bool.false_eq_true, if_false,
        if_true]
  | case4 last before said other mark ih =>
      rw [List.forall_mem_cons] at clear
      rw [ofReversed, if_neg said, if_neg other, if_pos mark, TypeSyntax.isSpelled] at spelled
      rw [spoken_cons spacing arguments (Bool.eq_false_of_not_eq_true said), ofReversed, ofReversed,
        ih spelled clear.2]
      simp only [spaced_isComment, said, spaced_isGroup, other, spaced_isMark, mark,
        Bool.false_eq_true, if_false, if_true]
  | case5 last before said other mark =>
      have said' : last.isComment = false := Bool.eq_false_of_not_eq_true said
      rw [ofReversed, if_neg said, if_neg other, if_neg mark] at spelled
      have whole := (core_spoken spacing arguments (last :: before).reverse).2 spelled
        fun part member => (clear part (List.mem_reverse.mp member)).2
      rw [spoken_reverse, spoken_cons spacing arguments said'] at whole
      rw [spoken_cons spacing arguments said', ofReversed, ofReversed, whole]
      simp only [spaced_isComment, said, spaced_isGroup, other, spaced_isMark, mark,
        Bool.false_eq_true, if_false]

theorem mem_of_mem_dropPassing {part : TypePart} {parts : List TypePart}
    (member : part ∈ dropPassing parts) : part ∈ parts := by
  induction parts using dropPassing.induct with
  | case1 => exact member
  | case2 first => exact member
  | case3 first next others comment ih =>
      rw [dropPassing, if_pos comment] at member
      exact List.mem_cons_of_mem first (ih member)
  | case4 first next others said passing ih =>
      rw [dropPassing, if_neg said, if_pos passing] at member
      exact List.mem_cons_of_mem first (ih member)
  | case5 first next others said other =>
      rwa [dropPassing, if_neg said, if_neg other] at member

theorem dottedName?_type_spoken (parts : List TypePart) :
    (type (spoken spacing arguments parts)).dottedName? = (type parts).dottedName? := by
  rw [type, dropPassing_spoken, ← spoken_reverse, dottedName?_ofReversed_spoken, type]

theorem type_spoken {parts : List TypePart} (spelled : (type parts).isSpelled = true)
    (clear : ∀ part ∈ parts, part.tree.isClearRank spacing = true ∧
      arguments part = part.arguments) :
    type (spoken spacing arguments parts) = type parts := by
  rw [type] at spelled
  rw [type, dropPassing_spoken, ← spoken_reverse, type, ofReversed_spoken spacing arguments spelled]
  intro part member
  exact clear part (mem_of_mem_dropPassing (List.mem_reverse.mp member))

/-! ### Lists of types -/

theorem surrounded_eq (parts : List TypePart) :
    surrounded parts =
      (comments (parts.takeWhile isComment),
        if (Silence.trimmed isComment parts).isEmpty then none
        else some (Silence.trimmed isComment parts),
        comments ((parts.dropWhile isComment).reverse.takeWhile isComment).reverse) := rfl

theorem spoken_trimmed (parts : List TypePart) :
    spoken spacing arguments (Silence.trimmed isComment parts) = spoken spacing arguments parts :=
  Silence.spoken_trimmed

theorem isEmpty_spoken (parts : List TypePart) :
    (spoken spacing arguments parts).isEmpty = (Silence.trimmed isComment parts).isEmpty := by
  rw [Bool.eq_iff_iff, List.isEmpty_iff, List.isEmpty_iff]
  exact Silence.trimmed_eq_nil_iff.symm

theorem surrounded_spoken (parts : List TypePart) :
    surrounded (spoken spacing arguments parts) =
      ([], (surrounded parts).2.1.map (spoken spacing arguments), []) := by
  have same := spaced_isComment spacing arguments
  have trimmed : Silence.trimmed isComment (spoken spacing arguments parts) =
      spoken spacing arguments parts := Silence.trimmed_spoken same parts
  have before : (spoken spacing arguments parts).takeWhile isComment = [] :=
    Silence.takeWhile_spoken same parts
  have whole : (spoken spacing arguments parts).dropWhile isComment =
      spoken spacing arguments parts := Silence.dropWhile_spoken same parts
  have after : (spoken spacing arguments parts.reverse).takeWhile isComment = [] :=
    Silence.takeWhile_spoken same parts.reverse
  rw [surrounded_eq, surrounded_eq, trimmed, isEmpty_spoken, before, whole, ← spoken_reverse, after]
  simp only [Prod.mk.injEq]
  refine ⟨rfl, ?_, rfl⟩
  split
  · rfl
  · rw [Option.map_some, spoken_trimmed]

/-- A comment is never spelled out, so where all types are there is none. -/
theorem comments_eq_nil {parts : List TypePart}
    (spelled : ∀ type ∈ comments parts, type.isSpelled = true) : comments parts = [] := by
  rw [List.eq_nil_iff_forall_not_mem]
  intro type member
  obtain ⟨part, -, rfl⟩ := List.mem_map.mp member
  cases spelled _ member

theorem argumentTypes_spoken {parts : List TypePart}
    (spelled : TypeSyntax.areSpelled (argumentTypes parts) = true)
    (clear : ∀ part ∈ parts, part.tree.isClearRank spacing = true ∧
      arguments part = part.arguments) :
    argumentTypes (spoken spacing arguments parts) = argumentTypes parts := by
  have each (type : TypeSyntax) (member : type ∈ argumentTypes parts) : type.isSpelled = true :=
    TypeSyntax.isSpelled_of_mem spelled member
  rw [argumentTypes] at each
  rw [argumentTypes, commaPieces_spoken, List.flatMap_map, argumentTypes]
  refine List.flatMap_congr fun piece member => ?_
  have all (type : TypeSyntax) (inside : type ∈ (surrounded piece).1 ++
      ((surrounded piece).2.1.map TypePart.type).toList ++ (surrounded piece).2.2) :
      type.isSpelled = true := each type (List.mem_flatMap.mpr ⟨piece, member, inside⟩)
  have before : (surrounded piece).1 = [] := by
    rw [surrounded_eq] at all ⊢
    exact comments_eq_nil fun type inside => all type (by simp [inside])
  have after : (surrounded piece).2.2 = [] := by
    rw [surrounded_eq] at all ⊢
    exact comments_eq_nil fun type inside => all type (by simp [inside])
  simp only [surrounded_spoken, before, after, List.nil_append, List.append_nil, Option.map_map]
  cases middle : (surrounded piece).2.1 with
  | none => rfl
  | some parts' =>
      have trim : Silence.trimmed isComment piece = parts' := by
        rw [surrounded_eq] at middle
        simp only at middle
        split at middle
        · cases middle
        · exact Option.some.inj middle
      have spelledOut : (type parts').isSpelled = true := all _ (by simp [middle])
      rw [Option.map_some, Option.map_some, Function.comp_apply,
        type_spoken spacing arguments spelledOut]
      intro part inside
      rw [← trim] at inside
      exact clear part (Silence.mem_of_mem_runs member (Silence.mem_of_mem_trimmed inside))

end TypePart

/-! ### Types of trees -/

namespace Tree

mutual

/-- In lists of type arguments, at any depth, no comment is read as an argument, and no comma in a
comment as a mark. -/
def isClearTypePart (spacing : List Char → List Char) : Tree → Bool
  | token _ => true
  | group opening children closing =>
    isClearRank spacing (group opening children closing) &&
      (!opening.isMark "<" ||
        TypeSyntax.areSpelled (TypePart.argumentTypes (typeParts children)) &&
          areClearTypeParts spacing children)

def areClearTypeParts (spacing : List Char → List Char) : List Tree → Bool
  | [] => true
  | tree :: others => tree.isClearTypePart spacing && areClearTypeParts spacing others

end

section

variable (spacing : List Char → List Char)

/-- The type arguments of a part that is spaced anew. -/
def argumentsSpaced (part : TypePart) : List TypeSyntax :=
  (part.tree.spaced spacing).typeArguments

theorem typeParts_spoken (trees : List Tree) :
    typeParts (spoken spacing trees) =
      TypePart.spoken spacing (argumentsSpaced spacing) (typeParts trees) := by
  induction trees with
  | nil =>
      rw [spoken_nil, typeParts]
      rfl
  | cons tree others ih =>
      rw [typeParts]
      cases comment : tree.isComment with
      | true =>
          have comment' : (TypePart.mk tree tree.typeArguments).tree.isComment = true := comment
          rw [spoken_cons_of_comment spacing comment, ih,
            TypePart.spoken_cons_of_comment _ _ comment']
      | false =>
          have said : (TypePart.mk tree tree.typeArguments).tree.isComment = false := comment
          rw [spoken_cons spacing comment, typeParts, ih, TypePart.spoken_cons _ _ said]
          rfl

theorem isClearRank_of_isClearTypePart {tree : Tree}
    (clear : tree.isClearTypePart spacing = true) : tree.isClearRank spacing = true := by
  cases tree with
  | token t => rfl
  | group opening children closing =>
      rw [isClearTypePart, Bool.and_eq_true] at clear
      exact clear.1

mutual

theorem typeArguments_spaced (tree : Tree) (clear : tree.isClearTypePart spacing = true) :
    (tree.spaced spacing).typeArguments = tree.typeArguments := by
  match tree with
  | token t => rw [spaced, typeArguments, typeArguments]
  | group opening children closing =>
      rw [isClearTypePart, Bool.and_eq_true] at clear
      rw [spaced, typeArguments, typeArguments, Token.spaced_isMark]
      cases angle : opening.isMark "<" with
      | false => rfl
      | true =>
          have inside := clear.2
          rw [angle, Bool.not_true, Bool.false_or, Bool.and_eq_true] at inside
          rw [if_pos rfl, if_pos rfl, typeParts_spoken, TypePart.argumentTypes_spoken _ _ inside.1]
          exact arguments_typeParts children inside.2

theorem arguments_typeParts (trees : List Tree) (clear : areClearTypeParts spacing trees = true) :
    ∀ part ∈ typeParts trees, part.tree.isClearRank spacing = true ∧
      argumentsSpaced spacing part = part.arguments := by
  match trees with
  | [] => simp [typeParts]
  | tree :: others =>
      rw [areClearTypeParts, Bool.and_eq_true] at clear
      rw [typeParts, List.forall_mem_cons]
      exact ⟨⟨isClearRank_of_isClearTypePart spacing clear.1, typeArguments_spaced tree clear.1⟩,
        arguments_typeParts others clear.2⟩

end

theorem type_spoken {trees : List Tree} (spelled : (type trees).isSpelled = true)
    (clear : areClearTypeParts spacing trees = true) :
    type (spoken spacing trees) = type trees := by
  rw [type, typeParts_spoken, TypePart.type_spoken spacing _ spelled
    (arguments_typeParts spacing trees clear), type]

/-! ### Bases -/

theorem withoutCall_concat (first last : TypePart) (middle : List TypePart) :
    bases.withoutCall (first :: (middle ++ [last])) =
      if last.tree.isGroup "(" then first :: middle else first :: (middle ++ [last]) := by
  rw [bases.withoutCall, List.reverse_cons, List.reverse_concat, List.cons_append]
  cases back : middle.reverse ++ [first] with
  | nil => simp at back
  | cons before others =>
      have front : (before :: others).reverse = first :: middle := by
        rw [← back, List.reverse_append, List.reverse_reverse]
        rfl
      simp only [front]

theorem withoutCall_spoken (arguments : TypePart → List TypeSyntax) {parts rest : List TypePart}
    (trim : Silence.trimmed TypePart.isComment parts = rest) :
    bases.withoutCall (TypePart.spoken spacing arguments rest) =
      TypePart.spoken spacing arguments (bases.withoutCall rest) := by
  cases rest with
  | nil => rfl
  | cons first others =>
      have said := Silence.said_of_trimmed trim
      rcases List.eq_nil_or_concat others with rfl | ⟨middle, last, rfl⟩
      · rw [TypePart.spoken_cons spacing arguments said]
        exact (TypePart.spoken_cons spacing arguments said []).symm
      · have ends : (Silence.trimmed TypePart.isComment parts).reverse =
            last :: (middle.reverse ++ [first]) := by
          simp [trim]
        have lastSaid := Silence.said_of_trimmed_reverse ends
        have whole : TypePart.spoken spacing arguments (first :: (middle ++ [last])) =
            first.spaced spacing arguments ::
              (TypePart.spoken spacing arguments middle ++ [last.spaced spacing arguments]) := by
          rw [TypePart.spoken_cons spacing arguments said]
          simp [TypePart.spoken, Silence.spoken, lastSaid]
        rw [List.concat_eq_append, whole, withoutCall_concat, withoutCall_concat,
          TypePart.spaced_isGroup]
        split
        · exact (TypePart.spoken_cons spacing arguments said middle).symm
        · exact whole.symm

/-- The name of a base, from the trees between two commas. -/
def baseName? (piece : List TypePart) : Option String :=
  (TypePart.surrounded piece).2.1.bind fun parts =>
    (TypePart.type (bases.withoutCall parts)).dottedName?

theorem filterMap_dottedName?_comments (parts : List TypePart) :
    (TypePart.comments parts).filterMap TypeSyntax.dottedName? = [] := by
  rw [TypePart.comments, List.filterMap_map, List.filterMap_eq_nil_iff]
  exact fun _ _ => rfl

theorem filterMap_dottedName?_go (pieces : List (List TypePart)) :
    (bases.go pieces).filterMap TypeSyntax.dottedName? = pieces.filterMap baseName? := by
  induction pieces with
  | nil => rfl
  | cons piece others ih =>
      have before : (TypePart.surrounded piece).1.filterMap TypeSyntax.dottedName? = [] :=
        filterMap_dottedName?_comments _
      have after : (TypePart.surrounded piece).2.2.filterMap TypeSyntax.dottedName? = [] :=
        filterMap_dottedName?_comments _
      rw [bases.go, List.filterMap_append, List.filterMap_append, List.filterMap_append, before, ih,
        List.filterMap_cons, baseName?]
      have behind : (if others.isEmpty then [] else (TypePart.surrounded piece).2.2).filterMap
          TypeSyntax.dottedName? = [] := by
        split
        · rfl
        · exact after
      rw [behind]
      cases (TypePart.surrounded piece).2.1 with
      | none => rfl
      | some parts =>
          simp only [Option.map_some, Option.toList_some, List.filterMap_cons, List.filterMap_nil,
            Option.bind_some]
          cases (TypePart.type (bases.withoutCall parts)).dottedName? <;> rfl

theorem baseName?_spoken (arguments : TypePart → List TypeSyntax) (piece : List TypePart) :
    baseName? (TypePart.spoken spacing arguments piece) = baseName? piece := by
  rw [baseName?, TypePart.surrounded_spoken, baseName?, TypePart.surrounded_eq]
  simp only
  split
  · rfl
  · rw [Option.map_some, Option.bind_some, Option.bind_some, withoutCall_spoken spacing _ rfl,
      TypePart.dottedName?_type_spoken]

/-- Comments in a base list change no name of a base. -/
theorem filterMap_dottedName?_bases (trees : List Tree) :
    (bases (spoken spacing trees)).filterMap TypeSyntax.dottedName? =
      (bases trees).filterMap TypeSyntax.dottedName? := by
  rw [bases, filterMap_dottedName?_go, bases, filterMap_dottedName?_go, typeParts_spoken,
    TypePart.commaPieces_spoken, List.filterMap_map]
  exact List.filterMap_congr fun piece _ => baseName?_spoken spacing _ piece

end

end Tree

end CSharp

end ActionAtlas
