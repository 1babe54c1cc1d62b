import ActionAtlas.CSharp.Collection
import ActionAtlas.Proofs.CSharp.Comments.Heads
import ActionAtlas.Proofs.CSharp.Comments.Methods

/-!
Members, and what is collected from them, without their comments.

The reader cuts trees into members and reads the head of each. If no comment stands in one of the
places where a reader of heads takes it for something else, then the members are those of the trees
without their comments, up to texts that are kept for want of a value.
-/

namespace ActionAtlas.CSharp

/-! ### Without the texts -/

namespace Member

mutual

def withoutTexts : Member → Member
  | .using directive => .using directive
  | .fileNamespace name => .fileNamespace name
  | .namespaceBlock name body => .namespaceBlock name (withoutTextsIn body)
  | .type head body => .type head.withoutTexts (withoutTextsIn body)
  | .method declared isExplicit => .method declared.withoutTexts isExplicit
  | .other => .other

def withoutTextsIn : List Member → List Member
  | [] => []
  | member :: others => member.withoutTexts :: withoutTextsIn others

end

theorem withoutTextsIn_eq_map (members : List Member) :
    withoutTextsIn members = members.map withoutTexts := by
  induction members with
  | nil => rw [withoutTextsIn, List.map_nil]
  | cons member others ih => rw [withoutTextsIn, ih, List.map_cons]

theorem filterMap_using?_withoutTexts (members : List Member) :
    (withoutTextsIn members).filterMap using? = members.filterMap using? := by
  rw [withoutTextsIn_eq_map, List.filterMap_map]
  refine List.filterMap_congr fun member _ => ?_
  cases member <;> simp only [Function.comp_apply, withoutTexts, using?]

theorem filterMap_fileNamespace?_withoutTexts (members : List Member) :
    (withoutTextsIn members).filterMap fileNamespace? = members.filterMap fileNamespace? := by
  rw [withoutTextsIn_eq_map, List.filterMap_map]
  refine List.filterMap_congr fun member _ => ?_
  cases member <;> simp only [Function.comp_apply, withoutTexts, fileNamespace?]

theorem filterMap_method?_withoutTexts (members : List Member) :
    (withoutTextsIn members).filterMap method? =
      (members.filterMap method?).map Source.Method.withoutTexts := by
  rw [withoutTextsIn_eq_map, List.filterMap_map, List.map_filterMap]
  refine List.filterMap_congr fun member _ => ?_
  cases member with
  | method declared isExplicit =>
      simp only [Function.comp_apply, withoutTexts, method?, Source.Method.withoutTexts]
      split_ifs <;> rfl
  | _ => simp only [Function.comp_apply, withoutTexts, method?, Option.map_none]

end Member

namespace Surroundings

variable (around : Surroundings)

theorem withUsings_withoutTexts (members : List Member) :
    around.withUsings (Member.withoutTextsIn members) = around.withUsings members := by
  rw [withUsings, Member.filterMap_using?_withoutTexts, withUsings]

theorem withFileNamespace_withoutTexts (members : List Member) :
    around.withFileNamespace (Member.withoutTextsIn members) =
      around.withFileNamespace members := by
  rw [withFileNamespace, Member.filterMap_fileNamespace?_withoutTexts, withFileNamespace]

theorem declare_withoutTexts (head : TypeHead) (body : List Member) :
    around.declare head.withoutTexts (Member.withoutTextsIn body) =
      (around.declare head body).withoutTexts := by
  rw [declare, Member.filterMap_method?_withoutTexts]
  rfl

end Surroundings

namespace Member

mutual

theorem types_withoutTexts (around : Surroundings) (member : Member) :
    member.withoutTexts.types around =
      (member.types around).map Source.TypeDeclaration.withoutTexts := by
  match member with
  | .using _ => rw [withoutTexts, types, List.map_nil]
  | .fileNamespace _ => rw [withoutTexts, types, List.map_nil]
  | .method _ _ => rw [withoutTexts, types, types, List.map_nil]
  | .other => rw [withoutTexts, types, List.map_nil]
  | .namespaceBlock name body =>
      rw [withoutTexts, types, types, Surroundings.withUsings_withoutTexts,
        typesIn_withoutTexts _ body]
  | .type head body =>
      rw [withoutTexts, types, types]
      simp only [Surroundings.declare_withoutTexts, List.map_cons]
      exact congrArg (_ :: ·) (typesIn_withoutTexts _ body)

theorem typesIn_withoutTexts (around : Surroundings) (members : List Member) :
    typesIn around (withoutTextsIn members) =
      (typesIn around members).map Source.TypeDeclaration.withoutTexts := by
  match members with
  | [] => rw [withoutTextsIn, typesIn, List.map_nil]
  | member :: others =>
      rw [withoutTextsIn, typesIn, typesIn, types_withoutTexts around member,
        typesIn_withoutTexts around others, List.map_append]

end

mutual

theorem innerGlobalUsings_withoutTexts (member : Member) :
    member.withoutTexts.innerGlobalUsings = member.innerGlobalUsings := by
  match member with
  | .using _ => rw [withoutTexts]
  | .fileNamespace _ => rw [withoutTexts]
  | .method _ _ => rw [withoutTexts, innerGlobalUsings, innerGlobalUsings]
  | .other => rw [withoutTexts]
  | .namespaceBlock name body =>
      rw [withoutTexts, innerGlobalUsings, innerGlobalUsings, filterMap_using?_withoutTexts,
        innerGlobalUsingsIn_withoutTexts body]
  | .type head body =>
      rw [withoutTexts, innerGlobalUsings, innerGlobalUsings,
        innerGlobalUsingsIn_withoutTexts body]

theorem innerGlobalUsingsIn_withoutTexts (members : List Member) :
    innerGlobalUsingsIn (withoutTextsIn members) = innerGlobalUsingsIn members := by
  match members with
  | [] => rw [withoutTextsIn]
  | member :: others =>
      rw [withoutTextsIn, innerGlobalUsingsIn, innerGlobalUsingsIn,
        innerGlobalUsings_withoutTexts member, innerGlobalUsingsIn_withoutTexts others]

end

end Member

theorem collect_withoutTexts (members : List Member) :
    collect (Member.withoutTextsIn members) = (collect members).withoutTexts := by
  rw [collect, Member.filterMap_using?_withoutTexts, Member.innerGlobalUsingsIn_withoutTexts,
    Surroundings.withUsings_withoutTexts, Surroundings.withFileNamespace_withoutTexts,
    Member.typesIn_withoutTexts]
  rfl

/-! ### Members -/

namespace Tree

variable (spacing : List Char → List Char)

theorem skipComments_takeAttributeLists (trees : List Tree) :
    skipComments (takeAttributeLists trees).2 = (takeAttributeLists trees).2 := by
  induction trees with
  | nil => rfl
  | cons tree others ih =>
      rw [takeAttributeLists]
      cases tree.inside? "[" with
      | some list => exact ih
      | none =>
          cases comment : tree.isComment with
          | true => exact ih
          | false => exact skipComments_of_said comment others

/-- A type, method or other member, from what follows the modifiers. -/
def declaredMember (lists : List (List Tree)) (modifiers : List String) (trees : List Tree)
    (body? : Option (List Member)) : Member :=
  match typeHead? lists modifiers trees with
  | some head => .type head (if head.kind = .enum then [] else body?.getD [])
  | none =>
    match method? lists modifiers trees with
    | some (declared, isExplicit) => .method declared isExplicit
    | none => .other

theorem member_eq (head : List Tree) (body? : Option (List Member)) :
    member head body? =
      match usingDirective? (takeAttributeLists head).2,
        namespaceName? (takeAttributeLists head).2 with
      | some directive, _ => .using directive
      | none, some name =>
        match body? with
        | some body => .namespaceBlock name body
        | none => .fileNamespace name
      | none, none =>
        declaredMember (takeAttributeLists head).1 (takeModifiers (takeAttributeLists head).2).1
          (takeModifiers (takeAttributeLists head).2).2 body? := rfl

/-- Attributes count before types and methods, and parameters in methods. -/
def isClearDeclaration (lists : List (List Tree)) (modifiers : List String)
    (trees : List Tree) : Bool :=
  if (typeHead? [] modifiers trees).isSome then lists.all (isClearList spacing)
  else
    (methodForm? modifiers (signature trees)).isNone ||
      lists.all (isClearList spacing) && isClearMethod spacing modifiers trees

/-- Comments in the head of a member change nothing. -/
def isClearHead (head : List Tree) : Bool :=
  let (lists, trees) := takeAttributeLists head
  isClearUsing spacing trees && isClearNamespace spacing trees &&
    ((usingDirective? trees).isSome || (namespaceName? trees).isSome ||
      isClearDeclaration spacing lists (takeModifiers trees).1 (takeModifiers trees).2)

theorem isSome_typeHead? (lists others : List (List Tree)) (modifiers : List String)
    (trees : List Tree) :
    (typeHead? lists modifiers trees).isSome = (typeHead? others modifiers trees).isSome := by
  rw [typeHead?, typeHead?]
  cases typeIntroduction? trees with
  | none => rfl
  | some introduction =>
      obtain ⟨more, kind, named⟩ := introduction
      cases named with
      | nil => rfl
      | cons first others => simp only [Option.bind_some, Option.isSome_map]

theorem isSome_typeHead?_spoken (lists others : List (List Tree)) (modifiers : List String)
    {trees : List Tree} (start : skipComments trees = trees) :
    (typeHead? lists modifiers (spoken spacing trees)).isSome =
      (typeHead? others modifiers trees).isSome := by
  have none_unclear : ([] : List (List Tree)).all (isClearList spacing) = true := List.all_nil
  have bare := congrArg Option.isSome (typeHead?_spoken spacing modifiers start none_unclear)
  rw [Option.isSome_map, Option.isSome_map] at bare
  rw [isSome_typeHead? lists [], isSome_typeHead? others [], ← bare]
  rfl

theorem declaredMember_spoken (modifiers : List String) {lists : List (List Tree)}
    {trees : List Tree} (start : skipComments trees = trees)
    (clear : isClearDeclaration spacing lists modifiers trees = true)
    (body? : Option (List Member)) :
    (declaredMember (lists.map (spoken spacing)) modifiers (spoken spacing trees)
        body?).withoutTexts =
      (declaredMember lists modifiers trees body?).withoutTexts := by
  have heads := isSome_typeHead?_spoken spacing (lists.map (spoken spacing)) lists modifiers start
  rw [isClearDeclaration, isSome_typeHead? [] lists] at clear
  rw [declaredMember, declaredMember]
  cases given : typeHead? lists modifiers trees with
  | some head =>
      rw [given, Option.isSome_some, if_pos rfl] at clear
      have same := typeHead?_spoken spacing modifiers start clear
      rw [given, Option.map_some, Option.map_eq_some_iff] at same
      obtain ⟨head', given', same⟩ := same
      have kind : head'.kind = head.kind := (congrArg TypeHead.kind same :)
      simp only [given', kind, Member.withoutTexts, same]
  | none =>
      rw [given, Option.isSome_none, Option.isSome_eq_false_iff, Option.isNone_iff_eq_none] at heads
      rw [given, Option.isSome_none, if_neg Bool.false_ne_true, Bool.or_eq_true,
        Option.isNone_iff_eq_none] at clear
      simp only [heads]
      rcases clear with other | clear
      · have other' : methodForm? modifiers (signature (spoken spacing trees)) = none := by
          rw [signature_spoken, methodForm?_map, other, Option.map_none]
        rw [method?_eq, method?_eq, other', other, Option.map_none, Option.map_none]
      · rw [Bool.and_eq_true] at clear
        have same := method?_spoken spacing modifiers clear.2 clear.1
        cases method : method? lists modifiers trees with
        | none =>
            rw [method, Option.map_none, Option.map_eq_none_iff] at same
            rw [same]
        | some read =>
            rw [method, Option.map_some, Option.map_eq_some_iff] at same
            obtain ⟨read', method', same⟩ := same
            obtain ⟨declared, isExplicit⟩ := read
            obtain ⟨declared', isExplicit'⟩ := read'
            simp only [Prod.map, id, Prod.mk.injEq] at same
            simp only [method', Member.withoutTexts, same]

theorem member_spoken {head : List Tree} (clear : isClearHead spacing head = true)
    (body? : Option (List Member)) :
    (member (spoken spacing head) body?).withoutTexts = (member head body?).withoutTexts := by
  have start := skipComments_takeAttributeLists head
  rw [isClearHead] at clear
  simp only [Bool.and_eq_true] at clear
  obtain ⟨⟨usings, namespaces⟩, rest⟩ := clear
  rw [member_eq, member_eq, takeAttributeLists_spoken]
  simp only [usingDirective?_spoken spacing start usings,
    namespaceName?_spoken spacing start namespaces, takeModifiers_spoken]
  cases directive : usingDirective? (takeAttributeLists head).2 with
  | some directive => rfl
  | none =>
      cases name : namespaceName? (takeAttributeLists head).2 with
      | some name => rfl
      | none =>
          rw [directive, name, Option.isSome_none, Option.isSome_none, Bool.or_false,
            Bool.false_or] at rest
          exact declaredMember_spoken spacing _ (skipComments_takeModifiers _) rest body?

/-- Whether the members between the braces behind a head are members of what it introduces. -/
def keepsBody (head : List Tree) : Bool :=
  match member head (some []) with
  | .namespaceBlock _ _ => true
  | .type head _ => head.kind != .enum
  | _ => false

theorem member_of_bodies {head : List Tree} {body other : List Member}
    (same : keepsBody head = true → Member.withoutTextsIn body = Member.withoutTextsIn other) :
    (member head (some body)).withoutTexts = (member head (some other)).withoutTexts := by
  rw [keepsBody, member_eq] at same
  rw [member_eq, member_eq]
  cases directive : usingDirective? (takeAttributeLists head).2 with
  | some directive => rfl
  | none =>
      cases name : namespaceName? (takeAttributeLists head).2 with
      | some name =>
          simp only [directive, name] at same
          simp only [Member.withoutTexts, same]
      | none =>
          simp only [directive, name, declaredMember] at same ⊢
          cases given : typeHead? (takeAttributeLists head).1
              (takeModifiers (takeAttributeLists head).2).1
              (takeModifiers (takeAttributeLists head).2).2 with
          | none => rfl
          | some head =>
              simp only [given, bne_iff_ne] at same
              simp only [Member.withoutTexts, Option.getD_some]
              split_ifs with enum
              · rfl
              · rw [same enum]

mutual

/-- Comments between a pair of braces change nothing in the members there. -/
def isClearInside : Tree → Bool
  | token _ => true
  | group opening children _ => !opening.isMark "\x7b" || areClearFrom [] children

/-- Comments change nothing in the members of trees; `head` are the trees since the last member in
reverse order. -/
def areClearFrom (head : List Tree) : List Tree → Bool
  | [] => (withoutComments head).isEmpty || isClearHead spacing head.reverse
  | tree :: others =>
    if tree.isMark ";" then isClearHead spacing head.reverse && areClearFrom [] others
    else if tree.isGroup "\x7b" && !head.any fun tree => tree.isMark "=" || tree.isMark "=>" then
      isClearHead spacing head.reverse && (!keepsBody head.reverse || tree.isClearInside) &&
        areClearFrom [] others
    else areClearFrom (tree :: head) others

end

theorem any_assigns_spoken (trees : List Tree) :
    ((spoken spacing trees).any fun tree => tree.isMark "=" || tree.isMark "=>") =
      trees.any fun tree => tree.isMark "=" || tree.isMark "=>" := by
  rw [spoken_eq]
  refine Silence.any_spoken (fun tree comment => ?_) (fun tree => ?_) trees
  · rw [isMark_of_isComment comment, isMark_of_isComment comment]
    rfl
  · rw [spaced_isMark, spaced_isMark]

mutual

theorem membersInside_spaced (tree : Tree) (clear : tree.isClearInside spacing = true) :
    Member.withoutTextsIn (tree.spaced spacing).membersInside =
      Member.withoutTextsIn tree.membersInside := by
  match tree with
  | token t => rw [spaced, membersInside, membersInside]
  | group opening children closing =>
      rw [isClearInside] at clear
      rw [spaced, membersInside, membersInside, Token.spaced_isMark]
      cases brace : opening.isMark "\x7b" with
      | false => rfl
      | true =>
          rw [brace, Bool.not_true, Bool.false_or] at clear
          have inside := outline_spoken [] children clear
          rw [spoken_nil] at inside
          exact inside

theorem outline_spoken (head trees : List Tree) (clear : areClearFrom spacing head trees = true) :
    Member.withoutTextsIn (outline (spoken spacing head) (bodyParts (spoken spacing trees))) =
      Member.withoutTextsIn (outline head (bodyParts trees)) := by
  match trees with
  | [] =>
      have empty : (withoutComments (spoken spacing head)).isEmpty =
          (withoutComments head).isEmpty := by
        rw [withoutComments_spoken, List.isEmpty_map]
      rw [areClearFrom, Bool.or_eq_true] at clear
      rw [spoken_nil, bodyParts, outline, outline, empty]
      split_ifs with nothing
      · rfl
      · have last := member_spoken spacing (clear.resolve_left nothing) none
        simp only [Member.withoutTextsIn, ← spoken_reverse, last]
  | tree :: others =>
      rw [areClearFrom] at clear
      cases comment : tree.isComment with
      | true =>
          have passes : tree.isGroup "\x7b" = false := by
            obtain ⟨t, rfl, -⟩ := exists_token_of_isComment comment
            rfl
          rw [isMark_of_isComment comment, if_neg Bool.false_ne_true, passes, Bool.false_and,
            if_neg Bool.false_ne_true] at clear
          have rest := outline_spoken (tree :: head) others clear
          rw [spoken_cons_of_comment spacing comment] at rest
          rw [spoken_cons_of_comment spacing comment, rest, bodyParts, outline]
          simp only [isMark_of_isComment comment, passes, Bool.false_and, Bool.false_eq_true,
            if_false]
      | false =>
          have assigned := any_assigns_spoken spacing head
          rw [spoken_cons spacing comment, bodyParts, outline, bodyParts, outline]
          simp only [spaced_isMark, spaced_isGroup, assigned]
          split_ifs at clear ⊢ with semicolon body
          · rw [Bool.and_eq_true] at clear
            have rest := outline_spoken [] others clear.2
            rw [spoken_nil] at rest
            rw [Member.withoutTextsIn, Member.withoutTextsIn, ← spoken_reverse, rest,
              member_spoken spacing clear.1]
          · simp only [Bool.and_eq_true] at clear
            obtain ⟨⟨introduced, inside⟩, behind⟩ := clear
            have rest := outline_spoken [] others behind
            rw [spoken_nil] at rest
            have bodies :
                (member head.reverse (some (tree.spaced spacing).membersInside)).withoutTexts =
                  (member head.reverse (some tree.membersInside)).withoutTexts := by
              refine member_of_bodies fun keeps => ?_
              rw [keeps, Bool.not_true, Bool.false_or] at inside
              exact membersInside_spaced tree inside
            rw [Member.withoutTextsIn, Member.withoutTextsIn, ← spoken_reverse, rest,
              member_spoken spacing introduced, bodies]
          · have rest := outline_spoken (tree :: head) others clear
            rw [spoken_cons spacing comment] at rest
            exact rest

end

theorem members_spoken {trees : List Tree} (clear : areClearFrom spacing [] trees = true) :
    Member.withoutTextsIn (members (spoken spacing trees)) =
      Member.withoutTextsIn (members trees) := by
  have whole := outline_spoken spacing [] trees clear
  rwa [spoken_nil] at whole

end Tree

end ActionAtlas.CSharp
