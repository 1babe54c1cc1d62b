import ActionAtlas.CSharp.Member
import ActionAtlas.CSharp.ParameterReader

/-!
Reading members from token trees.

A run of trees is first cut into members: a member ends at a semicolon or with a pair of braces,
unless an equals sign or an arrow before the braces makes them a part of an expression. Then the
head of each member, the trees before its body, tells what it is.
-/

namespace ActionAtlas.CSharp

namespace Tree

def skipComments (trees : List Tree) : List Tree :=
  trees.dropWhile isComment

def modifierWords : List String :=
  ["abstract", "async", "const", "extern", "file", "fixed", "internal", "new", "override",
   "partial", "private", "protected", "public", "readonly", "required", "sealed", "static",
   "unsafe", "virtual", "volatile"]

/-- Modifiers that are names unless a name or type follows. -/
def softModifiers : List String :=
  ["async", "file", "partial", "required"]

def followsModifier : List Tree → Bool
  | [] => false
  | [next] => next.word?.isSome
  | next :: following :: _ => next.word?.isSome || next.isGroup "(" && following.word?.isSome

def takeModifiers : List Tree → List String × List Tree
  | [] => ([], [])
  | tree :: others =>
    if tree.isComment then takeModifiers others
    else
      match tree.word? with
      | none => ([], tree :: others)
      | some word =>
        if modifierWords.contains word
            && (!softModifiers.contains word || followsModifier (withoutComments others)) then
          let (modifiers, rest) := takeModifiers others
          (word :: modifiers, rest)
        else ([], tree :: others)

/-! ### Types -/

def typeIntroduction? (trees : List Tree) : Option (List String × TypeKind × List Tree) :=
  match trees with
  | [] => none
  | first :: others =>
    let others := skipComments others
    if first.isWord "class" then some ([], .class, others)
    else if first.isWord "struct" then some ([], .struct, others)
    else if first.isWord "interface" then some ([], .interface, others)
    else if first.isWord "enum" then some ([], .enum, others)
    else if first.isWord "record" then
      match others with
      | second :: more =>
        let more := skipComments more
        if (second.isWord "class" || second.isWord "struct") && more.head?.any (·.word?.isSome)
        then some ([], .record, more)
        else if second.word?.isSome then some ([], .record, second :: more)
        else none
      | [] => none
    else if first.isWord "ref" then
      let (modifiers, rest) := takeModifiers others
      match rest with
      | next :: more =>
        if next.isWord "struct" then some (modifiers, .struct, skipComments more) else none
      | [] => none
    else none

/-- The trees before the constraints, which begin with a word that is the name of a type where
`previous?`, the last tree before it that is no comment, leaves a base open. -/
def beforeConstraints (previous? : Option Tree) : List Tree → List Tree
  | [] => []
  | tree :: others =>
    if tree.isComment then tree :: beforeConstraints previous? others
    else if tree.isWord "where"
        && previous?.any fun previous => !([",", ".", "::"].any (previous.isMark ·)) then []
    else tree :: beforeConstraints (some tree) others

def baseList (trees : List Tree) : List Tree :=
  match trees.dropWhile fun tree => tree.isComment || tree.isGroup "<" || tree.isGroup "(" with
  | colon :: others => if colon.isMark ":" then beforeConstraints none others else []
  | [] => []

def typeHead? (lists : List (List Tree)) (modifiers : List String) (trees : List Tree) :
    Option TypeHead :=
  (typeIntroduction? trees).bind fun (more, kind, named) =>
    match named with
    | [] => none
    | first :: others =>
      first.word?.map fun name =>
        { name, kind
          modifiers := modifiers ++ more
          hasTypeParameters := (skipComments others).head?.any (isGroup "<")
          bases := bases (baseList others)
          attributes := lists.flatMap (attributesFor "type") }

/-! ### Namespaces and using directives -/

def namespaceName? (trees : List Tree) : Option String :=
  match trees with
  | first :: others =>
    let name := slice (trimComments others)
    if first.isWord "namespace" && !name.isEmpty then some name else none
  | [] => none

def takeUsingWords : List Tree → Bool × List Tree
  | [] => (false, [])
  | tree :: others =>
    if tree.isWord "static" then (true, (takeUsingWords others).2)
    else if tree.isWord "unsafe" then takeUsingWords others
    else if tree.isComment then
      let (isStatic, rest) := takeUsingWords others
      if rest.length < others.length then (isStatic, rest) else (isStatic, tree :: others)
    else (false, tree :: others)

def usingTarget? (trees : List Tree) : Option String :=
  let target := skipComments trees
  match target.getLast?.or trees.getLast? with
  | none => none
  | some last => some (slice (if last.isComment then [last] else target))

/-- A using directive from what follows its keyword. Statements that begin with the same word
open a parenthesis or declare a variable. -/
def using? (isGlobal : Bool) (trees : List Tree) : Option Using :=
  let (isStatic, trees) := takeUsingWords trees
  match cutAt? "=" trees with
  | some (before, behind) =>
    match withoutComments before with
    | [name] =>
      name.word?.bind fun name =>
        (usingTarget? behind).map fun target => ⟨isGlobal, isStatic, some name, target⟩
    | _ => none
  | none =>
    if (withoutComments trees).head?.any (isGroup "(") then none
    else (usingTarget? trees).map fun target => ⟨isGlobal, isStatic, none, target⟩

def usingDirective? (trees : List Tree) : Option Using :=
  match trees with
  | [] => none
  | first :: others =>
    if first.isWord "using" then using? false others
    else
      match skipComments others with
      | [] => none
      | second :: more =>
        if first.isWord "global" && second.isWord "using" then using? true more else none

/-! ### Methods -/

/-- Whether the trees before a pair of parentheses, nearest first, make these the parameters of a
method: a name stands there, with or without type parameters. -/
def endsInName : List Tree → Bool
  | [] => false
  | [name] => name.word?.any (!TypePart.passingWords.contains ·)
  | last :: before :: _ =>
    if last.isGroup "<" then before.word?.isSome
    else last.word?.any (!TypePart.passingWords.contains ·)

def cutAtParameters? : List Tree → List Tree → Option (List Tree × List Tree)
  | _, [] => none
  | before, tree :: others =>
    match tree.inside? "(" with
    | some parameters =>
      if endsInName before then some (before, parameters)
      else cutAtParameters? (tree :: before) others
    | none => cutAtParameters? (tree :: before) others

def parenthesized? (trees : List Tree) : Option (List Tree) :=
  trees.findSome? (inside? "(")

def signature (trees : List Tree) : List Tree :=
  (withoutComments trees).takeWhile fun tree => !tree.isMark "=" && !tree.isMark "=>"

/-- The mark between the name of an interface and what implements a member of it. -/
def isQualifying (tree : Tree) : Bool :=
  tree.isMark "." || tree.isMark "::"

def isExplicitOperator (trees : List Tree) : Bool :=
  (trees.takeWhile (!·.isWord "operator")).getLast?.any isQualifying

def operator? (trees : List Tree) : Option (MethodKind × String × List Source.Parameter) :=
  let before := trees.takeWhile (!·.isWord "operator")
  match trees.drop before.length with
  | [] => none
  | _ :: behind =>
    if before.any fun tree => tree.isWord "implicit" || tree.isWord "explicit" then
      some (.conversion, "op_conversion_operator_declaration",
        ((parenthesized? behind.reverse).map parameters).getD [])
    else
      some (.operator, "op_operator_declaration",
        ((parenthesized? behind).map parameters).getD [])

/-- A method, constructor, destructor or operator, from what follows the modifiers, and whether it
is an explicit implementation. -/
def method? (lists : List (List Tree)) (modifiers : List String) (trees : List Tree) :
    Option (Source.Method × Bool) :=
  let trees := signature trees
  let method (name : String) (kind : MethodKind) (isGeneric : Bool)
      (parameters : List Source.Parameter) : Source.Method :=
    { name, kind, isGeneric, modifiers, parameters
      attributes := lists.flatMap (attributesFor "method") }
  let first (word : String) : Bool := trees.head?.any (isWord word)
  if trees.head?.any (isMark "~") then some (method "Finalize" .destructor false [], false)
  else if first "event" || first "delegate" && !(trees.drop 1).head?.any (isMark "*") then none
  else
    match operator? trees with
    | some (kind, name, parameters) =>
      some (method name kind false parameters, isExplicitOperator trees)
    | none =>
      (cutAtParameters? [] trees).bind fun (before, inside) =>
        let isGeneric := before.head?.any (isGroup "<")
        match if isGeneric then before.drop 1 else before with
        | [_] =>
          let kind := if modifiers.contains "static" then .staticConstructor else .constructor
          some (method ".ctor" kind false (parameters inside), false)
        | name :: next :: _ =>
          name.word?.map fun name =>
            (method name .ordinary isGeneric (parameters inside), next.isQualifying)
        | [] => none

/-! ### Members -/

structure BodyPart where
  tree : Tree
  members : List Member

def member (head : List Tree) (body? : Option (List Member)) : Member :=
  let (lists, trees) := takeAttributeLists head
  match usingDirective? trees, namespaceName? trees with
  | some directive, _ => .using directive
  | none, some name =>
    match body? with
    | some body => .namespaceBlock name body
    | none => .fileNamespace name
  | none, none =>
    let (modifiers, trees) := takeModifiers trees
    match typeHead? lists modifiers trees with
    | some head => .type head (if head.kind = .enum then [] else body?.getD [])
    | none =>
      match method? lists modifiers trees with
      | some (declared, isExplicit) => .method declared isExplicit
      | none => .other

/-- Cuts trees into members; `head` are the trees since the last one in reverse order. -/
def outline (head : List Tree) : List BodyPart → List Member
  | [] => if (withoutComments head).isEmpty then [] else [member head.reverse none]
  | part :: others =>
    if part.tree.isMark ";" then member head.reverse none :: outline [] others
    else if part.tree.isGroup "\x7b" && !head.any fun tree => tree.isMark "=" || tree.isMark "=>"
    then member head.reverse (some part.members) :: outline [] others
    else outline (part.tree :: head) others

mutual

def membersInside : Tree → List Member
  | token _ => []
  | group opening children _ =>
    if opening.isMark "\x7b" then outline [] (bodyParts children) else []

def bodyParts : List Tree → List BodyPart
  | [] => []
  | tree :: others => ⟨tree, tree.membersInside⟩ :: bodyParts others

end

def members (trees : List Tree) : List Member :=
  outline [] (bodyParts trees)

end Tree

end ActionAtlas.CSharp
