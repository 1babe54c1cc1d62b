import ActionAtlas.CSharp.Expression
import ActionAtlas.Source.Declaration

/-!
Reading attribute lists, the trees between square brackets before a declaration or parameter.
-/

namespace ActionAtlas.CSharp

namespace Tree

def cutAt? (spelling : String) : List Tree → Option (List Tree × List Tree)
  | [] => none
  | tree :: others =>
    if tree.isMark spelling then some ([], others)
    else (cutAt? spelling others).map fun cut => (tree :: cut.1, cut.2)

def dropLabel (marks : List String) (trees : List Tree) : List Tree :=
  let trees := trees.dropWhile isComment
  match trees with
  | label :: others =>
    match others.dropWhile isComment with
    | mark :: behind =>
      if label.word?.isSome && marks.any (fun spelling => mark.isMark spelling) then behind
      else trees
    | [] => trees
  | [] => trees

/-- The value of one attribute argument. A label before it does not count, unless the value is
none by itself: then the last word or comment before it takes its place. -/
def attributeArgument? (trees : List Tree) : Option Evaluated :=
  let written := trees.dropWhile isComment
  let value := (dropLabel [":", "="] written).dropWhile isComment
  if value.isEmpty then none
  else if isInstanceAlone value then
    let before := written.take (written.length - value.length)
    (before.reverse.find? fun tree => tree.isComment || tree.word?.isSome).map fun tree =>
      .unresolved (slice [tree])
  else some (evaluate value)

def attributeArguments (trees : List Tree) : List Evaluated :=
  (commaPieces trees).filterMap attributeArgument?

def globalQualifier : String := "global::"

def dropGlobalQualifier (name : String) : String :=
  match Text.dropInitial? globalQualifier.toList name.toList with
  | some rest => String.ofList rest
  | none => name

def attribute? (trees : List Tree) : Option Source.Attribute :=
  let trees := trimComments trees
  match trees.reverse with
  | [] => none
  | last :: before =>
    match last.inside? "(" with
    | some arguments =>
      let name := trimComments before.reverse
      if name.isEmpty then none
      else some ⟨dropGlobalQualifier (slice name), attributeArguments arguments⟩
    | none => some ⟨dropGlobalQualifier (slice trees), []⟩

/-- The attributes of a list that are meant for a declaration: those of a list without a target,
or with the given one. -/
def attributesFor (target : String) (trees : List Tree) : List Source.Attribute :=
  let trees := trees.dropWhile isComment
  match cutAt? ":" trees with
  | some (written, behind) =>
    if slice written = target then (commaPieces behind).filterMap attribute? else []
  | none => (commaPieces trees).filterMap attribute?

def takeAttributeLists : List Tree → List (List Tree) × List Tree
  | [] => ([], [])
  | tree :: others =>
    match tree.inside? "[" with
    | some list =>
      let (lists, rest) := takeAttributeLists others
      (list :: lists, rest)
    | none => if tree.isComment then takeAttributeLists others else ([], tree :: others)

end Tree

end ActionAtlas.CSharp
