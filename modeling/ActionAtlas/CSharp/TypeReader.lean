import ActionAtlas.CSharp.Tree
import ActionAtlas.Source.TypeSyntax

/-!
Reading written types from token trees.

A type is read from its end: dimensions and question marks wrap what stands before them. Comments
count only in lists of type arguments, where each is an argument of its own.
-/

namespace ActionAtlas.CSharp

open Source (TypeSyntax)

def predefinedTypes : List String :=
  ["bool", "byte", "char", "decimal", "double", "float", "int", "long", "object", "sbyte", "short",
   "string", "uint", "ulong", "ushort", "nint", "nuint", "void"]

structure TypePart where
  tree : Tree
  arguments : List TypeSyntax

namespace TypePart

def slice (parts : List TypePart) : String :=
  Tree.slice (parts.map TypePart.tree)

def rank (part : TypePart) : Rank :=
  .ofNat (part.tree.source.count ',' + 1)

def segments : List TypePart → List (String × List TypeSyntax)
  | [] => []
  | [part] => (part.tree.word?.map fun word => (word, [])).toList
  | part :: next :: others =>
    match part.tree.word? with
    | none => segments (next :: others)
    | some word =>
      if next.tree.isGroup "<" then (word, next.arguments) :: segments others
      else (word, []) :: segments (next :: others)

def dropGlobal (parts : List TypePart) : List TypePart :=
  match parts with
  | first :: second :: others =>
    if first.tree.isWord "global" && second.tree.isMark "::" then others else parts
  | _ => parts

def fitsName (part : TypePart) : Bool :=
  part.tree.word?.isSome || part.tree.isMark "." || part.tree.isMark "::" || part.tree.isGroup "<"

def core (parts : List TypePart) : TypeSyntax :=
  let spoken := parts.filter (!·.tree.isComment)
  match spoken with
  | [] => .verbatim (slice parts)
  | first :: others =>
    match first.tree.word? with
    | none => .verbatim (slice parts)
    | some word =>
      if others.isEmpty ∧ predefinedTypes.contains word then .predefined word
      else if others.isEmpty ∧ word = "var" ∨ word = "delegate" ∨ !spoken.all fitsName then
        .verbatim (slice parts)
      else .name (segments (dropGlobal spoken))

def ofReversed : List TypePart → TypeSyntax
  | [] => core []
  | last :: before =>
    if last.tree.isComment then ofReversed before
    else if last.tree.isGroup "[" then .array (ofReversed before) last.rank
    else if last.tree.isMark "?" then .nullable (ofReversed before)
    else core (last :: before).reverse

def passingWords : List String := ["ref", "readonly", "scoped"]

/-- Drops passing words before a type. A word that nothing follows but marks is the type. -/
def dropPassing : List TypePart → List TypePart
  | [] => []
  | [part] => [part]
  | part :: next :: others =>
    if part.tree.isComment then dropPassing (next :: others)
    else if passingWords.any (fun word => part.tree.isWord word) &&
        ((next :: others).find? (!·.tree.isComment)).any fun following =>
          following.tree.word?.isSome || following.tree.isGroup "(" then
      dropPassing (next :: others)
    else part :: next :: others

def type (parts : List TypePart) : TypeSyntax :=
  ofReversed (dropPassing parts).reverse

def commaPieces (parts : List TypePart) : List (List TypePart) :=
  Text.runs (·.tree.isMark ",") parts

def comments (parts : List TypePart) : List TypeSyntax :=
  (parts.filter (·.tree.isComment)).map fun part => .verbatim (slice [part])

def surrounded (parts : List TypePart) :
    List TypeSyntax × Option (List TypePart) × List TypeSyntax :=
  let before := parts.takeWhile (·.tree.isComment)
  let behind := parts.dropWhile (·.tree.isComment)
  let after := (behind.reverse.takeWhile (·.tree.isComment)).reverse
  let middle := (behind.reverse.dropWhile (·.tree.isComment)).reverse
  (comments before, if middle.isEmpty then none else some middle, comments after)

def argumentTypes (parts : List TypePart) : List TypeSyntax :=
  (commaPieces parts).flatMap fun piece =>
    let (before, middle, after) := surrounded piece
    before ++ (middle.map type).toList ++ after

end TypePart

namespace Tree

mutual

def typeArguments : Tree → List TypeSyntax
  | token _ => []
  | group opening children _ =>
    if opening.isMark "<" then TypePart.argumentTypes (typeParts children) else []

def typeParts : List Tree → List TypePart
  | [] => []
  | tree :: others => ⟨tree, tree.typeArguments⟩ :: typeParts others

end

def type (trees : List Tree) : TypeSyntax :=
  TypePart.type (typeParts trees)

/-- The bases in a base list: its trees from behind the colon. Comments are bases too, except
behind the last type. The arguments that a base is given do not count. -/
def bases (trees : List Tree) : List TypeSyntax :=
  go (TypePart.commaPieces (typeParts trees))
where
  withoutCall (parts : List TypePart) : List TypePart :=
    match parts.reverse with
    | last :: before :: others =>
      if last.tree.isGroup "(" then (before :: others).reverse else parts
    | _ => parts
  go : List (List TypePart) → List TypeSyntax
    | [] => []
    | piece :: others =>
      let (before, middle, after) := TypePart.surrounded piece
      let base := (middle.map fun parts => TypePart.type (withoutCall parts)).toList
      before ++ base ++ (if others.isEmpty then [] else after) ++ go others

end Tree

end ActionAtlas.CSharp
