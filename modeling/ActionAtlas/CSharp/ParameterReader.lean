import ActionAtlas.CSharp.AttributeReader
import ActionAtlas.CSharp.TypeReader

/-!
Reading parameters, the trees between the parentheses of a method. Attributes and modifiers of a
parameter do not count; what is left is a type, a name and a default value.
-/

namespace ActionAtlas.CSharp

namespace Tree

def parameterModifiers : List String :=
  ["this", "ref", "out", "in", "readonly", "scoped", "params"]

def leadsParameter (tree : Tree) : Bool :=
  tree.isComment || tree.isGroup "[" || parameterModifiers.any (tree.isWord ·)

/-- The type of a parameter from what stands before its name. Without a type it is `object`,
unless a comment behind an attribute takes its place. -/
def parameterType (trees : List Tree) : Source.TypeSyntax :=
  let written := trimComments (trees.dropWhile leadsParameter)
  if written.isEmpty then
    match ((trees.dropWhile isComment).filter isComment).getLast? with
    | some comment => .verbatim (slice [comment])
    | none => .verbatim "object"
  else type written

def parameter? (trees : List Tree) : Option Source.Parameter :=
  let (declared, value?) :=
    match cutAt? "=" trees with
    | some (before, behind) => (before, some behind)
    | none => (trees, none)
  match declared.reverse.dropWhile isComment with
  | [] => none
  | last :: before =>
    last.word?.map fun name =>
      { name, type := parameterType before.reverse, default? := value?.bind evaluateDefault? }

def parameters (trees : List Tree) : List Source.Parameter :=
  (commaPieces trees).filterMap parameter?

end Tree

end ActionAtlas.CSharp
