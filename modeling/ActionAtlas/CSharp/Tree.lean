import ActionAtlas.CSharp.Lexer

/-!
Token trees: tokens, and groups of trees between a pair of brackets.

Angle brackets are brackets only around type arguments. An opening one that follows a word waits
for its partner; when something between them cannot belong to a type, or the partner is missing,
it is an ordinary mark.
-/

namespace ActionAtlas.CSharp

inductive Tree where
  | token (token : Token)
  | group (opening : Token) (children : List Tree) (closing : Token)
deriving Repr

namespace Tree

mutual

def source : Tree → List Char
  | token t => t.source
  | group opening children closing => opening.source ++ sources children ++ closing.source

def sources : List Tree → List Char
  | [] => []
  | tree :: others => tree.source ++ sources others

end

/-- The text of trees as it stands, without the blanks around it. -/
def slice (trees : List Tree) : String :=
  String.ofList (Text.trim ((sources trees).dropWhile isBlank))

def isWord (spelling : String) : Tree → Bool
  | token t => t.isWord spelling
  | group _ _ _ => false

def isMark (spelling : String) : Tree → Bool
  | token t => t.isMark spelling
  | group _ _ _ => false

def isComment : Tree → Bool
  | token t => t.isComment
  | group _ _ _ => false

def word? : Tree → Option String
  | token t => if t.kind = .word then some (String.ofList t.text) else none
  | group _ _ _ => none

def inside? (opening : String) : Tree → Option (List Tree)
  | token _ => none
  | group first children _ => if first.isMark opening then some children else none

def isGroup (opening : String) (tree : Tree) : Bool :=
  (tree.inside? opening).isSome

def fitsType (tree : Tree) : Bool :=
  match tree with
  | token t =>
    t.kind == .word || t.isComment || [".", "::", ",", "?", "*"].any t.isMark
  | group opening _ _ => ["(", "[", "<"].any opening.isMark

def commaPieces (trees : List Tree) : List (List Tree) :=
  Text.runs (isMark ",") trees

def withoutComments (trees : List Tree) : List Tree :=
  trees.filter (!·.isComment)

def trimComments (trees : List Tree) : List Tree :=
  ((trees.dropWhile isComment).reverse.dropWhile isComment).reverse

structure Frame where
  opening : Token
  children : List Tree

def Frame.loosen (frame : Frame) (before : List Tree) : List Tree :=
  frame.children ++ .token frame.opening :: before

/-- The state of the reading: the trees outside of all open brackets in reverse order, and the open
brackets, innermost first. -/
structure Nesting where
  outer : List Tree
  frames : List Frame

namespace Nesting

def push (tree : Tree) (state : Nesting) : Nesting :=
  match state.frames with
  | [] => { state with outer := tree :: state.outer }
  | frame :: frames =>
    { state with frames := { frame with children := tree :: frame.children } :: frames }

/-- The trees behind the innermost open bracket, nearest first, without comments. -/
def before (state : Nesting) : List Tree :=
  withoutComments <| match state.frames with
    | [] => state.outer
    | frame :: _ => frame.children

def openBracket (opening : Token) (state : Nesting) : Nesting :=
  { state with frames := ⟨opening, []⟩ :: state.frames }

def giveUpAngles (outer : List Tree) : List Frame → Nesting
  | [] => ⟨outer, []⟩
  | [frame] =>
    if frame.opening.isMark "<" then ⟨frame.loosen outer, []⟩ else ⟨outer, [frame]⟩
  | frame :: next :: frames =>
    if frame.opening.isMark "<" then
      giveUpAngles outer ({ next with children := frame.loosen next.children } :: frames)
    else ⟨outer, frame :: next :: frames⟩
termination_by frames => frames.length

def close (closing : Token) (state : Nesting) : Nesting :=
  match state.frames with
  | [] => state.push (.token closing)
  | frame :: frames =>
    Nesting.push (.group frame.opening frame.children.reverse closing) { state with frames }

/-- Closes an angle bracket if one is open around nothing but types. -/
def closeAngle (closing : Token) (state : Nesting) : Nesting :=
  match state.frames with
  | frame :: _ =>
    if frame.opening.isMark "<" && frame.children.all fitsType then state.close closing
    else state.push (.token closing)
  | [] => state.push (.token closing)

/-- Whether type arguments can follow these trees, nearest first: a word, or the star or the calling
conventions of a function pointer. -/
def angleFollows : List Tree → Bool
  | [] => false
  | last :: others =>
    last.isMark "*" || last.word?.any (· != "operator") ||
      last.isGroup "[" && others.head?.any (isWord "unmanaged")

def step (state : Nesting) (t : Token) : Nesting :=
  if t.kind ≠ .punctuation then state.push (.token t)
  else
    match t.text with
    | ['('] => state.openBracket t
    | ['['] => state.openBracket t
    | ['\x7b'] => state.openBracket t
    | [')'] => (giveUpAngles state.outer state.frames).close t
    | [']'] => (giveUpAngles state.outer state.frames).close t
    | ['\x7d'] => (giveUpAngles state.outer state.frames).close t
    | ['<'] => if angleFollows state.before then state.openBracket t else state.push (.token t)
    | ['>'] => state.closeAngle t
    | _ => state.push (.token t)

def finish (outer : List Tree) : List Frame → List Tree
  | [] => outer.reverse
  | [frame] => (frame.loosen outer).reverse
  | frame :: next :: frames =>
    finish outer ({ next with children := frame.loosen next.children } :: frames)
termination_by frames => frames.length

end Nesting

def ofTokens (tokens : List Token) : List Tree :=
  let state := tokens.foldl Nesting.step ⟨[], []⟩
  Nesting.finish state.outer state.frames

def ofText (text : String) : List Tree :=
  ofTokens (Token.ofText text.toList)

end Tree

end ActionAtlas.CSharp
