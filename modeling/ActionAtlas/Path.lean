import ActionAtlas.Text.Cut
import ActionAtlas.Text.Utf8

/-!
Slash-separated paths, seen as sequences of components.

A path is any bytes, and texts stand for those they have in UTF-8. Repeated and trailing slashes
never show, and a single full stop shows only at the start of a relative path. `normalize` joins the
named and parent components by slashes; `below?` first takes a root's components off the front.
-/

namespace ActionAtlas

inductive Path.Component where
  | root
  | current
  | parent
  | name (bytes : List UInt8)
deriving DecidableEq, Repr

namespace Path

def slash : UInt8 := 47

def fullStop : UInt8 := 46

def between (path : List UInt8) : List (List UInt8) :=
  Text.runs (· == slash) path

def Component.ofPiece? (piece : List UInt8) : Option Component :=
  if piece = [] ∨ piece = [fullStop] then none
  else if piece = [fullStop, fullStop] then some .parent
  else some (.name piece)

def componentsOfPieces : List (List UInt8) → List Component
  | [] => []
  | first :: others =>
    let later := others.filterMap Component.ofPiece?
    if first = [] then if others = [] then [] else .root :: later
    else if first = [fullStop] then .current :: later
    else (Component.ofPiece? first).toList ++ later

def components (path : List UInt8) : List Component :=
  componentsOfPieces (between path)

def Component.text? : Component → Option String
  | .root => none
  | .current => none
  | .parent => some ".."
  | .name bytes => some (Text.lossy bytes)

def render (parts : List Component) : String :=
  match parts.filterMap Component.text? with
  | [] => "."
  | texts => "/".intercalate texts

/-- The components other than the root and full stops, joined by slashes. -/
def normalize (path : String) : String :=
  render (components (Text.bytes path))

/-- A name behind a path. A slash is put between them unless there is one. -/
def push (path name : List UInt8) : List UInt8 :=
  if path = [] ∨ path.getLast? = some slash then path ++ name else path ++ slash :: name

def below? (root path : List UInt8) : Option String :=
  let outer := components root
  let inner := components path
  if outer.isPrefixOf inner then some (render (inner.drop outer.length)) else none

/-- A path is left without its last component, and without what follows the component before it.
A path that has no component but the root has none to leave. -/
def parent? (path : String) : Option String :=
  let trimPieces (pieces : List (List Char)) :=
    (pieces.reverse.dropWhile fun piece => piece = [] || piece = ['.']).reverse
  match Text.pieces '/' path.toList with
  | [] => none
  | first :: others =>
    match trimPieces others with
    | [] => if first = [] then none else some ""
    | named =>
      match trimPieces named.dropLast with
      | [] => some (if first = [] then "/" else String.ofList first)
      | outer => some (String.ofList (Text.joinWith ['/'] (first :: outer)))

structure Outside where
  root : String
  path : String
deriving DecidableEq, Repr

def Outside.message (problem : Outside) : String :=
  s!"strip prefix {problem.root} from {problem.path}"

/-- A path as seen from a root. Both are named by what is read of them if the root does not lead to
the path. -/
def below (root path : List UInt8) : Except Outside String :=
  match below? root path with
  | some inner => .ok inner
  | none => .error { root := Text.lossy root, path := Text.lossy path }

def relative (root path : String) : Except Outside String :=
  below (Text.bytes root) (Text.bytes path)

end Path

end ActionAtlas
