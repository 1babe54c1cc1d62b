import ActionAtlas.Files.IgnoreRule
import ActionAtlas.Files.Tree

/-!
The C# sources of a file tree below a root.

A source is a file whose extension is exactly `cs`. Version control and build output are never
entered, and ignore files, if they are heeded, leave out more. The root itself may be or lie in
what would be left out. Sources are named by what is read of their paths below the root, and in
the order of these names.
-/

namespace ActionAtlas

/-! ### Ignore files -/

inductive IgnoreFile where
  | general
  | repository
  | exclusions
deriving DecidableEq

namespace IgnoreFile

/-- Any verdict from a kind of ignore file outweighs those of the kinds that follow. -/
def byWeight : List IgnoreFile :=
  [general, repository, exclusions]

def place : IgnoreFile → List String
  | general => [".ignore"]
  | repository => [".gitignore"]
  | exclusions => [".git", "info", "exclude"]

end IgnoreFile

structure IgnoreRules where
  files : List (IgnoreFile × List (Location × List IgnoreRule))

namespace IgnoreRules

def folder? (kind : IgnoreFile) (location : Location) : Option Location :=
  let outer := location.take (location.length - kind.place.length)
  if location.map FileName.bytes = outer.map FileName.bytes ++ kind.place.map Text.bytes then
    some outer
  else none

def ofKind (tree : FileTree) (kind : IgnoreFile) : List (Location × List IgnoreRule) :=
  tree.nodes.filterMap fun
    | (location, .file content) =>
      (folder? kind location).map fun outer => (outer, IgnoreRule.ofContent content)
    | _ => none

def ofTree (tree : FileTree) : IgnoreRules :=
  ⟨IgnoreFile.byWeight.map fun kind => (kind, ofKind tree kind)⟩

def around : Location → List (Location × Location)
  | [] => []
  | name :: rest => (around rest).map (fun cut => (name :: cut.1, cut.2)) ++ [([], name :: rest)]

/-- What the ignore files of one kind say: the nearest that has a rule which applies decides. -/
def verdictOfKind? (rules : List (Location × List IgnoreRule)) (location : Location)
    (isFolder : Bool) : Option Verdict :=
  (around location).findSome? fun cut =>
    (rules.lookup cut.1).bind fun rules => IgnoreRule.verdict? rules (cut.2.path []) isFolder

def verdict? (rules : IgnoreRules) (location : Location) (isFolder : Bool) : Option Verdict :=
  rules.files.findSome? fun kind => verdictOfKind? kind.2 location isFolder

end IgnoreRules

/-! ### Sources -/

def isPruned (name : FileName) (isFolder : Bool) : Bool :=
  name.isCalled ".git" || isFolder && (name.isCalled "bin" || name.isCalled "obj")

def isLeftOut (rules? : Option IgnoreRules) (location : Location) (name : FileName)
    (isFolder : Bool) : Bool :=
  isPruned name isFolder
    || rules?.any fun rules => rules.verdict? (location ++ [name]) isFolder == some .ignored

/-- Whether a walk from a folder comes along all the names that follow, of which only the last is
not a folder. -/
def isReached (rules? : Option IgnoreRules) : Location → Location → Bool
  | _, [] => true
  | here, name :: rest =>
    !isLeftOut rules? here name (!rest.isEmpty) && isReached rules? (here ++ [name]) rest

structure SourceFile where
  /-- What is read of the path as seen from the root. -/
  path : String
  fullPath : List UInt8
deriving DecidableEq

/-- A file by the path on which a walk comes to it. -/
def SourceFile.ofPath (root fullPath : List UInt8) : Except Path.Outside SourceFile := do
  let path ← Path.below root fullPath
  return ⟨path, fullPath⟩

namespace FileTree

/-- The files below a folder as seen from there. From a file, only the file itself is. -/
def filesBelow (tree : FileTree) (here : Location) : List Location :=
  tree.nodes.filterMap fun
    | (location, .file _) => Text.dropInitial? here location
    | _ => none

def isSource (here location : Location) : Bool :=
  ((here ++ location).getLast?.bind FileName.extension?) == some (Text.bytes "cs")

/-- The sources below a location. Ignore files count wherever they stand around a source, even above
the location, if `heeding` says so. -/
def sourcesBelow (tree : FileTree) (heeding : Bool) (here : Location) : List Location :=
  let rules? := if heeding then some (IgnoreRules.ofTree tree) else none
  (tree.filesBelow here).filter fun location => isSource here location && isReached rules? here location

/-- Where the walk from a root begins. A hyphen stands for the standard input, from which nothing
is reached. -/
def entry? (tree : FileTree) (root : List UInt8) : Option Location :=
  if Path.components root = [.name (Text.bytes "-")] then none else tree.locate? root

def scan (tree : FileTree) (heeding : Bool) (root : List UInt8) :
    Except Path.Outside (List SourceFile) := do
  let locations := ((tree.entry? root).map (tree.sourcesBelow heeding)).getD []
  let files ← locations.mapM fun location => SourceFile.ofPath root (location.path root)
  return files.mergeSort fun one other => decide (one.path ≤ other.path)

/-- What a scan finds that begins at a location, with the top as the current folder. -/
def sources (tree : FileTree) (heeding : Bool) (root : Location) : List SourceFile :=
  (tree.scan heeding (root.path [Path.fullStop])).toOption.getD []

end FileTree

end ActionAtlas
