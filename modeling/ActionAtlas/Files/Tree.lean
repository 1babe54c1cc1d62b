import ActionAtlas.Files.Name

/-!
Trees of folders and files, as the nodes that stand at locations below a top folder.

Paths are followed from the top folder, which is its own parent and where paths with a slash in
front begin as well. Going on, even by nothing but a slash, is possible only from a folder, and a
path that is empty leads nowhere.
-/

namespace ActionAtlas

inductive Node where
  | file (content : List UInt8)
  | folder
  /-- What is neither, such as a pipe or a socket. Nothing is read from it or put into it. -/
  | other
deriving DecidableEq

def Node.isFile : Node → Bool
  | .file _ => true
  | _ => false

/-- At most one node stands at a location. The top folder is always there and not listed. -/
structure FileTree where
  nodes : List (Location × Node)
  distinct : (nodes.map Prod.fst).Nodup

namespace FileTree

def empty : FileTree :=
  { nodes := []
    distinct := List.nodup_nil }

def node? (tree : FileTree) : Location → Option Node
  | [] => some .folder
  | location => tree.nodes.lookup location

def put (tree : FileTree) (location : Location) (node : Node) : FileTree where
  nodes := (location, node) :: tree.nodes.filter fun other => other.1 ≠ location
  distinct := by
    rw [List.map_cons, List.nodup_cons]
    constructor
    · intro member
      obtain ⟨other, kept, same⟩ := List.mem_map.mp member
      simp [same] at kept
    · exact tree.distinct.sublist (List.filter_sublist.map Prod.fst)

/-! ### Following paths -/

def step? (tree : FileTree) (here : Location) (step : Step) : Option Location :=
  if tree.node? here = some .folder then
    match step with
    | .stay => some here
    | .up => some here.dropLast
    | .enter name =>
      if (tree.node? (here ++ [name])).isSome then some (here ++ [name]) else none
  else none

def walk? (tree : FileTree) (steps : List Step) : Option Location :=
  steps.foldlM tree.step? []

def locate? (tree : FileTree) (path : List UInt8) : Option Location :=
  if path = [] then none else tree.walk? (Step.ofPath path)

def follow? (tree : FileTree) (path : String) : Option Location :=
  tree.locate? (Text.bytes path)

/-- The text of a file. A file that is not in UTF-8 has none. -/
def textAt? (tree : FileTree) (path : List UInt8) : Option String :=
  match (tree.locate? path).bind tree.node? with
  | some (.file content) => Text.ofBytes? content
  | _ => none

def read? (tree : FileTree) (path : String) : Option String :=
  tree.textAt? (Text.bytes path)

/-! ### Making folders and files -/

def makeStep? (state : FileTree × Location) (step : Step) : Option (FileTree × Location) :=
  let (tree, here) := state
  match step with
  | .stay => some (tree, here)
  | .up => some (tree, here.dropLast)
  | .enter name =>
    match tree.node? (here ++ [name]) with
    | some .folder => some (tree, here ++ [name])
    | some _ => none
    | none => some (tree.put (here ++ [name]) .folder, here ++ [name])

def makeAlong? (tree : FileTree) (steps : List Step) : Option FileTree :=
  (steps.foldlM makeStep? (tree, [])).map Prod.fst

def makeFolders? (tree : FileTree) (path : String) : Option FileTree :=
  tree.makeAlong? (Step.ofPath (Text.bytes path))

def save? (tree : FileTree) (path text : String) : Option FileTree :=
  let steps := Step.ofPath (Text.bytes path)
  match steps.getLast?, tree.walk? steps.dropLast with
  | some (.enter name), some folder =>
    if tree.node? folder = some .folder ∧ (tree.node? (folder ++ [name])).all Node.isFile then
      some (tree.put (folder ++ [name]) (.file (Text.bytes text)))
    else none
  | _, _ => none

/-- Puts a file at the end of a path, whose folders are made where they are missing. A path that
ends in a slash makes folders only. What cannot be made is left out. -/
def add (tree : FileTree) (path text : String) : FileTree :=
  match tree.makeAlong? (Step.ofPath (Text.bytes path)).dropLast with
  | some around => (around.save? path text).getD around
  | none => tree

def ofTexts (files : List (String × String)) : FileTree :=
  files.foldl (fun tree file => tree.add file.1 file.2) empty

end FileTree

end ActionAtlas
