import ActionAtlas.Files.Sources

/-!
What a run needs of files, whether they are those of a machine or of a file tree.
-/

namespace ActionAtlas

/-- Access to files. Where an action can fail it says so, and nothing else is known of why. -/
structure Storage (m : Type → Type) where
  read : List UInt8 → m (Option String)
  scan : Bool → List UInt8 → m (Except Path.Outside (List SourceFile))
  makeFolders : String → m Bool
  save : String → String → m Bool

namespace FileTree

def change (next? : FileTree → Option FileTree) : StateM FileTree Bool := do
  match next? (← get) with
  | some next => set next; return true
  | none => return false

def storage : Storage (StateM FileTree) :=
  { read := fun path => do return (← get).textAt? path
    scan := fun heeding path => do return (← get).scan heeding path
    makeFolders := fun path => change fun tree => tree.makeFolders? path
    save := fun path text => change fun tree => tree.save? path text }

end FileTree

end ActionAtlas
