import ActionAtlas.Path

/-!
Names of files and folders, and the steps that the pieces of a path ask for.

Names and paths are bytes, whether or not these are a text in UTF-8. Between the slashes of a path
stand names to enter, two full stops to go up, or a full stop or nothing at all, which ask only that
a folder has been reached.
-/

namespace ActionAtlas

open ActionAtlas.Path (slash fullStop)

def isFileName (bytes : List UInt8) : Bool :=
  bytes ≠ [] && bytes ≠ [fullStop] && bytes ≠ [fullStop, fullStop] && !bytes.contains slash

structure FileName where
  bytes : List UInt8
  proper : isFileName bytes = true
deriving DecidableEq

/-- The names on the way to a file or folder. -/
abbrev Location := List FileName

namespace FileName

def ofBytes? (bytes : List UInt8) : Option FileName :=
  if proper : isFileName bytes then some ⟨bytes, proper⟩ else none

/-- What is read of the name. -/
def text (name : FileName) : String :=
  Text.lossy name.bytes

def isCalled (name : FileName) (text : String) : Bool :=
  name.bytes == Text.bytes text

def extension? (name : FileName) : Option (List UInt8) :=
  match Text.cutLast? fullStop name.bytes with
  | some (_ :: _, ending) => some ending
  | _ => none

end FileName

inductive Step where
  | stay
  | up
  | enter (name : FileName)
deriving DecidableEq

namespace Step

/-- A piece that is neither a name nor two full stops is empty or one full stop. -/
def ofPiece (piece : List UInt8) : Step :=
  if piece = [fullStop, fullStop] then up
  else
    match FileName.ofBytes? piece with
    | some name => enter name
    | none => stay

def ofPath (path : List UInt8) : List Step :=
  (Path.between path).map ofPiece

end Step

/-- The path to a location behind the path to where it begins. -/
def Location.path (root : List UInt8) (location : Location) : List UInt8 :=
  location.foldl (fun path name => Path.push path name.bytes) root

end ActionAtlas
