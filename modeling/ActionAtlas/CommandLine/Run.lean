import ActionAtlas.CommandLine.Arguments
import ActionAtlas.CommandLine.Storage
import ActionAtlas.Graph.Reader
import ActionAtlas.Mvc.Discovery
import ActionAtlas.Path
import ActionAtlas.Program

/-!
Runs of the program: what a command does, what it writes, and how it fails.
-/

namespace ActionAtlas.CommandLine

inductive Failure where
  | unreadable (path : String)
  | unloadable (path : String)
  | unscannable (path : String)
  | uncreatable (folder : String)
  | unwritable (path : String)
  | undiscovered (problem : Mvc.DiscoveryError)
deriving DecidableEq, Repr

def Failure.message : Failure → String
  | .unreadable path => "read " ++ path
  | .unloadable path => "load " ++ path
  | .unscannable path => "scan " ++ path
  | .uncreatable folder => "create " ++ folder
  | .unwritable path => "write " ++ path
  | .undiscovered problem => problem.message

variable {m : Type → Type} [Monad m]

def loadGraph (storage : Storage m) (path : String) : ExceptT Failure m SymbolGraph := do
  match ← storage.read (Text.bytes path) with
  | none => throw (.unreadable path)
  | some document =>
    match SymbolGraph.load document with
    | .ok graph => return graph
    | .error _ => throw (.unloadable path)

def readSource (storage : Storage m) (file : SourceFile) : ExceptT Failure m String := do
  match ← storage.read file.fullPath with
  | some text => return text
  | none => throw (.unreadable (Text.lossy file.fullPath))

def scanGraph (storage : Storage m) (heeding : Bool) (path : String) :
    ExceptT Failure m SymbolGraph := do
  match ← storage.scan heeding (Text.bytes path) with
  | .ok files => return (Program.ofTexts (← files.mapM (readSource storage))).graph
  | .error _ => throw (.unscannable path)

def modelText (options : Mvc.Options) (graph : SymbolGraph) : Except Failure String :=
  match Mvc.discover options graph with
  | .ok areas => .ok (Mvc.modelToJson areas).pretty
  | .error problem => .error (.undiscovered problem)

/-- Puts a text into a file, whose folders are made if need be, or hands it back as a line of
output. -/
def deliver (storage : Storage m) (output? : Option String) (text : String) :
    ExceptT Failure m String := do
  match output? with
  | none => return text ++ "\n"
  | some path =>
    match Path.parent? path with
    | none => pure ()
    | some "" => pure ()
    | some folder => unless ← storage.makeFolders folder do throw (.uncreatable folder)
    unless ← storage.save path text do throw (.unwritable path)
    return ""

def Command.run (storage : Storage m) (settings : Settings) :
    Command → ExceptT Failure m String
  | .discover path overrides output? => do
    let graph ← loadGraph storage path
    deliver storage output? (← modelText (overrides.options settings) graph)
  | .scan path heeding overrides output? emitGraph => do
    let graph ← scanGraph storage heeding path
    if emitGraph then deliver storage output? graph.toJson.pretty
    else deliver storage output? (← modelText (overrides.options settings) graph)

structure Outcome where
  exitCode : Nat
  output : String
  failure? : Option Failure
deriving DecidableEq, Repr

def versionText : String :=
  "urlaction 0.4.0\n"

def helpText : String :=
  "\n".intercalate
    ["Discover MVC areas, controllers and actions for URL helper generation", "",
      "Usage: urlaction <COMMAND>", "", "Commands:",
      "  discover  Discover from a symbol graph JSON document",
      "  scan      Read C# sources under a directory and discover from them", ""]

def Halt.outcome : Halt → Outcome
  | .help => ⟨0, helpText, none⟩
  | .version => ⟨0, versionText, none⟩
  | .badUsage => ⟨2, "", none⟩

def run (storage : Storage m) (settings : Settings) (arguments : List String) : m Outcome := do
  match Command.ofArguments arguments with
  | .error halt => return halt.outcome
  | .ok command =>
    match ← (command.run storage settings).run with
    | .ok output => return ⟨0, output, none⟩
    | .error failure => return ⟨1, "", some failure⟩

end ActionAtlas.CommandLine
