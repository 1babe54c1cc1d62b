import ActionAtlas.Settings
import ActionAtlas.Text.Cut

/-!
The command line: which commands there are, their flags, and how arguments are read.

Arguments are read from left to right and the first that is wrong or asks for help decides. A
flag's value follows it, as an argument of its own that does not look like a flag, or in the same
argument behind an equals sign.
-/

namespace ActionAtlas.CommandLine

inductive Halt where
  | help
  | version
  | badUsage
deriving DecidableEq, Repr

structure Overrides where
  includeAbstract : Bool
  controllerSuffix? : Option String
  timeout? : Option Nat
  controllerBases : List String
deriving DecidableEq, Repr

/-- Settings with the changes of flags. Further controller bases stand behind those there are, and
none occurs twice. -/
def Overrides.options (overrides : Overrides) (settings : Settings) : Mvc.Options :=
  let options := settings.options
  { options with
    skipAbstract := options.skipAbstract && !overrides.includeAbstract
    controllerSuffix := overrides.controllerSuffix?.getD options.controllerSuffix
    timeout? := (overrides.timeout?.map Settings.limit?).getD options.timeout?
    controllerBases := overrides.controllerBases.foldl
      (fun bases base => if base ∈ bases then bases else bases ++ [base]) options.controllerBases }

inductive Command where
  | discover (graph : String) (overrides : Overrides) (output? : Option String)
  | scan (path : String) (heeding : Bool) (overrides : Overrides) (output? : Option String)
      (emitGraph : Bool)
deriving DecidableEq, Repr

inductive Flag where
  | graph
  | path
  | output
  | noIgnore
  | emitGraph
  | includeAbstract
  | controllerSuffix
  | timeout
  | controllerBase
deriving DecidableEq, Repr

namespace Flag

def word : Flag → String
  | graph => "graph"
  | path => "path"
  | output => "output"
  | noIgnore => "no-ignore"
  | emitGraph => "emit-graph"
  | includeAbstract => "include-abstract"
  | controllerSuffix => "controller-suffix"
  | timeout => "timeout-ms"
  | controllerBase => "controller-base"

def takesValue : Flag → Bool
  | noIgnore => false
  | emitGraph => false
  | includeAbstract => false
  | _ => true

/-- Whether a text will do as the flag's value. Paths are not empty, and a time limit is a
number. -/
def admits (flag : Flag) (value : String) : Bool :=
  match flag with
  | graph => value ≠ ""
  | path => value ≠ ""
  | output => value ≠ ""
  | timeout => (Text.word? value.toList).isSome
  | _ => true

def shared : List Flag :=
  [includeAbstract, controllerSuffix, timeout, controllerBase, output]

def ofDiscover : List Flag :=
  graph :: shared

def ofScan : List Flag :=
  path :: noIgnore :: emitGraph :: shared

end Flag

abbrev Given := List (Flag × String)

namespace Given

def value? (given : Given) (flag : Flag) : Option String :=
  given.lookup flag

def has (given : Given) (flag : Flag) : Bool :=
  (given.value? flag).isSome

/-- The flag with its value behind those already given. Only controller bases may be given
again. -/
def add (given : Given) (flag : Flag) (value : String) : Except Halt Given :=
  if flag.admits value ∧ (flag = .controllerBase ∨ ¬ given.has flag) then
    .ok (given ++ [(flag, value)])
  else .error .badUsage

def controllerBases (given : Given) : List String :=
  (given.filter fun entry => entry.1 == .controllerBase).flatMap fun entry =>
    (Text.pieces ',' entry.2.toList).map String.ofList

def overrides (given : Given) : Overrides :=
  { includeAbstract := given.has .includeAbstract
    controllerSuffix? := given.value? .controllerSuffix
    timeout? := (given.value? .timeout).bind fun value => Text.word? value.toList
    controllerBases := given.controllerBases }

end Given

inductive Argument where
  | long (word : String) (attached? : Option String)
  | short (letter : Char)
  | separator
  | plain
deriving DecidableEq, Repr

def Argument.ofText (text : String) : Argument :=
  match text.toList with
  | ['-', '-'] => separator
  | '-' :: '-' :: rest =>
    match Text.cutFirst? '=' rest with
    | some (word, value) => long (String.ofList word) (some (String.ofList value))
    | none => long (String.ofList rest) none
  | '-' :: letter :: _ => short letter
  | _ => plain

def readFlags (allowed : List Flag) (given : Given) : List String → Except Halt Given
  | [] => .ok given
  | argument :: rest =>
    match Argument.ofText argument with
    | .plain => .error .badUsage
    | .separator => if rest.isEmpty then .ok given else .error .badUsage
    | .short letter => .error (if letter = 'h' then .help else .badUsage)
    | .long word attached? =>
      match allowed.find? fun flag => flag.word == word with
      | none => .error (if word = "help" ∧ attached? = none then .help else .badUsage)
      | some flag =>
        match flag.takesValue, attached? with
        | true, some value =>
          match given.add flag value with
          | .ok given => readFlags allowed given rest
          | .error halt => .error halt
        | true, none =>
          match rest with
          | [] => .error .badUsage
          | value :: others =>
            if Argument.ofText value = .plain then
              match given.add flag value with
              | .ok given => readFlags allowed given others
              | .error halt => .error halt
            else .error .badUsage
        | false, none =>
          match given.add flag "" with
          | .ok given => readFlags allowed given rest
          | .error halt => .error halt
        | false, some _ => .error .badUsage

def Command.discover? (arguments : List String) : Except Halt Command :=
  (readFlags Flag.ofDiscover [] arguments).bind fun given =>
    match given.value? .graph with
    | some graph => .ok (.discover graph given.overrides (given.value? .output))
    | none => .error .badUsage

def Command.scan? (arguments : List String) : Except Halt Command :=
  (readFlags Flag.ofScan [] arguments).map fun given =>
    .scan ((given.value? .path).getD ".") (!given.has .noIgnore) given.overrides
      (given.value? .output) (given.has .emitGraph)

/-- The command that arguments ask for. In front of the name of a command stands nothing else. -/
def Command.ofArguments : List String → Except Halt Command
  | [] => .error .badUsage
  | "discover" :: rest => discover? rest
  | "scan" :: rest => scan? rest
  | ["help"] => .error .help
  | ["help", topic] =>
    .error (if topic = "discover" ∨ topic = "scan" ∨ topic = "help" then .help else .badUsage)
  | first :: _ =>
    .error <| match Argument.ofText first with
      | .long "help" none => .help
      | .long "version" none => .version
      | .short 'h' => .help
      | .short 'V' => .version
      | _ => .badUsage

end ActionAtlas.CommandLine
