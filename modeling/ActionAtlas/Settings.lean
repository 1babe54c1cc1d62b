import ActionAtlas.Mvc.Options
import ActionAtlas.Text.Blank
import ActionAtlas.Text.Digits

/-!
Settings of a run that environment variables give.

A variable that is not set, or whose text cannot be read, leaves the setting as it is by default.
Switches and numbers may stand between blanks; the controller suffix is taken as it is.
-/

namespace ActionAtlas

structure Settings where
  skipAbstract : Bool
  controllerSuffix : String
  parallelThreshold : Nat
  /-- The time limit in milliseconds. There is none if it is zero. -/
  timeout : Nat
deriving DecidableEq, Repr

namespace Settings

def standard : Settings :=
  { skipAbstract := true
    controllerSuffix := "Controller"
    parallelThreshold := 256
    timeout := 0 }

/-- A switch in one of its usual spellings, in either case of ASCII letters. -/
def switch? (text : String) : Option Bool :=
  match String.ofList ((Text.trim text.toList).map Char.toLower) with
  | "1" | "yes" | "on" | "true" => some true
  | "0" | "no" | "off" | "false" => some false
  | _ => none

def number? (text : String) : Option Nat :=
  Text.word? (Text.trim text.toList)

def variableNames : List String :=
  ["URLACTION_SKIP_ABSTRACT", "URLACTION_CONTROLLER_SUFFIX", "URLACTION_PARALLEL_THRESHOLD",
    "URLACTION_TIMEOUT_MS"]

def ofEnvironment (lookup : String → Option String) : Settings :=
  { skipAbstract :=
      ((lookup "URLACTION_SKIP_ABSTRACT").bind switch?).getD standard.skipAbstract
    controllerSuffix :=
      (lookup "URLACTION_CONTROLLER_SUFFIX").getD standard.controllerSuffix
    parallelThreshold :=
      ((lookup "URLACTION_PARALLEL_THRESHOLD").bind number?).getD standard.parallelThreshold
    timeout := ((lookup "URLACTION_TIMEOUT_MS").bind number?).getD standard.timeout }

def limit? (timeout : Nat) : Option Nat :=
  if timeout = 0 then none else some timeout

def options (settings : Settings) : Mvc.Options :=
  { controllerBases := Mvc.frameworkBases
    controllerSuffix := settings.controllerSuffix
    skipAbstract := settings.skipAbstract
    parallelThreshold := settings.parallelThreshold
    timeout? := limit? settings.timeout }

end Settings

end ActionAtlas
