/-!
What a discovery can be told.
-/

namespace ActionAtlas.Mvc

def frameworkBases : List String :=
  ["Microsoft.AspNetCore.Mvc.Controller", "Microsoft.AspNetCore.Mvc.ControllerBase"]

structure Options where
  controllerBases : List String
  controllerSuffix : String
  skipAbstract : Bool
  /-- The number of types from which on work is shared out; never if it is zero. -/
  parallelThreshold : Nat
  /-- A limit in milliseconds. -/
  timeout? : Option Nat
deriving DecidableEq, Repr

end ActionAtlas.Mvc
