import Std.Data.HashMap
import ActionAtlas.Mvc.Model

/-!
Grouping controllers by area. Areas stand in the order in which they first occur, and the
controllers of an area in the order in which they were put there.
-/

namespace ActionAtlas.Mvc

def Area.add (controller : Controller) (area : Area) : Area :=
  { area with controllers := area.controllers ++ [controller] }

structure Grouping where
  areas : List Area
  positions : Std.HashMap String Nat

namespace Grouping

def empty : Grouping := ⟨[], ∅⟩

/-- Puts a controller into an area, which is opened if need be. -/
def push (grouping : Grouping) (area : String) (controller : Controller) : Grouping :=
  match grouping.positions[area]? with
  | some position =>
    { grouping with areas := grouping.areas.modify position (Area.add controller) }
  | none =>
    { areas := grouping.areas ++ [{ name := area, controllers := [controller] }],
      positions := grouping.positions.insert area grouping.areas.length }

def ofPairs (pairs : List (String × Controller)) : Grouping :=
  pairs.foldl (fun grouping pair => grouping.push pair.1 pair.2) empty

end Grouping

end ActionAtlas.Mvc
