import ActionAtlas.Decimal.Binary64

/-!
JSON values. Fields keep the order and the repetitions they are written with. A number with a
point or an exponent is a double whatever its value.
-/

namespace ActionAtlas.Json

inductive Number where
  | integer (value : Int)
  | float (value : Decimal.Binary64)
deriving DecidableEq, Repr

inductive Value where
  | null
  | bool (value : Bool)
  | number (value : Number)
  | string (text : String)
  | array (items : List Value)
  | object (fields : List (String × Value))
deriving Repr

namespace Value

def integer (value : Int) : Value :=
  number (.integer value)

mutual

def depth : Value → Nat
  | null => 0
  | bool _ => 0
  | number _ => 0
  | string _ => 0
  | array items => depthOfItems items + 1
  | object fields => depthOfFields fields + 1

def depthOfItems : List Value → Nat
  | [] => 0
  | item :: others => max item.depth (depthOfItems others)

def depthOfFields : List (String × Value) → Nat
  | [] => 0
  | (_, value) :: others => max value.depth (depthOfFields others)

end

end Value

end ActionAtlas.Json
