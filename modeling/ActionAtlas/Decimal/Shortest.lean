import ActionAtlas.Decimal.Binary64

/-!
The fewest decimal digits that identify a double.

A finite double stands for the interval of reals that round to it. `shortest` looks for a
decimal in that interval on the grids of one, two, … seventeen digits. On the first grid that
has one it takes the decimal nearest to the double, and of two equally near ones the even one.
All comparisons are between natural numbers.
-/

namespace ActionAtlas.Decimal

def twoTo (exponent : Int) : Nat :=
  Nat.pow 2 exponent.toNat

def tenTo (exponent : Int) : Nat :=
  Nat.pow 10 exponent.toNat

structure Scaled where
  digits : Nat
  exponent : Int
deriving DecidableEq, Repr

/-- The magnitude of a finite double: `mantissa * 2 ^ power`. The gap to the double below is
half the gap to the one above where `narrow` holds. -/
structure Dyadic where
  mantissa : Nat
  power : Int
  narrow : Bool
deriving DecidableEq, Repr

def Binary64.magnitude (x : Binary64) : Dyadic :=
  let field := ((x.bits >>> 52) &&& 0x7FF).toNat
  let fraction := (x.bits &&& 0xFFFFFFFFFFFFF).toNat
  if field = 0 then ⟨fraction, -1074, false⟩
  else ⟨0x10000000000000 + fraction, (field : Int) - 1075, fraction = 0 && 1 < field⟩

def Scaled.compareDyadic (d : Scaled) (units : Nat) (power : Int) : Ordering :=
  compare (d.digits * tenTo d.exponent * twoTo (-power))
    (units * twoTo power * tenTo (-d.exponent))

namespace Dyadic

/-- Whether the decimal lies in the interval of reals that round to the double. The ends, halfway
to the neighbours, belong to it when the mantissa is even. -/
def identifiedBy (x : Dyadic) (d : Scaled) : Bool :=
  let closed := x.mantissa % 2 = 0
  let below := d.compareDyadic (4 * x.mantissa - if x.narrow then 1 else 2) (x.power - 2)
  let above := d.compareDyadic (4 * x.mantissa + 2) (x.power - 2)
  (below = .gt || closed && below = .eq) && (above = .lt || closed && above = .eq)

/-- The number of decimal places before the point, negative for zeros behind it: the least `k`
with the value below `10 ^ k`. -/
def places (x : Dyadic) : Int :=
  let scaled := x.mantissa * tenTo 400 * twoTo x.power / twoTo (-x.power)
  (Nat.toDigits 10 scaled).length - 400

def floorAt (x : Dyadic) (exponent : Int) : Nat :=
  x.mantissa * twoTo x.power * tenTo (-exponent) / (twoTo (-x.power) * tenTo exponent)

def onGrid? (x : Dyadic) (exponent : Int) : Option Scaled :=
  let lower := x.floorAt exponent
  let below : Scaled := ⟨lower, exponent⟩
  let above : Scaled := ⟨lower + 1, exponent⟩
  match x.identifiedBy below, x.identifiedBy above with
  | true, true =>
    -- Twice the value against the sum of its two neighbours on the grid.
    match (Scaled.mk (2 * lower + 1) exponent).compareDyadic x.mantissa (x.power + 1) with
    | .gt => some below
    | .lt => some above
    | .eq => some (if lower % 2 = 0 then below else above)
  | true, false => some below
  | false, true => some above
  | false, false => none

def exactDecimal (x : Dyadic) : Scaled :=
  if x.power < 0 then ⟨x.mantissa * Nat.pow 5 (-x.power).toNat, x.power⟩
  else ⟨x.mantissa * twoTo x.power, 0⟩

end Dyadic

/-- Drops final zeros from the digits; the fuel is any bound on their number. -/
def Scaled.strip : Nat → Scaled → Scaled
  | 0, d => d
  | bound + 1, d =>
    if d.digits ≠ 0 ∧ d.digits % 10 = 0 then Scaled.strip bound ⟨d.digits / 10, d.exponent + 1⟩
    else d

def Binary64.shortest (x : Binary64) : Scaled :=
  let value := x.magnitude
  if value.mantissa = 0 then ⟨0, 0⟩
  else
    let grids := (List.range 17).map fun n : Nat => value.places - 1 - n
    let found := (grids.findSome? value.onGrid?).getD value.exactDecimal
    found.strip (Nat.toDigits 10 found.digits).length

end ActionAtlas.Decimal
