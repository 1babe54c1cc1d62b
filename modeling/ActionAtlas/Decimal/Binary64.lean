/-!
Doubles as their 64 bits, so that equality is decidable and tells the two zeros apart, and the
reading of decimals.
-/

namespace ActionAtlas.Decimal

structure Binary64 where
  bits : UInt64
deriving DecidableEq, Repr

namespace Binary64

def ofFloat (x : Float) : Binary64 :=
  ⟨x.toBits⟩

def toFloat (x : Binary64) : Float :=
  Float.ofBits x.bits

def zero : Binary64 := ⟨0⟩

def infinity : Binary64 := ⟨0x7FF0000000000000⟩

def negate (x : Binary64) : Binary64 :=
  ⟨x.bits ^^^ 0x8000000000000000⟩

def isNegative (x : Binary64) : Bool :=
  x.bits &&& 0x8000000000000000 != 0

/-- Neither infinite nor a NaN: the exponent field is not all ones. -/
def isFinite (x : Binary64) : Bool :=
  x.bits &&& infinity.bits != infinity.bits

/-- The double nearest to `digits * 10 ^ exponent`, ties to even; infinity beyond the range.
The two guards answer for exponents whose power of ten would be too large to compute. -/
def ofDecimal (digits : Nat) (exponent : Int) : Binary64 :=
  let magnitude := (Nat.toDigits 10 digits).length + exponent
  if digits = 0 then zero
  else if 310 < magnitude then infinity
  else if magnitude < -330 then zero
  else ofFloat (Float.ofScientific digits (exponent < 0) exponent.natAbs)

def ofInt (n : Int) : Binary64 :=
  let size := ofDecimal n.natAbs 0
  if n < 0 then size.negate else size

end Binary64

end ActionAtlas.Decimal
