/-!
Natural numbers written in the digits of a base up to 16.
-/

namespace ActionAtlas.Text

/-- The value of a digit. Letters count from ten on, in either case. -/
def digitValue? (base : Nat) (c : Char) : Option Nat :=
  let value? :=
    if c.isDigit then some (c.toNat - 48)
    else if 'a' ≤ c ∧ c ≤ 'f' then some (c.toNat - 87)
    else if 'A' ≤ c ∧ c ≤ 'F' then some (c.toNat - 55)
    else none
  value?.filter (· < base)

def valueOf? (base : Nat) : Nat → List Char → Option Nat
  | total, [] => some total
  | total, c :: rest => (digitValue? base c).bind fun digit => valueOf? base (total * base + digit) rest

def natural? (base : Nat) (digits : List Char) : Option Nat :=
  if digits.isEmpty then none else valueOf? base 0 digits

/-- The natural number of at most 64 bits that decimal digits spell, if need be behind a plus
sign. -/
def word? (text : List Char) : Option Nat :=
  let digits := match text with
    | '+' :: digits => digits
    | digits => digits
  (natural? 10 digits).filter (· < 0x10000000000000000)

end ActionAtlas.Text
