import ActionAtlas.Decimal.Shortest

/-!
How the digits of a number are laid out.

A `Layout` says which decimal exponents are written positionally. Positional numbers have at
least one digit on each side of the point; the others have one digit before it, and an exponent
that always carries its sign.
-/

namespace ActionAtlas.Decimal

/-- Numbers whose first digit has an exponent from `plainFrom` to `plainTo` are written out. -/
structure Layout where
  plainFrom : Int
  plainTo : Int
deriving DecidableEq, Repr

def zeros (count : Nat) : List Char :=
  List.replicate count '0'

def positional (digits : List Char) (whole : Int) : List Char :=
  if whole ≤ 0 then '0' :: '.' :: zeros (-whole).toNat ++ digits
  else
    let before := digits.take whole.toNat
    let after := digits.drop whole.toNat
    before ++ zeros (whole.toNat - digits.length) ++ '.' :: if after = [] then ['0'] else after

def scientific (digits : List Char) (leading : Int) : List Char :=
  let sign := if leading < 0 then '-' else '+'
  let tail := 'e' :: sign :: Nat.toDigits 10 leading.natAbs
  match digits with
  | [] => tail
  | [first] => first :: tail
  | first :: others => first :: '.' :: others ++ tail

def Layout.magnitude (layout : Layout) (d : Scaled) : List Char :=
  let digits := Nat.toDigits 10 d.digits
  let leading := d.exponent + digits.length - 1
  if layout.plainFrom ≤ leading ∧ leading ≤ layout.plainTo then positional digits (leading + 1)
  else scientific digits leading

def Layout.render (layout : Layout) (x : Binary64) : String :=
  let magnitude := layout.magnitude x.shortest
  String.ofList (if x.isNegative then '-' :: magnitude else magnitude)

end ActionAtlas.Decimal
