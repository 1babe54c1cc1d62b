import ActionAtlas.Json.Value
import ActionAtlas.Json.Quoted

/-!
Numbers of JSON: the grammar, and the value of a numeral.

Integers of 64 bits, signed or not, are exact. Every other numeral is a double: its first digits,
as many as fit 64 bits, are scaled by one multiplication or division by a power of ten. So the
last bit of a double with many digits may differ from the nearest one's. A numeral beyond the
range of doubles has no value.
-/

namespace ActionAtlas.Json

structure Numeral where
  negative : Bool
  whole : List Nat
  fraction : List Nat
  exponent : Option (Bool × List Nat)
deriving DecidableEq, Repr

namespace Numeral

def digitValue (c : Char) : Nat :=
  c.toNat - '0'.toNat

def digits (text : List Char) : List Nat × List Char :=
  ((text.takeWhile Char.isDigit).map digitValue, text.dropWhile Char.isDigit)

def missingDigit (rest : List Char) : Flaw :=
  if rest.isEmpty then .truncated else .malformed

def someDigits (text : List Char) : Except Flaw (List Nat × List Char) :=
  match digits text with
  | ([], rest) => .error (missingDigit rest)
  | found => .ok found

/-- The digits before the point: a zero stands alone. -/
def wholeDigits (text : List Char) : Except Flaw (List Nat × List Char) :=
  match someDigits text with
  | .ok (0 :: _ :: _, _) => .error .malformed
  | other => other

def fractionDigits (text : List Char) : Except Flaw (List Nat × List Char) :=
  match text with
  | '.' :: rest => someDigits rest
  | _ => .ok ([], text)

def exponentDigits (text : List Char) : Except Flaw (Option (Bool × List Nat) × List Char) :=
  match text with
  | mark :: rest =>
    if mark = 'e' ∨ mark = 'E' then
      match rest with
      | '+' :: rest => (someDigits rest).map fun found => (some (false, found.1), found.2)
      | '-' :: rest => (someDigits rest).map fun found => (some (true, found.1), found.2)
      | _ => (someDigits rest).map fun found => (some (false, found.1), found.2)
    else .ok (none, text)
  | [] => .ok (none, text)

def read (text : List Char) : Except Flaw (Numeral × List Char) := do
  let (negative, text) := match text with
    | '-' :: rest => (true, rest)
    | _ => (false, text)
  let (whole, text) ← wholeDigits text
  let (fraction, text) ← fractionDigits text
  let (exponent, text) ← exponentDigits text
  return ({ negative, whole, fraction, exponent }, text)

theorem length_digits (text : List Char) : (digits text).2.length ≤ text.length :=
  (List.dropWhile_sublist _).length_le

theorem length_of_someDigits_eq_ok {text rest : List Char} {found : List Nat}
    (read : someDigits text = .ok (found, rest)) : rest.length ≤ text.length := by
  have bound := length_digits text
  unfold someDigits at read
  split at read
  · cases read
  · simp_all

theorem length_of_wholeDigits_eq_ok {text rest : List Char} {found : List Nat}
    (read : wholeDigits text = .ok (found, rest)) : rest.length ≤ text.length := by
  unfold wholeDigits at read
  split at read
  · cases read
  · exact length_of_someDigits_eq_ok read

theorem length_of_wholeDigits_cons_eq_ok {c : Char} {text rest : List Char} {found : List Nat}
    (digit : c.isDigit = true) (read : wholeDigits (c :: text) = .ok (found, rest)) :
    rest.length ≤ text.length := by
  unfold wholeDigits at read
  split at read
  · cases read
  · unfold someDigits at read
    split at read
    · cases read
    · cases read
      simp only [List.dropWhile_cons, digit, if_true]
      exact (List.dropWhile_sublist _).length_le

theorem length_of_fractionDigits_eq_ok {text rest : List Char} {found : List Nat}
    (read : fractionDigits text = .ok (found, rest)) : rest.length ≤ text.length := by
  unfold fractionDigits at read
  split at read
  · have := length_of_someDigits_eq_ok read
    simp only [List.length_cons]
    omega
  · cases read
    exact Nat.le_refl _

theorem length_of_exponentDigits_eq_ok {text rest : List Char} {found : Option (Bool × List Nat)}
    (read : exponentDigits text = .ok (found, rest)) : rest.length ≤ text.length := by
  have mapped (text behind : List Char) (down : Bool)
      (read : (someDigits text).map (fun found => (some (down, found.1), found.2)) =
        .ok (found, behind)) : behind.length ≤ text.length := by
    cases inner : someDigits text with
    | error flaw => simp [inner, Except.map] at read
    | ok digits =>
      simp only [inner, Except.map, Except.ok.injEq, Prod.mk.injEq] at read
      rw [← read.2]
      exact @length_of_someDigits_eq_ok text digits.2 digits.1 inner
  unfold exponentDigits at read
  split at read
  · split at read
    · split at read <;>
      · have := mapped _ _ _ read
        simp only [List.length_cons] at *
        omega
    · cases read
      exact Nat.le_refl _
  · cases read
    exact Nat.le_refl _

/-- Appends digits to a number as long as it stays at most `limit`; the digits left over. -/
def accumulate (limit : Nat) : List Nat → Nat → Nat × List Nat
  | [], total => (total, [])
  | digit :: others, total =>
    if limit < total * 10 + digit then (total, digit :: others)
    else accumulate limit others (total * 10 + digit)

def powerOfTen (n : Nat) : Float :=
  Float.ofScientific 1 false n

/-- Scales by a power of ten in one step, or two when dividing by more than the greatest power
among the doubles. -/
def scale? (x : Float) (exponent : Int) : Option Float :=
  if 0 ≤ exponent then
    if exponent ≤ 308 then
      let scaled := x * powerOfTen exponent.toNat
      if scaled.isInf then none else some scaled
    else if x == 0 then some x else none
  else if -308 ≤ exponent then some (x / powerOfTen (-exponent).toNat)
  else
    let first := x / powerOfTen 308
    if -616 ≤ exponent then some (first / powerOfTen (-exponent - 308).toNat)
    else some (first / powerOfTen 308)

def maxExponent : Nat := 0x7FFFFFFF

/-- The double nearest to digits and exponent, as far as one scaling step gives it. -/
def double? (negative : Bool) (significand : Nat) (shift : Int)
    (exponent : Option (Bool × List Nat)) : Option Decimal.Binary64 :=
  let start := (Decimal.Binary64.ofDecimal significand 0).toFloat
  let size :=
    match exponent with
    | none => scale? start shift
    | some (down, digits) =>
      match accumulate maxExponent digits 0 with
      | (size, []) => scale? start (if down then shift - size else shift + size)
      | _ => if significand ≠ 0 ∧ !down then none else some 0
  size.map fun x => let x := Decimal.Binary64.ofFloat x; if negative then x.negate else x

def maxUnsigned : Nat := 0xFFFFFFFFFFFFFFFF

def value? (n : Numeral) : Option Number :=
  let (significand, dropped) := accumulate maxUnsigned n.whole 0
  let exact := dropped = [] ∧ n.fraction = [] ∧ n.exponent = none
  if exact ∧ !n.negative then some (.integer significand)
  else if exact ∧ 0 < significand ∧ significand ≤ 0x8000000000000000 then some (.integer (-significand))
  else
    let (significand, unread) := accumulate maxUnsigned n.fraction significand
    let shift : Int := dropped.length - (n.fraction.length - unread.length : Nat)
    (double? n.negative significand shift n.exponent).map Number.float

end Numeral

end ActionAtlas.Json
