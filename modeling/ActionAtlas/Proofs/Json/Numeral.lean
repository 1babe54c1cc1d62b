import Mathlib
import ActionAtlas.Json.Writer
import ActionAtlas.Json.Numeral
import ActionAtlas.Proofs.Decimal.Shortest

/-!
Written numbers are numerals. What follows a numeral does not change it, as long as it cannot
prolong it; integers of 64 bits keep their value; the text of a double always has a point or an
exponent, so that it is read as a double again.
-/

namespace ActionAtlas.Json

/-- What follows a number without prolonging it. -/
def Terminates (rest : List Char) : Prop :=
  ∀ c ∈ rest.head?, c.isDigit = false ∧ c ≠ '.' ∧ c ≠ 'e' ∧ c ≠ 'E'

theorem terminates_nil : Terminates [] := by
  simp [Terminates]

theorem terminates_cons {c : Char} {rest : List Char} :
    Terminates (c :: rest) ↔ c.isDigit = false ∧ c ≠ '.' ∧ c ≠ 'e' ∧ c ≠ 'E' := by
  simp [Terminates]

/-- Decimal digits, where a zero comes first only alone. -/
structure IsWhole (text : List Char) : Prop where
  digits : ∀ c ∈ text, c.isDigit = true
  ne_nil : text ≠ []
  zero_alone : text.head? = some '0' → text = ['0']

theorem isDigit_of_mem_toDigits {n : Nat} : ∀ c ∈ Nat.toDigits 10 n, c.isDigit = true :=
  fun _ member => Nat.isDigit_of_mem_toDigits (by decide) (by decide) member

theorem head?_toDigits_ne_zero {n : Nat} (positive : 0 < n) :
    (Nat.toDigits 10 n).head? ≠ some '0' := by
  induction n using Nat.strongRecOn with
  | ind n ih =>
      by_cases small : n < 10
      · rw [Nat.toDigits_of_lt_base small]
        intro zero
        have same : n.digitChar = '0' := Option.some.inj zero
        rw [Nat.digitChar_eq_zero] at same
        omega
      · rw [Nat.toDigits_of_base_le (by decide) (by omega), List.head?_append]
        intro zero
        have none := ih (n / 10) (by omega) (by omega)
        cases first : (Nat.toDigits 10 (n / 10)).head? with
        | none => exact Nat.toDigits_ne_nil (List.head?_eq_none_iff.mp first)
        | some c =>
            rw [first, Option.some_or] at zero
            exact none (first.trans zero)

theorem isWhole_toDigits (n : Nat) : IsWhole (Nat.toDigits 10 n) where
  digits := isDigit_of_mem_toDigits
  ne_nil := Nat.toDigits_ne_nil
  zero_alone := by
    intro zero
    by_cases positive : 0 < n
    · exact absurd zero (head?_toDigits_ne_zero positive)
    · have none : n = 0 := by omega
      rw [none, Nat.toDigits_zero]

namespace Numeral

/-! ### Parts of a numeral -/

theorem digits_append {text behind : List Char} (all : ∀ c ∈ text, c.isDigit = true)
    (ends : ∀ c ∈ behind.head?, c.isDigit = false) :
    digits (text ++ behind) = (text.map digitValue, behind) := by
  have none : behind.takeWhile Char.isDigit = [] ∧ behind.dropWhile Char.isDigit = behind := by
    cases behind with
    | nil => exact ⟨rfl, rfl⟩
    | cons c behind =>
        have other : c.isDigit = false := ends c rfl
        simp [other]
  rw [digits, List.takeWhile_append_of_pos all, List.dropWhile_append_of_pos all, none.1, none.2,
    List.append_nil]

theorem someDigits_append {text behind : List Char} (all : ∀ c ∈ text, c.isDigit = true)
    (present : text ≠ []) (ends : ∀ c ∈ behind.head?, c.isDigit = false) :
    someDigits (text ++ behind) = .ok (text.map digitValue, behind) := by
  unfold someDigits
  rw [digits_append all ends]
  cases text with
  | nil => exact absurd rfl present
  | cons c text => rfl

theorem eq_zero_of_digitValue {c : Char} (digit : c.isDigit = true) (zero : digitValue c = 0) :
    c = '0' := by
  rw [Char.isDigit_iff_toNat] at digit
  unfold digitValue at zero
  apply Char.toNat_inj.mp
  omega

theorem wholeDigits_append {text behind : List Char} (whole : IsWhole text)
    (ends : ∀ c ∈ behind.head?, c.isDigit = false) :
    wholeDigits (text ++ behind) = .ok (text.map digitValue, behind) := by
  unfold wholeDigits
  rw [someDigits_append whole.digits whole.ne_nil ends]
  split
  · next second others rest zero =>
    -- The first digit would be a zero with another one behind.
    cases text with
    | nil => exact absurd rfl whole.ne_nil
    | cons c text =>
        simp only [List.map_cons, Except.ok.injEq, Prod.mk.injEq, List.cons.injEq] at zero
        have first : c = '0' :=
          eq_zero_of_digitValue (whole.digits c List.mem_cons_self) zero.1.1
        have alone := whole.zero_alone (by rw [first]; rfl)
        rw [List.cons.injEq] at alone
        rw [alone.2] at zero
        simp at zero
  · rfl

def fractionText (fraction : List Char) : List Char :=
  if fraction = [] then [] else '.' :: fraction

theorem fractionDigits_append {fraction behind : List Char}
    (all : ∀ c ∈ fraction, c.isDigit = true)
    (ends : ∀ c ∈ behind.head?, c.isDigit = false ∧ c ≠ '.') :
    fractionDigits (fractionText fraction ++ behind) = .ok (fraction.map digitValue, behind) := by
  by_cases none : fraction = []
  · subst none
    unfold fractionDigits
    split
    · next rest same =>
      rw [fractionText, if_pos rfl, List.nil_append] at same
      subst same
      exact absurd rfl (ends '.' rfl).2
    · rfl
  · rw [fractionText, if_neg none]
    exact someDigits_append all none fun c first => (ends c first).1

def exponentText : Option (Bool × List Char) → List Char
  | none => []
  | some (down, exponent) => 'e' :: (if down then '-' else '+') :: exponent

theorem exponentDigits_append {exponent? : Option (Bool × List Char)} {behind : List Char}
    (all : ∀ exponent ∈ exponent?, (∀ c ∈ exponent.2, c.isDigit = true) ∧ exponent.2 ≠ [])
    (ends : Terminates behind) :
    exponentDigits (exponentText exponent? ++ behind) =
      .ok (exponent?.map fun exponent => (exponent.1, exponent.2.map digitValue), behind) := by
  cases exponent? with
  | none =>
      cases behind with
      | nil => rfl
      | cons c behind =>
          have differs := (ends c rfl).2.2
          simp [exponentText, exponentDigits, differs]
  | some exponent =>
      obtain ⟨digits, present⟩ := all exponent rfl
      have read := someDigits_append digits present fun c first => (ends c first).1
      obtain ⟨down, text⟩ := exponent
      cases down <;> simp [exponentText, exponentDigits, read, Except.map]

def signed (negative : Bool) (text : List Char) : List Char :=
  if negative then '-' :: text else text

/-- A numeral from its parts, each read where the one before ends. -/
theorem read_signed {text afterWhole afterFraction rest : List Char} {whole fraction : List Nat}
    {exponent : Option (Bool × List Nat)} (negative : Bool)
    (wholeRead : wholeDigits text = .ok (whole, afterWhole))
    (fractionRead : fractionDigits afterWhole = .ok (fraction, afterFraction))
    (exponentRead : exponentDigits afterFraction = .ok (exponent, rest)) :
    read (signed negative text) = .ok (⟨negative, whole, fraction, exponent⟩, rest) := by
  cases negative with
  | true =>
      simp only [signed, if_true, read, wholeRead, fractionRead, exponentRead, bind, Except.bind,
        pure, Except.pure]
  | false =>
      cases text with
      | nil => cases wholeRead
      | cons c text =>
          have unsigned : c ≠ '-' := by
            rintro rfl
            cases wholeRead
          simp [signed, read, unsigned, wholeRead, fractionRead, exponentRead, bind, Except.bind,
            pure, Except.pure]

/-! ### Whole texts -/

/-- The text is the numeral, whatever follows that cannot prolong it. -/
def Spelling (text : List Char) (n : Numeral) : Prop :=
  ∀ rest, Terminates rest → read (text ++ rest) = .ok (n, rest)

def IsReal (n : Numeral) : Prop :=
  n.fraction ≠ [] ∨ n.exponent ≠ none

theorem spelling_signed {whole fraction : List Char} (negative : Bool)
    (exponent? : Option (Bool × List Char)) (proper : IsWhole whole) (digits : ∀ c ∈ fraction, c.isDigit = true)
    (all : ∀ exponent ∈ exponent?, (∀ c ∈ exponent.2, c.isDigit = true) ∧ exponent.2 ≠ []) :
    Spelling (signed negative (whole ++ (fractionText fraction ++ exponentText exponent?)))
      { negative, whole := whole.map digitValue, fraction := fraction.map digitValue,
        exponent := exponent?.map fun exponent => (exponent.1, exponent.2.map digitValue) } := by
  intro rest ends
  have apart : signed negative (whole ++ (fractionText fraction ++ exponentText exponent?)) ++ rest =
      signed negative (whole ++ (fractionText fraction ++ (exponentText exponent? ++ rest))) := by
    cases negative <;> simp [signed]
  have afterFraction : ∀ c ∈ (exponentText exponent? ++ rest).head?, c.isDigit = false ∧ c ≠ '.' := by
    cases exponent? with
    | none => exact fun c first => ⟨(ends c first).1, (ends c first).2.1⟩
    | some exponent => simp [exponentText]
  rw [apart]
  apply read_signed negative
  · apply wholeDigits_append proper
    by_cases none : fraction = []
    · rw [fractionText, if_pos none]
      exact fun c first => (afterFraction c first).1
    · rw [fractionText, if_neg none]
      simp
  · exact fractionDigits_append digits afterFraction
  · exact exponentDigits_append all ends

/-! ### Doubles -/

open Decimal

theorem isDigit_of_mem_zeros (count : Nat) : ∀ c ∈ zeros count, c.isDigit = true := by
  intro c member
  rw [List.eq_of_mem_replicate member]
  rfl

theorem isDigit_of_mem_append {front back : List Char} (first : ∀ c ∈ front, c.isDigit = true)
    (second : ∀ c ∈ back, c.isDigit = true) : ∀ c ∈ front ++ back, c.isDigit = true := by
  intro c member
  exact (List.mem_append.mp member).elim (first c) (second c)

theorem isWhole_take_append_zeros {text : List Char} (proper : IsWhole text) (whole : Nat)
    (positive : 0 < whole) (zero : text = ['0'] → whole = 1) :
    IsWhole (text.take whole ++ zeros (whole - text.length)) where
  digits := isDigit_of_mem_append (fun c member => proper.digits c (List.mem_of_mem_take member))
    (isDigit_of_mem_zeros (whole - text.length))
  ne_nil := by
    simp [proper.ne_nil]
    omega
  zero_alone := by
    intro first
    cases text with
    | nil => exact absurd rfl proper.ne_nil
    | cons c text =>
        obtain ⟨further, rfl⟩ := Nat.exists_eq_add_of_lt positive
        have front : c = '0' := by simpa using first
        have alone := proper.zero_alone (by rw [front]; rfl)
        rw [alone, zero alone]
        rfl

theorem exists_spelling_positional {text : List Char} (proper : IsWhole text) {whole : Int}
    (zero : text = ['0'] → whole ≤ 1) (negative : Bool) :
    ∃ n, Spelling (signed negative (positional text whole)) n ∧ n.IsReal := by
  unfold positional
  split
  · -- All digits stand behind the point.
    have all := isDigit_of_mem_append (isDigit_of_mem_zeros (-whole).toNat) proper.digits
    have spelled := spelling_signed negative none (isWhole_toDigits 0) all (by simp)
    refine ⟨_, by simpa [fractionText, exponentText, proper.ne_nil] using spelled, .inl ?_⟩
    simp [proper.ne_nil]
  · next positive =>
    have front := isWhole_take_append_zeros proper whole.toNat (by omega)
      fun alone => by have := zero alone; omega
    by_cases short : text.drop whole.toNat = []
    · have spelled := spelling_signed negative none front (isWhole_toDigits 0).digits (by simp)
      refine ⟨_, by simpa [short, fractionText, exponentText] using spelled, .inl (by simp)⟩
    · have all (c : Char) (member : c ∈ text.drop whole.toNat) : c.isDigit = true :=
        proper.digits c (List.mem_of_mem_drop member)
      have spelled := spelling_signed negative none front all (by simp)
      refine ⟨_, by simpa [short, fractionText, exponentText] using spelled, .inl ?_⟩
      simpa using short

theorem exists_spelling_scientific {text : List Char} (proper : IsWhole text) (leading : Int)
    (negative : Bool) :
    ∃ n, Spelling (signed negative (scientific text leading)) n ∧ n.IsReal := by
  cases text with
  | nil => exact absurd rfl proper.ne_nil
  | cons first others =>
      have front : IsWhole [first] := by
        refine ⟨fun c member => proper.digits c ?_, List.cons_ne_nil _ _, ?_⟩
        · rw [List.mem_singleton.mp member]
          exact List.mem_cons_self
        · intro zero
          rw [Option.some.inj zero]
      have all (c : Char) (member : c ∈ others) : c.isDigit = true :=
        proper.digits c (List.mem_cons_of_mem first member)
      have spelled := spelling_signed negative
        (some (decide (leading < 0), Nat.toDigits 10 leading.natAbs)) front all
        (by
          rintro exponent ⟨⟩
          exact ⟨isDigit_of_mem_toDigits, Nat.toDigits_ne_nil⟩)
      have same : scientific (first :: others) leading = [first] ++ (fractionText others ++
          exponentText (some (decide (leading < 0), Nat.toDigits 10 leading.natAbs))) := by
        cases others <;> simp [scientific, fractionText, exponentText]
      rw [same]
      exact ⟨_, spelled, .inr (by simp)⟩

theorem exists_spelling_render (layout : Layout) (x : Binary64) :
    ∃ n, Spelling (layout.render x).toList n ∧ n.IsReal := by
  have proper := isWhole_toDigits x.shortest.digits
  have zero (alone : Nat.toDigits 10 x.shortest.digits = ['0']) : x.shortest = ⟨0, 0⟩ := by
    apply Binary64.shortest_of_digits_eq_zero
    by_contra positive
    exact head?_toDigits_ne_zero (Nat.pos_of_ne_zero positive) (by rw [alone]; rfl)
  have signs : (layout.render x).toList = signed x.isNegative (layout.magnitude x.shortest) := by
    simp [Layout.render, signed]
  rw [signs]
  simp only [Layout.magnitude]
  split
  · apply exists_spelling_positional proper
    intro alone
    rw [zero alone]
    decide
  · exact exists_spelling_scientific proper _ x.isNegative

theorem exists_float_of_value? {n : Numeral} (real : n.IsReal) {number : Number}
    (value : n.value? = some number) : ∃ x, number = .float x := by
  have inexact (dropped : List Nat) :
      ¬(dropped = [] ∧ n.fraction = [] ∧ n.exponent = none) := by
    rintro ⟨-, noFraction, noExponent⟩
    exact real.elim (absurd noFraction) (absurd noExponent)
  simp only [value?, inexact, false_and, if_false, Option.map_eq_some_iff] at value
  obtain ⟨x, -, rfl⟩ := value
  exact ⟨x, rfl⟩

/-! ### Integers -/

theorem le_ofDigitChars (text : List Char) (total : Nat) :
    total ≤ Nat.ofDigitChars 10 text total := by
  rw [Nat.ofDigitChars_eq_ofDigitChars_zero]
  have := Nat.one_le_pow text.length 10 (by decide)
  nlinarith

/-- Digits of a number within the limit are all taken. -/
theorem accumulate_eq {limit : Nat} {text : List Char} {total : Nat}
    (within : Nat.ofDigitChars 10 text total ≤ limit) :
    accumulate limit (text.map digitValue) total = (Nat.ofDigitChars 10 text total, []) := by
  induction text generalizing total with
  | nil => rfl
  | cons c text ih =>
      have step : total * 10 + digitValue c = 10 * total + (c.toNat - '0'.toNat) := by
        rw [digitValue, Nat.mul_comm]
      rw [Nat.ofDigitChars_cons] at within ⊢
      have small := (le_ofDigitChars text _).trans within
      rw [List.map_cons, accumulate, step, if_neg (by omega), ih within]

def InWords (n : Int) : Prop :=
  -0x8000000000000000 ≤ n ∧ n < 0x10000000000000000

theorem value?_integer {n : Int} (fits : InWords n) :
    value? ⟨decide (n < 0), (Nat.toDigits 10 n.natAbs).map digitValue, [], none⟩ =
      some (.integer n) := by
  obtain ⟨least, most⟩ := fits
  have all : accumulate maxUnsigned ((Nat.toDigits 10 n.natAbs).map digitValue) 0 =
      (n.natAbs, []) := by
    have back := Nat.ofDigitChars_ten_toDigits (n := n.natAbs)
    rw [accumulate_eq (by rw [back, maxUnsigned]; omega), back]
  by_cases negative : n < 0
  · have small : 0 < n.natAbs ∧ n.natAbs ≤ 0x8000000000000000 := by omega
    have same : -(n.natAbs : Int) = n := by omega
    rw [value?, all]
    simp only [negative, small, decide_true, and_self, Bool.not_true, Bool.false_eq_true, and_false,
      if_true, if_false, same]
  · have same : (n.natAbs : Int) = n := by omega
    rw [value?, all]
    simp only [negative, decide_false, and_self, Bool.not_false, if_true, same]

end Numeral

/-! ### Written numbers -/

def Number.isFinite : Number → Bool
  | .integer _ => true
  | .float x => x.isFinite

def Number.reread? (number : Number) : Option Number :=
  match Numeral.read number.write with
  | .ok (n, _) => n.value?
  | .error _ => none

namespace Number

theorem spelling_writeInteger (n : Int) :
    Numeral.Spelling (writeInteger n)
      ⟨decide (n < 0), (Nat.toDigits 10 n.natAbs).map Numeral.digitValue, [], none⟩ := by
  have spelled := @Numeral.spelling_signed (Nat.toDigits 10 n.natAbs) [] (decide (n < 0)) none
    (isWhole_toDigits n.natAbs) (by simp) (by simp)
  have same : writeInteger n = Numeral.signed (decide (n < 0))
      (Nat.toDigits 10 n.natAbs ++ (Numeral.fractionText [] ++ Numeral.exponentText none)) := by
    simp [writeInteger, Numeral.signed, Numeral.fractionText, Numeral.exponentText]
  rw [same]
  exact spelled

theorem exists_spelling_write {number : Number} (finite : number.isFinite = true) :
    ∃ n, Numeral.Spelling number.write n ∧ number.reread? = n.value? := by
  have reads : ∃ n, Numeral.Spelling number.write n := by
    cases number with
    | integer n => exact ⟨_, spelling_writeInteger n⟩
    | float x =>
        obtain ⟨n, spelled, -⟩ := Numeral.exists_spelling_render numberLayout x
        have written : (Number.float x).write = (numberLayout.render x).toList := if_pos finite
        exact ⟨n, written ▸ spelled⟩
  obtain ⟨n, spelled⟩ := reads
  refine ⟨n, spelled, ?_⟩
  have alone := spelled [] terminates_nil
  rw [List.append_nil] at alone
  rw [reread?, alone]

theorem reread?_integer {n : Int} (fits : Numeral.InWords n) :
    reread? (.integer n) = some (.integer n) := by
  have alone := spelling_writeInteger n [] terminates_nil
  rw [List.append_nil] at alone
  rw [reread?, write, alone]
  exact Numeral.value?_integer fits

theorem exists_float_of_reread? {x : Decimal.Binary64} (finite : x.isFinite = true)
    {number : Number} (read : reread? (.float x) = some number) : ∃ y, number = .float y := by
  obtain ⟨n, spelled, real⟩ := Numeral.exists_spelling_render numberLayout x
  have alone := spelled [] terminates_nil
  rw [List.append_nil] at alone
  rw [reread?, write, if_pos finite, alone] at read
  exact Numeral.exists_float_of_value? real read

end Number

end ActionAtlas.Json
