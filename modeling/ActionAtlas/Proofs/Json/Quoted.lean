import Mathlib
import ActionAtlas.Json.Quoted

/-!
Written strings read back. Each written character, escaped or not, is read as that character with
whatever follows left alone, so a string ends at its own closing quote.
-/

namespace ActionAtlas.Json.Quoted

/-! ### Escapes -/

theorem hexValue?_hexDigit : ∀ n < 16, hexValue? (hexDigit n) = some n := by
  decide

theorem ofLetter?_of_letter? {c letter : Char} (written : letter? c = some letter) :
    letter ≠ 'u' ∧ ofLetter? letter = some c := by
  unfold letter? at written
  split at written <;> cases written <;> decide

theorem escape_letter {c letter : Char} (written : letter? c = some letter) (rest : List Char) :
    escape (letter :: rest) = .ok (c, rest) := by
  obtain ⟨other, meaning⟩ := ofLetter?_of_letter? written
  unfold escape
  split
  · next empty => cases empty
  · next same =>
    cases same
    exact absurd rfl other
  · next same =>
    cases same
    rw [meaning]

theorem unit_control {n : Nat} (control : n < 0x20) (rest : List Char) :
    unit ('0' :: '0' :: hexDigit (n / 16) :: hexDigit (n % 16) :: rest) = .ok (n, rest) := by
  have high := hexValue?_hexDigit (n / 16) (by omega)
  have low := hexValue?_hexDigit (n % 16) (by omega)
  have zero : hexValue? '0' = some 0 := by decide
  have whole : ((0 * 16 + 0) * 16 + n / 16) * 16 + n % 16 = n := by omega
  simp only [unit, zero, high, low, whole]

theorem escape_control {c : Char} (control : c.toNat < 0x20) (rest : List Char) :
    escape ('u' :: '0' :: '0' :: hexDigit (c.toNat / 16) :: hexDigit (c.toNat % 16) :: rest) =
      .ok (c, rest) := by
  have noLow : ¬(0xDC00 ≤ c.toNat ∧ c.toNat ≤ 0xDFFF) := by omega
  have noHigh : c.toNat < 0xD800 ∨ 0xDBFF < c.toNat := by omega
  have same : Char.ofNat c.toNat = c := Char.ofNat_toNat c
  simp only [escape, unit_control control, if_neg noLow, if_pos noHigh, same]

/-! ### Characters and strings -/

theorem decode_quote (rest : List Char) : decode ('"' :: rest) = .ok ([], rest) := by
  rw [decode]

theorem decode_escape {text rest : List Char} {c : Char} (read : escape text = .ok (c, rest)) :
    decode ('\\' :: text) = (decode rest).map fun found => (c :: found.1, found.2) := by
  rw [decode]
  split
  · next flaw failed =>
    rw [read] at failed
    cases failed
  · next d behind again =>
    rw [read] at again
    cases again
    rfl

theorem decode_encodeChar (c : Char) (rest : List Char) :
    decode (encodeChar c ++ rest) =
      (decode rest).map fun found => (c :: found.1, found.2) := by
  unfold encodeChar
  cases written : letter? c with
  | some letter => exact decode_escape (escape_letter written rest)
  | none =>
      by_cases control : c.toNat < 0x20
      · simp only [if_pos control]
        exact decode_escape (escape_control control rest)
      · have noQuote : c ≠ '"' := by
          rintro rfl
          cases written
        have noBackslash : c ≠ '\\' := by
          rintro rfl
          cases written
        simp only [if_neg control, List.cons_append, List.nil_append]
        rw [decode.eq_4 c rest noQuote noBackslash, if_neg control]

theorem decode_encode (text rest : List Char) :
    decode (encode text ++ '"' :: rest) = .ok (text, rest) := by
  induction text with
  | nil => exact decode_quote rest
  | cons c text ih =>
      rw [encode, List.flatMap_cons, List.append_assoc, decode_encodeChar]
      rw [encode] at ih
      rw [ih]
      rfl

/-- A written string is no beginning of another one. -/
theorem write_append_inj {text other : String} {rest behind : List Char}
    (same : write text ++ rest = write other ++ behind) : text = other ∧ rest = behind := by
  simp only [write, List.cons_append, List.append_assoc, List.nil_append, List.cons.injEq,
    true_and] at same
  have read := congrArg decode same
  rw [decode_encode, decode_encode, Except.ok.injEq, Prod.mk.injEq] at read
  exact ⟨String.toList_injective read.1, read.2⟩

end ActionAtlas.Json.Quoted
