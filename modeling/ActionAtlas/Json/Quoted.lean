import ActionAtlas.Text.Cut

/-!
Quoted strings of JSON. Writing escapes the quote, the backslash and the control characters
below U+0020, and nothing else: five of them by a letter, the rest by four hexadecimal digits in
lower case. Reading accepts those and the other escapes of the grammar, among them surrogate
pairs.
-/

namespace ActionAtlas.Json

inductive Flaw where
  | malformed
  | truncated
deriving DecidableEq, Repr

namespace Quoted

def letter? : Char → Option Char
  | '"' => some '"'
  | '\\' => some '\\'
  | '\x08' => some 'b'
  | '\x0c' => some 'f'
  | '\n' => some 'n'
  | '\r' => some 'r'
  | '\t' => some 't'
  | _ => none

def ofLetter? : Char → Option Char
  | '"' => some '"'
  | '\\' => some '\\'
  | '/' => some '/'
  | 'b' => some '\x08'
  | 'f' => some '\x0c'
  | 'n' => some '\n'
  | 'r' => some '\r'
  | 't' => some '\t'
  | _ => none

def hexDigit (n : Nat) : Char :=
  if n < 10 then Char.ofNat (48 + n) else Char.ofNat (87 + n)

def hexValue? (c : Char) : Option Nat :=
  if '0' ≤ c ∧ c ≤ '9' then some (c.toNat - 48)
  else if 'a' ≤ c ∧ c ≤ 'f' then some (c.toNat - 87)
  else if 'A' ≤ c ∧ c ≤ 'F' then some (c.toNat - 55)
  else none

def encodeChar (c : Char) : List Char :=
  match letter? c with
  | some letter => ['\\', letter]
  | none =>
    if c.toNat < 0x20 then
      ['\\', 'u', '0', '0', hexDigit (c.toNat / 16), hexDigit (c.toNat % 16)]
    else [c]

def encode (text : List Char) : List Char :=
  text.flatMap encodeChar

def write (text : String) : List Char :=
  '"' :: encode text.toList ++ ['"']

/-- The 16-bit unit behind a backslash and `u`. Text with fewer than four bytes left is
truncated, whatever those bytes are. -/
def unit (text : List Char) : Except Flaw (Nat × List Char) :=
  match text with
  | a :: b :: c :: d :: rest =>
    match hexValue? a, hexValue? b, hexValue? c, hexValue? d with
    | some a, some b, some c, some d => .ok (((a * 16 + b) * 16 + c) * 16 + d, rest)
    | _, _, _, _ =>
      .error .malformed
  | short =>
    .error (if 4 ≤ Text.byteLength short then .malformed else .truncated)

def escape (text : List Char) : Except Flaw (Char × List Char) :=
  match text with
  | [] => .error .truncated
  | 'u' :: rest =>
    match unit rest with
    | .error flaw => .error flaw
    | .ok (high, rest) =>
      if 0xDC00 ≤ high ∧ high ≤ 0xDFFF then .error .malformed
      else if high < 0xD800 ∨ 0xDBFF < high then .ok (Char.ofNat high, rest)
      else
        match rest with
        | [] => .error .truncated
        | ['\\'] => .error .truncated
        | '\\' :: 'u' :: rest =>
          match unit rest with
          | .error flaw => .error flaw
          | .ok (low, rest) =>
            if 0xDC00 ≤ low ∧ low ≤ 0xDFFF then
              .ok (Char.ofNat ((high - 0xD800) * 0x400 + (low - 0xDC00) + 0x10000), rest)
            else .error .malformed
        | _ => .error .malformed
  | c :: rest =>
    match ofLetter? c with
    | some plain => .ok (plain, rest)
    | none => .error .malformed

/-- The text behind one escape when it only has to be well formed. -/
def skipEscape (text : List Char) : Except Flaw (List Char) :=
  match text with
  | [] => .error .truncated
  | 'u' :: rest => (unit rest).map (·.2)
  | c :: rest => if (ofLetter? c).isSome then .ok rest else .error .malformed

theorem length_of_unit_eq_ok {text rest : List Char} {n : Nat} (read : unit text = .ok (n, rest)) :
    rest.length < text.length := by
  unfold unit at read
  split at read
  · split at read
    · simp only [Except.ok.injEq, Prod.mk.injEq] at read
      obtain ⟨-, rfl⟩ := read
      simp only [List.length_cons]
      omega
    · cases read
  · cases read

theorem length_of_escape_eq_ok {text rest : List Char} {c : Char}
    (read : escape text = .ok (c, rest)) : rest.length < text.length := by
  unfold escape at read
  split at read
  · cases read
  · next tail =>
    split at read
    · cases read
    · next high behind first =>
      have shorter := length_of_unit_eq_ok first
      split at read
      · cases read
      · split at read
        · simp only [Except.ok.injEq, Prod.mk.injEq] at read
          obtain ⟨-, rfl⟩ := read
          simp only [List.length_cons]
          omega
        · split at read
          · cases read
          · cases read
          · split at read
            · cases read
            · next low after second =>
              have again := length_of_unit_eq_ok second
              split at read
              · simp only [Except.ok.injEq, Prod.mk.injEq] at read
                obtain ⟨-, rfl⟩ := read
                simp only [List.length_cons] at *
                omega
              · cases read
          · cases read
  · split at read
    · simp only [Except.ok.injEq, Prod.mk.injEq] at read
      obtain ⟨-, rfl⟩ := read
      simp
    · cases read

theorem length_of_skipEscape_eq_ok {text rest : List Char} (read : skipEscape text = .ok rest) :
    rest.length < text.length := by
  unfold skipEscape at read
  split at read
  · cases read
  · next tail =>
    cases first : unit tail with
    | error flaw => simp [first, Except.map] at read
    | ok found =>
      have shorter : found.2.length < tail.length := length_of_unit_eq_ok first
      simp only [first, Except.map, Except.ok.injEq] at read
      subst read
      simp only [List.length_cons]
      omega
  · split at read
    · simp only [Except.ok.injEq] at read
      subst read
      simp
    · cases read

def decode (text : List Char) : Except Flaw (List Char × List Char) :=
  match text with
  | [] => .error .truncated
  | '"' :: rest => .ok ([], rest)
  | '\\' :: rest =>
    match _found : escape rest with
    | .error flaw => .error flaw
    | .ok (c, rest) => (decode rest).map fun found => (c :: found.1, found.2)
  | c :: rest =>
    if c.toNat < 0x20 then .error .malformed
    else (decode rest).map fun found => (c :: found.1, found.2)
termination_by text.length
decreasing_by
  · have := length_of_escape_eq_ok _found
    simp only [List.length_cons]
    omega
  · simp

/-- What follows the closing quote of a string whose value is not wanted. -/
def skip (text : List Char) : Except Flaw (List Char) :=
  match text with
  | [] => .error .truncated
  | '"' :: rest => .ok rest
  | '\\' :: rest =>
    match _found : skipEscape rest with
    | .error flaw => .error flaw
    | .ok rest => skip rest
  | c :: rest => if c.toNat < 0x20 then .error .malformed else skip rest
termination_by text.length
decreasing_by
  · have := length_of_skipEscape_eq_ok _found
    simp only [List.length_cons]
    omega
  · simp

theorem length_of_decode_eq_ok {text found rest : List Char}
    (read : decode text = .ok (found, rest)) : rest.length < text.length := by
  fun_induction decode text generalizing found rest with
  | case1 => cases read
  | case2 tail => cases read; simp
  | case3 => cases read
  | case4 tail c behind escaped ih =>
    cases later : decode behind with
    | error flaw => simp [later, Except.map] at read
    | ok inner =>
      have shorter := ih later
      have step := length_of_escape_eq_ok escaped
      simp only [later, Except.map, Except.ok.injEq, Prod.mk.injEq] at read
      simp only [List.length_cons, ← read.2]
      omega
  | case5 => cases read
  | case6 c tail _ _ _ ih =>
    cases later : decode tail with
    | error flaw => simp [later, Except.map] at read
    | ok inner =>
      have shorter := ih later
      simp only [later, Except.map, Except.ok.injEq, Prod.mk.injEq] at read
      simp only [List.length_cons, ← read.2]
      omega

theorem length_of_skip_eq_ok {text rest : List Char} (read : skip text = .ok rest) :
    rest.length < text.length := by
  fun_induction skip text with
  | case1 => cases read
  | case2 tail => cases read; simp
  | case3 => cases read
  | case4 tail behind escaped ih =>
    have shorter := ih read
    have step := length_of_skipEscape_eq_ok escaped
    simp only [List.length_cons]
    omega
  | case5 => cases read
  | case6 c tail _ _ _ ih =>
    have shorter := ih read
    simp only [List.length_cons]
    omega

end Quoted

end ActionAtlas.Json
