import Mathlib.Tactic.SplitIfs
import ActionAtlas.Text.Utf8

/-!
The bytes of a text in UTF-8. They are in the order of the characters, so that texts compare alike
by either, and they are read back as the text.
-/

namespace ActionAtlas.Text

theorem bytes_eq (text : String) : bytes text = text.toList.flatMap String.utf8EncodeChar := by
  have encoded (characters : List Char) : bytes (String.ofList characters) =
      characters.flatMap String.utf8EncodeChar := by
    rw [bytes, String.toUTF8_eq_toByteArray, String.toByteArray_ofList, List.utf8Encode,
      List.data_toByteArray]
  rw [← encoded, String.ofList_toList]

theorem bytes_append (text other : String) : bytes (text ++ other) = bytes text ++ bytes other := by
  rw [bytes_eq, String.toList_append, List.flatMap_append, bytes_eq, bytes_eq]

theorem bytes_intercalate (mark : String) (texts : List String) :
    bytes (mark.intercalate texts) = (bytes mark).intercalate (texts.map bytes) := by
  induction texts with
  | nil =>
      rw [String.intercalate_nil, List.map_nil, List.intercalate_nil]
      rfl
  | cons text others ih =>
      cases others with
      | nil => simp
      | cons next more =>
          rw [String.intercalate_cons_cons, bytes_append, bytes_append, ih]
          exact List.intercalate_cons_cons.symm

/-! ### Order -/

/-- The first byte tells how many follow, and more follow in larger characters. Among characters of
one length the bytes hold the digits to base 64, the highest first. -/
theorem utf8EncodeChar_append_lt {c d : Char} (lt : c < d) (text other : List UInt8) :
    String.utf8EncodeChar c ++ text < String.utf8EncodeChar d ++ other := by
  have numbers : c.val.toNat < d.val.toNat := lt
  have bound : d.val.toNat < 0x110000 := by
    have valid := d.valid
    simp only [UInt32.isValidChar, Nat.isValidChar] at valid
    omega
  have byte {n : Nat} (small : n < 256) : (UInt8.ofNat n).toNat = n :=
    UInt8.toNat_ofNat_of_lt' small
  have third (n : Nat) : n / 4096 = n / 64 / 64 := (Nat.div_div_eq_div_mul n 64 64).symm
  have fourth (n : Nat) : n / 262144 = n / 64 / 64 / 64 := by omega
  unfold String.utf8EncodeChar
  generalize c.val.toNat = v at *
  generalize d.val.toNat = w at *
  dsimp only
  split_ifs <;>
    simp (disch := omega) only [List.cons_append, List.nil_append, List.cons_lt_cons_iff,
      UInt8.lt_iff_toNat_lt, ← UInt8.toNat_inj, byte, third, fourth] <;> omega

theorem flatMap_utf8EncodeChar_lt {text other : List Char} (lt : text < other) :
    text.flatMap String.utf8EncodeChar < other.flatMap String.utf8EncodeChar := by
  induction text generalizing other with
  | nil =>
      cases other with
      | nil => exact absurd lt (List.lt_irrefl [])
      | cons d rest =>
          obtain ⟨byte, others, encoded⟩ :=
            List.exists_cons_of_ne_nil (@String.utf8EncodeChar_ne_nil d)
          rw [List.flatMap_nil, List.flatMap_cons, encoded]
          exact List.nil_lt_cons byte _
  | cons c more ih =>
      cases other with
      | nil => exact absurd lt (List.not_lt_nil _)
      | cons d rest =>
          rw [List.flatMap_cons, List.flatMap_cons]
          rcases List.cons_lt_cons_iff.mp lt with smaller | ⟨rfl, behind⟩
          · exact utf8EncodeChar_append_lt smaller _ _
          · exact List.append_left_lt (ih behind)

theorem bytes_lt_bytes {text other : String} (lt : text < other) : bytes text < bytes other := by
  rw [bytes_eq, bytes_eq]
  exact flatMap_utf8EncodeChar_lt (String.lt_iff.mp lt)

theorem bytes_le_bytes {text other : String} (le : text ≤ other) : bytes text ≤ bytes other := by
  by_cases same : text = other
  · rw [same]
    exact List.le_refl _
  · exact List.le_of_lt (bytes_lt_bytes (Std.lt_of_le_of_ne le same))

/-! ### Reading back -/

theorem lossyBehind_eq_drop (read : Nat) (bytes : List UInt8) :
    lossyBehind read bytes = lossyBehind 0 (bytes.drop read) := by
  induction read generalizing bytes with
  | zero => rw [List.drop_zero]
  | succ read ih =>
      cases bytes with
      | nil => rfl
      | cons b rest => rw [lossyBehind, ih, List.drop_succ_cons]

theorem lossyBehind_utf8EncodeChar_append (c : Char) (rest : List UInt8) :
    lossyBehind 0 (String.utf8EncodeChar c ++ rest) = c :: lossyBehind 0 rest := by
  obtain ⟨first, others, encoded⟩ := List.exists_cons_of_ne_nil (@String.utf8EncodeChar_ne_nil c)
  have decoded : (first :: (others ++ rest)).toByteArray.utf8DecodeChar? 0 = some c := by
    rw [← List.cons_append, ← encoded, List.toByteArray_append]
    exact ByteArray.utf8DecodeChar?_utf8EncodeChar_append
  have size : c.utf8Size - 1 = others.length := by
    rw [← String.length_utf8EncodeChar, encoded, List.length_cons, Nat.add_sub_cancel]
  rw [encoded, List.cons_append, lossyBehind, decoded]
  simp only
  rw [lossyBehind_eq_drop, size, List.drop_left]

theorem lossy_bytes (text : String) : lossy (bytes text) = text := by
  have back (characters : List Char) :
      lossyBehind 0 (characters.flatMap String.utf8EncodeChar) = characters := by
    induction characters with
    | nil => rfl
    | cons c rest ih => rw [List.flatMap_cons, lossyBehind_utf8EncodeChar_append, ih]
  rw [lossy, bytes_eq, back, String.ofList_toList]

theorem bytes_inj {text other : String} : bytes text = bytes other ↔ text = other := by
  refine ⟨fun same => ?_, congrArg bytes⟩
  rw [← lossy_bytes text, same, lossy_bytes]

/-- A byte below 128 stands only in the character of that number. -/
theorem toNat_eq_of_mem_utf8EncodeChar {b : UInt8} {c : Char}
    (inside : b ∈ String.utf8EncodeChar c) (single : b < 128) : c.toNat = b.toNat := by
  have bound : c.val.toNat < 0x110000 := by
    have valid := c.valid
    simp only [UInt32.isValidChar, Nat.isValidChar] at valid
    omega
  have byte {n : Nat} (small : n < 256) : (UInt8.ofNat n).toNat = n :=
    UInt8.toNat_ofNat_of_lt' small
  have small : b.toNat < 128 := single
  unfold String.utf8EncodeChar at inside
  rw [Char.toNat]
  generalize c.val.toNat = v at *
  dsimp only at inside
  split_ifs at inside <;>
    simp (disch := omega) only [List.mem_cons, List.not_mem_nil, or_false, ← UInt8.toNat_inj,
      byte] at inside <;> omega

end ActionAtlas.Text
