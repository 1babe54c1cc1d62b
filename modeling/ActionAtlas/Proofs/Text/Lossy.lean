import Mathlib.Data.List.Basic
import ActionAtlas.Proofs.Text.Utf8

/-!
What is read of bytes that need not be in UTF-8. Where no character stands, the longest part that
begins one is passed over as one U+FFFD, and if there is none, a single byte is.
-/

namespace ActionAtlas.Text

def BeginsCharacter (part : List UInt8) : Prop :=
  ∃ c, part <+: String.utf8EncodeChar c

/-- The text is what is read of the bytes. -/
inductive IsLossyReading : List UInt8 → List Char → Prop
  | nil : IsLossyReading [] []
  | character {c : Char} {rest : List UInt8} {text : List Char}
      (behind : IsLossyReading rest text) :
      IsLossyReading (String.utf8EncodeChar c ++ rest) (c :: text)
  /-- The part goes on as long as it begins a character, and is one byte if that begins none. -/
  | stray {part rest : List UInt8} {text : List Char} (some : part ≠ [])
      (unread : ∀ c, ¬String.utf8EncodeChar c <+: part ++ rest)
      (begins : BeginsCharacter part ∨ part.length = 1)
      (longest : ∀ longer, longer <+: part ++ rest → BeginsCharacter longer →
        longer.length ≤ part.length)
      (behind : IsLossyReading rest text) :
      IsLossyReading (part ++ rest) ('\ufffd' :: text)

/-! ### Bytes in turn -/

/-- The bytes lie in the ranges, one in each. -/
def AreInTurn : List (UInt8 × UInt8) → List UInt8 → Prop
  | _, [] => True
  | [], _ :: _ => False
  | range :: ranges, b :: rest => (range.1 ≤ b ∧ b ≤ range.2) ∧ AreInTurn ranges rest

theorem length_le_inTurn_iff {ranges : List (UInt8 × UInt8)} {part bytes : List UInt8}
    (leads : part <+: bytes) : part.length ≤ inTurn ranges bytes ↔ AreInTurn ranges part := by
  induction part generalizing ranges bytes with
  | nil => simp [AreInTurn]
  | cons b rest ih =>
      obtain ⟨behind, rfl⟩ := leads
      cases ranges with
      | nil => simp [AreInTurn, inTurn]
      | cons range ranges =>
          rw [AreInTurn, List.cons_append, inTurn, ← ih ⟨behind, rfl⟩]
          by_cases inside : range.1 ≤ b ∧ b ≤ range.2
          · rw [if_pos (by simpa using inside)]
            simp [inside]
          · rw [if_neg (by simpa using inside)]
            simp [inside]

theorem AreInTurn.initial {ranges : List (UInt8 × UInt8)} {part bytes : List UInt8}
    (all : AreInTurn ranges bytes) (leads : part <+: bytes) : AreInTurn ranges part := by
  have whole := (length_le_inTurn_iff (List.prefix_refl bytes)).mpr all
  exact (length_le_inTurn_iff leads).mp (Nat.le_trans leads.length_le whole)

/-- What is in turn can be filled up. -/
theorem AreInTurn.exists_whole {ranges : List (UInt8 × UInt8)} {part : List UInt8}
    (inTurn : AreInTurn ranges part) (some : ∀ range ∈ ranges, range.1 ≤ range.2) :
    ∃ whole, part <+: whole ∧ AreInTurn ranges whole ∧ whole.length = ranges.length := by
  induction ranges generalizing part with
  | nil =>
      cases part with
      | nil => exact ⟨[], List.prefix_refl [], trivial, rfl⟩
      | cons b rest => exact inTurn.elim
  | cons range ranges ih =>
      rw [List.forall_mem_cons] at some
      cases part with
      | nil =>
          obtain ⟨whole, -, filled, length_eq⟩ := @ih [] (by rw [AreInTurn]; trivial) some.2
          refine ⟨range.1 :: whole, List.nil_prefix, ⟨⟨UInt8.le_refl _, some.1⟩, filled⟩, ?_⟩
          rw [List.length_cons, length_eq, List.length_cons]
      | cons b rest =>
          obtain ⟨whole, leads, filled, length_eq⟩ := ih inTurn.2 some.2
          refine ⟨b :: whole, List.cons_prefix_cons.mpr ⟨rfl, leads⟩, ⟨inTurn.1, filled⟩, ?_⟩
          rw [List.length_cons, length_eq, List.length_cons]

/-! ### The bytes of a character -/

theorem followers_eq (first : UInt8) : followers first =
    if first.toNat < 0xC2 then []
    else if first.toNat < 0xE0 then [(leastSecond first, greatestSecond first)]
    else if first.toNat < 0xF0 then [(leastSecond first, greatestSecond first), (0x80, 0xBF)]
    else if first.toNat < 0xF5 then
      [(leastSecond first, greatestSecond first), (0x80, 0xBF), (0x80, 0xBF)]
    else [] :=
  rfl

theorem toNat_leastSecond (first : UInt8) : (leastSecond first).toNat =
    if first.toNat = 0xE0 then 0xA0 else if first.toNat = 0xF0 then 0x90 else 0x80 := by
  simp only [leastSecond, ← UInt8.toNat_inj, apply_ite UInt8.toNat]
  rfl

theorem toNat_greatestSecond (first : UInt8) : (greatestSecond first).toNat =
    if first.toNat = 0xED then 0x9F else if first.toNat = 0xF4 then 0x8F else 0xBF := by
  simp only [greatestSecond, ← UInt8.toNat_inj, apply_ite UInt8.toNat]
  rfl

theorem second_bounds (first : UInt8) :
    (0x80 ≤ (leastSecond first).toNat ∧ (greatestSecond first).toNat ≤ 0xBF) ∧
      (first.toNat = 0xE0 → 0xA0 ≤ (leastSecond first).toNat) ∧
      (first.toNat = 0xF0 → 0x90 ≤ (leastSecond first).toNat) ∧
      (first.toNat = 0xED → (greatestSecond first).toNat ≤ 0x9F) ∧
      (first.toNat = 0xF4 → (greatestSecond first).toNat ≤ 0x8F) := by
  rw [toNat_leastSecond, toNat_greatestSecond]
  split_ifs <;> omega

theorem range_le_of_mem_followers {first : UInt8} {range : UInt8 × UInt8}
    (inside : range ∈ followers first) : range.1 ≤ range.2 := by
  have second : leastSecond first ≤ greatestSecond first := by
    rw [UInt8.le_iff_toNat_le, toNat_leastSecond, toNat_greatestSecond]
    split_ifs <;> omega
  have further : (0x80 : UInt8) ≤ 0xBF := by decide
  rw [followers_eq] at inside
  split_ifs at inside <;> grind

theorem areInTurn_followers {c : Char} {first : UInt8} {others : List UInt8}
    (encoded : String.utf8EncodeChar c = first :: others) :
    AreInTurn (followers first) others := by
  have valid : c.val.toNat < 0xD800 ∨ 0xDFFF < c.val.toNat ∧ c.val.toNat < 0x110000 := c.valid
  have byte {n : Nat} (small : n < 256) : (UInt8.ofNat n).toNat = n :=
    UInt8.toNat_ofNat_of_lt' small
  have least : (0x80 : UInt8).toNat = 0x80 := rfl
  have greatest : (0xBF : UInt8).toNat = 0xBF := rfl
  unfold String.utf8EncodeChar at encoded
  generalize c.val.toNat = v at *
  dsimp only at encoded
  have third : v / 4096 = v / 64 / 64 := (Nat.div_div_eq_div_mul v 64 64).symm
  have fourth : v / 262144 = v / 64 / 64 / 64 := by omega
  split_ifs at encoded
  · cases encoded
    rw [AreInTurn]
    trivial
  · obtain ⟨rfl, rfl⟩ := List.cons.inj encoded
    rw [followers_eq, byte (by omega), if_neg (by omega), if_pos (by omega)]
    simp (disch := omega) only [AreInTurn, UInt8.le_iff_toNat_le, toNat_leastSecond,
      toNat_greatestSecond, byte, and_true]
    split_ifs <;> omega
  · obtain ⟨rfl, rfl⟩ := List.cons.inj encoded
    rw [followers_eq, byte (by omega), if_neg (by omega), if_neg (by omega), if_pos (by omega)]
    simp (disch := omega) only [AreInTurn, UInt8.le_iff_toNat_le, toNat_leastSecond,
      toNat_greatestSecond, byte, least, greatest, and_true]
    split_ifs <;> omega
  · obtain ⟨rfl, rfl⟩ := List.cons.inj encoded
    rw [followers_eq, byte (by omega), if_neg (by omega), if_neg (by omega), if_neg (by omega),
      if_pos (by omega)]
    simp (disch := omega) only [AreInTurn, UInt8.le_iff_toNat_le, toNat_leastSecond,
      toNat_greatestSecond, byte, least, greatest, and_true]
    split_ifs <;> omega

theorem exists_char {v : Nat} (valid : v < 0xD800 ∨ 0xDFFF < v ∧ v < 0x110000) :
    ∃ c : Char, c.val.toNat = v := by
  have small : v < UInt32.size := Nat.lt_trans (show v < 0x110000 by omega) (by decide)
  exact ⟨⟨UInt32.ofNatLT v small, valid⟩, rfl⟩

theorem exists_utf8EncodeChar {first : UInt8} {others : List UInt8}
    (some : followers first ≠ []) (inTurn : AreInTurn (followers first) others)
    (whole : others.length = (followers first).length) :
    ∃ c, String.utf8EncodeChar c = first :: others := by
  have least : (0x80 : UInt8).toNat = 0x80 := rfl
  have greatest : (0xBF : UInt8).toNat = 0xBF := rfl
  have second := second_bounds first
  have byte {b : UInt8} {n : Nat} (number : b.toNat = n) : UInt8.ofNat n = b := by
    rw [← number, UInt8.ofNat_toNat]
  rw [followers_eq] at some inTurn whole
  split_ifs at some inTurn whole
  · exact absurd rfl some
  · obtain ⟨x, rfl⟩ := List.length_eq_one_iff.mp whole
    simp only [AreInTurn, UInt8.le_iff_toNat_le, and_true] at inTurn
    obtain ⟨c, number⟩ := @exists_char ((first.toNat - 192) * 64 + (x.toNat - 128)) (by omega)
    refine ⟨c, ?_⟩
    unfold String.utf8EncodeChar
    rw [number]
    dsimp only
    rw [if_neg (by omega), if_pos (by omega), byte (b := first) (by omega),
      byte (b := x) (by omega)]
  · obtain ⟨x, y, rfl⟩ := List.length_eq_two.mp whole
    simp only [AreInTurn, UInt8.le_iff_toNat_le, and_true, least, greatest] at inTurn
    obtain ⟨c, number⟩ := @exists_char ((first.toNat - 224) * 4096 + (x.toNat - 128) * 64 +
      (y.toNat - 128)) (by omega)
    refine ⟨c, ?_⟩
    unfold String.utf8EncodeChar
    rw [number]
    dsimp only
    rw [if_neg (by omega), if_neg (by omega), if_pos (by omega), byte (b := first) (by omega),
      byte (b := x) (by omega), byte (b := y) (by omega)]
  · obtain ⟨x, y, z, rfl⟩ := List.length_eq_three.mp whole
    simp only [AreInTurn, UInt8.le_iff_toNat_le, and_true, least, greatest] at inTurn
    obtain ⟨c, number⟩ := @exists_char ((first.toNat - 240) * 262144 + (x.toNat - 128) * 4096 +
      (y.toNat - 128) * 64 + (z.toNat - 128)) (by omega)
    refine ⟨c, ?_⟩
    unfold String.utf8EncodeChar
    rw [number]
    dsimp only
    rw [if_neg (by omega), if_neg (by omega), if_neg (by omega), byte (b := first) (by omega),
      byte (b := x) (by omega), byte (b := y) (by omega), byte (b := z) (by omega)]
  · exact absurd rfl some

theorem areInTurn_of_beginsCharacter {first : UInt8} {others : List UInt8}
    (begins : BeginsCharacter (first :: others)) : AreInTurn (followers first) others := by
  obtain ⟨c, leads⟩ := begins
  obtain ⟨front, all, encoded⟩ := List.exists_cons_of_ne_nil (@String.utf8EncodeChar_ne_nil c)
  rw [encoded, List.cons_prefix_cons] at leads
  obtain ⟨rfl, leads⟩ := leads
  exact (areInTurn_followers encoded).initial leads

theorem beginsCharacter_of_areInTurn {first : UInt8} {others : List UInt8}
    (some : followers first ≠ []) (inTurn : AreInTurn (followers first) others) :
    BeginsCharacter (first :: others) := by
  obtain ⟨whole, leads, all, length_eq⟩ :=
    inTurn.exists_whole fun range inside => range_le_of_mem_followers inside
  obtain ⟨c, encoded⟩ := exists_utf8EncodeChar some all length_eq
  exact ⟨c, encoded ▸ List.cons_prefix_cons.mpr ⟨rfl, leads⟩⟩

/-! ### Reading -/

theorem utf8DecodeChar?_eq_some_iff {bytes : List UInt8} {c : Char} :
    bytes.toByteArray.utf8DecodeChar? 0 = some c ↔ String.utf8EncodeChar c <+: bytes := by
  constructor
  · intro decoded
    have whole := String.toByteArray_utf8EncodeChar_of_utf8DecodeChar?_eq_some decoded
    have data : String.utf8EncodeChar c = bytes.take c.utf8Size := by
      simpa using congrArg (fun array : ByteArray => array.data.toList) whole
    rw [data]
    exact List.take_prefix _ _
  · rintro ⟨rest, rfl⟩
    rw [List.toByteArray_append]
    exact ByteArray.utf8DecodeChar?_utf8EncodeChar_append

theorem lossyBehind_of_unread {first : UInt8} {rest : List UInt8}
    (unread : ∀ c, ¬String.utf8EncodeChar c <+: first :: rest) :
    lossyBehind 0 (first :: rest) =
      '\ufffd' :: lossyBehind 0 (rest.drop (inTurn (followers first) rest)) := by
  have undecoded : (first :: rest).toByteArray.utf8DecodeChar? 0 = none :=
    Option.eq_none_iff_forall_ne_some.mpr fun c decoded =>
      unread c (utf8DecodeChar?_eq_some_iff.mp decoded)
  rw [lossyBehind, undecoded]
  simp only
  rw [lossyBehind_eq_drop]

theorem inTurn_le_length (ranges : List (UInt8 × UInt8)) (bytes : List UInt8) :
    inTurn ranges bytes ≤ bytes.length := by
  induction bytes generalizing ranges with
  | nil => cases ranges <;> exact Nat.le_refl 0
  | cons b rest ih =>
      cases ranges with
      | nil => exact Nat.zero_le _
      | cons range ranges =>
          rw [inTurn]
          split
          · exact Nat.succ_le_succ (ih ranges)
          · exact Nat.zero_le _

theorem areInTurn_take (ranges : List (UInt8 × UInt8)) (bytes : List UInt8) :
    AreInTurn ranges (bytes.take (inTurn ranges bytes)) := by
  apply (length_le_inTurn_iff (List.take_prefix _ bytes)).mp
  rw [List.length_take]
  exact Nat.min_le_left _ _

/-- As many bytes follow in turn as go on with the longest part that begins a character. -/
theorem length_le_of_beginsCharacter {first : UInt8} {rest longer : List UInt8}
    (leads : longer <+: first :: rest) (begins : BeginsCharacter longer) :
    longer.length ≤ inTurn (followers first) rest + 1 := by
  cases longer with
  | nil => exact Nat.zero_le _
  | cons b others =>
      obtain ⟨rfl, behind⟩ := List.cons_prefix_cons.mp leads
      have inTurn := areInTurn_of_beginsCharacter begins
      exact Nat.succ_le_succ ((length_le_inTurn_iff behind).mpr inTurn)

theorem beginsCharacter_take (first : UInt8) (rest : List UInt8) :
    BeginsCharacter (first :: rest.take (inTurn (followers first) rest)) ∨
      inTurn (followers first) rest = 0 := by
  by_cases none : followers first = []
  · right
    rw [none]
    cases rest <;> rfl
  · exact .inl (beginsCharacter_of_areInTurn none (areInTurn_take _ rest))

theorem isLossyReading_lossyBehind (bytes : List UInt8) :
    IsLossyReading bytes (lossyBehind 0 bytes) := by
  induction size : bytes.length using Nat.strongRecOn generalizing bytes with
  | ind n ih =>
    subst size
    cases bytes with
    | nil => exact .nil
    | cons first rest =>
        by_cases read : ∃ c, String.utf8EncodeChar c <+: first :: rest
        · obtain ⟨c, behind, whole⟩ := read
          have some := List.length_pos_iff.mpr (@String.utf8EncodeChar_ne_nil c)
          have lengths := congrArg List.length whole
          rw [List.length_append] at lengths
          rw [← whole, lossyBehind_utf8EncodeChar_append]
          exact .character (ih behind.length (by omega) behind rfl)
        · have unread := not_exists.mp read
          let count := inTurn (followers first) rest
          have fits : count ≤ rest.length := inTurn_le_length _ rest
          have parts : first :: rest.take count ++ rest.drop count = first :: rest := by
            rw [List.cons_append, List.take_append_drop]
          have length_eq : (first :: rest.take count).length = count + 1 := by
            rw [List.length_cons, List.length_take, Nat.min_eq_left fits]
          have smaller : (rest.drop count).length < (first :: rest).length := by
            rw [List.length_drop, List.length_cons]
            omega
          have stray : IsLossyReading (first :: rest.take count ++ rest.drop count)
              ('\ufffd' :: lossyBehind 0 (rest.drop count)) := by
            refine .stray (List.cons_ne_nil _ _) ?_ ?_ ?_ (ih _ smaller _ rfl)
            · rwa [parts]
            · exact (beginsCharacter_take first rest).imp_right fun none => by omega
            · intro longer leads begins
              rw [parts] at leads
              rw [length_eq]
              exact length_le_of_beginsCharacter leads begins
          rwa [parts, ← lossyBehind_of_unread unread] at stray

theorem IsLossyReading.lossyBehind_eq {bytes : List UInt8} {text : List Char}
    (reading : IsLossyReading bytes text) : lossyBehind 0 bytes = text := by
  induction reading with
  | nil => rfl
  | character behind ih => rw [lossyBehind_utf8EncodeChar_append, ih]
  | @stray part rest text some unread begins longest behind ih =>
      obtain ⟨first, others, rfl⟩ := List.exists_cons_of_ne_nil some
      rw [List.cons_append] at unread longest ⊢
      have atLeast : others.length ≤ inTurn (followers first) (others ++ rest) := by
        rcases begins with begins | alone
        · exact (length_le_inTurn_iff (List.prefix_append others rest)).mpr
            (areInTurn_of_beginsCharacter begins)
        · rw [List.length_cons, Nat.succ.injEq] at alone
          exact alone ▸ Nat.zero_le _
      have atMost : inTurn (followers first) (others ++ rest) ≤ others.length := by
        rcases beginsCharacter_take first (others ++ rest) with begins | none
        · have bound := longest _
            (List.cons_prefix_cons.mpr ⟨rfl, List.take_prefix _ (others ++ rest)⟩) begins
          rw [List.length_cons, List.length_cons, List.length_take,
            Nat.min_eq_left (inTurn_le_length _ _)] at bound
          exact Nat.le_of_succ_le_succ bound
        · exact none ▸ Nat.zero_le _
      rw [lossyBehind_of_unread unread, Nat.le_antisymm atMost atLeast, List.drop_left, ih]

/-- Any bytes are read, and in one way only. -/
theorem lossy_eq_iff {bytes : List UInt8} {text : String} :
    lossy bytes = text ↔ IsLossyReading bytes text.toList := by
  rw [lossy]
  constructor
  · rintro rfl
    rw [String.toList_ofList]
    exact isLossyReading_lossyBehind bytes
  · intro reading
    rw [reading.lossyBehind_eq, String.ofList_toList]

end ActionAtlas.Text
