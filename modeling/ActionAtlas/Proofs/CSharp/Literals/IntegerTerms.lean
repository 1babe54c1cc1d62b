import ActionAtlas.Proofs.CSharp.Literals.Integers

/-!
Integer literals under signs and parentheses. Such a term is evaluated to its value as an integer
without a bound, or to no constant at all; nothing is taken modulo the size of a machine word.
-/

namespace ActionAtlas.CSharp.Literal

inductive IntegerTerm where
  | literal (spelled : IntegerLiteral)
  | parenthesized (inner : IntegerTerm)
  | signed (sign : Sign) (operand : IntegerTerm)

namespace IntegerTerm

def value : IntegerTerm → Int
  | literal spelled => spelled.number
  | parenthesized inner => inner.value
  | signed .plus operand => operand.value
  | signed .minus operand => -operand.value

/-- The term and all terms inside it. -/
def parts : IntegerTerm → List IntegerTerm
  | literal spelled => [literal spelled]
  | parenthesized inner => parenthesized inner :: inner.parts
  | signed sign operand => signed sign operand :: operand.parts

/-- The term by itself has no value of 64 bits: its literal is too large, or its operand has no
negative that a signed integer could hold. -/
def Fails : IntegerTerm → Prop
  | literal spelled => 2 ^ 64 ≤ spelled.number
  | parenthesized _ => False
  | signed .plus _ => False
  | signed .minus operand => 2 ^ 63 < operand.value ∨ operand.value = -2 ^ 63

def IsOutOfRange (term : IntegerTerm) : Prop :=
  ∃ part ∈ term.parts, part.Fails

/-- A way to write the term: with blanks inside parentheses and behind signs. A sign does not touch
a sign of the same kind, because the two would be one mark. -/
inductive IsWritten : IntegerTerm → List Char → Prop
  | literal (spelled : IntegerLiteral) : IsWritten (.literal spelled) spelled.text
  | parenthesized {inner : IntegerTerm} {text before after : List Char}
      (written : IsWritten inner text) (blankBefore : AreBlank before)
      (blankAfter : AreBlank after) :
      IsWritten (.parenthesized inner) ('(' :: (before ++ text ++ after ++ [')']))
  | signed {operand : IntegerTerm} {text gap : List Char} (sign : Sign)
      (written : IsWritten operand text) (blank : AreBlank gap)
      (apart : gap = [] → text.head? ≠ some sign.char) :
      IsWritten (.signed sign operand) (sign.char :: (gap ++ text))

def expression : IntegerTerm → Expression
  | literal spelled => .literal .integer spelled.text
  | parenthesized inner => .parenthesized inner.expression
  | signed sign operand => .signed sign operand.expression

end IntegerTerm

/-- The constant of an integer: a signed one if the integer is in the range of these. -/
inductive IsExactly (value : Int) : Constant → Prop
  | int (n : Int64) (exact : n.toInt = value) : IsExactly value (.int n)
  | uint (n : UInt64) (exact : n.toNat = value) (large : 2 ^ 63 ≤ value) :
      IsExactly value (.uint n)

/-! ### Constants -/

theorem isExactly_ofNat {number : Nat} (bound : number < 2 ^ 64) :
    IsExactly number (.ofNat number) := by
  rw [Constant.ofNat]
  split
  · next small => exact .int _ (Int64.toInt_ofNat_of_lt small)
  · next large =>
      have exact : ((UInt64.ofNat number).toNat : Int) = number :=
        congrArg Int.ofNat (UInt64.toNat_ofNat_of_lt' bound)
      exact .uint _ exact (by omega)

theorem toInt_neg_of_ne {n : Int64} (notLeast : n ≠ Int64.minValue) : (-n).toInt = -n.toInt := by
  have least : n.toInt ≠ -2 ^ 63 := fun same =>
    notLeast (Int64.toInt_inj.mp (same.trans Int64.toInt_minValue.symm))
  have lower := n.le_toInt
  have upper := n.toInt_lt
  rw [Int64.toInt_neg, Int.bmod_eq_of_le (by omega) (by omega)]

/-- A constant has a negative unless that would exceed the signed integers on either side. -/
theorem negate?_of_isExactly {value : Int} {constant : Constant}
    (exact : IsExactly value constant) :
    (2 ^ 63 < value ∨ value = -2 ^ 63 → negate? constant = none) ∧
      (¬(2 ^ 63 < value ∨ value = -2 ^ 63) →
        ∃ negative, negate? constant = some negative ∧ IsExactly (-value) negative) := by
  cases exact with
  | int n exact =>
      have upper := n.toInt_lt
      rw [negate?]
      by_cases least : n = Int64.minValue
      · have value_eq : value = -2 ^ 63 := by
          rw [← exact, least, Int64.toInt_minValue]
        exact ⟨fun _ => if_pos least, fun fits => absurd (.inr value_eq) fits⟩
      · have other : value ≠ -2 ^ 63 := fun same =>
          least (Int64.toInt_inj.mp ((exact.trans same).trans Int64.toInt_minValue.symm))
        have negative : (-n).toInt = -value := by
          rw [toInt_neg_of_ne least, exact]
        exact ⟨fun fails => by omega, fun _ => ⟨_, if_neg least, .int _ negative⟩⟩
  | uint n exact large =>
      rw [negate?]
      by_cases edge : n = 0x8000000000000000
      · have value_eq : value = 2 ^ 63 := by
          rw [← exact, edge]
          rfl
        have negative : Int64.minValue.toInt = -value := by
          rw [value_eq, Int64.toInt_minValue]
        exact ⟨fun fails => by omega, fun _ => ⟨_, if_pos edge, .int _ negative⟩⟩
      · have other : value ≠ 2 ^ 63 := by
          intro same
          refine edge (UInt64.toNat_inj.mp ?_)
          have toNat_eq : n.toNat = 2 ^ 63 := by omega
          exact toNat_eq
        exact ⟨fun _ => if_neg edge, fun fits => by omega⟩

theorem IntegerTerm.isOutOfRange_parenthesized (inner : IntegerTerm) :
    (parenthesized inner).IsOutOfRange ↔ inner.IsOutOfRange := by
  simp [IsOutOfRange, parts, Fails]

theorem IntegerTerm.isOutOfRange_signed (sign : Sign) (operand : IntegerTerm) :
    (signed sign operand).IsOutOfRange ↔
      (signed sign operand).Fails ∨ operand.IsOutOfRange := by
  simp [IsOutOfRange, parts]

/-- The constant of a term is its value exactly, and terms out of range have none. -/
theorem constant?_expression (term : IntegerTerm) :
    (term.IsOutOfRange → term.expression.constant? = none) ∧
      (¬term.IsOutOfRange →
        ∃ constant, term.expression.constant? = some constant ∧ IsExactly term.value constant) := by
  induction term with
  | literal spelled =>
      have outOfRange : (IntegerTerm.literal spelled).IsOutOfRange ↔ ¬spelled.number < 2 ^ 64 := by
        simp [IntegerTerm.IsOutOfRange, IntegerTerm.parts, IntegerTerm.Fails]
      rw [outOfRange, IntegerTerm.expression, Expression.constant?, constant?_integer]
      refine ⟨fun large => if_neg large, fun small => ?_⟩
      rw [Classical.not_not] at small
      exact ⟨_, if_pos small, isExactly_ofNat small⟩
  | parenthesized inner ih =>
      rw [IntegerTerm.isOutOfRange_parenthesized]
      exact ih
  | signed sign operand ih =>
      rw [IntegerTerm.isOutOfRange_signed, IntegerTerm.expression]
      cases sign with
      | plus =>
          rw [IntegerTerm.Fails, false_or]
          exact ih
      | minus =>
          rw [IntegerTerm.Fails, Expression.constant?]
          by_cases inside : operand.IsOutOfRange
          · refine ⟨fun _ => ?_, fun fits => absurd (.inr inside) fits⟩
            rw [ih.1 inside]
            rfl
          · obtain ⟨constant, constant_eq, exact⟩ := ih.2 inside
            have negated := negate?_of_isExactly exact
            rw [constant_eq, Option.bind_some]
            refine ⟨?_, fun fits => negated.2 fun fails => fits (.inl fails)⟩
            rintro (fails | outOfRange)
            · exact negated.1 fails
            · exact absurd outOfRange inside

/-! ### Spellings -/

/-- What a written term begins with. -/
def termStarts : List Char :=
  '(' :: '+' :: '-' :: decimalDigits

theorem exists_start_of_isWritten {term : IntegerTerm} {text : List Char}
    (written : term.IsWritten text) : ∃ c ∈ text.head?, c ∈ termStarts := by
  cases written with
  | literal spelled =>
      obtain ⟨c, more, text_eq, decimal, -⟩ := isNumberToken_text spelled
      rw [text_eq]
      have among : c ∈ termStarts := by
        rw [termStarts]
        exact List.mem_append_right ['(', '+', '-'] decimal
      exact ⟨c, rfl, among⟩
  | parenthesized _ _ _ => exact ⟨_, rfl, List.mem_cons_self⟩
  | signed sign _ _ _ =>
      refine ⟨_, rfl, ?_⟩
      cases sign <;> decide

theorem isTrimmed_of_isWritten {term : IntegerTerm} {text : List Char}
    (written : term.IsWritten text) : IsTrimmed text := by
  induction written with
  | literal spelled => exact spelled.isTrimmed_text
  | parenthesized _ _ _ _ =>
      refine ⟨⟨_, rfl, rfl⟩, ')', ?_, rfl⟩
      rw [← List.cons_append]
      exact List.getLast?_concat
  | signed sign _ _ _ ih =>
      refine ⟨⟨_, rfl, by cases sign <;> rfl⟩, ?_⟩
      obtain ⟨last, isLast, visible⟩ := ih.last
      refine ⟨last, ?_, visible⟩
      rw [← List.cons_append, Option.mem_def, List.getLast?_append, Option.mem_def.mp isLast]
      rfl

/-- A sign is a mark by itself before anything that no longer mark has behind it. -/
theorem token_sign (sign : Sign) {rest : List Char}
    (apart : ∀ c ∈ rest.head?, c ≠ sign.char ∧ c ≠ '=' ∧ c ≠ '>') :
    Extent.token sign.char rest = (.punctuation, 1) := by
  cases rest with
  | nil => cases sign <;> rfl
  | cons c more =>
      obtain ⟨otherSign, otherEquals, otherAngle⟩ := apart c rfl
      have mark : Extent.token sign.char (c :: more) =
          (.punctuation, Extent.mark (sign.char :: c :: more)) := by
        cases sign <;> rfl
      have noSign : (sign.char == c) = false := beq_eq_false_iff_ne.mpr otherSign.symm
      have noEquals : ('=' == c) = false := beq_eq_false_iff_ne.mpr otherEquals.symm
      have noAngle : ('>' == c) = false := beq_eq_false_iff_ne.mpr otherAngle.symm
      have single : Extent.mark (sign.char :: c :: more) = 1 := by
        cases sign with
        | plus =>
            rw [Sign.char] at noSign
            simp [Extent.mark, Extent.marks, Sign.char, List.isPrefixOf, noSign, noEquals]
        | minus =>
            rw [Sign.char] at noSign
            simp [Extent.mark, Extent.marks, Sign.char, List.isPrefixOf, noSign, noEquals, noAngle]
      rw [mark, single]

theorem not_closes_of_mem_termStarts : ∀ c ∈ termStarts, c ≠ '=' ∧ c ≠ '>' :=
  forall_mem_of_all (by decide)

theorem apart_of_isWritten {operand : IntegerTerm} {text gap rest : List Char} {sign : Sign}
    (written : operand.IsWritten text) (blank : AreBlank gap)
    (apart : gap = [] → text.head? ≠ some sign.char) :
    ∀ c ∈ (gap ++ text ++ rest).head?, c ≠ sign.char ∧ c ≠ '=' ∧ c ≠ '>' := by
  intro c inside
  cases gap with
  | nil =>
      obtain ⟨start, isStart, among⟩ := exists_start_of_isWritten written
      obtain ⟨others, rfl⟩ := List.head?_eq_some_iff.mp isStart
      have c_eq : start = c := Option.some.inj inside
      subst c_eq
      refine ⟨fun same => apart rfl ?_, not_closes_of_mem_termStarts start among⟩
      rw [same]
      rfl
  | cons first others =>
      have c_eq : first = c := Option.some.inj inside
      subst c_eq
      have isBlank := blank first List.mem_cons_self
      refine ⟨?_, ?_, ?_⟩
      · rintro rfl
        cases sign <;> cases isBlank
      · rintro rfl
        cases isBlank
      · rintro rfl
        cases isBlank

theorem isReadAs_of_isWritten {term : IntegerTerm} {text : List Char}
    (written : term.IsWritten text) : IsReadAs EndsNumber text term.expression := by
  induction written with
  | literal spelled => exact isReadAs_integer spelled
  | parenthesized _ blankBefore blankAfter ih =>
      refine ih.parenthesized blankBefore blankAfter fun rest _ => ?_
      refine EndsNumber.of_blanks blankAfter fun c inside => ?_
      rw [List.head?_cons, Option.mem_some_iff] at inside
      subst inside
      decide
  | signed sign written blank apart ih =>
      exact ih.signed blank fun rest _ => token_sign sign (apart_of_isWritten written blank apart)

/-- A term is evaluated exactly, or is unresolved because some part of it is out of range. The
result is an unsigned integer only where no signed integer has the value. -/
theorem isEvaluated_exactly {term : IntegerTerm} {text : List Char}
    (written : term.IsWritten text) :
    ∃ result, IsEvaluated EndsNumber text result ∧
      (∀ other, IsEvaluated EndsNumber text other → other = result) ∧
      (term.IsOutOfRange → result = .unresolved (String.ofList text)) ∧
      (¬term.IsOutOfRange →
        ∃ constant, result = .constant constant ∧ IsExactly term.value constant) := by
  have evaluated := (isReadAs_of_isWritten written).isEvaluated (isTrimmed_of_isWritten written)
  obtain ⟨outOfRange, inRange⟩ := constant?_expression term
  refine ⟨term.expression.resultOf text, evaluated,
    fun other evaluatedOther => evaluatedOther.unique endsNumber_nil evaluated,
    fun fails => ?_, fun fits => ?_⟩
  · rw [Expression.resultOf, outOfRange fails]
  · obtain ⟨constant, constant_eq, exact⟩ := inRange fits
    refine ⟨constant, ?_, exact⟩
    rw [Expression.resultOf, constant_eq]

/-- The digit `8` and fifteen zeros in groups of four. -/
def IntegerLiteral.edge : IntegerLiteral :=
  let zero : HexDigit := ⟨0, false⟩
  let zeros := List.replicate 3 (0, zero)
  ⟨.hexadecimal, false, ⟨8, false⟩, zeros ++ (List.replicate 3 ((1, zero) :: zeros)).flatten,
    ['U', 'L'], by decide, by decide⟩

/-- The least signed integer, which has no negative itself. -/
def IntegerTerm.least : IntegerTerm :=
  .signed .minus (.parenthesized (.signed .plus (.literal .edge)))

theorem areBlank_space : AreBlank [' '] :=
  List.forall_mem_singleton.mpr rfl

theorem isWritten_least :
    IntegerTerm.least.IsWritten "-( +0x8000_0000_0000_0000UL)".toList := by
  have operand : (IntegerTerm.literal .edge).IsWritten "0x8000_0000_0000_0000UL".toList :=
    .literal .edge
  have positive := operand.signed .plus areBlank_nil (by decide)
  have inside := positive.parenthesized areBlank_space areBlank_nil
  exact inside.signed .minus areBlank_nil (by decide)

theorem isWritten_negative_least :
    (IntegerTerm.signed .minus .least).IsWritten "- -( +0x8000_0000_0000_0000UL)".toList :=
  isWritten_least.signed .minus areBlank_space (by decide)

theorem value_least : IntegerTerm.least.value = -2 ^ 63 := rfl

theorem inRange_least : ¬IntegerTerm.least.IsOutOfRange := by
  have number : IntegerLiteral.edge.number = 2 ^ 63 := rfl
  simp [IntegerTerm.least, IntegerTerm.IsOutOfRange, IntegerTerm.parts, IntegerTerm.Fails,
    IntegerTerm.value, number]

theorem isEvaluated_exactly_least :
    (IntegerTerm.least.IsWritten "-( +0x8000_0000_0000_0000UL)".toList ∧
      IsEvaluated EndsNumber "-( +0x8000_0000_0000_0000UL)".toList
        (.constant (.int Int64.minValue))) ∧
      (IntegerTerm.signed .minus .least).IsWritten "- -( +0x8000_0000_0000_0000UL)".toList ∧
      IsEvaluated EndsNumber "- -( +0x8000_0000_0000_0000UL)".toList
        (.unresolved "- -( +0x8000_0000_0000_0000UL)") := by
  refine ⟨⟨isWritten_least, ?_⟩, isWritten_negative_least, ?_⟩
  · obtain ⟨result, evaluated, -, -, inRange⟩ := isEvaluated_exactly isWritten_least
    obtain ⟨constant, rfl, exact⟩ := inRange inRange_least
    rw [value_least] at exact
    cases exact with
    | int n exact =>
        rw [← Int64.toInt_minValue, Int64.toInt_inj] at exact
        rwa [exact] at evaluated
    | uint n exact large => omega
  · obtain ⟨result, evaluated, -, outOfRange, -⟩ := isEvaluated_exactly isWritten_negative_least
    have fails : (IntegerTerm.signed .minus .least).IsOutOfRange :=
      ⟨_, List.mem_cons_self, .inr value_least⟩
    rw [outOfRange fails, String.ofList_toList] at evaluated
    exact evaluated

end ActionAtlas.CSharp.Literal
