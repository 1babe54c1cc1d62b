import Mathlib
import ActionAtlas.Decimal.Shortest

/-!
Only zero has no digits but `0` in its shortest decimal: the interval of a double that is not zero
does not reach down to it.
-/

namespace ActionAtlas.Decimal

theorem twoTo_pos (exponent : Int) : 0 < twoTo exponent :=
  Nat.pow_pos (by decide)

theorem tenTo_pos (exponent : Int) : 0 < tenTo exponent :=
  Nat.pow_pos (by decide)

theorem Scaled.compareDyadic_zero {d : Scaled} (zero : d.digits = 0) {units : Nat}
    (positive : 0 < units) (power : Int) : d.compareDyadic units power = .lt := by
  rw [compareDyadic, zero, Nat.zero_mul, Nat.zero_mul]
  apply Nat.compare_eq_lt.mpr
  exact Nat.mul_pos (Nat.mul_pos positive (twoTo_pos power)) (tenTo_pos _)

namespace Dyadic

theorem digits_ne_zero_of_identifiedBy {x : Dyadic} (positive : x.mantissa ≠ 0) {d : Scaled}
    (identified : x.identifiedBy d = true) : d.digits ≠ 0 := by
  intro zero
  have below : d.compareDyadic (4 * x.mantissa - if x.narrow then 1 else 2) (x.power - 2) = .lt := by
    apply d.compareDyadic_zero zero
    split <;> omega
  simp [identifiedBy, below] at identified

theorem digits_ne_zero_of_onGrid? {x : Dyadic} (positive : x.mantissa ≠ 0) {exponent : Int}
    {d : Scaled} (found : x.onGrid? exponent = some d) : d.digits ≠ 0 := by
  simp only [onGrid?] at found
  split at found
  · next below above =>
    have belowNe := digits_ne_zero_of_identifiedBy positive below
    have aboveNe := digits_ne_zero_of_identifiedBy positive above
    split at found
    · cases found
      exact belowNe
    · cases found
      exact aboveNe
    · split at found
      · cases found
        exact belowNe
      · cases found
        exact aboveNe
  · next below _ =>
    cases found
    exact digits_ne_zero_of_identifiedBy positive below
  · next above =>
    cases found
    exact digits_ne_zero_of_identifiedBy positive above
  · cases found

theorem digits_exactDecimal_ne_zero {x : Dyadic} (positive : x.mantissa ≠ 0) :
    x.exactDecimal.digits ≠ 0 := by
  unfold exactDecimal
  split
  · exact Nat.mul_ne_zero positive (Nat.pow_pos (by decide)).ne'
  · exact Nat.mul_ne_zero positive (twoTo_pos x.power).ne'

end Dyadic

theorem Scaled.digits_strip_ne_zero (bound : Nat) {d : Scaled} (positive : d.digits ≠ 0) :
    (d.strip bound).digits ≠ 0 := by
  induction bound generalizing d with
  | zero => exact positive
  | succ bound ih =>
      rw [strip]
      split
      · next final =>
        apply ih
        change d.digits / 10 ≠ 0
        omega
      · exact positive

/-- What the search on any grids gives. -/
private theorem digits_search_ne_zero {x : Dyadic} (positive : x.mantissa ≠ 0)
    (grids : List Int) : ((grids.findSome? x.onGrid?).getD x.exactDecimal).digits ≠ 0 := by
  cases found : grids.findSome? x.onGrid? with
  | none => exact Dyadic.digits_exactDecimal_ne_zero positive
  | some d =>
      obtain ⟨exponent, -, onGrid⟩ := List.exists_of_findSome?_eq_some found
      exact Dyadic.digits_ne_zero_of_onGrid? positive onGrid

theorem Binary64.shortest_of_digits_eq_zero {x : Binary64} (zero : x.shortest.digits = 0) :
    x.shortest = ⟨0, 0⟩ := by
  by_cases none : x.magnitude.mantissa = 0
  · exact if_pos none
  · refine absurd zero ?_
    simp only [shortest, if_neg none]
    exact Scaled.digits_strip_ne_zero _ (digits_search_ne_zero none _)

end ActionAtlas.Decimal
