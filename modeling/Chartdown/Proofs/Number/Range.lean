import Chartdown.Number.Decimal
import Chartdown.Number.Double

/-!
# The range of doubles

A whole number that has a double is below `2 ^ 1024`, since rounding never goes below the greatest
power of two that a magnitude holds. Such a number has few digits.

## Key results

- `twoTo_log2_le_roundUnits`: rounding keeps the leading bit or carries it up
- `natAbs_lt_of_isFinite_ofInt`: the whole numbers that have a finite double
- `length_digitsOf_le_of_isFinite_ofInt`: they have no more than 309 digits
-/

namespace Chartdown

theorem div_le_roundDiv (num den : Nat) : num / den ≤ roundDiv num den := by
  simp only [roundDiv]
  repeat' split
  all_goals omega

theorem twoTo_lt_twoTo_iff {j k : Nat} : twoTo j < twoTo k ↔ j < k :=
  Nat.pow_lt_pow_iff_right (by decide)

theorem tenTo_lt_tenTo_iff {j k : Nat} : tenTo j < tenTo k ↔ j < k :=
  Nat.pow_lt_pow_iff_right (by decide)

theorem length_digitsOf_le {n k : Nat} (hk : 0 < k) (h : n < tenTo k) : (digitsOf n).length ≤ k :=
  (Nat.length_toDigits_le_iff (by decide) hk).mpr h

theorem lt_twoTo_of_log2_lt {n k : Nat} (hn : n ≠ 0) (h : n.log2 < k) : n < twoTo k :=
  (Nat.log2_lt hn).mp h

namespace Double

/-- The greatest power of two below a magnitude is below its rounding too. -/
theorem twoTo_log2_le_roundUnits {num : Nat} (h : num ≠ 0) : twoTo num.log2 ≤ roundUnits num 1 := by
  simp only [roundUnits, lastBit, Nat.div_one, Nat.one_mul]
  -- Rounding drops the last `s` bits, and the greatest power of two is a multiple of `2 ^ s`.
  generalize hs : num.log2 - 52 = s
  have hsplit : twoTo num.log2 = twoTo (num.log2 - s) * twoTo s := by
    rw [← twoTo_add]; congr 1; omega
  have hpow : twoTo (num.log2 - s) ≤ num / twoTo s := by
    rw [Nat.le_div_iff_mul_le (twoTo_pos s), ← hsplit]
    exact Nat.log2_self_le h
  calc twoTo num.log2 = twoTo (num.log2 - s) * twoTo s := hsplit
    _ ≤ num / twoTo s * twoTo s := Nat.mul_le_mul_right _ hpow
    _ ≤ roundDiv num (twoTo s) * twoTo s := Nat.mul_le_mul_right _ (div_le_roundDiv _ _)

theorem isFinite_ofRatio_iff {negative : Bool} {num den : Nat} (hden : 0 < den) :
    (ofRatio negative num den hden).isFinite = true ↔
      roundUnits (num * twoTo 1074) den < unitLimit := by
  simp only [ofRatio]
  split <;> simp_all [isFinite]

/-- A whole number that has a finite double is below `2 ^ 1024`. -/
theorem natAbs_lt_of_isFinite_ofInt {n : Int} (h : (ofInt n).isFinite = true) :
    n.natAbs < twoTo 1024 := by
  rw [ofInt, isFinite_ofRatio_iff] at h
  by_cases hn : n.natAbs = 0
  · rw [hn]; exact twoTo_pos 1024
  have hunits : n.natAbs * twoTo 1074 ≠ 0 :=
    Nat.mul_ne_zero hn (Nat.pos_iff_ne_zero.mp (twoTo_pos 1074))
  -- In units of the smallest double, the limit is `2 ^ (1024 + 1074)`.
  have hlog : (n.natAbs * twoTo 1074).log2 < 2098 :=
    twoTo_lt_twoTo_iff.mp (Nat.lt_of_le_of_lt (twoTo_log2_le_roundUnits hunits) h)
  have hlt : n.natAbs * twoTo 1074 < twoTo 1024 * twoTo 1074 := by
    rw [← twoTo_add]
    exact lt_twoTo_of_log2_lt hunits hlog
  exact Nat.lt_of_mul_lt_mul_right hlt

/-- In powers of ten, it is below `10 ^ 309`. -/
theorem natAbs_lt_tenTo_of_isFinite_ofInt {n : Int} (h : (ofInt n).isFinite = true) :
    n.natAbs < tenTo 309 := by
  have hpow : twoTo 1024 ≤ tenTo 309 := by decide +kernel
  exact Nat.lt_of_lt_of_le (natAbs_lt_of_isFinite_ofInt h) hpow

/-- A whole number that has a finite double has no more than 309 digits. -/
theorem length_digitsOf_le_of_isFinite_ofInt {n : Int} (h : (ofInt n).isFinite = true) :
    (digitsOf n.natAbs).length ≤ 309 :=
  length_digitsOf_le (by decide) (natAbs_lt_tenTo_of_isFinite_ofInt h)

end Double
end Chartdown
