import Mathlib.Tactic.Linarith
import Mathlib.Tactic.Ring
import Chartdown.Number.Shortest
import Chartdown.Proofs.Number.Range

/-!
# What rounds to a double

A quotient rounds to a magnitude when it is no further from it than half the distance to the next
magnitude on its side, the midpoints going to the magnitude whose last bit is even. Below a power of
two the distance is half of that above it, since one more bit after the point is kept there.

## Key results

- `roundDiv_eq`: the quotients whose nearest whole number is a given one
- `roundUnits_eq`: what `roundsTo` accepts rounds to the magnitude
- `ofDecimal_eq`: a decimal that `roundsTo` accepts reads as the double
-/

namespace Chartdown

theorem twoTo_succ (k : Nat) : twoTo (k + 1) = 2 * twoTo k := Nat.pow_succ'

theorem tenTo_succ (k : Nat) : tenTo (k + 1) = 10 * tenTo k := Nat.pow_succ'

/-- A quotient within half of a whole number rounds to it, on the edge if it is even. -/
theorem roundDiv_eq {num den m : Nat} (hden : 0 < den) (hlow : 2 * (m * den) ≤ 2 * num + den)
    (hhigh : 2 * num ≤ 2 * (m * den) + den)
    (hodd : m % 2 ≠ 0 → 2 * (m * den) < 2 * num + den ∧ 2 * num < 2 * (m * den) + den) :
    roundDiv num den = m := by
  have hdiv := Nat.div_add_mod' num den
  have hmod := Nat.mod_lt num hden
  simp only [roundDiv]
  generalize num / den = q at *
  generalize num % den = r at *
  -- The whole part of the quotient is `m` or the number before it.
  have hle : q ≤ m := by
    by_contra h
    have hmul : (m + 1) * den ≤ q * den := Nat.mul_le_mul_right den (by omega)
    rw [Nat.add_mul] at hmul
    omega
  have hge : m ≤ q + 1 := by
    by_contra h
    have hmul : (q + 2) * den ≤ m * den := Nat.mul_le_mul_right den (by omega)
    rw [Nat.add_mul] at hmul
    omega
  have hcases : m = q ∨ m = q + 1 := by omega
  rcases hcases with rfl | rfl
  · repeat' split
    all_goals omega
  · rw [Nat.add_mul, Nat.one_mul] at hlow hhigh hodd
    repeat' split
    all_goals omega

theorem roundDiv_eq_or (num den : Nat) :
    roundDiv num den = num / den ∨ roundDiv num den = num / den + 1 := by
  simp only [roundDiv]
  repeat' split
  all_goals simp

namespace Double

/-- The last kept bit of a quotient is told by its leading one. -/
theorem lastBit_div {num den s : Nat} (hden : 0 < den)
    (hlow : s = 0 ∨ twoTo 52 * (den * twoTo s) ≤ num) (hhigh : num < twoTo 53 * (den * twoTo s)) :
    lastBit (num / den) = s := by
  have hlt : num / den < twoTo (53 + s) := by
    rw [Nat.div_lt_iff_lt_mul hden, twoTo_add]
    calc num < twoTo 53 * (den * twoTo s) := hhigh
      _ = twoTo 53 * twoTo s * den := by ring
  have hlog := log2_lt_of_lt_twoTo (by omega) hlt
  rcases hlow with rfl | hlow
  · simp only [lastBit]
    omega
  · have hle : twoTo (52 + s) ≤ num / den := by
      rw [Nat.le_div_iff_mul_le hden, twoTo_add]
      calc twoTo 52 * twoTo s * den = twoTo 52 * (den * twoTo s) := by ring
        _ ≤ num := hlow
    have hne : num / den ≠ 0 := Nat.ne_of_gt (Nat.lt_of_lt_of_le (twoTo_pos _) hle)
    have hge : 52 + s ≤ (num / den).log2 := (Nat.le_log2 hne).mpr hle
    simp only [lastBit]
    omega

/-- A quotient is rounded at its last kept bit. -/
theorem roundUnits_eq_of_round {num den s m : Nat} (hden : 0 < den)
    (hlow : s = 0 ∨ twoTo 52 * (den * twoTo s) ≤ num) (hhigh : num < twoTo 53 * (den * twoTo s))
    (hround : roundDiv num (den * twoTo s) = m) : roundUnits num den = m * twoTo s := by
  simp only [roundUnits, lastBit_div hden hlow hhigh, hround]

/-- A magnitude of 53 bits is a number below `2 ^ 53` at its last bit, and one of at least `2 ^ 52`
unless that is the last bit of all. -/
theorem exists_significand {units : Nat} (hunits : 0 < units) (hfits : Fits units) :
    ∃ m, units = m * twoTo (lastBit units) ∧ m < twoTo 53 ∧ (lastBit units = 0 ∨ twoTo 52 ≤ m) := by
  have hsplit := Nat.div_add_mod' units (twoTo (lastBit units))
  rw [show units % twoTo (lastBit units) = 0 from hfits, Nat.add_zero] at hsplit
  refine ⟨units / twoTo (lastBit units), hsplit.symm, ?_, ?_⟩
  · rw [Nat.div_lt_iff_lt_mul (twoTo_pos _), ← twoTo_add]
    refine Nat.lt_of_lt_of_le (lt_twoTo_log2 units) (twoTo_le_twoTo ?_)
    simp only [lastBit]
    omega
  · rcases Nat.eq_zero_or_pos (lastBit units) with hzero | hpos
    · exact .inl hzero
    · right
      rw [Nat.le_div_iff_mul_le (twoTo_pos _), ← twoTo_add]
      have hexponent : 52 + lastBit units = units.log2 := by
        simp only [lastBit] at hpos ⊢
        omega
      rw [hexponent]
      exact Nat.log2_self_le (by omega)

end Double

namespace FiniteDouble

open Double

theorem gapBelow_le {units : Nat} (hunits : 0 < units) : gapBelow units ≤ units := by
  have hlog : twoTo (lastBit units) ≤ units :=
    Nat.le_trans (twoTo_le_twoTo (Nat.sub_le _ _)) (Nat.log2_self_le (by omega))
  simp only [gapBelow]
  split
  · exact Nat.le_trans (twoTo_le_twoTo (by omega)) hlog
  · exact hlog

/-- Half a distance on each side, the edges for an even last bit only. -/
theorem roundsTo_iff {units num den : Nat} (hunits : 0 < units) :
    roundsTo units num den = true ↔
      2 * (units * den) ≤ num + gapBelow units * den ∧
      num ≤ 2 * (units * den) + gapAbove units * den ∧
      (units / twoTo (lastBit units) % 2 ≠ 0 →
        2 * (units * den) < num + gapBelow units * den ∧
        num < 2 * (units * den) + gapAbove units * den) := by
  have hgap := Nat.mul_le_mul_right den (gapBelow_le hunits)
  simp only [roundsTo, Nat.sub_mul, Nat.add_mul, Nat.mul_assoc]
  split
  case isTrue heven =>
    simp only [Bool.and_eq_true, decide_eq_true_eq, heven]
    omega
  case isFalse hodd =>
    simp only [Bool.and_eq_true, decide_eq_true_eq]
    omega

/-- What is accepted does not depend on how a quotient is written. -/
theorem roundsTo_mul (units num den : Nat) {c : Nat} (hc : 0 < c) :
    roundsTo units (c * num) (c * den) = roundsTo units num den := by
  simp only [roundsTo, Nat.mul_left_comm _ c, Nat.mul_le_mul_left_iff hc, Nat.mul_lt_mul_left hc]

/-- Below a power of two one more bit is kept, so half as far below it as above rounds to it. -/
theorem roundUnits_twoTo {num den j : Nat} (hden : 0 < den)
    (hlow : 2 * (twoTo 52 * (den * twoTo (j + 1))) ≤ 2 * num + den * twoTo j)
    (hhigh : 2 * num ≤ 2 * (twoTo 52 * (den * twoTo (j + 1))) + den * twoTo (j + 1))
    (hlarge : num < twoTo 53 * (den * twoTo (j + 1))) :
    roundUnits num den = twoTo 52 * twoTo (j + 1) := by
  have hD : 0 < den * twoTo (j + 1) := Nat.mul_pos hden (twoTo_pos _)
  have hdouble : twoTo 53 = 2 * twoTo 52 := twoTo_succ 52
  by_cases hside : twoTo 52 * (den * twoTo (j + 1)) ≤ num
  · have hround : roundDiv num (den * twoTo (j + 1)) = twoTo 52 :=
      roundDiv_eq hD (by omega) hhigh fun hodd => absurd rfl hodd
    exact roundUnits_eq_of_round hden (.inr hside) hlarge hround
  · -- Below it, twice as many units of half the size make the same power of two.
    have hwhole : twoTo 53 * (den * twoTo j) = twoTo 52 * (den * twoTo (j + 1)) := by
      rw [hdouble, twoTo_succ j]
      ring
    have hhalves : twoTo 53 * (den * twoTo j) = 2 * (twoTo 52 * (den * twoTo j)) := by
      rw [hdouble, Nat.mul_assoc]
    have hone : den * twoTo j ≤ twoTo 52 * (den * twoTo j) :=
      Nat.le_mul_of_pos_left _ (twoTo_pos 52)
    have hpos : 0 < den * twoTo j := Nat.mul_pos hden (twoTo_pos _)
    have hround : roundDiv num (den * twoTo j) = twoTo 53 :=
      roundDiv_eq hpos (by omega) (by omega) fun hodd => absurd rfl hodd
    rw [roundUnits_eq_of_round hden (.inr (by omega)) (by omega) hround, hdouble, twoTo_succ j]
    ring

/-- What lies where all numbers round to a magnitude is rounded to it. -/
theorem roundUnits_eq {units num den : Nat} (hunits : 0 < units) (hfits : Fits units)
    (hden : 0 < den) (h : roundsTo units (2 * num) den = true) : roundUnits num den = units := by
  obtain ⟨m, hsplit, hlt, hge⟩ := exists_significand hunits hfits
  obtain ⟨hlow, hhigh, hodd⟩ := (roundsTo_iff hunits).mp h
  generalize hk : lastBit units = k at *
  have hm : units / twoTo k = m := by rw [hsplit, Nat.mul_div_cancel _ (twoTo_pos k)]
  rw [hm] at hodd
  have hD : 0 < den * twoTo k := Nat.mul_pos hden (twoTo_pos k)
  have hunitsD : units * den = m * (den * twoTo k) := by rw [hsplit]; ring
  have habove : gapAbove units * den = den * twoTo k := by rw [gapAbove, hk]; ring
  rw [hunitsD, habove] at hhigh
  have hlarge : num < twoTo 53 * (den * twoTo k) := by
    have hmul : (m + 1) * (den * twoTo k) ≤ twoTo 53 * (den * twoTo k) :=
      Nat.mul_le_mul_right _ hlt
    rw [Nat.add_mul] at hmul
    omega
  by_cases hpower : 0 < k ∧ units = twoTo units.log2
  · obtain ⟨hpos, hpower⟩ := hpower
    have hlog : units.log2 = 52 + k := by
      rw [← hk, lastBit] at hpos ⊢
      omega
    obtain ⟨j, rfl⟩ : ∃ j, k = j + 1 := ⟨k - 1, by omega⟩
    rw [hlog, twoTo_add] at hpower
    obtain rfl : m = twoTo 52 := Nat.eq_of_mul_eq_mul_right (twoTo_pos (j + 1))
      (hsplit.symm.trans hpower)
    have hbelow : gapBelow units * den = den * twoTo j := by
      simp only [gapBelow, hk]
      rw [if_pos ⟨hpos, by rw [hlog, twoTo_add, ← hpower]⟩, Nat.add_sub_cancel, Nat.mul_comm]
    rw [hunitsD, hbelow] at hlow
    rw [roundUnits_twoTo hden hlow hhigh hlarge, ← hpower]
  · have hbelow : gapBelow units * den = den * twoTo k := by
      simp only [gapBelow, hk]
      rw [if_neg hpower]
      ring
    rw [hunitsD, habove, hbelow] at hodd
    rw [hunitsD, hbelow] at hlow
    -- The significand is not the least one, so the quotient does not drop to a finer last bit.
    have hsmall : k = 0 ∨ twoTo 52 * (den * twoTo k) ≤ num := by
      refine or_iff_not_imp_left.mpr fun hpos => ?_
      have hne : m ≠ twoTo 52 := by
        rintro rfl
        refine hpower ⟨Nat.pos_of_ne_zero hpos, ?_⟩
        rw [hsplit, ← twoTo_add, log2_twoTo]
      have hmul : (twoTo 52 + 1) * (den * twoTo k) ≤ m * (den * twoTo k) :=
        Nat.mul_le_mul_right _ (by omega)
      rw [Nat.add_mul] at hmul
      omega
    rw [roundUnits_eq_of_round hden hsmall hlarge (roundDiv_eq hD hlow hhigh hodd), ← hsplit]

/-! ### Decimals -/

/-- Whether a decimal lies where all numbers round to a magnitude. -/
def Rounds (units digits : Nat) (exponent : Int) : Prop :=
  roundsTo units (digits * (halfUnits exponent).1) (halfUnits exponent).2 = true

theorem halfUnits_natCast (k : Nat) : halfUnits k = (tenTo k * twoTo 1075, 1) := rfl

theorem halfUnits_negSucc (k : Nat) : halfUnits (.negSucc k) = (twoTo 1075, tenTo (k + 1)) := rfl

/-- A zero at the end of the digits takes one off the exponent. -/
theorem Rounds.shift {units digits : Nat} {exponent : Int} (h : Rounds units digits (exponent + 1)) :
    Rounds units (10 * digits) exponent := by
  unfold Rounds at h ⊢
  cases exponent with
  | ofNat k =>
    have hnext : Int.ofNat k + 1 = ((k + 1 : Nat) : Int) := rfl
    rw [hnext, halfUnits_natCast, tenTo_succ] at h
    rw [Int.ofNat_eq_natCast, halfUnits_natCast, ← h]
    simp only [Nat.mul_assoc, Nat.mul_left_comm]
  | negSucc k =>
    rw [halfUnits_negSucc, tenTo_succ, Nat.mul_assoc, roundsTo_mul _ _ _ (by decide), ← h]
    cases k with
    | zero =>
      have hnext : Int.negSucc 0 + 1 = ((0 : Nat) : Int) := rfl
      rw [hnext, halfUnits_natCast, show tenTo 0 = 1 from rfl, Nat.one_mul]
    | succ k =>
      have hnext : Int.negSucc (k + 1) + 1 = .negSucc k := rfl
      rw [hnext, halfUnits_negSucc]

theorem Rounds.shiftBy {units digits n : Nat} {exponent : Int}
    (h : Rounds units digits (exponent + n)) : Rounds units (tenTo n * digits) exponent := by
  induction n generalizing exponent with
  | zero => simpa [tenTo] using h
  | succ n ih =>
    have hnext : exponent + 1 + (n : Int) = exponent + ((n + 1 : Nat) : Int) := by omega
    rw [tenTo_succ, Nat.mul_assoc]
    exact (ih (hnext ▸ h)).shift

/-- A decimal that rounds to a magnitude is read as it. -/
theorem ofDecimal_eq {v : FiniteDouble} {digits : Nat} {exponent : Int} (hunits : 0 < v.units)
    (hdigits : digits ≠ 0) (hlarge : exponent ≤ 400) (hsmall : -400 ≤ exponent)
    (h : Rounds v.units digits exponent) :
    Double.ofDecimal v.negative digits exponent = .finite v := by
  have hhalves : twoTo 1075 = 2 * twoTo 1074 := twoTo_succ 1074
  have hratio : ∀ {num den : Nat} (hden : 0 < den),
      roundsTo v.units (num * twoTo 1075) den = true →
        ofRatio v.negative num den hden = .finite v := by
    intro num den hden hrounds
    rw [hhalves, Nat.mul_left_comm] at hrounds
    have heq := roundUnits_eq hunits v.fits hden hrounds
    simp only [ofRatio, heq, v.lt_limit, dite_true]
  unfold Rounds at h
  rw [Double.ofDecimal.eq_def, if_neg hdigits]
  -- Neither of the bounds that spare the division is met, as the exponent is not that far out.
  cases exponent with
  | ofNat e =>
    have hle : ¬ 400 < e := by simpa using hlarge
    simp only [Int.ofNat_eq_natCast, halfUnits_natCast, ← Nat.mul_assoc] at h
    simp only [hle, if_false]
    exact hratio _ h
  | negSucc e =>
    have hle : ¬ digits.log2 + 400 < e := by
      have := Int.negSucc_eq e
      omega
    simp only [halfUnits_negSucc] at h
    simp only [hle, if_false]
    exact hratio _ h

/-- A decimal without digits other than zero is read as zero. -/
theorem ofDecimal_zero {v : FiniteDouble} (hunits : v.units = 0) (exponent : Int) :
    Double.ofDecimal v.negative 0 exponent = .finite v := by
  obtain ⟨negative, units, hlt, hfits⟩ := v
  obtain rfl : units = 0 := hunits
  have hround : ∀ s, roundDiv 0 (1 * twoTo s) * twoTo s = 0 := by
    intro s
    simp [roundDiv, twoTo_pos]
  have hzero : roundUnits (0 * twoTo 1074) 1 = 0 := by
    rw [Nat.zero_mul]
    exact hround _
  rw [Double.ofDecimal.eq_def, if_pos rfl]
  simp only [ofRatio, hzero, hlt, dite_true]

end FiniteDouble

end Chartdown
