import Chartdown.Proofs.Number.Rounding

/-!
# The shortest decimal reads back

The search for the shortest decimal of a magnitude goes down from `10 ^ 309`. It ends at the latest
at `10 ^ -324`, which is less than half of the smallest distance between magnitudes, so a decimal
is found, and each that is found rounds to the magnitude.

## Key results

- `multiple?_ne_none`: a fine power of ten has a multiple that rounds to a magnitude
- `rounds_shortest`: the shortest decimal rounds to the magnitude
- `ofDecimal_shortest`: it is read as the double
-/

namespace Chartdown.FiniteDouble

open Double

variable {units : Nat}

/-- A multiple that is found rounds to the magnitude. -/
theorem rounds_of_multiple? {exponent : Int} {digits : Nat}
    (h : multiple? units exponent = some digits) : Rounds units digits exponent := by
  simp only [multiple?] at h
  unfold Rounds
  split at h
  case isTrue hbelow =>
    split at h
    case isTrue habove =>
      -- Both neighbours round to the magnitude, and the nearer one is one of them.
      rw [← Option.some.inj h]
      rcases roundDiv_eq_or (2 * units * (halfUnits exponent).2) (halfUnits exponent).1 with hd | hd
      · rw [hd]
        exact hbelow
      · rw [hd]
        exact habove
    case isFalse =>
      rw [← Option.some.inj h]
      exact hbelow
  case isFalse =>
    split at h
    case isTrue habove =>
      rw [← Option.some.inj h]
      exact habove
    case isFalse => cases h

/-- A multiple of a power of ten that is no more than a half unit rounds to the magnitude. -/
theorem multiple?_ne_none {exponent : Int} (hunits : 0 < units)
    (hpos : 0 < (halfUnits exponent).1) (hfine : (halfUnits exponent).1 ≤ (halfUnits exponent).2) :
    multiple? units exponent ≠ none := by
  simp only [multiple?]
  generalize halfUnits exponent = p at *
  obtain ⟨num, den⟩ := p
  simp only at hpos hfine ⊢
  -- The multiple below is off by less than the power, which is at most half a unit.
  have hbelow : roundsTo units (2 * units * den / num * num) den = true := by
    have hdiv := Nat.div_add_mod' (2 * units * den) num
    have hmod := Nat.mod_lt (2 * units * den) hpos
    have hlow : 1 * den ≤ gapBelow units * den := by
      refine Nat.mul_le_mul_right den ?_
      simp only [gapBelow]
      split
      all_goals exact twoTo_pos _
    have hhigh : 1 * den ≤ gapAbove units * den := Nat.mul_le_mul_right den (twoTo_pos _)
    rw [roundsTo_iff hunits, ← Nat.mul_assoc 2]
    omega
  simp only [hbelow, if_true]
  split
  all_goals simp

theorem exists_searchDown {fuel steps : Nat} {exponent : Int} (hfuel : steps < fuel)
    (hfound : multiple? units (exponent - steps) ≠ none) :
    ∃ digits e, searchDown units fuel exponent = ⟨digits, e⟩ ∧ multiple? units e = some digits ∧
      exponent - steps ≤ e ∧ e ≤ exponent := by
  -- By induction on how far down a multiple is known to be; the search may end before.
  induction steps generalizing fuel exponent with
  | zero =>
    obtain ⟨fuel, rfl⟩ := Nat.exists_eq_succ_of_ne_zero (Nat.ne_of_gt hfuel)
    obtain ⟨digits, hdigits⟩ := Option.ne_none_iff_exists'.mp hfound
    rw [Int.natCast_zero, Int.sub_zero] at hdigits
    exact ⟨digits, exponent, by simp only [searchDown, hdigits], hdigits, by omega, by omega⟩
  | succ steps ih =>
    obtain ⟨fuel, rfl⟩ := Nat.exists_eq_succ_of_ne_zero (Nat.ne_of_gt (Nat.zero_lt_of_lt hfuel))
    cases hhere : multiple? units exponent with
    | some digits =>
      exact ⟨digits, exponent, by simp only [searchDown, hhere], hhere, by omega, by omega⟩
    | none =>
      have hnext : exponent - 1 - (steps : Int) = exponent - ((steps + 1 : Nat) : Int) := by omega
      obtain ⟨digits, e, hsearch, hdigits, hlow, hhigh⟩ :=
        @ih fuel (exponent - 1) (Nat.lt_of_succ_lt_succ hfuel) (by rwa [hnext])
      exact ⟨digits, e, by simp only [searchDown, hhere, hsearch], hdigits, by omega, by omega⟩

/-- No number of half units near zero rounds to another magnitude. -/
theorem Rounds.digits_ne_zero {digits : Nat} {exponent : Int} (hunits : 0 < units)
    (hden : 0 < (halfUnits exponent).2) (h : Rounds units digits exponent) : digits ≠ 0 := by
  rintro rfl
  have hgap := Nat.mul_le_mul_right (halfUnits exponent).2 (gapBelow_le hunits)
  have hpos := Nat.mul_pos hunits hden
  have hlow := ((roundsTo_iff hunits).mp h).1
  omega

theorem halfUnits_pos (exponent : Int) :
    0 < (halfUnits exponent).1 ∧ 0 < (halfUnits exponent).2 := by
  cases exponent with
  | ofNat k =>
    simp only [Int.ofNat_eq_natCast, halfUnits_natCast]
    exact ⟨Nat.mul_pos (tenTo_pos k) (twoTo_pos 1075), Nat.one_pos⟩
  | negSucc k =>
    simp only [halfUnits_negSucc]
    exact ⟨twoTo_pos 1075, tenTo_pos (k + 1)⟩

/-- The shortest decimal rounds to the magnitude. -/
theorem rounds_shortest (hunits : 0 < units) :
    Rounds units (shortest units).digits (shortest units).exponent ∧
      -324 ≤ (shortest units).exponent ∧ (shortest units).exponent ≤ 309 := by
  -- The smallest power that is searched is the first one below half a unit.
  have hfine : (halfUnits (309 - (633 : Nat))).1 ≤ (halfUnits (309 - (633 : Nat))).2 := by
    decide +kernel
  obtain ⟨digits, e, hsearch, hdigits, hlow, hhigh⟩ :=
    @exists_searchDown units 640 633 309 (by decide)
      (multiple?_ne_none hunits (halfUnits_pos _).1 hfine)
  rw [shortest, if_neg (Nat.ne_of_gt hunits), hsearch]
  exact ⟨rounds_of_multiple? hdigits, hlow, hhigh⟩

theorem digits_shortest_ne_zero (hunits : 0 < units) : (shortest units).digits ≠ 0 :=
  (rounds_shortest hunits).1.digits_ne_zero hunits (halfUnits_pos _).2

/-- The shortest decimal of a double is read as the double. -/
theorem ofDecimal_shortest {v : FiniteDouble} (hunits : 0 < v.units) :
    Double.ofDecimal v.negative (shortest v.units).digits (shortest v.units).exponent =
      .finite v := by
  obtain ⟨hrounds, hlow, hhigh⟩ := rounds_shortest hunits
  exact ofDecimal_eq hunits (digits_shortest_ne_zero hunits) (by omega) (by omega) hrounds

end Chartdown.FiniteDouble
