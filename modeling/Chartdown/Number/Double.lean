import Chartdown.Number.Power

/-! # Double-precision numbers

The magnitude of every finite double is a whole number of units of `2 ^ -1074`, has at most 53
significant bits and stays below `2 ^ 2098` units. That is taken as the definition, so a double
is data that equality and arithmetic on naturals decide, and rounding is one division.

* `fits_roundUnits`   rounding keeps 53 significant bits
-/

namespace Chartdown

/-- The nearest whole number to a quotient, the even one where two are as near. -/
def roundDiv (num den : Nat) : Nat :=
  let q := num / den
  let r := num % den
  if 2 * r < den then q
  else if den < 2 * r then q + 1
  else if q % 2 = 0 then q else q + 1

theorem roundDiv_le_of_lt {num den bound : Nat} (h : num < bound * den) :
    roundDiv num den ≤ bound := by
  have hq : num / den < bound := Nat.div_lt_of_lt_mul (Nat.mul_comm bound den ▸ h)
  simp only [roundDiv]
  repeat' split
  all_goals omega

namespace Double

/-- The units below the first magnitude that no finite double has. -/
def unitLimit : Nat := twoTo 2098

/-- Whether a magnitude, counted in units, has at most 53 significant bits. -/
def Fits (units : Nat) : Prop := units % twoTo (units.log2 - 52) = 0

instance (units : Nat) : Decidable (Fits units) :=
  inferInstanceAs (Decidable (units % twoTo (units.log2 - 52) = 0))

/-- The exponent of the last of the 53 bits that are kept of a magnitude. -/
def lastBit (units : Nat) : Nat := units.log2 - 52

/-- The magnitude nearest to `num / den` units that has at most 53 significant bits, the one with
an even last bit where two are as near. -/
def roundUnits (num den : Nat) : Nat :=
  let shift := lastBit (num / den)
  roundDiv num (den * twoTo shift) * twoTo shift

theorem fits_roundUnits (num : Nat) {den : Nat} (hden : 0 < den) : Fits (roundUnits num den) := by
  simp only [Fits, roundUnits, lastBit]
  generalize hs : (num / den).log2 - 52 = s
  have hq : num / den < twoTo (53 + s) :=
    Nat.lt_of_lt_of_le (lt_twoTo_log2 _) (twoTo_le_twoTo (by omega))
  have hnum : num < twoTo 53 * (den * twoTo s) := by
    have h := (Nat.div_lt_iff_lt_mul hden).mp hq
    calc num < twoTo (53 + s) * den := h
      _ = twoTo 53 * (den * twoTo s) := by rw [twoTo_add, Nat.mul_assoc, Nat.mul_comm (twoTo s)]
  have hr := roundDiv_le_of_lt hnum
  generalize roundDiv num (den * twoTo s) = r at hr
  rcases Nat.lt_or_eq_of_le hr with hlt | heq
  -- The rounded quotient has at most 53 bits, so the shift gives back what it took.
  · have hu : r * twoTo s < twoTo (53 + s) := by
      rw [twoTo_add]
      exact Nat.mul_lt_mul_of_pos_right hlt (twoTo_pos s)
    have hlog := log2_lt_of_lt_twoTo (by omega) hu
    have hle : (r * twoTo s).log2 - 52 ≤ s := by omega
    exact Nat.mod_eq_zero_of_dvd (Nat.dvd_trans (twoTo_dvd_twoTo hle) (Nat.dvd_mul_left _ _))
  -- Rounding went up to a power of two, which has one significant bit.
  · have hu : r * twoTo s = twoTo (53 + s) := by rw [heq, twoTo_add]
    rw [hu]
    exact Nat.mod_eq_zero_of_dvd (twoTo_dvd_twoTo (by rw [log2_twoTo]; omega))

end Double

/-- A finite double: a sign and a magnitude in units of `2 ^ -1074`. -/
structure FiniteDouble where
  /-- Whether the sign is a minus, which zero can have too. -/
  negative : Bool
  /-- The magnitude. -/
  units : Nat
  /-- The magnitude is below the range's end. -/
  lt_limit : units < Double.unitLimit
  /-- The magnitude has at most 53 significant bits. -/
  fits : Double.Fits units
  deriving DecidableEq

/-- A double-precision number. -/
inductive Double
  | finite (value : FiniteDouble)
  | infinite (negative : Bool)
  | nan
  deriving DecidableEq

namespace Double

/-- The double nearest to `± num / den`, infinite beyond the range. -/
def ofRatio (negative : Bool) (num den : Nat) (hden : 0 < den) : Double :=
  let units := roundUnits (num * twoTo 1074) den
  if h : units < unitLimit then
    .finite ⟨negative, units, h, fits_roundUnits _ hden⟩
  else
    .infinite negative

/-- The double nearest to `± digits * 10 ^ exponent`. A power of ten so large or so small that the
result is plain is never computed. -/
def ofDecimal (negative : Bool) (digits : Nat) (exponent : Int) : Double :=
  if digits = 0 then ofRatio negative 0 1 (by decide)
  else match exponent with
    | .ofNat e =>
      if 400 < e then .infinite negative else ofRatio negative (digits * tenTo e) 1 (by decide)
    | .negSucc e =>
      if digits.log2 + 400 < e then ofRatio negative 0 1 (by decide)
      else ofRatio negative digits (tenTo (e + 1)) (tenTo_pos _)

/-- The double nearest to a whole number. -/
def ofInt (n : Int) : Double := ofRatio (n < 0) n.natAbs 1 (by decide)

/-- Positive zero. -/
def zero : Double := ofInt 0

/-- Whether a double is neither infinite nor undefined. -/
def isFinite : Double → Bool
  | .finite _ => true
  | _ => false

/-- Whether a double is zero of either sign. -/
def isZero : Double → Bool
  | .finite v => v.units == 0
  | _ => false

/-- Whether a double is above zero. -/
def isPositive : Double → Bool
  | .finite v => !v.negative && v.units != 0
  | .infinite negative => !negative
  | .nan => false

end Double
end Chartdown
