import Chartdown.Number.Decimal
import Chartdown.Number.Double

/-! # Shortest decimal of a double

A double is written with the fewest digits that read back to it. All numbers between the
midpoints to its two neighbours read back, the midpoints themselves where its last bit is even.
The coarsest power of ten with a multiple in that interval gives the fewest digits, and of its
multiples the nearest is taken, the even one where two are as near.
-/

namespace Chartdown.FiniteDouble

/-- The distance, in units, to the next greater magnitude of 53 bits. -/
def gapAbove (units : Nat) : Nat := twoTo (Double.lastBit units)

/-- The distance, in units, to the next smaller magnitude of 53 bits. It halves at powers of two. -/
def gapBelow (units : Nat) : Nat :=
  let k := Double.lastBit units
  if 0 < k ∧ units = twoTo units.log2 then twoTo (k - 1) else twoTo k

/-- Whether `num / den` half units lies where all numbers round to `units`. -/
def roundsTo (units num den : Nat) : Bool :=
  let low := (2 * units - gapBelow units) * den
  let high := (2 * units + gapAbove units) * den
  if (units / twoTo (Double.lastBit units)) % 2 = 0 then low ≤ num && num ≤ high
  else low < num && num < high

/-- Half a unit's share in `10 ^ exponent`, as numerator and denominator. -/
def halfUnits : Int → Nat × Nat
  | .ofNat k => (tenTo k * twoTo 1075, 1)
  | .negSucc k => (twoTo 1075, tenTo (k + 1))

/-- The multiple of `10 ^ exponent` that is nearest to a magnitude among those that read back to
it. -/
def multiple? (units : Nat) (exponent : Int) : Option Nat :=
  let (num, den) := halfUnits exponent
  let target := 2 * units * den
  let below := target / num
  let hits (j : Nat) : Bool := roundsTo units (j * num) den
  if hits below then
    if hits (below + 1) then some (roundDiv target num) else some below
  else if hits (below + 1) then some (below + 1)
  else none

/-- Search the powers of ten downward from `10 ^ exponent`. -/
def searchDown (units : Nat) : Nat → Int → Decimal
  | 0, _ => ⟨0, 0⟩
  | fuel + 1, exponent =>
    match multiple? units exponent with
    | some digits => ⟨digits, exponent⟩
    | none => searchDown units fuel (exponent - 1)

/-- The decimal with the fewest digits that reads back to a magnitude. -/
def shortest (units : Nat) : Decimal :=
  if units = 0 then ⟨0, 0⟩ else searchDown units 640 309

/-- The coarsest power of ten, from `10 ^ exponent` down, of which a magnitude holds `10 ^ 5`, and
the multiple of it that is nearest. -/
def sixDigitsDown (units : Nat) : Nat → Int → Decimal
  | 0, _ => ⟨0, 0⟩
  | fuel + 1, exponent =>
    let (num, den) := halfUnits exponent
    if 100000 ≤ 2 * units * den / num then ⟨roundDiv (2 * units * den) num, exponent⟩
    else sixDigitsDown units fuel (exponent - 1)

/-- The decimal of at most six digits that is nearest to a magnitude. -/
def sixDigits (units : Nat) : Decimal :=
  if units = 0 then ⟨0, 0⟩ else (sixDigitsDown units 640 309).normalize

/-- A finite double as data. -/
def text (v : FiniteDouble) : List Char :=
  (if v.negative then ['-'] else []) ++ (shortest v.units).text Decimal.dataStyle

/-- A finite double as a measure. -/
def measureText (v : FiniteDouble) : List Char :=
  (if v.negative then ['-'] else []) ++ (sixDigits v.units).text Decimal.measureStyle

end Chartdown.FiniteDouble

namespace Chartdown

/-- A number of a chart: a whole number of any size or a double. -/
inductive Number
  | integer (n : Int)
  | double (d : Double)
  deriving DecidableEq

namespace Number

/-- The double nearest to a number. -/
def toDouble : Number → Double
  | .integer n => Double.ofInt n
  | .double d => d

/-- Whether a number has a value: only doubles may lack one. -/
def isFinite : Number → Bool
  | .integer _ => true
  | .double d => d.isFinite

/-- A number's magnitude counted in units of `2 ^ -1074`, with its sign; none where it has no
value. -/
def units? : Number → Option Int
  | .integer n => some (n * twoTo 1074)
  | .double (.finite v) => some (if v.negative then -v.units else v.units)
  | .double _ => none

end Number
end Chartdown
