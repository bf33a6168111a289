/-! # Classes of characters

A class is a list of ranges of code points, both ends included. The classes of
`Text.Blank`, `Text.Digit`, `Text.Word` and `Text.Printable` are given this way
beyond ASCII, with the extent they have in Unicode 14.
-/

namespace Chartdown.Text

/-- Ranges of code points in ascending order, both ends included. -/
abbrev CharClass := List (Nat × Nat)

/-- Whether some range of the class holds the character. -/
def CharClass.contains (ranges : CharClass) (c : Char) : Bool :=
  ranges.any fun r => decide (r.1 ≤ c.toNat) && decide (c.toNat ≤ r.2)

theorem CharClass.contains_iff {ranges : CharClass} {c : Char} :
    ranges.contains c = true ↔ ∃ r ∈ ranges, r.1 ≤ c.toNat ∧ c.toNat ≤ r.2 := by
  simp [CharClass.contains]

end Chartdown.Text
