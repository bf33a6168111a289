/-! # UTF-16 code units

Strings of JSON are sequences of UTF-16 code units: an escape writes one unit, so a text can
hold half of a surrogate pair that no character stands for.

* `toChars_ofChars`  a text is read back from its code units
-/

namespace Chartdown.Text

/-- A sequence of UTF-16 code units. -/
abbrev Utf16 := List UInt16

namespace Utf16

/-- The one or two code units of a character. -/
def unitsOf (c : Char) : Utf16 :=
  if c.toNat < 0x10000 then [c.toNat.toUInt16]
  else [(0xD800 + (c.toNat - 0x10000) / 0x400).toUInt16, (0xDC00 + c.toNat % 0x400).toUInt16]

/-- The code units of a text. -/
def ofChars (s : List Char) : Utf16 := s.flatMap unitsOf

/-- The code units of a text. -/
def ofString (s : String) : Utf16 := ofChars s.toList

/-- Whether a unit opens a surrogate pair. -/
def isHigh (u : UInt16) : Bool := 0xD800 ≤ u && u < 0xDC00

/-- Whether a unit closes a surrogate pair. -/
def isLow (u : UInt16) : Bool := 0xDC00 ≤ u && u < 0xE000

/-- The character of a surrogate pair. -/
def joinPair (high low : UInt16) : Char :=
  Char.ofNat (0x10000 + (high.toNat - 0xD800) * 0x400 + (low.toNat - 0xDC00))

/-- The character of a unit outside pairs. Half a pair has none and gives U+FFFD. -/
def single (u : UInt16) : Char :=
  if isHigh u || isLow u then '\ufffd' else Char.ofNat u.toNat

/-- The characters of a sequence of code units. -/
def toChars : Utf16 → List Char
  | [] => []
  | [u] => [single u]
  | u :: v :: s =>
    if isHigh u && isLow v then joinPair u v :: toChars s else single u :: toChars (v :: s)

/-- The text of a sequence of code units. -/
def toString (s : Utf16) : String := String.ofList (toChars s)

theorem isHigh_iff {u : UInt16} : isHigh u = true ↔ 0xD800 ≤ u.toNat ∧ u.toNat < 0xDC00 := by
  simp [isHigh, UInt16.le_iff_toNat_le, UInt16.lt_iff_toNat_lt]

theorem isLow_iff {u : UInt16} : isLow u = true ↔ 0xDC00 ≤ u.toNat ∧ u.toNat < 0xE000 := by
  simp [isLow, UInt16.le_iff_toNat_le, UInt16.lt_iff_toNat_lt]

theorem toNat_toUInt16_of_lt {n : Nat} (h : n < 0x10000) : n.toUInt16.toNat = n := by
  rw [Nat.toUInt16_eq]
  exact UInt16.toNat_ofNat_of_lt' h

/-- A unit that is no half of a pair is a character by itself. -/
theorem toChars_cons_of_single {u : UInt16} (hhigh : ¬ isHigh u = true) (hlow : ¬ isLow u = true)
    (s : Utf16) : toChars (u :: s) = Char.ofNat u.toNat :: toChars s := by
  cases s with
  | nil => simp [toChars, single, hhigh, hlow]
  | cons v s => simp [toChars, single, hhigh, hlow]

theorem toChars_cons_cons_of_pair {u v : UInt16} (hu : isHigh u = true) (hv : isLow v = true)
    (s : Utf16) : toChars (u :: v :: s) = joinPair u v :: toChars s := by
  simp [toChars, hu, hv]

/-- A character is read back from its units, whatever follows. -/
theorem toChars_unitsOf_append (c : Char) (s : Utf16) :
    toChars (unitsOf c ++ s) = c :: toChars s := by
  -- No character lies among the halves of pairs.
  have hvalid : c.toNat < 0xD800 ∨ 0xDFFF < c.toNat ∧ c.toNat < 0x110000 := c.valid
  rw [unitsOf]
  split
  case isTrue hsmall =>
    have hunit : c.toNat.toUInt16.toNat = c.toNat := toNat_toUInt16_of_lt hsmall
    rw [List.singleton_append, toChars_cons_of_single, hunit, Char.ofNat_toNat]
    · rw [isHigh_iff, hunit]
      omega
    · rw [isLow_iff, hunit]
      omega
  case isFalse hlarge =>
    have hhigh : (0xD800 + (c.toNat - 0x10000) / 0x400).toUInt16.toNat =
        0xD800 + (c.toNat - 0x10000) / 0x400 := toNat_toUInt16_of_lt (by omega)
    have hlow : (0xDC00 + c.toNat % 0x400).toUInt16.toNat = 0xDC00 + c.toNat % 0x400 :=
      toNat_toUInt16_of_lt (by omega)
    have hsum : 0x10000 + (0xD800 + (c.toNat - 0x10000) / 0x400 - 0xD800) * 0x400 +
        (0xDC00 + c.toNat % 0x400 - 0xDC00) = c.toNat := by omega
    rw [List.cons_append, List.cons_append, List.nil_append, toChars_cons_cons_of_pair, joinPair,
      hhigh, hlow, hsum, Char.ofNat_toNat]
    · rw [isHigh_iff, hhigh]
      omega
    · rw [isLow_iff, hlow]
      omega

theorem toChars_ofChars (s : List Char) : toChars (ofChars s) = s := by
  induction s with
  | nil => rfl
  | cons c s ih =>
    rw [ofChars, List.flatMap_cons, toChars_unitsOf_append]
    exact congrArg (c :: ·) ih

theorem ofString_inj {s t : String} : ofString s = ofString t ↔ s = t := by
  refine ⟨fun h => ?_, congrArg ofString⟩
  have hchars := congrArg toChars h
  rw [ofString, ofString, toChars_ofChars, toChars_ofChars] at hchars
  exact String.toList_inj.mp hchars

end Utf16
end Chartdown.Text
