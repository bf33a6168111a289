import Chartdown.Chart.Point
import Chartdown.Proofs.Json.Numerals
import Chartdown.Proofs.Text.Numeral

/-!
# Numeric keys

A key that is a string is numeric if a numeral is left of it when the blanks at its ends are
dropped. The texts of all whole numbers and of all finite doubles are numeric: they are written as
literals of JSON, and such a literal is a numeral.

## Key results

- `toChars_append_ofChars`: a text that is put behind code units is read by itself
- `numeral_text`: a literal of a JSON number is a numeral
- `isNumeric_spec`: the keys that are numeric
-/

namespace Chartdown

/-! ### Code units -/

namespace Text.Utf16

/-- The first unit of a character closes no pair. -/
theorem exists_unitsOf_eq_cons (c : Char) : ∃ u rest, unitsOf c = u :: rest ∧ isLow u = false := by
  have hvalid : c.toNat < 0xD800 ∨ 0xDFFF < c.toNat ∧ c.toNat < 0x110000 := c.valid
  unfold unitsOf
  split
  case isTrue hsmall =>
    have hunit : c.toNat.toUInt16.toNat = c.toNat := toNat_toUInt16_of_lt hsmall
    refine ⟨_, _, rfl, ?_⟩
    rw [Bool.eq_false_iff, ne_eq, isLow_iff, hunit]
    omega
  case isFalse =>
    have hhigh : (0xD800 + (c.toNat - 0x10000) / 0x400).toUInt16.toNat =
        0xD800 + (c.toNat - 0x10000) / 0x400 := toNat_toUInt16_of_lt (by omega)
    refine ⟨_, _, rfl, ?_⟩
    rw [Bool.eq_false_iff, ne_eq, isLow_iff, hhigh]
    omega

/-- A text in front of code units is read by itself. -/
theorem toChars_ofChars_append (g : List Char) (s : Utf16) :
    toChars (ofChars g ++ s) = g ++ toChars s := by
  induction g with
  | nil => rfl
  | cons c g ih =>
    rw [ofChars, List.flatMap_cons, List.append_assoc, toChars_unitsOf_append]
    exact congrArg (c :: ·) ih

/-- A text behind code units is read by itself, also behind half a pair. -/
theorem toChars_append_ofChars (s : Utf16) (g : List Char) :
    toChars (s ++ ofChars g) = toChars s ++ g := by
  induction s using toChars.induct with
  | case1 => exact toChars_ofChars g
  | case2 u =>
    cases g with
    | nil => rfl
    | cons c g =>
      -- What follows the unit closes no pair, so the unit is read alone.
      obtain ⟨v, rest, hunits, hlow⟩ := exists_unitsOf_eq_cons c
      have hchars := toChars_ofChars (c :: g)
      rw [ofChars, List.flatMap_cons, hunits, List.cons_append] at hchars ⊢
      simp [toChars, hlow, hchars]
  | case3 u v s hpair ih =>
    simp only [List.cons_append, toChars, hpair, if_true, ih]
  | case4 u v s hpair ih =>
    simp only [List.cons_append] at ih
    simp only [List.cons_append, toChars, hpair, ih]
    rfl

end Text.Utf16

namespace Chart

open Text

/-! ### Numbers as they are written -/

theorem digits_of_ascii {ds : List Char} (hne : ds ≠ []) (hds : ∀ c ∈ ds, c.isDigit = true) :
    Digits ds :=
  ⟨hne, fun c hc => isDigit_of_ascii (hds c hc)⟩

theorem digits_of_isWhole {ds : List Char} (h : Json.IsWhole ds) : Digits ds := by
  rcases h with rfl | ⟨hne, -, hds⟩
  · exact ⟨by decide, by decide⟩
  · exact digits_of_ascii hne hds

/-- The digits of a whole number and a sign for the negative ones are a numeral. -/
theorem numeral_integerText (n : Int) : Numeral (integerText n) := by
  have hdigits : Mantissa (digitsOf n.natAbs) :=
    .whole (digits_of_isWhole (Json.isWhole_digitsOf n.natAbs))
  have hnumeral {sign : List Char} (hsign : Sign sign) : Numeral (sign ++ digitsOf n.natAbs) := by
    simpa using Numeral.mk hsign hdigits .none
  unfold integerText
  split
  · exact hnumeral .minus
  · exact hnumeral .none

theorem exponent_text (e : Json.Exponent) : Exponent e.text := by
  have hsign : Sign e.sign := by
    rcases e.sign_mem with h | h | h
    all_goals
      rw [h]
      constructor
  exact .some e.mark_mem hsign (digits_of_ascii e.digits_ne_nil e.isDigit_of_mem_digits)

/-- A literal of a JSON number is a numeral. -/
theorem numeral_text (n : Json.NumberText) : Numeral n.text := by
  have hwhole : Digits n.whole := digits_of_isWhole n.isWhole
  have hmantissa : Mantissa (n.whole ++ n.fractionText) := by
    unfold Json.NumberText.fractionText
    split
    · rw [List.append_nil]
      exact .whole hwhole
    · exact .pointed hwhole fun c hc => isDigit_of_ascii (n.isDigit_of_mem_fraction c hc)
  have hexponent : Exponent n.exponentText := by
    unfold Json.NumberText.exponentText
    cases n.exponent with
    | none => exact .none
    | some e => exact exponent_text e
  have hnumeral {sign : List Char} (hsign : Sign sign) : Numeral (sign ++ n.magnitude) := by
    unfold Json.NumberText.magnitude
    rw [← List.append_assoc n.whole]
    exact .mk hsign hmantissa hexponent
  unfold Json.NumberText.text
  split
  · exact hnumeral .minus
  · exact hnumeral .none

/-! ### Keys -/

/-- A numeral between blanks. -/
def IsNumericText (s : List Char) : Prop :=
  ∃ front literal back, s = front ++ (literal ++ back) ∧ (∀ c ∈ front, isBlank c = true) ∧
    (∀ c ∈ back, isBlank c = true) ∧ Numeral literal

theorem Key.isNumeric_text (s : Utf16) :
    (Key.text s).isNumeric = isNumeral (trim (Utf16.toChars s)) := rfl

theorem isNumeral_trim_iff {s : List Char} : isNumeral (trim s) = true ↔ IsNumericText s := by
  rw [isNumeral_iff]
  constructor
  · intro h
    obtain ⟨front, back, hs, hfront, hback⟩ := exists_trim_eq s
    exact ⟨front, trim s, back, hs, hfront, hback, h⟩
  · rintro ⟨front, literal, back, rfl, hfront, hback, h⟩
    rw [trim_gap_append hfront, trim_append_gap literal hback, h.trim_eq]
    exact h

/-- Of a text that does not start with a blank, only the end is trimmed. -/
theorem trim_of_head? {s : List Char} (h : ∀ c ∈ s.head?, isBlank c = false) :
    trim s = dropEndWhile isBlank s := by
  by_cases hs : s = []
  · rw [hs]
    rfl
  · exact trim_of_startsSolid (startsSolid_of_head? hs h)

/-- A sign is not trimmed, and behind it the start of the text is left as it is. -/
theorem trim_sign_append {s sign : List Char} (hsign : Sign sign)
    (h : ∀ c ∈ s.head?, isBlank c = false) : trim (sign ++ s) = sign ++ trim s := by
  have hcons {c : Char} (hc : isBlank c = false) : trim (c :: s) = c :: trim s := by
    rw [trim_of_startsSolid ⟨c, s, rfl, hc⟩, dropEndWhile_cons_of_neg hc, trim_of_head? h]
  cases hsign with
  | none => rfl
  | plus => exact hcons (by decide)
  | minus => exact hcons (by decide)

/-- Blanks around a string make no difference. -/
theorem isNumeric_between_blanks (s : Utf16) {front back : List Char}
    (hfront : ∀ c ∈ front, isBlank c = true) (hback : ∀ c ∈ back, isBlank c = true) :
    (Key.text (Utf16.ofChars front ++ (s ++ Utf16.ofChars back))).isNumeric =
      (Key.text s).isNumeric := by
  simp only [Key.isNumeric_text, Utf16.toChars_ofChars_append, Utf16.toChars_append_ofChars]
  rw [trim_gap_append hfront, trim_append_gap _ hback]

/-- A sign makes no difference to a text that starts neither with a blank nor with a sign. -/
theorem isNumeric_behind_sign {s : Utf16} {sign : List Char} (hsign : Sign sign)
    (h : ∀ c ∈ (Utf16.toChars s).head?, isBlank c = false ∧ c ≠ '+' ∧ c ≠ '-') :
    (Key.text (Utf16.ofChars sign ++ s)).isNumeric = (Key.text s).isNumeric := by
  have hsolid : ∀ c ∈ (Utf16.toChars s).head?, isBlank c = false := fun c hc => (h c hc).1
  simp only [Key.isNumeric_text, Utf16.toChars_ofChars_append]
  rw [trim_sign_append hsign hsolid]
  apply isNumeral_append hsign
  intro c hc
  -- The end is trimmed only, so the first character is the one that the text starts with.
  obtain ⟨t, ht⟩ := dropEndWhile_isPrefix isBlank (Utf16.toChars s)
  have hhead : c ∈ (Utf16.toChars s).head? := by
    rw [← ht, ← trim_of_head? hsolid, List.head?_append, Option.mem_def.mp hc]
    rfl
  exact (h c hhead).2

theorem isNumeric_of_numeral {s : List Char} (h : Numeral s) :
    (Key.text (Utf16.ofChars s)).isNumeric = true := by
  rw [Key.isNumeric_text, Utf16.toChars_ofChars, h.trim_eq]
  exact isNumeral_iff.mpr h

/-- The keys that are strings and numeric: those with a numeral between blanks, among them every
whole number and every finite double as they are written. Neither blanks around a string nor the
sign of a numeral make a difference. -/
theorem isNumeric_spec :
    (∀ s : Utf16, (Key.text s).isNumeric = true ↔ IsNumericText (Utf16.toChars s)) ∧
    (∀ n : Int, (Key.text (Utf16.ofChars (integerText n))).isNumeric = true) ∧
    (∀ v : FiniteDouble, (Key.text (Utf16.ofChars v.text)).isNumeric = true) ∧
    (∀ (s : Utf16) (front back : List Char), (∀ c ∈ front, isBlank c = true) →
      (∀ c ∈ back, isBlank c = true) →
      (Key.text (Utf16.ofChars front ++ (s ++ Utf16.ofChars back))).isNumeric =
        (Key.text s).isNumeric) ∧
    ∀ (s : Utf16) (sign : List Char), Sign sign →
      (∀ c ∈ (Utf16.toChars s).head?, isBlank c = false ∧ c ≠ '+' ∧ c ≠ '-') →
      (Key.text (Utf16.ofChars sign ++ s)).isNumeric = (Key.text s).isNumeric := by
  refine ⟨fun s => ?_, fun n => ?_, fun v => ?_, fun s front back hfront hback => ?_,
    fun s sign hsign h => ?_⟩
  · rw [Key.isNumeric_text]
    exact isNumeral_trim_iff
  · exact isNumeric_of_numeral (numeral_integerText n)
  · obtain ⟨n, htext, -⟩ := Json.exists_doubleText v
    rw [← htext]
    exact isNumeric_of_numeral (numeral_text n)
  · exact isNumeric_between_blanks s hfront hback
  · exact isNumeric_behind_sign hsign h

/-- Digits of another script are read, between blanks and behind a sign. -/
theorem isNumeric_spec_arabic :
    (Key.text (Utf16.ofChars ['٣'])).isNumeric = true ∧
    (Key.text (Utf16.ofChars ['-', '٣'])).isNumeric = true ∧
    (Key.text (Utf16.ofChars ['\u2003', '٣', '\n'])).isNumeric = true ∧
    (Key.text (Utf16.ofChars ['٣', '-'])).isNumeric = false := by
  obtain ⟨hiff, -, -, hblank, hsign⟩ := isNumeric_spec
  have hdigits : Digits ['٣'] := ⟨by decide, by decide⟩
  have hnumeral : Numeral ['٣'] := by simpa using Numeral.mk .none (.whole hdigits) .none
  have hdigit : (Key.text (Utf16.ofChars ['٣'])).isNumeric = true :=
    (hiff _).mpr ⟨[], ['٣'], [], by decide, by decide, by decide, hnumeral⟩
  refine ⟨hdigit, ?_, ?_, by decide +kernel⟩
  · refine (hsign (Utf16.ofChars ['٣']) ['-'] .minus ?_).trans hdigit
    rw [Utf16.toChars_ofChars]
    intro c hc
    obtain rfl := Option.some.inj hc
    decide
  · exact (hblank (Utf16.ofChars ['٣']) ['\u2003'] ['\n'] (by decide) (by decide)).trans hdigit

end Chart
end Chartdown
