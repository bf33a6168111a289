import Chartdown.Proofs.Json.Reading
import Chartdown.Text.Numeral

/-!
# Numerals by their parts

A numeral has a sign, a mantissa and an exponent, of which only the mantissa must be there. The
digits may be of any script.

## Key results

- `isNumeral_iff`: the test accepts the numerals and no other text
- `isNumeral_append`: a sign in front makes no difference
- `Numeral.trim_eq`: nothing is trimmed off a numeral
-/

namespace Chartdown.Text

/-! ### Numerals -/

/-- One digit or more. -/
def Digits (s : List Char) : Prop := s ≠ [] ∧ ∀ c ∈ s, isDigit c = true

/-- A sign or none. -/
inductive Sign : List Char → Prop
  | none : Sign []
  | plus : Sign ['+']
  | minus : Sign ['-']

/-- Digits with at most one point before, among or behind them. -/
inductive Mantissa : List Char → Prop
  | whole {w : List Char} (hw : Digits w) : Mantissa w
  | pointed {w f : List Char} (hw : Digits w) (hf : ∀ c ∈ f, isDigit c = true) :
      Mantissa (w ++ '.' :: f)
  | fraction {f : List Char} (hf : Digits f) : Mantissa ('.' :: f)

/-- Nothing, or the letter E and digits that may have a sign. -/
inductive Exponent : List Char → Prop
  | none : Exponent []
  | some {mark : Char} {sign ds : List Char} (hmark : mark = 'e' ∨ mark = 'E') (hsign : Sign sign)
      (hds : Digits ds) : Exponent (mark :: (sign ++ ds))

/-- A number as people write it. -/
inductive Numeral : List Char → Prop
  | mk {sign mantissa exponent : List Char} (hsign : Sign sign) (hmantissa : Mantissa mantissa)
      (hexponent : Exponent exponent) : Numeral (sign ++ (mantissa ++ exponent))

open Json (StartsWithout)

variable {s t w sign : List Char}

theorem isDigits_iff : isDigits s = true ↔ Digits s := by
  simp [isDigits, Digits]

/-! ### Signs -/

theorem dropSign_of_ne (h : ∀ c ∈ s.head?, c ≠ '+' ∧ c ≠ '-') : dropSign s = s := by
  unfold dropSign
  split
  · exact absurd rfl (h '+' rfl).1
  · exact absurd rfl (h '-' rfl).2
  · rfl

theorem dropSign_append (hsign : Sign sign) (h : ∀ c ∈ t.head?, c ≠ '+' ∧ c ≠ '-') :
    dropSign (sign ++ t) = t := by
  cases hsign with
  | none => exact dropSign_of_ne h
  | plus | minus => rfl

theorem exists_sign (s : List Char) : ∃ sign, Sign sign ∧ s = sign ++ dropSign s := by
  unfold dropSign
  split
  · exact ⟨_, .plus, rfl⟩
  · exact ⟨_, .minus, rfl⟩
  · exact ⟨_, .none, rfl⟩

/-- No digit is a sign. -/
theorem ne_sign_of_isDigit {c : Char} (h : isDigit c = true) : c ≠ '+' ∧ c ≠ '-' := by
  constructor
  · rintro rfl
    exact absurd h (by decide)
  · rintro rfl
    exact absurd h (by decide)

theorem Digits.head?_ne_sign (h : Digits s) : ∀ c ∈ s.head?, c ≠ '+' ∧ c ≠ '-' :=
  fun c hc => ne_sign_of_isDigit (h.2 c (List.mem_of_mem_head? hc))

/-! ### Exponents -/

theorem isExponent_iff : isExponent s = true ↔ Exponent s := by
  constructor
  · intro h
    cases s with
    | nil => exact .none
    | cons mark t =>
      simp only [isExponent, Bool.and_eq_true, Bool.or_eq_true, beq_iff_eq, isDigits_iff] at h
      obtain ⟨hmark, hds⟩ := h
      obtain ⟨sign, hsign, ht⟩ := exists_sign t
      rw [ht]
      exact .some hmark hsign hds
  · intro h
    cases h with
    | none => rfl
    | some hmark hsign hds =>
      simp only [isExponent, Bool.and_eq_true, Bool.or_eq_true, beq_iff_eq, isDigits_iff]
      rw [dropSign_append hsign hds.head?_ne_sign]
      exact ⟨hmark, hds⟩

theorem Exponent.startsWithout (h : Exponent s) : StartsWithout isDigit s := by
  cases h with
  | none => exact nofun
  | some hmark =>
    intro c hc
    obtain rfl := Option.some.inj hc
    rcases hmark with rfl | rfl
    all_goals decide

/-! ### Numerals without a sign -/

/-- The digits in front of a point and those behind it are read one after the other. -/
theorem isUnsigned_point {f : List Char} (hw : ∀ c ∈ w, isDigit c = true)
    (hf : ∀ c ∈ f, isDigit c = true) (ht : StartsWithout isDigit t) :
    isUnsigned (w ++ '.' :: (f ++ t)) = ((!w.isEmpty || !f.isEmpty) && isExponent t) := by
  have hpoint : StartsWithout isDigit ('.' :: (f ++ t)) := by
    intro c hc
    obtain rfl := Option.some.inj hc
    decide
  unfold isUnsigned
  simp only [Json.takeWhile_append hw hpoint, Json.dropWhile_append hw hpoint,
    Json.takeWhile_append hf ht, Json.dropWhile_append hf ht]

theorem isUnsigned_of_ne_point (hw : ∀ c ∈ w, isDigit c = true) (ht : StartsWithout isDigit t)
    (hpoint : t.head? ≠ some '.') : isUnsigned (w ++ t) = (!w.isEmpty && isExponent t) := by
  unfold isUnsigned
  simp only [Json.takeWhile_append hw ht, Json.dropWhile_append hw ht]
  split
  · exact absurd rfl hpoint
  · rfl

/-- A text is digits and what does not start with one. -/
theorem exists_digits_append (s : List Char) :
    ∃ w t, s = w ++ t ∧ (∀ c ∈ w, isDigit c = true) ∧ StartsWithout isDigit t := by
  refine ⟨s.takeWhile isDigit, s.dropWhile isDigit, List.takeWhile_append_dropWhile.symm,
    fun c hc => List.mem_takeWhile_imp hc, fun c hc => ?_⟩
  have hhead := List.head?_dropWhile_not isDigit s
  rw [Option.mem_def.mp hc] at hhead
  simpa using hhead

theorem exists_of_isUnsigned (h : isUnsigned s = true) :
    ∃ m e, s = m ++ e ∧ Mantissa m ∧ Exponent e := by
  obtain ⟨w, t, rfl, hw, ht⟩ := exists_digits_append s
  by_cases hpoint : t.head? = some '.'
  · obtain ⟨rest, rfl⟩ := List.head?_eq_some_iff.mp hpoint
    obtain ⟨f, u, rfl, hf, hu⟩ := exists_digits_append rest
    rw [isUnsigned_point hw hf hu, Bool.and_eq_true, isExponent_iff] at h
    obtain ⟨hdigits, he⟩ := h
    cases w with
    | nil =>
      -- Without digits in front of the point there are some behind it.
      have hne : f ≠ [] := by simpa using hdigits
      exact ⟨'.' :: f, u, rfl, .fraction ⟨hne, hf⟩, he⟩
    | cons d w =>
      refine ⟨d :: w ++ '.' :: f, u, ?_, .pointed ⟨List.cons_ne_nil d w, hw⟩ hf, he⟩
      rw [List.append_assoc, List.cons_append]
      rfl
  · rw [isUnsigned_of_ne_point hw ht hpoint, Bool.and_eq_true, isExponent_iff] at h
    have hne : w ≠ [] := by simpa using h.1
    exact ⟨w, t, rfl, .whole ⟨hne, hw⟩, h.2⟩

/-- An exponent starts with its letter, and so not with a point. -/
theorem Exponent.head?_ne_point (h : Exponent s) : s.head? ≠ Option.some '.' := by
  cases h with
  | none => exact nofun
  | some hmark =>
    rw [List.head?_cons, ne_eq, Option.some.injEq]
    rcases hmark with rfl | rfl
    all_goals decide

theorem isUnsigned_append {m e : List Char} (hm : Mantissa m) (he : Exponent e) :
    isUnsigned (m ++ e) = true := by
  cases hm with
  | whole hw =>
    rw [isUnsigned_of_ne_point hw.2 he.startsWithout he.head?_ne_point, isExponent_iff.mpr he]
    simpa using hw.1
  | pointed hw hf =>
    rw [List.append_assoc, List.cons_append, isUnsigned_point hw.2 hf he.startsWithout,
      isExponent_iff.mpr he]
    simp [hw.1]
  | @fraction f hf =>
    show isUnsigned ([] ++ '.' :: (f ++ e)) = true
    rw [isUnsigned_point (List.forall_mem_nil _) hf.2 he.startsWithout, isExponent_iff.mpr he]
    simp [hf.1]

/-! ### The test -/

theorem head?_ne_sign {m e : List Char} (hm : Mantissa m) :
    ∀ c ∈ (m ++ e).head?, c ≠ '+' ∧ c ≠ '-' := by
  have hdigits {w : List Char} (hw : Digits w) (t : List Char) :
      ∀ c ∈ (w ++ t).head?, c ≠ '+' ∧ c ≠ '-' := by
    intro c hc
    -- The first character is the first digit.
    obtain ⟨d, ds, rfl⟩ := List.exists_cons_of_ne_nil hw.1
    exact hw.head?_ne_sign c hc
  cases hm with
  | whole hw => exact hdigits hw e
  | pointed hw =>
    rw [List.append_assoc]
    exact hdigits hw _
  | fraction =>
    intro c hc
    obtain rfl := Option.some.inj hc
    decide

theorem isNumeral_iff : isNumeral s = true ↔ Numeral s := by
  unfold isNumeral
  constructor
  · intro h
    obtain ⟨m, e, hs, hm, he⟩ := exists_of_isUnsigned h
    obtain ⟨sign, hsign, hsplit⟩ := exists_sign s
    rw [hsplit, hs]
    exact .mk hsign hm he
  · intro h
    cases h with
    | mk hsign hm he =>
      rw [dropSign_append hsign (head?_ne_sign hm)]
      exact isUnsigned_append hm he

/-- A sign in front of a text that has none makes no difference. -/
theorem isNumeral_append (hsign : Sign sign) (h : ∀ c ∈ s.head?, c ≠ '+' ∧ c ≠ '-') :
    isNumeral (sign ++ s) = isNumeral s := by
  unfold isNumeral
  rw [dropSign_append hsign h, dropSign_of_ne h]

/-! ### Blanks -/

/-- No digit is blank. -/
theorem isBlank_of_isDigit {c : Char} (h : isDigit c = true) : isBlank c = false := by
  have hapart : ∀ r ∈ digits, ∀ q ∈ blanks, r.2 < q.1 ∨ q.2 < r.1 := by decide +kernel
  obtain ⟨r, hr, hge, hle⟩ := CharClass.contains_iff.mp h
  rw [Bool.eq_false_iff]
  intro hblank
  obtain ⟨q, hq, hge', hle'⟩ := CharClass.contains_iff.mp hblank
  have := hapart r hr q hq
  omega

theorem Sign.isBlank_eq_false (h : Sign s) : ∀ c ∈ s, isBlank c = false := by
  cases h
  all_goals decide

theorem Mantissa.isBlank_eq_false (h : Mantissa s) : ∀ c ∈ s, isBlank c = false := by
  have hpoint : isBlank '.' = false := by decide
  cases h with
  | whole hw => exact fun c hc => isBlank_of_isDigit (hw.2 c hc)
  | pointed hw hf =>
    rw [List.forall_mem_append, List.forall_mem_cons]
    exact ⟨fun c hc => isBlank_of_isDigit (hw.2 c hc), hpoint,
      fun c hc => isBlank_of_isDigit (hf c hc)⟩
  | fraction hf =>
    rw [List.forall_mem_cons]
    exact ⟨hpoint, fun c hc => isBlank_of_isDigit (hf.2 c hc)⟩

theorem Exponent.isBlank_eq_false (h : Exponent s) : ∀ c ∈ s, isBlank c = false := by
  cases h with
  | none => exact List.forall_mem_nil _
  | some hmark hsign hds =>
    rw [List.forall_mem_cons, List.forall_mem_append]
    refine ⟨?_, hsign.isBlank_eq_false, fun c hc => isBlank_of_isDigit (hds.2 c hc)⟩
    rcases hmark with rfl | rfl
    all_goals decide

/-- A numeral holds no blank. -/
theorem Numeral.isBlank_eq_false (h : Numeral s) : ∀ c ∈ s, isBlank c = false := by
  cases h with
  | mk hsign hmantissa hexponent =>
    rw [List.forall_mem_append, List.forall_mem_append]
    exact ⟨hsign.isBlank_eq_false, hmantissa.isBlank_eq_false, hexponent.isBlank_eq_false⟩

/-- Nothing is trimmed off a numeral. -/
theorem Numeral.trim_eq (h : Numeral s) : trim s = s := by
  have hblank := h.isBlank_eq_false
  by_cases hs : s = []
  · rw [hs]
    rfl
  · apply trim_of_solid
    · exact startsSolid_of_head? hs fun c hc => hblank c (List.mem_of_mem_head? hc)
    · exact endsSolid_of_getLast? hs fun c hc => hblank c (List.mem_of_mem_getLast? hc)

end Chartdown.Text
