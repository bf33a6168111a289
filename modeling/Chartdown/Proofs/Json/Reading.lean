import Chartdown.Json.Decode
import Chartdown.Proofs.Number.Range
import Chartdown.Proofs.Text.Trim

/-!
# What the JSON reader makes of a text

For each form of JSON there is the way it is written, and the reader, given a written form and
whatever follows, hands back what was meant and what follows.

## Key results

- `readString_plain`: a string without escapes
- `NumberText`, `readNumber_text`: the literals of numbers, and what they read as
- `readValue_of_plain`: values that hold no others are read alike on every level
- `readItems_eq_ok_iff`, `readMembers_eq_ok_iff`: items and members, one by one
- `readValue_array`, `readValue_object`: values that hold others
-/

namespace Chartdown.Json

open Text (Utf16)

/-! ### Space -/

theorem skipSpace_append {g : List Char} (hg : ∀ c ∈ g, isSpace c = true) (s : List Char) :
    skipSpace (g ++ s) = skipSpace s := by
  rw [skipSpace, skipSpace, List.dropWhile_append_of_pos hg]

theorem skipSpace_cons {c : Char} (h : isSpace c = false) (s : List Char) :
    skipSpace (c :: s) = c :: s := by
  rw [skipSpace, List.dropWhile_cons_of_neg (by simp [h])]

/-! ### Digits -/

/-- A text whose first character is none that a test accepts. -/
def StartsWithout (p : Char → Bool) (s : List Char) : Prop := ∀ c ∈ s.head?, p c = false

theorem takeWhile_append {p : Char → Bool} {ds rest : List Char} (hds : ∀ c ∈ ds, p c = true)
    (hrest : StartsWithout p rest) : (ds ++ rest).takeWhile p = ds := by
  rw [List.takeWhile_append_of_pos hds]
  cases rest with
  | nil => simp
  | cons c s => simp [hrest c rfl]

theorem dropWhile_append {p : Char → Bool} {ds rest : List Char} (hds : ∀ c ∈ ds, p c = true)
    (hrest : StartsWithout p rest) : (ds ++ rest).dropWhile p = rest := by
  rw [List.dropWhile_append_of_pos hds]
  cases rest with
  | nil => rfl
  | cons c s => simp [hrest c rfl]

theorem mul_tenTo_le_foldl_digits (n : Nat) (ds : List Char) :
    n * tenTo ds.length ≤ ds.foldl (fun n c => n * 10 + (c.toNat - '0'.toNat)) n := by
  induction ds generalizing n with
  | nil => exact Nat.le_of_eq (Nat.mul_one n)
  | cons d ds ih =>
    have hstep : n * 10 * tenTo ds.length ≤ (n * 10 + (d.toNat - '0'.toNat)) * tenTo ds.length :=
      Nat.mul_le_mul_right _ (Nat.le_add_right _ _)
    have hsucc : tenTo (ds.length + 1) = 10 * tenTo ds.length := Nat.pow_succ'
    rw [List.foldl_cons, List.length_cons, hsucc, ← Nat.mul_assoc]
    exact Nat.le_trans hstep (ih _)

/-- A number whose digits start with another than zero is as great as their count says. -/
theorem tenTo_le_naturalOf {d : Char} {ds : List Char} (hdigit : d.isDigit = true) (hzero : d ≠ '0') :
    tenTo ds.length ≤ naturalOf (d :: ds) := by
  have hd : 1 ≤ d.toNat - '0'.toNat := by
    have hne : d.toNat ≠ '0'.toNat := fun h => hzero (Char.toNat_inj.mp h)
    have hle : '0'.toNat ≤ d.toNat := by
      simp only [Char.isDigit, Bool.and_eq_true, decide_eq_true_eq] at hdigit
      exact hdigit.1
    omega
  calc tenTo ds.length = 1 * tenTo ds.length := (Nat.one_mul _).symm
    _ ≤ (0 * 10 + (d.toNat - '0'.toNat)) * tenTo ds.length := Nat.mul_le_mul_right _ (by omega)
    _ ≤ naturalOf (d :: ds) := mul_tenTo_le_foldl_digits _ ds

/-! ### Numbers -/

/-- The whole part of a number: a zero alone, or digits that start with another. -/
def IsWhole (ds : List Char) : Prop :=
  ds = ['0'] ∨ (ds ≠ [] ∧ ds.head? ≠ some '0' ∧ ∀ c ∈ ds, c.isDigit = true)

instance (ds : List Char) : Decidable (IsWhole ds) := inferInstanceAs (Decidable (_ ∨ _))

/-- An exponent: a mark, a sign or none, and digits. -/
structure Exponent where
  mark : Char
  sign : List Char
  digits : List Char
  mark_mem : mark = 'e' ∨ mark = 'E' := by decide
  sign_mem : sign = [] ∨ sign = ['+'] ∨ sign = ['-'] := by decide
  digits_ne_nil : digits ≠ [] := by decide
  isDigit_of_mem_digits : ∀ c ∈ digits, c.isDigit = true := by decide

/-- The exponent as it is written. -/
def Exponent.text (e : Exponent) : List Char := e.mark :: (e.sign ++ e.digits)

/-- The exponent as a number. -/
def Exponent.value (e : Exponent) : Int :=
  if e.sign = ['-'] then -(naturalOf e.digits : Int) else naturalOf e.digits

/-- The characters of numbers. -/
def isNumberChar (c : Char) : Bool :=
  c.isDigit || c == '-' || c == '+' || c == '.' || c == 'e' || c == 'E'

/-- A literal of a number. It has a fraction if there are digits of one. -/
structure NumberText where
  negative : Bool := false
  whole : List Char
  fraction : List Char := []
  exponent : Option Exponent := none
  isWhole : IsWhole whole := by decide
  isDigit_of_mem_fraction : ∀ c ∈ fraction, c.isDigit = true := by decide

namespace NumberText

/-- The fraction as it is written. -/
def fractionText (n : NumberText) : List Char := if n.fraction = [] then [] else '.' :: n.fraction

/-- The exponent as it is written. -/
def exponentText (n : NumberText) : List Char := (n.exponent.map Exponent.text).getD []

/-- The literal without its sign. -/
def magnitude (n : NumberText) : List Char := n.whole ++ (n.fractionText ++ n.exponentText)

/-- The literal. -/
def text (n : NumberText) : List Char := if n.negative then '-' :: n.magnitude else n.magnitude

/-- A literal without fraction and exponent. -/
def IsInteger (n : NumberText) : Prop := n.fraction = [] ∧ n.exponent = none

instance (n : NumberText) : Decidable n.IsInteger :=
  decidable_of_iff (n.fraction = [] ∧ n.exponent.isNone = true) (by simp [IsInteger])

/-- What a literal means: a whole number, or where it has a fraction or an exponent the double
next to it. -/
def value (n : NumberText) : Number :=
  if n.IsInteger then
    .integer (if n.negative then -(naturalOf n.whole : Int) else naturalOf n.whole)
  else
    .double (Double.ofDecimal n.negative (naturalOf (n.whole ++ n.fraction))
      ((n.exponent.map Exponent.value).getD 0 - n.fraction.length))

/-- A whole number has no more digits than are read. -/
def IsReadable (n : NumberText) : Prop := n.IsInteger → n.whole.length ≤ digitLimit

theorem isNumberChar_of_isDigit {c : Char} (h : c.isDigit = true) : isNumberChar c = true := by
  simp [isNumberChar, h]

/-- A literal holds no other characters than those of numbers. -/
theorem isNumberChar_of_mem_text {n : NumberText} {c : Char} (h : c ∈ n.text) :
    isNumberChar c = true := by
  have hwhole : ∀ c ∈ n.whole, isNumberChar c = true := by
    rcases n.isWhole with hzero | ⟨-, -, hdigits⟩
    · rw [hzero]
      decide
    · exact fun c hc => isNumberChar_of_isDigit (hdigits c hc)
  have hfraction : ∀ c ∈ n.fractionText, isNumberChar c = true := by
    rw [fractionText]
    split
    · simp
    · rw [List.forall_mem_cons]
      exact ⟨by decide, fun c hc => isNumberChar_of_isDigit (n.isDigit_of_mem_fraction c hc)⟩
  have hexponent : ∀ c ∈ n.exponentText, isNumberChar c = true := by
    rw [exponentText]
    cases n.exponent with
    | none => simp
    | some e =>
      simp only [Option.map_some, Option.getD_some, Exponent.text, List.forall_mem_cons,
        List.forall_mem_append]
      refine ⟨?_, ?_, fun c hc => isNumberChar_of_isDigit (e.isDigit_of_mem_digits c hc)⟩
      · rcases e.mark_mem with h | h <;> rw [h] <;> decide
      · rcases e.sign_mem with h | h | h <;> rw [h] <;> decide
  -- The magnitude is these three parts, and only a minus may stand in front of it.
  have hmagnitude : ∀ c ∈ n.magnitude, isNumberChar c = true :=
    List.forall_mem_append.mpr ⟨hwhole, List.forall_mem_append.mpr ⟨hfraction, hexponent⟩⟩
  rw [text] at h
  split at h
  · rcases List.mem_cons.mp h with rfl | h
    · decide
    · exact hmagnitude c h
  · exact hmagnitude c h

/-- A number with a finite double is read: it has no more than 310 digits. -/
theorem isReadable_of_isFinite {n : NumberText} (h : n.value.toDouble.isFinite = true) :
    n.IsReadable := by
  intro hinteger
  rw [value, if_pos hinteger] at h
  have hlt : naturalOf n.whole < tenTo 309 := by
    have := Double.natAbs_lt_tenTo_of_isFinite_ofInt h
    split at this <;> simpa using this
  rcases n.isWhole with hwhole | ⟨hne, hzero, hdigits⟩
  · rw [hwhole]
    decide
  · obtain ⟨d, ds, hcons⟩ := List.exists_cons_of_ne_nil hne
    rw [hcons] at hzero hdigits hlt ⊢
    have hd : d ≠ '0' := fun h => hzero (by rw [h]; rfl)
    have hle : tenTo ds.length ≤ naturalOf (d :: ds) :=
      tenTo_le_naturalOf (hdigits d List.mem_cons_self) hd
    -- A number of more digits would be `10 ^ 309` or more.
    have hlength : ds.length < 309 := tenTo_lt_tenTo_iff.mp (Nat.lt_of_le_of_lt hle hlt)
    rw [List.length_cons, digitLimit]
    omega

/-- What can follow a number: nothing that could go on with it. -/
def Ends (rest : List Char) : Prop :=
  StartsWithout (fun c => c.isDigit || c == '.' || c == 'e' || c == 'E') rest

theorem Ends.not_isDigit {rest : List Char} (h : Ends rest) : StartsWithout Char.isDigit rest :=
  fun c hc => by
    have := h c hc
    simp only [Bool.or_eq_false_iff] at this
    exact this.1.1.1

theorem readWhole_append {ds rest : List Char} (hds : IsWhole ds)
    (hrest : StartsWithout Char.isDigit rest) : readWhole (ds ++ rest) = some (ds, rest) := by
  rcases hds with rfl | ⟨hne, hzero, hdigits⟩
  · simp [readWhole]
  · obtain ⟨d, ds, rfl⟩ := List.exists_cons_of_ne_nil hne
    rw [List.forall_mem_cons] at hdigits
    have hd : d ≠ '0' := fun h => hzero (by rw [h]; rfl)
    rw [List.cons_append, readWhole, if_neg hd, if_pos hdigits.1,
      takeWhile_append hdigits.2 hrest, dropWhile_append hdigits.2 hrest]

theorem readFraction_append {n : NumberText} {rest : List Char}
    (hrest : StartsWithout (fun c => c.isDigit || c == '.') rest) :
    readFraction (n.fractionText ++ rest) = (n.fraction, rest) := by
  have hdigit : StartsWithout Char.isDigit rest := fun c hc =>
    (Bool.or_eq_false_iff.mp (hrest c hc)).1
  rw [fractionText]
  cases hfraction : n.fraction with
  | nil =>
    rw [if_pos rfl, List.nil_append]
    unfold readFraction
    split
    · exact absurd (hrest '.' rfl) (by decide)
    · rfl
  | cons d ds =>
    have hdigits := n.isDigit_of_mem_fraction
    rw [hfraction, List.forall_mem_cons] at hdigits
    rw [if_neg (List.cons_ne_nil d ds), List.cons_append, List.cons_append, readFraction,
      if_pos hdigits.1, takeWhile_append hdigits.2 hdigit, dropWhile_append hdigits.2 hdigit]

theorem readExponent_append {n : NumberText} {rest : List Char} (hrest : Ends rest) :
    readExponent (n.exponentText ++ rest) =
      (n.exponent.map fun e => (e.sign == ['-'], e.digits), rest) := by
  rw [exponentText]
  cases hexponent : n.exponent with
  | none =>
    -- What follows does not start with a mark, so nothing is read.
    cases rest with
    | nil => rfl
    | cons c s =>
      have hc := hrest c rfl
      simp only [Bool.or_eq_false_iff, beq_eq_false_iff_ne] at hc
      simp [readExponent, hc.1.2, hc.2]
  | some e =>
    have htake := takeWhile_append e.isDigit_of_mem_digits hrest.not_isDigit
    have hdrop := dropWhile_append e.isDigit_of_mem_digits hrest.not_isDigit
    obtain ⟨d, ds, hds⟩ := List.exists_cons_of_ne_nil e.digits_ne_nil
    have hd : d.isDigit = true := e.isDigit_of_mem_digits d (by simp [hds])
    have hplus : d ≠ '+' := fun h => absurd hd (by rw [h]; decide)
    have hminus : d ≠ '-' := fun h => absurd hd (by rw [h]; decide)
    simp only [Option.map_some, Option.getD_some, Exponent.text, List.cons_append, readExponent]
    rw [if_pos e.mark_mem]
    -- Without a sign the first digit must not be taken for one.
    rcases e.sign_mem with hsign | hsign | hsign
    · simp only [hsign, List.nil_append, hds, List.cons_append] at htake hdrop ⊢
      split
      · rename_i heq
        exact absurd (List.cons.inj heq).1 hminus
      · rename_i heq
        exact absurd (List.cons.inj heq).1 hplus
      · simp [htake, hdrop]
    · simp only [hds, List.cons_append] at htake hdrop
      simp [hsign, hds, htake, hdrop]
    · simp only [hds, List.cons_append] at htake hdrop
      simp [hsign, hds, htake, hdrop]

theorem ends_exponentText {n : NumberText} {rest : List Char} (hrest : Ends rest) :
    StartsWithout (fun c => c.isDigit || c == '.') (n.exponentText ++ rest) := by
  rw [exponentText]
  cases n.exponent with
  | none =>
    intro c hc
    have := hrest c hc
    simp only [Bool.or_eq_false_iff] at this ⊢
    exact this.1.1
  | some e =>
    intro c hc
    obtain rfl : e.mark = c := by simpa [Exponent.text] using hc
    rcases e.mark_mem with h | h <;> rw [h] <;> decide

theorem ends_fractionText {n : NumberText} {rest : List Char} (hrest : Ends rest) :
    StartsWithout Char.isDigit (n.fractionText ++ (n.exponentText ++ rest)) := by
  intro c hc
  rw [fractionText] at hc
  split at hc
  · exact (Bool.or_eq_false_iff.mp (ends_exponentText hrest c hc)).1
  · obtain rfl : '.' = c := by simpa using hc
    decide

/-- A magnitude starts with a digit. -/
theorem exists_magnitude_eq_cons (n : NumberText) :
    ∃ d s, n.magnitude = d :: s ∧ d.isDigit = true := by
  rcases n.isWhole with h | ⟨hne, -, hdigits⟩
  · exact ⟨'0', _, by rw [magnitude, h]; rfl, by decide⟩
  · obtain ⟨d, ds, h⟩ := List.exists_cons_of_ne_nil hne
    exact ⟨d, _, by rw [magnitude, h]; rfl, hdigits d (by simp [h])⟩

/-- A magnitude is read as what it means, unless it is a whole number of too many digits. -/
theorem readMagnitude_append (n : NumberText) {rest : List Char} (hrest : Ends rest)
    (hdigits : n.IsReadable) :
    readMagnitude n.negative (n.magnitude ++ rest) = some (.ok n.value, rest) := by
  rw [magnitude, List.append_assoc, List.append_assoc, readMagnitude]
  rw [readWhole_append n.isWhole (ends_fractionText hrest)]
  simp only [Option.bind_eq_bind, Option.bind_some, readFraction_append (ends_exponentText hrest),
    readExponent_append hrest]
  by_cases hplain : n.IsInteger
  · -- Only whole numbers have a limit for their digits.
    have hlength := Nat.not_lt.mpr (hdigits hplain)
    obtain ⟨hfraction, hexponent⟩ := hplain
    simp [value, IsInteger, hfraction, hexponent, hlength]
  · have hnot : (n.fraction.isEmpty && (n.exponent.map fun e => (e.sign == ['-'], e.digits)).isNone) =
        false := by
      rw [Bool.and_eq_false_iff]
      by_cases hfraction : n.fraction = []
      · have hexponent : n.exponent ≠ none := fun h => hplain ⟨hfraction, h⟩
        exact .inr (by simpa [Option.isSome_iff_ne_none] using hexponent)
      · exact .inl (by simpa using hfraction)
    simp only [hnot, Bool.false_eq_true, if_false, value, hplain]
    cases n.exponent with
    | none => rfl
    | some e =>
      by_cases hsign : e.sign = ['-']
      · simp [hsign, Exponent.value]
      · have hbeq : (e.sign == ['-']) = false := by simpa using hsign
        simp [hsign, hbeq, Exponent.value]

/-- A literal is read as what it means. -/
theorem readNumber_text (n : NumberText) {rest : List Char} (hrest : Ends rest)
    (hdigits : n.IsReadable) :
    readNumber (n.text ++ rest) = .ok (.number n.value, rest) := by
  have hmagnitude := readMagnitude_append n hrest hdigits
  rw [text]
  cases hnegative : n.negative with
  | true =>
    rw [hnegative] at hmagnitude
    simp only [if_true, List.cons_append, readNumber, hmagnitude]
  | false =>
    rw [hnegative] at hmagnitude
    obtain ⟨d, s, hcons, hd⟩ := n.exists_magnitude_eq_cons
    rw [hcons, List.cons_append] at hmagnitude
    simp only [Bool.false_eq_true, if_false, hcons, List.cons_append]
    unfold readNumber
    split
    · rename_i heq
      rw [(List.cons.inj heq).1] at hd
      exact absurd hd (by decide)
    · simp only [hmagnitude]

/-- A literal starts with a digit or a minus, and behind a minus with a digit. -/
theorem exists_text_eq_cons (n : NumberText) :
    ∃ c s, n.text = c :: s ∧ (c.isDigit = true ∨ c = '-' ∧ ∃ d t, s = d :: t ∧ d.isDigit = true) := by
  obtain ⟨d, s, hcons, hd⟩ := n.exists_magnitude_eq_cons
  rw [text]
  split
  · exact ⟨'-', _, rfl, .inr ⟨rfl, d, s, hcons, hd⟩⟩
  · exact ⟨d, s, hcons, .inl hd⟩

end NumberText

/-! ### Strings -/

section Units
variable (opening : Nat) {s : List Char}

theorem readString_hexEscape {a b c d : Char} {u : UInt16} (hu : hexUnit? a b c d = some u)
    (hs : s ≠ []) : readString opening ('\\' :: 'u' :: a :: b :: c :: d :: s) =
      prependUnits [u] (readString opening s) := by
  have hempty : s.isEmpty = false := by simpa using hs
  rw [readString.eq_def]
  simp [hempty, hu]

theorem readString_shortEscape {e : Char} {u : UInt16} (he : shortEscape? e = some u) :
    readString opening ('\\' :: e :: s) = prependUnits [u] (readString opening s) := by
  have hne : e ≠ 'u' := by
    rintro rfl
    exact nomatch he
  rw [readString.eq_def]
  simp [hne, he]

theorem readString_plainChar {c : Char} (hquote : c ≠ '"') (hescape : c ≠ '\\')
    (hcontrol : 0x20 ≤ c.toNat) :
    readString opening (c :: s) = prependUnits (Utf16.unitsOf c) (readString opening s) := by
  rw [readString.eq_def]
  simp only [hquote, hescape, if_false, Nat.not_lt.mpr hcontrol]

end Units

/-- A character that stands for itself in a string, whichever quotes are around it. -/
def IsPlainChar (c : Char) : Prop := c ≠ '"' ∧ c ≠ '\'' ∧ c ≠ '\\' ∧ 0x20 ≤ c.toNat

instance (c : Char) : Decidable (IsPlainChar c) := inferInstanceAs (Decidable (_ ∧ _))

/-- A string of plain characters is read as it stands. -/
theorem readString_plain (opening : Nat) {s : List Char} (hs : ∀ c ∈ s, IsPlainChar c)
    (rest : List Char) : readString opening (s ++ '"' :: rest) = .ok (Utf16.ofChars s, rest) := by
  induction s with
  | nil => exact readString_quote opening rest
  | cons c s ih =>
    rw [List.forall_mem_cons] at hs
    obtain ⟨hquote, -, hescape, hcontrol⟩ := hs.1
    rw [List.cons_append, readString_plainChar opening hquote hescape hcontrol, ih hs.2]
    rfl

/-! ### Values that hold no others -/

theorem readPlain_string (constants : Bool) {s : List Char} (hs : ∀ c ∈ s, IsPlainChar c)
    (rest : List Char) :
    readPlain constants ('"' :: (s ++ '"' :: rest)) = .ok (.string (Utf16.ofChars s), rest) := by
  rw [readPlain, readString_plain _ hs]

theorem readPlain_number (constants : Bool) (n : NumberText) {rest : List Char}
    (hrest : NumberText.Ends rest) (hdigits : n.IsReadable) :
    readPlain constants (n.text ++ rest) = .ok (.number n.value, rest) := by
  rw [← n.readNumber_text hrest hdigits]
  obtain ⟨c, s, hcons, hc⟩ := n.exists_text_eq_cons
  -- The other values start with a letter or a quote, except for one that starts with a minus.
  have hnot : ∀ {d : Char} {t : List Char}, c :: (s ++ rest) = d :: t → d.isDigit = false → d = '-' := by
    intro d t heq hd
    rw [← (List.cons.inj heq).1] at hd ⊢
    rcases hc with hc | hc
    · rw [hc] at hd
      exact nomatch hd
    · exact hc.1
  rw [hcons, List.cons_append]
  unfold readPlain
  split
  case h_7 heq =>
    -- A minus in front of a word: a literal has a digit there.
    rcases hc with hc | ⟨-, d, t, rfl, hd⟩
    · rw [(List.cons.inj heq).1] at hc
      exact absurd hc (by decide)
    · rw [(List.cons.inj (List.cons.inj heq).2).1] at hd
      exact absurd hd (by decide)
  case h_8 => rfl
  all_goals
    rename_i heq
    exact absurd (hnot heq (by decide)) (by decide)

/-- Values that hold no others are read alike on every level. -/
theorem readValue_of_plain (constants : Bool) (depth : Nat) {c : Char} {s : List Char}
    (harray : c ≠ '[') (hobject : c ≠ '{') :
    readValue constants depth (c :: s) = readPlain constants (c :: s) := by
  cases depth with
  | zero => simp [readValue, harray, hobject]
  | succ depth => simp [readValue, harray, hobject]

/-! ### Values that hold others -/

section

variable {item : List Char → Reading Json} {fuel : Nat} {s rest rest' rest'' : List Char}

/-- Items are one item and a closing bracket, or one item, a comma and others. -/
theorem readItems_eq_ok_iff {vs : List Json} :
    readItems item fuel s = .ok (vs, rest) ↔
      ∃ fuel' v r, fuel = fuel' + 1 ∧ item s = .ok (v, r) ∧
        (skipSpace r = ']' :: rest ∧ vs = [v] ∨ ∃ r' vs', skipSpace r = ',' :: r' ∧
          readItems item fuel' (skipSpace r') = .ok (vs', rest) ∧ vs = v :: vs') := by
  cases fuel with
  | zero => exact ⟨nofun, fun ⟨_, _, _, hfuel, _⟩ => nomatch hfuel⟩
  | succ fuel =>
    rw [readItems]
    constructor
    · -- Reading goes item by item: what came of the first one tells which way it went on.
      intro h
      cases hitem : item s with
      | error e => simp [hitem] at h
      | ok first =>
        obtain ⟨v, r⟩ := first
        refine ⟨fuel, v, r, rfl, rfl, ?_⟩
        simp only [hitem] at h
        split at h
        · rename_i hclose
          cases h
          exact .inl ⟨hclose, rfl⟩
        · rename_i r' hcomma
          cases hrest : readItems item fuel (skipSpace r') with
          | error e => simp [hrest] at h
          | ok others =>
            simp only [hrest] at h
            cases h
            exact .inr ⟨r', _, hcomma, hrest, rfl⟩
        · exact nomatch h
    · rintro ⟨fuel', v, r, hfuel, hitem, ⟨hclose, rfl⟩ | ⟨r', vs', hcomma, hrest, rfl⟩⟩
      · simp only [hitem, hclose]
      · obtain rfl := Nat.succ.inj hfuel
        simp only [hitem, hcomma, hrest]

theorem readItems_last {v : Json} (hitem : item s = .ok (v, rest))
    (hclose : skipSpace rest = ']' :: rest') : readItems item (fuel + 1) s = .ok ([v], rest') :=
  readItems_eq_ok_iff.mpr ⟨fuel, v, rest, rfl, hitem, .inl ⟨hclose, rfl⟩⟩

theorem readItems_next {v : Json} {vs : List Json} (hitem : item s = .ok (v, rest))
    (hcomma : skipSpace rest = ',' :: rest')
    (hrest : readItems item fuel (skipSpace rest') = .ok (vs, rest'')) :
    readItems item (fuel + 1) s = .ok (v :: vs, rest'') :=
  readItems_eq_ok_iff.mpr ⟨fuel, v, rest, rfl, hitem, .inr ⟨rest', vs, hcomma, hrest, rfl⟩⟩

/-- Members are one member and a closing brace, or one member, a comma and others. -/
theorem readMembers_eq_ok_iff {ms : List (Utf16 × Json)} :
    readMembers item fuel s = .ok (ms, rest) ↔
      ∃ fuel' m r, fuel = fuel' + 1 ∧ readMember item s = .ok (m, r) ∧
        (skipSpace r = '\x7d' :: rest ∧ ms = [m] ∨ ∃ r' ms', skipSpace r = ',' :: r' ∧
          readMembers item fuel' (skipSpace r') = .ok (ms', rest) ∧ ms = m :: ms') := by
  cases fuel with
  | zero => exact ⟨nofun, fun ⟨_, _, _, hfuel, _⟩ => nomatch hfuel⟩
  | succ fuel =>
    rw [readMembers]
    constructor
    · intro h
      cases hmember : readMember item s with
      | error e => simp [hmember] at h
      | ok first =>
        obtain ⟨m, r⟩ := first
        refine ⟨fuel, m, r, rfl, rfl, ?_⟩
        simp only [hmember] at h
        split at h
        · rename_i hclose
          cases h
          exact .inl ⟨hclose, rfl⟩
        · rename_i r' hcomma
          cases hrest : readMembers item fuel (skipSpace r') with
          | error e => simp [hrest] at h
          | ok others =>
            simp only [hrest] at h
            cases h
            exact .inr ⟨r', _, hcomma, hrest, rfl⟩
        · exact nomatch h
    · rintro ⟨fuel', m, r, hfuel, hmember, ⟨hclose, rfl⟩ | ⟨r', ms', hcomma, hrest, rfl⟩⟩
      · simp only [hmember, hclose]
      · obtain rfl := Nat.succ.inj hfuel
        simp only [hmember, hcomma, hrest]

theorem readMembers_last {m : Utf16 × Json} (hmember : readMember item s = .ok (m, rest))
    (hclose : skipSpace rest = '\x7d' :: rest') :
    readMembers item (fuel + 1) s = .ok ([m], rest') :=
  readMembers_eq_ok_iff.mpr ⟨fuel, m, rest, rfl, hmember, .inl ⟨hclose, rfl⟩⟩

theorem readMembers_next {m : Utf16 × Json} {ms : List (Utf16 × Json)}
    (hmember : readMember item s = .ok (m, rest)) (hcomma : skipSpace rest = ',' :: rest')
    (hrest : readMembers item fuel (skipSpace rest') = .ok (ms, rest'')) :
    readMembers item (fuel + 1) s = .ok (m :: ms, rest'') :=
  readMembers_eq_ok_iff.mpr ⟨fuel, m, rest, rfl, hmember, .inr ⟨rest', ms, hcomma, hrest, rfl⟩⟩

/-- An array is empty, or it is read as its items. -/
theorem readValue_array_eq_ok_iff {constants : Bool} {depth : Nat} {v : Json} :
    readValue constants (depth + 1) ('[' :: s) = .ok (v, rest) ↔
      skipSpace s = ']' :: rest ∧ v = .array [] ∨ (∀ r, skipSpace s ≠ ']' :: r) ∧ ∃ items,
        readItems (readValue constants depth) ((skipSpace s).length + 1) (skipSpace s) =
          .ok (items, rest) ∧ v = .array items := by
  simp only [readValue]
  split
  case h_1 r hclose => simp [hclose, eq_comm, and_comm]
  case h_2 hfilled =>
    have hne : ∀ r, skipSpace s ≠ ']' :: r := fun r h => hfilled r h
    cases hitems : readItems (readValue constants depth) ((skipSpace s).length + 1) (skipSpace s) with
    | error e => simp [hne]
    | ok first =>
      obtain ⟨items, r⟩ := first
      simp only [Except.ok.injEq, Prod.mk.injEq, hne, false_and, false_or, ne_eq, not_false_eq_true,
        implies_true, true_and]
      constructor
      · rintro ⟨rfl, rfl⟩
        exact ⟨items, ⟨rfl, rfl⟩, rfl⟩
      · rintro ⟨items', ⟨rfl, rfl⟩, rfl⟩
        exact ⟨rfl, rfl⟩

/-- An object is empty, or it is read as its members. -/
theorem readValue_object_eq_ok_iff {constants : Bool} {depth : Nat} {v : Json} :
    readValue constants (depth + 1) ('\x7b' :: s) = .ok (v, rest) ↔
      skipSpace s = '\x7d' :: rest ∧ v = .object [] ∨ (∀ r, skipSpace s ≠ '\x7d' :: r) ∧ ∃ members,
        readMembers (readValue constants depth) ((skipSpace s).length + 1) (skipSpace s) =
          .ok (members, rest) ∧ v = ofMemberList members := by
  simp only [readValue]
  split
  case h_1 r hclose => simp [hclose, eq_comm, and_comm]
  case h_2 hfilled =>
    have hne : ∀ r, skipSpace s ≠ '\x7d' :: r := fun r h => hfilled r h
    cases hmembers : readMembers (readValue constants depth) ((skipSpace s).length + 1)
      (skipSpace s) with
    | error e => simp [hne]
    | ok first =>
      obtain ⟨members, r⟩ := first
      simp only [Except.ok.injEq, Prod.mk.injEq, hne, false_and, false_or, ne_eq, not_false_eq_true,
        implies_true, true_and]
      constructor
      · rintro ⟨rfl, rfl⟩
        exact ⟨members, ⟨rfl, rfl⟩, rfl⟩
      · rintro ⟨members', ⟨rfl, rfl⟩, rfl⟩
        exact ⟨rfl, rfl⟩

theorem readValue_object {constants : Bool} {depth : Nat} {c : Char}
    {members : List (Utf16 × Json)} (hskip : skipSpace s = c :: rest) (hc : c ≠ '\x7d')
    (hmembers : readMembers (readValue constants depth) (rest.length + 2) (c :: rest) =
      .ok (members, rest')) :
    readValue constants (depth + 1) ('\x7b' :: s) = .ok (ofMemberList members, rest') := by
  refine readValue_object_eq_ok_iff.mpr (.inr ⟨fun r h => ?_, members, by rwa [hskip], rfl⟩)
  rw [hskip] at h
  exact hc (List.cons.inj h).1

theorem readValue_array {constants : Bool} {depth : Nat} {c : Char} {items : List Json}
    (hskip : skipSpace s = c :: rest) (hc : c ≠ ']')
    (hitems : readItems (readValue constants depth) (rest.length + 2) (c :: rest) =
      .ok (items, rest')) :
    readValue constants (depth + 1) ('[' :: s) = .ok (.array items, rest') := by
  refine readValue_array_eq_ok_iff.mpr (.inr ⟨fun r h => ?_, items, by rwa [hskip], rfl⟩)
  rw [hskip] at h
  exact hc (List.cons.inj h).1

end

/-! ### What was read -/

/-- A member that was read is a string, a colon and a value. -/
theorem exists_of_readMember {item : List Char → Reading Json} {s rest : List Char}
    {m : Utf16 × Json} (h : readMember item s = .ok (m, rest)) :
    ∃ s' name r r' v, s = '"' :: s' ∧ readString (s'.length + 1) s' = .ok (name, r) ∧
      skipSpace r = ':' :: r' ∧ item (skipSpace r') = .ok (v, rest) ∧ m = (name, v) := by
  rw [readMember.eq_def] at h
  split at h
  · rename_i s'
    rw [List.length_cons] at h
    cases hname : readString (s'.length + 1) s' with
    | error e => simp [hname] at h
    | ok first =>
      obtain ⟨name, r⟩ := first
      simp only [hname] at h
      split at h
      · rename_i r' hcolon
        cases hvalue : item (skipSpace r') with
        | error e => simp [hvalue] at h
        | ok second =>
          obtain ⟨v, r''⟩ := second
          simp only [hvalue] at h
          cases h
          exact ⟨s', name, r, r', v, rfl, hname, hcolon, hvalue, rfl⟩
      · exact nomatch h
  · exact nomatch h

section

variable {constants : Bool} {depth : Nat} {s rest : List Char} {v : Json}

/-- An array that was read is empty or holds items. -/
theorem exists_of_readValue_array (h : readValue constants (depth + 1) ('[' :: s) = .ok (v, rest)) :
    (skipSpace s = ']' :: rest ∧ v = .array []) ∨ ∃ fuel items,
      readItems (readValue constants depth) fuel (skipSpace s) = .ok (items, rest) ∧
        v = .array items :=
  (readValue_array_eq_ok_iff.mp h).imp_right fun hfilled => ⟨_, hfilled.2⟩

/-- An object that was read is empty or holds members. -/
theorem exists_of_readValue_object
    (h : readValue constants (depth + 1) ('\x7b' :: s) = .ok (v, rest)) :
    (skipSpace s = '\x7d' :: rest ∧ v = .object []) ∨ ∃ fuel members,
      readMembers (readValue constants depth) fuel (skipSpace s) = .ok (members, rest) ∧
        v = ofMemberList members :=
  (readValue_object_eq_ok_iff.mp h).imp_right fun hfilled => ⟨_, hfilled.2⟩

/-- A text is decoded to a value if it starts with no byte order mark and is the value with space
around it. -/
theorem decode_eq_ok_iff : decode constants s = .ok v ↔ s.head? ≠ some '\ufeff' ∧
    ∃ rest, readValue constants depthLimit (skipSpace s) = .ok (v, rest) ∧ skipSpace rest = [] := by
  rw [decode, readDocument]
  split
  case isTrue hmark => simp [hmark, Except.mapError]
  case isFalse hmark =>
    cases hvalue : readValue constants depthLimit (skipSpace s) with
    | error e => simp [Except.mapError]
    | ok first =>
      obtain ⟨w, rest⟩ := first
      constructor
      · intro h
        dsimp only at h
        split at h
        · rename_i hrest
          cases h
          exact ⟨hmark, rest, rfl, hrest⟩
        · exact nomatch h
      · rintro ⟨-, rest', hvalue, hrest⟩
        cases hvalue
        simp only [hrest]
        rfl

theorem exists_of_decode (h : decode constants s = .ok v) :
    ∃ rest, readValue constants depthLimit (skipSpace s) = .ok (v, rest) ∧ skipSpace rest = [] :=
  (decode_eq_ok_iff.mp h).2

end

end Chartdown.Json
