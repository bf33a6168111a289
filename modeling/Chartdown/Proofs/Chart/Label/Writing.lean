import Chartdown.Proofs.Chart.Dialect.Rules
import Chartdown.Proofs.Json.Slot

/-!
# Labels between single quotes

Between single quotes a label is written with a backslash in front of each backslash and of each
apostrophe, and with the escapes of JSON for control characters. That is how the reader of brackets
finds the end of the label. The dialect turns each single quote into a double quote, escaped or not,
so an escaped apostrophe is read as an escaped double quote.

## Key results

- `LabelForm`: the ways of writing a label
- `LabelForm.read`: the reader of brackets comes out of the quotes as it went in
- `LabelForm.writes`: what JSON makes of a label whose quotes were converted
- `LabelForm.showsName`, `LabelForm.showsIdleComma`: what shows in the written label shows in the
  label
-/

namespace Chartdown.Chart.Label

open Text DataText
open Dialect (ShowsIdleComma Quote)
open Json (Writes shortEscape? hexUnit? hexDigit? prependUnits)

/-- Control characters are those that JSON forbids in strings, and some more. -/
def IsControl (c : Char) : Prop := c.toNat < 0x20 ∨ 0x7f ≤ c.toNat ∧ c.toNat < 0xa0

/-- The ways of writing a character between single quotes. -/
inductive CharForm : Char → List Char → Prop
  | plain {c : Char} (hquote : c ≠ '\'') (hescape : c ≠ '\\') (hcontrol : 0x20 ≤ c.toNat) :
      CharForm c [c]
  | apostrophe : CharForm '\'' ['\\', '\'']
  | backslash : CharForm '\\' ['\\', '\\']
  | short {c e : Char} (hcontrol : IsControl c) (he : shortEscape? e = some c.toNat.toUInt16) :
      CharForm c ['\\', e]
  | unicode {c x₁ x₂ x₃ x₄ : Char} (hcontrol : IsControl c)
      (hunit : hexUnit? x₁ x₂ x₃ x₄ = some c.toNat.toUInt16) :
      CharForm c ['\\', 'u', x₁, x₂, x₃, x₄]

/-- The ways of writing a label between single quotes. -/
inductive LabelForm : List Char → List Char → Prop
  | nil : LabelForm [] []
  | cons {c : Char} {form label written : List Char} (hc : CharForm c form)
      (h : LabelForm label written) : LabelForm (c :: label) (form ++ written)

variable {c : Char} {form label written : List Char}

/-! ### Brackets -/

/-- What a backslash escapes is passed, whatever it is. -/
theorem read_escaped {n : Nesting} (hn : n.inside = some ('\'', false)) (e : Char) :
    n.read ['\\', e] = n := by
  have hescape : n.step '\\' = { n with inside := some ('\'', true) } := by simp [Nesting.step, hn]
  show (n.step '\\').step e = n
  rw [hescape]
  show { n with inside := some ('\'', false) } = n
  rw [← hn]

theorem CharForm.read_inside (h : CharForm c form) {n : Nesting} (hn : n.inside = some ('\'', false)) :
    n.read form = n := by
  cases h with
  | plain hquote hescape => exact Nesting.read_inside hn (by simp [hquote, hescape])
  | apostrophe => exact read_escaped hn _
  | backslash => exact read_escaped hn _
  | short => exact read_escaped hn _
  | @unicode _ x₁ x₂ x₃ x₄ _ hunit =>
    have hquote := Json.not_mem_of_hexUnit? (e := '\'') rfl hunit
    have hescape := Json.not_mem_of_hexUnit? (e := '\\') rfl hunit
    -- The backslash counts for the letter alone, and the digits are read like other characters.
    show n.read (['\\', 'u'] ++ [x₁, x₂, x₃, x₄]) = n
    rw [Nesting.read_append, read_escaped hn]
    exact Nesting.read_inside hn fun d hd => ⟨fun h => hquote (h ▸ hd), fun h => hescape (h ▸ hd)⟩

theorem LabelForm.read_inside (h : LabelForm label written) {n : Nesting}
    (hn : n.inside = some ('\'', false)) : n.read written = n := by
  induction h with
  | nil => rfl
  | cons hc _ ih => rw [Nesting.read_append, hc.read_inside hn, ih]

/-- The reader of brackets comes out of the quotes as it went in. -/
theorem LabelForm.read (h : LabelForm label written) {n : Nesting} (hn : n.inside = none) :
    n.read (Quote.single.write written) = n := by
  have hopen : n.step '\'' = { n with inside := some ('\'', false) } := by simp [Nesting.step, hn]
  show n.read ('\'' :: (written ++ ['\''])) = n
  rw [Nesting.read_cons, hopen, Nesting.read_append, h.read_inside rfl]
  show { n with inside := none } = n
  rw [← hn]

theorem CharForm.feed_not_mem (h : CharForm c form) : '\n' ∉ form := by
  cases h with
  | plain _ _ hcontrol =>
    rw [List.mem_singleton]
    rintro rfl
    exact absurd hcontrol (by decide)
  | apostrophe => decide
  | backslash => decide
  | @short _ e _ he =>
    simp only [List.mem_cons, List.not_mem_nil, or_false, not_or]
    refine ⟨by decide, ?_⟩
    rintro rfl
    exact nomatch he
  | unicode _ hunit => simpa using Json.not_mem_of_hexUnit? (e := '\n') rfl hunit

/-- A label is written on one line. -/
theorem LabelForm.feed_not_mem (h : LabelForm label written) : '\n' ∉ written := by
  induction h with
  | nil => exact List.not_mem_nil
  | cons hc _ ih => simp [hc.feed_not_mem, ih]

/-! ### JSON -/

theorem unitsOf_of_isControl (h : IsControl c) : Utf16.unitsOf c = [c.toNat.toUInt16] := by
  have hlt : c.toNat < 0x10000 := by
    rcases h with h | h <;> omega
  rw [Utf16.unitsOf, if_pos hlt]

theorem ne_of_isControl (h : IsControl c) {d : Char} (hd : ¬ IsControl d) : c ≠ d :=
  fun heq => hd (heq ▸ h)

instance (c : Char) : Decidable (IsControl c) := inferInstanceAs (Decidable (_ ∨ _))

theorem convertSingleQuotes_of_ne (hc : c ≠ '\'') : convertSingleQuotes [c] = [c] :=
  Dialect.convertSingleQuotes_of_not_mem (by simpa using hc.symm)

theorem CharForm.readString (h : CharForm c form) (hquote : c ≠ '"') (opening : Nat) {s : List Char}
    (hs : s ≠ []) : Json.readString opening (convertSingleQuotes form ++ s) =
      prependUnits (Utf16.ofChars (convertSingleQuotes [c])) (Json.readString opening s) := by
  have hunits : ∀ d, Utf16.ofChars [d] = Utf16.unitsOf d := fun d => List.append_nil _
  -- No escape holds an apostrophe, so only a character that is written plainly may be converted.
  cases h with
  | plain happos hescape hcontrol =>
    rw [convertSingleQuotes_of_ne happos, hunits]
    exact Json.readString_plainChar opening hquote hescape hcontrol
  | apostrophe => exact Json.readString_shortEscape opening rfl
  | backslash => exact Json.readString_shortEscape opening rfl
  | @short _ e hcontrol he =>
    have hform : convertSingleQuotes ['\\', e] = ['\\', e] := by
      refine Dialect.convertSingleQuotes_of_not_mem ?_
      simp only [List.mem_cons, List.not_mem_nil, or_false, not_or]
      refine ⟨by decide, ?_⟩
      rintro rfl
      exact nomatch he
    rw [hform, convertSingleQuotes_of_ne (ne_of_isControl hcontrol (by decide)), hunits,
      unitsOf_of_isControl hcontrol]
    exact Json.readString_shortEscape opening he
  | @unicode _ x₁ x₂ x₃ x₄ hcontrol hunit =>
    have happos := Json.not_mem_of_hexUnit? (e := '\'') rfl hunit
    have hform : convertSingleQuotes ['\\', 'u', x₁, x₂, x₃, x₄] = ['\\', 'u', x₁, x₂, x₃, x₄] := by
      refine Dialect.convertSingleQuotes_of_not_mem ?_
      simpa using happos
    rw [hform, convertSingleQuotes_of_ne (ne_of_isControl hcontrol (by decide)), hunits,
      unitsOf_of_isControl hcontrol]
    exact Json.readString_hexEscape opening hunit hs

/-- What JSON makes of a label whose quotes were converted: the label with its own quotes
converted. -/
theorem LabelForm.writes (h : LabelForm label written) (hquote : '"' ∉ label) :
    Writes (convertSingleQuotes written) (Utf16.ofChars (convertSingleQuotes label)) := by
  intro opening rest
  induction h with
  | nil => exact Json.readString_quote opening rest
  | @cons c form label written hc h ih =>
    rw [List.mem_cons, not_or] at hquote
    have hstep := hc.readString (Ne.symm hquote.1) opening
      (s := convertSingleQuotes written ++ '"' :: rest) (by simp)
    have hlabel : convertSingleQuotes (c :: label) =
        convertSingleQuotes [c] ++ convertSingleQuotes label := rfl
    have hunits : Utf16.ofChars (convertSingleQuotes [c] ++ convertSingleQuotes label) =
        Utf16.ofChars (convertSingleQuotes [c]) ++ Utf16.ofChars (convertSingleQuotes label) :=
      List.flatMap_append
    rw [Dialect.convertSingleQuotes_append, List.append_assoc, hstep, ih hquote.2, hlabel, hunits]
    rfl

/-! ### What shows -/

/-- A character that is written as it is, and stands in no escape. -/
def IsRaw (c : Char) : Prop :=
  c ∉ ['\\', '\'', 'u'] ∧ shortEscape? c = none ∧ hexDigit? c = none

instance (c : Char) : Decidable (IsRaw c) := inferInstanceAs (Decidable (_ ∧ _ ∧ _))

theorem CharForm.eq_of_isRaw (h : CharForm c form) {d : Char} (hd : IsRaw d) (hmem : d ∈ form) :
    c = d ∧ form = [d] := by
  obtain ⟨hmarks, hshort, hhex⟩ := hd
  simp only [List.mem_cons, List.not_mem_nil, or_false, not_or] at hmarks
  cases h with
  | plain =>
    obtain rfl := List.mem_singleton.mp hmem
    exact ⟨rfl, rfl⟩
  | apostrophe => simp [hmarks] at hmem
  | backslash => simp [hmarks] at hmem
  | short _ he =>
    simp only [List.mem_cons, List.not_mem_nil, or_false, hmarks, false_or] at hmem
    rw [← hmem, hshort] at he
    exact nomatch he
  | unicode _ hunit =>
    have hnot := Json.not_mem_of_hexUnit? hhex hunit
    rw [List.mem_cons, List.mem_cons] at hmem
    rcases hmem with rfl | rfl | hmem
    · exact absurd rfl hmarks.1
    · exact absurd rfl hmarks.2.2
    · exact absurd hmem hnot

theorem CharForm.eq_or_escaped (h : CharForm c form) : form = [c] ∨ form.head? = some '\\' := by
  cases h with
  | plain => exact .inl rfl
  | _ => exact .inr rfl

/-- A character that is written as it is is one of the label. -/
theorem LabelForm.exists_of_isRaw (h : LabelForm label written) {d : Char} (hd : IsRaw d)
    {x y : List Char} (heq : written = x ++ d :: y) :
    ∃ front back, label = front ++ d :: back ∧ LabelForm back y := by
  induction h generalizing x with
  | nil => exact absurd heq (by simp)
  | @cons c form label written hc h ih =>
    by_cases hmem : d ∈ form
    · obtain ⟨rfl, rfl⟩ := hc.eq_of_isRaw hd hmem
      cases x with
      | nil => exact ⟨[], label, rfl, (List.cons.inj heq).2 ▸ h⟩
      | cons e x =>
        obtain ⟨front, back, rfl, hback⟩ := ih (List.cons.inj heq).2
        exact ⟨c :: front, back, rfl, hback⟩
    · obtain ⟨z, rfl⟩ := exists_eq_append_of_not_mem heq.symm hmem
      rw [List.append_assoc] at heq
      obtain ⟨front, back, rfl, hback⟩ := ih (List.append_cancel_left heq)
      exact ⟨c :: front, back, rfl, hback⟩

/-- What is written without a backslash is part of the label. -/
theorem LabelForm.exists_of_not_mem (h : LabelForm label written) {y z : List Char}
    (heq : written = y ++ z) (hescape : '\\' ∉ y) : ∃ back, label = y ++ back := by
  induction h generalizing y with
  | nil =>
    rw [(List.append_eq_nil_iff.mp heq.symm).1]
    exact ⟨[], rfl⟩
  | @cons c form label written hc h ih =>
    cases y with
    | nil => exact ⟨c :: label, rfl⟩
    | cons d y =>
      rw [List.mem_cons, not_or] at hescape
      have hform : form = [c] := by
        refine hc.eq_or_escaped.resolve_right fun hhead => hescape.1 ?_
        obtain ⟨form, rfl⟩ := List.head?_eq_some_iff.mp hhead
        exact (List.cons.inj heq).1
      subst hform
      obtain ⟨rfl, htail⟩ := List.cons.inj heq
      obtain ⟨back, rfl⟩ := ih htail hescape.2
      exact ⟨back, rfl⟩

/-- What starts with a raw character and has no backslash is part of the label, if it is written. -/
theorem LabelForm.exists_shown (h : LabelForm label written) {d : Char} (hd : IsRaw d)
    {x y z : List Char} (heq : written = x ++ d :: (y ++ z)) (hescape : '\\' ∉ y) :
    ∃ front back, label = front ++ d :: (y ++ back) := by
  obtain ⟨front, tail, rfl, htail⟩ := h.exists_of_isRaw hd heq
  obtain ⟨back, rfl⟩ := htail.exists_of_not_mem rfl hescape
  exact ⟨front, back, rfl⟩

/-- A text shows a name of a field: only blanks are between it and a colon. -/
def ShowsName (s : List Char) : Prop :=
  ∃ front name blanks back, s = front ++ (name ++ (blanks ++ ':' :: back)) ∧ name ∈ fieldNames ∧
    ∀ b ∈ blanks, isBlank b = true

/-- Blanks are no backslashes. -/
theorem not_mem_blanks {blanks : List Char} (hblanks : ∀ b ∈ blanks, isBlank b = true) :
    '\\' ∉ blanks :=
  fun hmem => absurd (hblanks _ hmem) (by decide)

/-- A name that shows in the written label shows in the label. -/
theorem LabelForm.showsName (h : LabelForm label written) (hshows : ShowsName written) :
    ShowsName label := by
  obtain ⟨x, name, blanks, z, heq, hname, hblanks⟩ := hshows
  -- The first letter of a name is in no escape, and the others follow it without a backslash.
  obtain ⟨d, more, rfl, hd, hmore⟩ : ∃ d more, name = d :: more ∧ IsRaw d ∧ '\\' ∉ more := by
    have hnames : name = 'k' :: "ey".toList ∨ name = 'v' :: "alue".toList := by
      simpa [fieldNames] using hname
    rcases hnames with rfl | rfl <;> exact ⟨_, _, rfl, by decide, by decide⟩
  have hescape : '\\' ∉ more ++ (blanks ++ [':']) := by
    simp [hmore, not_mem_blanks hblanks]
  obtain ⟨front, back, rfl⟩ := h.exists_shown (y := more ++ (blanks ++ [':'])) (z := z) hd
    (by simpa using heq) hescape
  exact ⟨front, d :: more, blanks, back, by simp, hname, hblanks⟩

theorem showsName_of_holdsBareName {s : List Char} (h : Dialect.HoldsBareName s) : ShowsName s := by
  obtain ⟨front, c, name, blanks, back, rfl, -, hname, hblanks⟩ := h
  exact ⟨front ++ [c], name, blanks, back, by simp, hname, hblanks⟩

/-- Converted quotes make no idle comma. -/
theorem showsIdleComma_of_convertSingleQuotes {s : List Char}
    (h : ShowsIdleComma (convertSingleQuotes s)) : ShowsIdleComma s := by
  have hkeeps : ∀ {c d : Char}, (if c = '\'' then '"' else c) = d → d ≠ '"' → c = d := by
    intro c d h hd
    by_cases hc : c = '\''
    · rw [if_pos hc] at h
      exact absurd h.symm hd
    · rwa [if_neg hc] at h
  obtain ⟨front, blanks, c, back, heq, hblanks, hc⟩ := h
  -- The comma, the blanks and the closing mark were not converted.
  obtain ⟨front', rest, rfl, -, hrest⟩ := List.map_eq_append_iff.mp heq
  obtain ⟨comma, rest, rfl, hcomma, hrest⟩ := List.map_eq_cons_iff.mp hrest
  obtain ⟨blanks', rest, rfl, hblanks', hrest⟩ := List.map_eq_append_iff.mp hrest
  obtain ⟨d, back', rfl, hd, -⟩ := List.map_eq_cons_iff.mp hrest
  refine ⟨front', blanks', d, back', ?_, fun b hb => ?_, ?_⟩
  · rw [hkeeps hcomma (by decide)]
  · have hblank := hblanks _ (hblanks' ▸ List.mem_map_of_mem hb)
    have hne : (if b = '\'' then '"' else b) ≠ '"' := by
      intro heq
      rw [heq] at hblank
      exact absurd hblank (by decide)
    rwa [← hkeeps rfl hne] at hblank
  · rwa [hkeeps hd (by rcases hc with rfl | rfl <;> decide)]

/-- An idle comma that shows in the written label shows in the label. -/
theorem LabelForm.showsIdleComma (h : LabelForm label written) (hshows : ShowsIdleComma written) :
    ShowsIdleComma label := by
  obtain ⟨x, blanks, c, z, heq, hblanks, hc⟩ := hshows
  have hescape : '\\' ∉ blanks ++ [c] := by
    have hne : c ≠ '\\' := by rcases hc with rfl | rfl <;> decide
    simp [not_mem_blanks hblanks, hne.symm]
  obtain ⟨front, back, rfl⟩ := h.exists_shown (d := ',') (y := blanks ++ [c]) (z := z) (by decide)
    (by simpa using heq) hescape
  exact ⟨front, blanks, c, back, by simp, hblanks, hc⟩

end Chartdown.Chart.Label
