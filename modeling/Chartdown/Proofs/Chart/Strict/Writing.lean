import Chartdown.Chart.Description
import Chartdown.Proofs.Chart.Strict.Rules
import Chartdown.Proofs.Json.RoundTrip

/-!
# Charts written as strict JSON

Points are written as an array of objects by the writer of JSON, on one line below the layout. The
keys are strings, which are escaped, so that their texts are printable and hold quotes only behind
backslashes.

## Key results

- `getLast?_of_quote`, `exists_keyText_prefix`: where quotes and letters stand in the text of a key
- `itemsText_append`: the points before one, its key, and what follows
- `parse_chartText`: a chart is read as what the rules make of its array
-/

namespace Chartdown.Chart.Strict

open Text DataText
open Dialect
open Json (UnitForm unitText unitForm Prints)

/-! ### Keys -/

/-- The text of a key between its quotes. -/
def keyText (s : Utf16) : List Char := s.flatMap unitText

theorem stringText_eq (s : Utf16) : Json.stringText s = Quote.double.write (keyText s) := rfl

theorem prints_of_mem_keyText {s : Utf16} {c : Char} (h : c ∈ keyText s) : Prints c := by
  refine Json.prints_of_mem_stringText (s := s) ?_
  rw [stringText_eq, Quote.write, List.mem_cons, List.mem_append]
  exact .inr (.inl h)

theorem not_mem_unicodeEscape (u : UInt16) :
    ∀ c ∈ ['"', '\'', 'k', 'v'], c ∉ Json.unicodeEscape u := by
  have hu : u.toNat < 65536 := u.toNat_lt
  have hhex : ∀ n < 16, ∀ c ∈ ['"', '\'', 'k', 'v'], c ≠ Json.hexChar n := by decide
  intro c hc hmem
  simp only [Json.unicodeEscape, List.mem_cons, List.not_mem_nil, or_false] at hmem
  rcases hmem with rfl | rfl | rfl | rfl | rfl | rfl
  · exact absurd hc (by decide)
  · exact absurd hc (by decide)
  all_goals exact hhex _ (by omega) _ hc rfl

/-- A quote is written behind a backslash. -/
theorem unitText_of_quote {u : UInt16} (h : '"' ∈ unitText u) : unitText u = ['\\', '"'] := by
  have hform := unitForm u
  generalize unitText u = form at h hform ⊢
  cases hform with
  | short =>
    rcases List.mem_cons.mp h with h | h
    · exact absurd h (by decide)
    · rw [List.mem_singleton.mp h]
  | plain hquote => exact absurd (List.mem_singleton.mp h).symm hquote
  | unicode => exact absurd h (not_mem_unicodeEscape u _ (by decide))

/-- An apostrophe and the letters that start names are written as they are, and stand in nothing
else. -/
theorem unitText_of_mem {u : UInt16} {c : Char} (hc : c ∈ ['\'', 'k', 'v']) (h : c ∈ unitText u) :
    unitText u = [c] := by
  have hform := unitForm u
  generalize unitText u = form at h hform ⊢
  cases hform with
  | @short e he =>
    rcases List.mem_cons.mp h with rfl | h
    · exact absurd hc (by decide)
    · have hnone : ∀ d ∈ ['\'', 'k', 'v'], Json.shortEscape? d = none := by decide
      rw [← List.mem_singleton.mp h, hnone c hc] at he
      exact nomatch he
  | plain => rw [List.mem_singleton.mp h]
  | unicode => exact absurd h (not_mem_unicodeEscape u _ (List.mem_cons_of_mem _ hc))

/-- A character of the text of a key belongs to the text of one code unit. -/
theorem exists_unitText_of_mem {s : Utf16} {c : Char} {x y : List Char}
    (h : keyText s = x ++ c :: y) :
    ∃ us u us' v w, x = keyText us ++ v ∧ unitText u = v ++ c :: w ∧ y = w ++ keyText us' := by
  induction s generalizing x with
  | nil => simp [keyText] at h
  | cons u us ih =>
    have hunits : unitText u ++ keyText us = x ++ c :: y := h
    -- The character is behind the text of the first unit or in it; at the very end of that text it
    -- is the first one of the rest.
    rcases List.append_eq_append_iff.mp hunits with ⟨z, rfl, hus⟩ | ⟨z, hu, hy⟩
    · obtain ⟨us₁, d, us₂, v, w, rfl, hd, hw⟩ := ih hus
      exact ⟨u :: us₁, d, us₂, v, w, by simp [keyText], hd, hw⟩
    · cases z with
      | nil =>
        obtain ⟨us₁, d, us₂, v, w, hnil, hd, hw⟩ := ih (x := []) hy.symm
        refine ⟨u :: us₁, d, us₂, v, w, ?_, hd, hw⟩
        rw [List.append_nil] at hu
        rw [← hu, show keyText (u :: us₁) = unitText u ++ keyText us₁ from rfl, List.append_assoc,
          ← hnil, List.append_nil]
      | cons e z =>
        obtain ⟨rfl, rfl⟩ := List.cons.inj hy
        exact ⟨[], u, us, x, z, rfl, hu, rfl⟩

/-- A quote in the text of a key stands behind a backslash. -/
theorem getLast?_of_quote {s : Utf16} {x y : List Char} (h : keyText s = x ++ '"' :: y) :
    x.getLast? = some '\\' := by
  obtain ⟨us, u, us', v, w, rfl, hu, -⟩ := exists_unitText_of_mem h
  have hunit := unitText_of_quote (u := u) (by rw [hu]; simp)
  rw [hunit] at hu
  cases v with
  | nil => exact absurd (List.cons.inj hu).1 (by decide)
  | cons d v =>
    obtain ⟨rfl, hv⟩ := List.cons.inj hu
    cases v with
    | nil => simp
    | cons e v => simp at hv

/-- At an apostrophe or a letter of a name, the text of a key is cut between two code units. -/
theorem exists_keyText_eq {s : Utf16} {c : Char} {x y : List Char} (hc : c ∈ ['\'', 'k', 'v'])
    (h : keyText s = x ++ c :: y) : ∃ us us', x = keyText us ∧ y = keyText us' := by
  obtain ⟨us, u, us', v, w, rfl, hu, rfl⟩ := exists_unitText_of_mem h
  have hunit := unitText_of_mem (u := u) hc (by rw [hu]; simp)
  rw [hunit, List.singleton_eq_append_iff] at hu
  rcases hu with ⟨rfl, hw⟩ | ⟨-, hw⟩
  · obtain rfl := (List.cons.inj hw).2
    exact ⟨us, us', List.append_nil _, rfl⟩
  · exact nomatch hw

/-! ### Points -/

/-- A point as JSON. -/
def pairJson (p : Utf16 × Number) : Json :=
  .object [(Utf16.ofString "key", .string p.1), (Utf16.ofString "value", .number p.2)]

/-- Points as JSON. -/
def dataJson (ps : List (Utf16 × Number)) : Json := .array (ps.map pairJson)

/-- The point that is meant. -/
def point (p : Utf16 × Number) : Point := ⟨.text p.1, .double p.2.toDouble⟩

/-- A name in front of a value. -/
def mark (role : Role) : List Char := Quote.double.write role.chars ++ [':', ' ']

/-- What follows the text of a key and its quote. -/
def closing (n : Number) : List Char :=
  ',' :: ' ' :: (mark .value ++ (Json.numberText n ++ ['\x7d']))

theorem text_pairJson (p : Utf16 × Number) :
    Json.text (pairJson p) =
      '\x7b' :: (mark .key ++ '"' :: (keyText p.1 ++ '"' :: closing p.2)) := by
  have hkey : Json.stringText (Utf16.ofString "key") = Quote.double.write Role.key.chars := by
    decide +kernel
  have hvalue : Json.stringText (Utf16.ofString "value") = Quote.double.write Role.value.chars := by
    decide +kernel
  have hmembers : Json.text (pairJson p) = '\x7b' :: (Json.stringText (Utf16.ofString "key") ++
      ':' :: ' ' :: Json.stringText p.1 ++ ',' :: ' ' :: (Json.stringText (Utf16.ofString "value") ++
        ':' :: ' ' :: Json.numberText p.2 ++ [])) ++ ['\x7d'] := rfl
  rw [hmembers, hkey, hvalue, stringText_eq]
  simp only [mark, closing, Quote.write, Quote.char, List.cons_append, List.append_assoc,
    List.append_nil, List.nil_append]

/-- Points one after the other, each with a comma behind it. -/
def followed (ps : List (Utf16 × Number)) : List Char :=
  ps.flatMap fun p => Json.text (pairJson p) ++ [',', ' ']

/-- Points in front of another one start with a brace, as that one does. -/
theorem exists_followed_eq_cons (ps : List (Utf16 × Number)) (s : List Char) :
    ∃ r, followed ps ++ '\x7b' :: s = '\x7b' :: r := by
  cases ps
  all_goals exact ⟨_, rfl⟩

/-- The points of an array, told by one of them. -/
theorem exists_itemsText_append (good : List (Utf16 × Number)) (p : Utf16 × Number)
    (bad : List (Utf16 × Number)) :
    ∃ more, Json.itemsText ((good ++ p :: bad).map pairJson) =
      followed good ++ (Json.text (pairJson p) ++ more) ∧ (bad = [] → more = []) := by
  induction good with
  | nil =>
    refine ⟨_, rfl, ?_⟩
    rintro rfl
    rfl
  | cons q good ih =>
    obtain ⟨more, htext, hmore⟩ := ih
    refine ⟨more, ?_, hmore⟩
    have hne : ((good ++ p :: bad).map pairJson).isEmpty = false := by simp
    rw [List.cons_append, List.map_cons, Json.itemsText, hne, htext]
    simp [followed]

/-! ### Charts -/

/-- The text of a chart. -/
def chartText (ps : List (Utf16 × Number)) : List Char :=
  "layout: bar\ndata: ".toList ++ Json.text (dataJson ps)

theorem text_dataJson (ps : List (Utf16 × Number)) :
    Json.text (dataJson ps) = '[' :: (Json.itemsText (ps.map pairJson) ++ [']']) := rfl

/-- The array starts and ends with its brackets. -/
theorem text_dataJson_solid (ps : List (Utf16 × Number)) :
    StartsSolid (Json.text (dataJson ps)) ∧ EndsSolid (Json.text (dataJson ps)) :=
  ⟨⟨'[', Json.itemsText (ps.map pairJson) ++ [']'], text_dataJson ps, by decide⟩,
    '[' :: Json.itemsText (ps.map pairJson), ']', text_dataJson ps, by decide⟩

theorem tidyLines_chartText (ps : List (Utf16 × Number)) :
    tidyLines (chartText ps) =
      ["layout: bar".toList, dataMark ++ (Gap.blank ++ Json.text (dataJson ps))] := by
  have hfeed : '\n' ∉ dataMark ++ (Gap.blank ++ Json.text (dataJson ps)) := by
    rw [List.mem_append, List.mem_append, not_or, not_or]
    refine ⟨by decide, by decide, fun h => ?_⟩
    exact absurd (Json.prints_text _ _ h).1 (by decide)
  have hstarts : StartsSolid (dataMark ++ (Gap.blank ++ Json.text (dataJson ps))) :=
    ⟨'d', _, rfl, by decide⟩
  have hends : EndsSolid (dataMark ++ (Gap.blank ++ Json.text (dataJson ps))) :=
    ((text_dataJson_solid ps).2.append _).append _
  have hsplit : chartText ps = "layout: bar".toList ++
      '\n' :: (dataMark ++ (Gap.blank ++ Json.text (dataJson ps))) := rfl
  rw [hsplit, tidyLines_append_cons, tidyLines_of_not_mem (by decide), tidyLines_of_not_mem hfeed,
    trim_of_solid hstarts hends]
  rfl

/-- A chart is read as what the rules make of its array. -/
theorem parse_chartText_eq (ps : List (Utf16 × Number)) :
    Description.parse (chartText ps) =
      match decodePoints (normalize (Json.text (dataJson ps))) with
      | .error cause => .error (.malformedData cause)
      | .ok points => .ok {
          kind := "bar"
          points
          keysAreNumeric := points.all (·.key.isNumeric) } := by
  have hlayout : scalarLine? "layout: bar".toList = some (.layout, "bar".toList) := by decide
  have hdata : LineKind.of (dataMark ++ (Gap.blank ++ Json.text (dataJson ps))) =
      .data (Json.text (dataJson ps)) := kind_dataMark_append .blank (.inr rfl)
  have htrim : trim (Json.text (dataJson ps)) = Json.text (dataJson ps) :=
    trim_of_solid (text_dataJson_solid ps).1 (text_dataJson_solid ps).2
  have hne : ¬ Json.text (dataJson ps) = [] := List.cons_ne_nil _ _
  have hnotEmpty : (Json.text (dataJson ps)).isEmpty = false := rfl
  rw [parse_eq_describe, tidyLines_chartText, List.foldl_cons,
    Outline.addLine_of_scalarLine? rfl hlayout, List.foldl_cons, List.foldl_nil, Outline.addLine,
    if_neg (by decide), hdata]
  simp only [hnotEmpty, Bool.false_eq_true, if_false]
  simp only [Outline.describe, Outline.addData, Outline.dataText, List.reverse_singleton,
    List.intercalate_singleton, htrim]
  rw [if_neg (by decide), if_neg hne]
  cases decodePoints (normalize (Json.text (dataJson ps)))
  all_goals rfl

end Chartdown.Chart.Strict
