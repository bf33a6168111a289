import Chartdown.Proofs.Markdown.Outcome

/-!
# Info strings

An info string is blank, or it is a word or several with blanks around them. Its first word names
the language of a code block, and the metadata of the code block keeps the info string without the
blanks at its ends and, if there are more words, all that stands behind the first one.

## Key results

- `exists_languageOf`: every info string is read as what it is
- `Token.BecomesCode.explains`: a code block has the language and the metadata of its info string
-/

namespace Chartdown.Markdown

open Text

/-- A word is not empty, and there are no blanks in it. -/
structure IsWord (s : List Char) : Prop where
  ne_nil : s ≠ []
  solid : ∀ c ∈ s, isBlank c = false

/-- A word is the name of a language if it is plain, and of none otherwise. -/
inductive Names (word : List Char) : Option String → Prop
  | plain (h : Language.IsPlain word) : Names word (some (String.ofList word))
  | other (h : ¬ Language.IsPlain word) : Names word none

/-- The language and the metadata that an info string stands for. -/
inductive InfoString : List Char → Option String → Metadata → Prop
  | blank (s : List Char) (h : ∀ c ∈ s, isBlank c = true) : InfoString s none []
  | word (front word back : List Char) (language : Option String)
      (hfront : ∀ c ∈ front, isBlank c = true) (hback : ∀ c ∈ back, isBlank c = true)
      (hword : IsWord word) (hlanguage : Names word language) :
      InfoString (front ++ (word ++ back)) language
        [(Utf16.ofString "info_string", .string (Utf16.ofChars word))]
  | words (front word gap rest back : List Char) (language : Option String)
      (hfront : ∀ c ∈ front, isBlank c = true) (hback : ∀ c ∈ back, isBlank c = true)
      (hword : IsWord word) (hlanguage : Names word language)
      (hne : gap ≠ []) (hgap : ∀ c ∈ gap, isBlank c = true)
      (hstarts : StartsSolid rest) (hends : EndsSolid rest) :
      InfoString (front ++ ((word ++ (gap ++ rest)) ++ back)) language
        [(Utf16.ofString "info_string", .string (Utf16.ofChars (word ++ (gap ++ rest)))),
          (Utf16.ofString "info_attrs", .string (Utf16.ofChars rest))]

/-! ### The first word -/

theorem firstWord_eq_self {s : List Char} (h : IsWord s) : firstWord s = (s, []) := by
  simp only [firstWord, dropWhile_isBlank h.solid, takeWhile_not_isBlank h.solid, List.drop_length]
  rfl

/-- A word ends at the blank behind it. -/
theorem firstWord_append {word gap rest : List Char} (hword : IsWord word) (hne : gap ≠ [])
    (hgap : ∀ c ∈ gap, isBlank c = true) (hstarts : StartsSolid rest) (hends : EndsSolid rest) :
    firstWord (word ++ (gap ++ rest)) = (word, rest) := by
  obtain ⟨b, gap', rfl⟩ := List.exists_cons_of_ne_nil hne
  have hdrop : (word ++ (b :: gap' ++ rest)).dropWhile isBlank = word ++ (b :: gap' ++ rest) := by
    obtain ⟨c, t, rfl⟩ := List.exists_cons_of_ne_nil hword.ne_nil
    exact dropWhile_of_startsSolid ⟨c, _, rfl, hword.solid c List.mem_cons_self⟩
  have htake : (word ++ (b :: gap' ++ rest)).takeWhile (fun c => !isBlank c) = word := by
    rw [List.takeWhile_append_of_pos fun c hc => by simp [hword.solid c hc], List.cons_append,
      List.takeWhile_cons_of_neg (by simp [hgap b List.mem_cons_self]), List.append_nil]
  simp only [firstWord, hdrop, htake, List.drop_left]
  rw [trim_gap_append hgap, trim_of_solid hstarts hends]

/-- A text with solid ends is a word, or more than one with a gap behind the first. -/
theorem word_or_words {s : List Char} (hs : StartsSolid s) (he : EndsSolid s) :
    IsWord s ∨ ∃ word gap rest, s = word ++ (gap ++ rest) ∧ IsWord word ∧ gap ≠ [] ∧
      (∀ c ∈ gap, isBlank c = true) ∧ StartsSolid rest ∧ EndsSolid rest := by
  obtain ⟨c, t, hcons, hc⟩ := hs
  have hsplit : s.takeWhile (fun c => !isBlank c) ++ s.dropWhile (fun c => !isBlank c) = s :=
    List.takeWhile_append_dropWhile
  have hword : IsWord (s.takeWhile fun c => !isBlank c) :=
    ⟨by simp [hcons, hc], fun d hd => by simpa using List.mem_takeWhile_imp hd⟩
  cases htail : s.dropWhile fun c => !isBlank c with
  | nil =>
    rw [htail, List.append_nil] at hsplit
    exact .inl (hsplit ▸ hword)
  | cons b tail =>
    -- The text goes on behind its first word, and it does not end with a blank.
    have hb : isBlank b = true := by
      have hhead := List.head?_dropWhile_not (fun c => !isBlank c) s
      simpa [htail] using hhead
    have hends : EndsSolid (b :: tail) := by
      rw [← hsplit, htail] at he
      exact he.of_append (List.cons_ne_nil b tail)
    have hrest : (b :: tail).dropWhile isBlank ≠ [] := by
      obtain ⟨u, d, hu, hd⟩ := hends
      rw [hu, Ne, List.dropWhile_eq_nil_iff]
      exact fun h => by simp [h d (by simp)] at hd
    have hgap : (b :: tail).takeWhile isBlank ++ (b :: tail).dropWhile isBlank = b :: tail :=
      List.takeWhile_append_dropWhile
    refine .inr ⟨_, (b :: tail).takeWhile isBlank, (b :: tail).dropWhile isBlank, ?_, hword,
      by simp [hb], fun d hd => List.mem_takeWhile_imp hd, startsSolid_dropWhile hrest, ?_⟩
    · rw [hgap, ← htail, hsplit]
    · rw [← hgap] at hends
      exact hends.of_append hrest

/-! ### Reading an info string -/

/-- The language of a text is named by its first word. -/
theorem exists_names {s : List Char} (h : (firstWord s).1 ≠ []) :
    ∃ language, (languageOf s).result = .ok language ∧ Names (firstWord s).1 language := by
  refine ⟨_, result_languageOf s, ?_⟩
  by_cases hplain : Language.IsPlain (firstWord s).1
  · rw [if_pos ⟨h, hplain⟩]
    exact .plain hplain
  · rw [if_neg fun h => hplain h.2]
    exact .other hplain

/-- Every info string is read as what it is. -/
theorem exists_languageOf (s : List Char) :
    ∃ language, (languageOf (trim s)).result = .ok language ∧
      InfoString s language (infoMetadata (trim s)) := by
  obtain ⟨front, back, hs, hfront, hback⟩ := exists_trim_eq s
  by_cases hnil : trim s = []
  · rw [hnil]
    exact ⟨none, rfl, .blank s (trim_eq_nil_iff.mp hnil)⟩
  have hempty : (trim s).isEmpty = false := by simpa using hnil
  -- A text that is not blank has solid ends when it is trimmed.
  rcases word_or_words (startsSolid_trim hnil) (endsSolid_trim hnil) with
    hword | ⟨word, gap, rest, htrim, hword, hne, hgap, hstarts, hends⟩
  · have hfirst := firstWord_eq_self hword
    obtain ⟨language, hlanguage, hnames⟩ := exists_names (by rw [hfirst]; exact hnil)
    rw [hfirst] at hnames
    refine ⟨language, hlanguage, ?_⟩
    have hinfo := InfoString.word front (trim s) back language hfront hback hword hnames
    rw [← hs] at hinfo
    simpa [infoMetadata, hempty, hfirst] using hinfo
  · have hfirst := firstWord_append hword hne hgap hstarts hends
    rw [← htrim] at hfirst
    obtain ⟨language, hlanguage, hnames⟩ := exists_names (by rw [hfirst]; exact hword.ne_nil)
    rw [hfirst] at hnames
    refine ⟨language, hlanguage, ?_⟩
    have hinfo := InfoString.words front word gap rest back language hfront hback hword hnames
      hne hgap hstarts hends
    have hrest : rest ≠ [] := by
      obtain ⟨c, t, rfl, -⟩ := hstarts
      exact List.cons_ne_nil c t
    rw [← htrim, ← hs] at hinfo
    simpa [infoMetadata, hempty, hfirst, hrest] using hinfo

/-- A code token explains a code block with its text if the language and the metadata of the block
are those that its info string stands for. -/
inductive Token.Explains (t : Token) : Node → Prop
  | intro (language : Option String) (fenceChar : String) (fenceLength : Int) (metadata : Metadata)
      (h : InfoString (t.attributes.info.getD "").toList language metadata) :
      Explains t (.leaf (.codeBlock t.text language fenceChar fenceLength) { metadata })

/-- A code token explains the code block that it becomes. -/
theorem Token.BecomesCode.explains {t : Token} {n : Node} (h : t.BecomesCode n) : t.Explains n := by
  obtain ⟨info, language, fenceChar, fenceLength, rfl, hlanguage⟩ := h
  obtain ⟨read, hread, hinfo⟩ := exists_languageOf (t.attributes.info.getD "").toList
  obtain rfl := Except.ok.inj (hlanguage.symm.trans hread)
  exact .intro language fenceChar fenceLength _ hinfo

end Chartdown.Markdown
