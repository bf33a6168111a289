import Chartdown.Markdown.Nodes
import Chartdown.Proofs.Text.Trim

/-!
# Languages of code blocks

The language of a code block is the first word of its info string if that word is short and made of
the characters of names, and there is none otherwise. Characters of names are not blank, so that a
text that could be a language is a word of its own.

## Key results

- `result_languageOf`: which language an info string names
- `languageOf_eq_some_self_iff`: which info strings are the names of their languages
-/

namespace Chartdown.Markdown

open Text

/-- A text is not longer than a name may be and made of the characters of names. -/
def Language.IsPlain (s : List Char) : Prop :=
  s.length ≤ lengthLimit ∧ ∀ c ∈ s, isNameChar c = true

instance (s : List Char) : Decidable (Language.IsPlain s) :=
  inferInstanceAs (Decidable (_ ∧ _))

theorem isBlank_of_isNameChar {c : Char} (h : Language.isNameChar c = true) :
    isBlank c = false := by
  simp only [Language.isNameChar, Bool.or_eq_true, beq_iff_eq] at h
  rcases h with ((h | rfl) | rfl) | rfl
  · exact isBlank_eq_false (range_of_isAlphanum h).1 (range_of_isAlphanum h).2
  all_goals exact isBlank_eq_false (by decide) (by decide)

theorem takeWhile_not_isBlank {s : List Char} (h : ∀ c ∈ s, isBlank c = false) :
    s.takeWhile (fun c => !isBlank c) = s := by
  rw [List.takeWhile_eq_self_iff]
  exact fun c hc => by simp [h c hc]

theorem dropWhile_isBlank {s : List Char} (h : ∀ c ∈ s, isBlank c = false) :
    s.dropWhile isBlank = s := by
  cases s with
  | nil => rfl
  | cons c rest => rw [List.dropWhile_cons_of_neg (by simp [h c List.mem_cons_self])]

/-- A text without blanks has nothing to trim. -/
theorem trim_of_forall_not_isBlank {s : List Char} (h : ∀ c ∈ s, isBlank c = false) :
    trim s = s := by
  have hreverse : ∀ c ∈ s.reverse, isBlank c = false := fun c hc => h c (List.mem_reverse.mp hc)
  rw [trim, trimWith, dropWhile_isBlank h, dropEndWhile, dropWhile_isBlank hreverse,
    List.reverse_reverse]

theorem Language.result_sanitize {s : List Char} (hs : trim s = s) :
    (sanitize s).result = .ok (if s ≠ [] ∧ IsPlain s then some s else none) := by
  have hplain : IsPlain s ↔ ¬ lengthLimit < s.length ∧ s.all isNameChar = true := by
    simp [IsPlain]
  by_cases hnil : s = []
  · subst hnil
    rfl
  cases hall : s.all isNameChar <;> by_cases hlong : lengthLimit < s.length <;>
    simp [sanitize, hs, hplain, hall, hnil, hlong, Pure.pure]

/-- There are no blanks in a word. -/
theorem not_isBlank_firstWord (s : List Char) : ∀ c ∈ (firstWord s).1, isBlank c = false := by
  intro c hc
  simpa using List.mem_takeWhile_imp hc

/-- A code block always has a language or none. -/
theorem result_languageOf (s : List Char) :
    (languageOf s).result = .ok
      (if (firstWord s).1 ≠ [] ∧ Language.IsPlain (firstWord s).1 then
        some (String.ofList (firstWord s).1) else none) := by
  unfold languageOf
  split
  · have hs : s = [] := by simpa using ‹s.isEmpty = true›
    subst hs
    rfl
  · have hword := Language.result_sanitize (trim_of_forall_not_isBlank (not_isBlank_firstWord s))
    refine Noted.result_bind_eq_ok_iff.mpr ⟨_, by rw [Noted.mapError, hword]; rfl, ?_⟩
    split <;> rfl

/-- An info string is the name of its language exactly if it is plain. -/
theorem languageOf_eq_some_self_iff {s : String} (hs : s ≠ "") :
    (languageOf s.toList).result = .ok (some s) ↔ Language.IsPlain s.toList := by
  rw [result_languageOf, Except.ok.injEq]
  constructor
  · intro h
    split at h
    · rename_i hplain
      have hword : (firstWord s.toList).1 = s.toList := by
        simpa using congrArg String.toList (Option.some.inj h)
      exact hword ▸ hplain.2
    · cases h
  · intro hplain
    have hsolid (c : Char) (hc : c ∈ s.toList) : isBlank c = false :=
      isBlank_of_isNameChar (hplain.2 c hc)
    have hword : (firstWord s.toList).1 = s.toList := by
      simp only [firstWord, dropWhile_isBlank hsolid, takeWhile_not_isBlank hsolid]
    have hne : s.toList ≠ [] := by simpa using hs
    rw [hword, if_pos ⟨hne, hplain⟩, String.ofList_toList]

end Chartdown.Markdown
