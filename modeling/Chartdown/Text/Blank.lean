import Chartdown.Text.Class

/-! # Blank characters and trimming

A character is blank when it separates words: the white space of Unicode together with the
four information separators U+001C to U+001F. The zero width space U+200B and the byte order
mark U+FEFF are not blank.

* `trim_trim`     a trimmed text has nothing left to trim
* `isBlank_of_isWhitespace`  every white space of ASCII is blank
-/

namespace Chartdown.Text

/-- The blank characters. -/
def blanks : CharClass :=
  [(0x9, 0xd), (0x1c, 0x20), (0x85, 0x85), (0xa0, 0xa0), (0x1680, 0x1680), (0x2000, 0x200a),
   (0x2028, 0x2029), (0x202f, 0x202f), (0x205f, 0x205f), (0x3000, 0x3000)]

/-- Whether a character separates words. -/
def isBlank (c : Char) : Bool := blanks.contains c

theorem isBlank_of_isWhitespace {c : Char} (h : c.isWhitespace = true) : isBlank c = true := by
  simp only [Char.isWhitespace, Bool.or_eq_true, decide_eq_true_eq] at h
  rcases h with ((rfl | rfl) | rfl) | rfl <;> decide

/-- Drop the longest suffix whose elements all satisfy `p`. -/
def dropEndWhile (p : α → Bool) (s : List α) : List α := (s.reverse.dropWhile p).reverse

/-- Drop elements that satisfy `p` from both ends. -/
def trimWith (p : α → Bool) (s : List α) : List α := dropEndWhile p (s.dropWhile p)

/-- Drop blanks from both ends. -/
def trim (s : List Char) : List Char := trimWith isBlank s

/-- The text without the blanks at its ends. -/
def trimmed (s : String) : String := String.ofList (trim s.toList)

/-- Whether a text holds nothing but blanks. -/
def isBlankText (s : List Char) : Bool := s.all isBlank

/-- The words of a text, which stand between blanks. -/
def words (s : List Char) : List (List Char) :=
  (s.splitOnP isBlank).filter fun word => !word.isEmpty

private theorem dropWhile_idem (p : α → Bool) (s : List α) :
    (s.dropWhile p).dropWhile p = s.dropWhile p := by
  induction s with
  | nil => rfl
  | cons a s ih => by_cases h : p a <;> simp [h, ih]

private theorem dropWhile_append_of_head {p : α → Bool} {a : α} (h : p a = false) (s t : List α) :
    (s ++ a :: t).dropWhile p = s.dropWhile p ++ a :: t := by
  induction s with
  | nil => simp [h]
  | cons b s ih => by_cases hb : p b <;> simp [hb, ih]

theorem dropEndWhile_idem (p : α → Bool) (s : List α) :
    dropEndWhile p (dropEndWhile p s) = dropEndWhile p s := by
  simp [dropEndWhile, dropWhile_idem]

/-- Dropping at the end leaves the start alone, unless nothing remains. -/
theorem dropWhile_dropEndWhile (p : α → Bool) (s : List α) :
    (dropEndWhile p s).dropWhile p = dropEndWhile p (s.dropWhile p) := by
  induction s with
  | nil => rfl
  | cons a s ih =>
    by_cases h : p a
    · by_cases hs : dropEndWhile p s = []
      · have : dropEndWhile p (a :: s) = [] := by
          simp only [dropEndWhile, List.reverse_eq_nil_iff, List.reverse_cons] at hs ⊢
          rw [List.dropWhile_append]
          simp [hs, h]
        simp only [this, List.dropWhile_nil, List.dropWhile_cons, h, if_true]
        rw [← ih, hs, List.dropWhile_nil]
      · have : dropEndWhile p (a :: s) = a :: dropEndWhile p s := by
          simp only [dropEndWhile, List.reverse_eq_nil_iff, List.reverse_cons] at hs ⊢
          rw [List.dropWhile_append]
          simp [hs]
        simp only [this, List.dropWhile_cons, h, if_true, ih]
    · have : dropEndWhile p (a :: s) = a :: dropEndWhile p s := by
        simp only [dropEndWhile, List.reverse_cons]
        rw [dropWhile_append_of_head (by simpa using h)]
        simp
      simp [this, h]

theorem trimWith_trimWith (p : α → Bool) (s : List α) :
    trimWith p (trimWith p s) = trimWith p s := by
  simp only [trimWith]
  rw [dropWhile_dropEndWhile, dropWhile_idem, dropEndWhile_idem]

theorem trim_trim (s : List Char) : trim (trim s) = trim s := trimWith_trimWith isBlank s

end Chartdown.Text
