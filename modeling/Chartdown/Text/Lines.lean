/-! # Lines

A text is cut into lines at every line terminator of Unicode, and each line keeps its own.

* `flatten_splitLines`  the lines put together are the text
* `intercalate_cutAt`   parts cut at an element are put together by it
-/

namespace Chartdown.Text

/-- Whether a character ends a line. A carriage return and the line feed behind it end one line
together. -/
def isLineEnd (c : Char) : Bool :=
  c ∈ ['\n', '\r', '\x0b', '\x0c', '\x1c', '\x1d', '\x1e', '\x85', '\u2028', '\u2029']

/-- Put a character in front of the first line. -/
def consFirst (c : α) : List (List α) → List (List α)
  | [] => [[c]]
  | line :: lines => (c :: line) :: lines

@[simp] theorem flatten_consFirst (c : α) (lines : List (List α)) :
    (consFirst c lines).flatten = c :: lines.flatten := by
  cases lines <;> rfl

/-- The lines of a text, each with its terminator. -/
def splitLines : List Char → List (List Char)
  | [] => []
  | '\r' :: '\n' :: s => ['\r', '\n'] :: splitLines s
  | c :: s => if isLineEnd c then [c] :: splitLines s else consFirst c (splitLines s)

/-- No character is lost at a cut. -/
theorem flatten_splitLines (s : List Char) : (splitLines s).flatten = s := by
  fun_induction splitLines s with
  | case1 => rfl
  | case2 s ih => simp [ih]
  | case3 c s _ _ ih => simp [ih]
  | case4 c s _ _ ih => simp [ih]

/-- The parts of a list between the places where an element stands, which is dropped. -/
def cutAt [DecidableEq α] (sep : α) : List α → List (List α)
  | [] => [[]]
  | c :: s => if c = sep then [] :: cutAt sep s else consFirst c (cutAt sep s)

theorem cutAt_ne_nil [DecidableEq α] (sep : α) (s : List α) : cutAt sep s ≠ [] := by
  cases s with
  | nil => simp [cutAt]
  | cons c s =>
    by_cases h : c = sep
    · simp [cutAt, h]
    · cases hs : cutAt sep s <;> simp [cutAt, h, hs, consFirst]

/-- A list that was cut at an element is put together again by that element. -/
theorem intercalate_cutAt [DecidableEq α] (sep : α) (s : List α) :
    [sep].intercalate (cutAt sep s) = s := by
  induction s with
  | nil => rfl
  | cons c s ih =>
    obtain ⟨line, lines, hcons⟩ := List.exists_cons_of_ne_nil (cutAt_ne_nil sep s)
    rw [hcons] at ih
    by_cases h : c = sep
    · subst h
      simp only [cutAt, if_true, hcons, List.intercalate_cons_cons]
      simp [ih]
    · simp only [cutAt, h, if_false, hcons, consFirst]
      cases lines with
      | nil => simpa [List.intercalate] using ih
      | cons l ls => simp only [List.intercalate_cons_cons, List.cons_append] at ih ⊢; rw [ih]

/-- No part holds the element that the list was cut at. -/
theorem not_mem_of_mem_cutAt [DecidableEq α] {sep : α} {s part : List α}
    (h : part ∈ cutAt sep s) : sep ∉ part := by
  induction s generalizing part with
  | nil => simp_all [cutAt]
  | cons c s ih =>
    by_cases hc : c = sep
    · simp only [cutAt, hc, if_true, List.mem_cons] at h
      rcases h with rfl | h
      · simp
      · exact ih h
    · obtain ⟨line, lines, hcons⟩ := List.exists_cons_of_ne_nil (cutAt_ne_nil sep s)
      simp only [cutAt, hc, if_false, hcons, consFirst, List.mem_cons] at h ih
      rcases h with rfl | h
      · have := ih (Or.inl rfl)
        simp only [List.mem_cons, not_or]
        exact ⟨Ne.symm hc, this⟩
      · exact ih (Or.inr h)

end Chartdown.Text
