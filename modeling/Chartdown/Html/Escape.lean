/-! # Text in HTML and in scripts

Five characters of a text are written as entities, so that it can stand between tags and inside
quoted attributes.

* `unescape_escape`  the entities stand for the text
* `forall_mem_escape`  an escaped text holds no angle bracket and no quote
-/

namespace Chartdown.Html

/-- The entity of a character that HTML reserves, else the character. -/
def escapeChar (c : Char) : List Char :=
  if c = '&' then ['&', 'a', 'm', 'p', ';']
  else if c = '<' then ['&', 'l', 't', ';']
  else if c = '>' then ['&', 'g', 't', ';']
  else if c = '"' then ['&', 'q', 'u', 'o', 't', ';']
  else if c = '\'' then ['&', '#', 'x', '2', '7', ';']
  else [c]

/-- A text for HTML, character by character. -/
def escapeChars (s : List Char) : List Char := s.flatMap escapeChar

/-- A text for HTML. -/
def escape (s : String) : String := String.ofList (escapeChars s.toList)

/-- The text that entities stand for, read once from left to right. -/
def unescapeChars : List Char → List Char
  | '&' :: 'a' :: 'm' :: 'p' :: ';' :: s => '&' :: unescapeChars s
  | '&' :: 'l' :: 't' :: ';' :: s => '<' :: unescapeChars s
  | '&' :: 'g' :: 't' :: ';' :: s => '>' :: unescapeChars s
  | '&' :: 'q' :: 'u' :: 'o' :: 't' :: ';' :: s => '"' :: unescapeChars s
  | '&' :: '#' :: 'x' :: '2' :: '7' :: ';' :: s => '\'' :: unescapeChars s
  | c :: s => c :: unescapeChars s
  | [] => []

private theorem unescapeChars_cons_of_ne {c : Char} (h : c ≠ '&') (s : List Char) :
    unescapeChars (c :: s) = c :: unescapeChars s := by
  rw [unescapeChars]
  all_goals (intros; simp_all)

theorem unescape_escape (s : List Char) : unescapeChars (escapeChars s) = s := by
  induction s with
  | nil => simp [escapeChars, unescapeChars]
  | cons c s ih =>
    simp only [escapeChars, List.flatMap_cons] at ih ⊢
    simp only [escapeChar]
    repeat' split
    all_goals try (subst_vars; simp [unescapeChars, ih])
    exact (unescapeChars_cons_of_ne (by assumption) _).trans (congrArg _ ih)

private theorem forall_mem_escapeChar (c : Char) :
    ∀ d ∈ escapeChar c, d ≠ '<' ∧ d ≠ '>' ∧ d ≠ '"' ∧ d ≠ '\'' := by
  simp only [escapeChar]
  repeat' split
  all_goals simp_all

theorem forall_mem_escape (s : List Char) :
    ∀ c ∈ escapeChars s, c ≠ '<' ∧ c ≠ '>' ∧ c ≠ '"' ∧ c ≠ '\'' := by
  intro c hc
  obtain ⟨d, -, hd⟩ := List.mem_flatMap.mp hc
  exact forall_mem_escapeChar d c hd

end Chartdown.Html
