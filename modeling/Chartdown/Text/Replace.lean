/-! # Replacing parts of a text

A rule looks at a place in a text, given by the character before it and the text from there on,
and says what to write for how many characters. Places are tried from left to right, and behind
a replaced part the search goes on with the next character.

* `replaceFrom_of_never`  a rule that never applies changes nothing
-/

namespace Chartdown.Text

/-- What a rule writes at a place, and how many characters beyond the first it stands for. -/
structure Replacement where
  written : List Char
  extra : Nat

/-- A rule of replacement. -/
abbrev Rule := Option Char → List Char → Option Replacement

/-- Replace in a text behind `before`, of which the first `skip` characters are already written. -/
def replaceFrom (rule : Rule) (before : Option Char) (skip : Nat) : List Char → List Char
  | [] => []
  | c :: s =>
    match skip with
    | n + 1 => replaceFrom rule (some c) n s
    | 0 =>
      match rule before (c :: s) with
      | some r => r.written ++ replaceFrom rule (some c) r.extra s
      | none => c :: replaceFrom rule (some c) 0 s

/-- Replace in a whole text. -/
def replace (rule : Rule) (s : List Char) : List Char := replaceFrom rule none 0 s

theorem replaceFrom_of_never {rule : Rule} (h : ∀ before s, rule before s = none)
    (before : Option Char) (s : List Char) : replaceFrom rule before 0 s = s := by
  induction s generalizing before with
  | nil => rfl
  | cons c s ih => simp [replaceFrom, h, ih]

end Chartdown.Text
