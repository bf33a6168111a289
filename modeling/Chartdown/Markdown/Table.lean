import Chartdown.Markdown.Line

/-! # Tables

A table is a line of heads, a line of dashes that tells how the columns are aligned, and lines of
cells, all with the same number of cells. Its lines either all stand between pipes, or none of them
needs to.

* `splitPipes_ne_nil`  a line has a cell
-/

namespace Chartdown.Markdown

open Text

/-- How a column is aligned. -/
inductive Alignment
  | left | center | right
  deriving DecidableEq

/-- The name of an alignment. -/
def Alignment.name : Alignment → String
  | .left => "left"
  | .center => "center"
  | .right => "right"

/-- A table: its heads, the alignments of its columns, and the cells of its other lines. -/
structure Table where
  heads : List (List Char)
  alignments : List (Option Alignment)
  rows : List (List (List Char))
  deriving DecidableEq

namespace Table

/-- Split a text at its pipes but those that a backslash escapes. `escaped` tells whether a
backslash before the text escapes its first character. -/
def splitPipes (escaped : Bool) : List Char → List (List Char)
  | [] => [[]]
  | c :: s =>
    if c = '|' ∧ escaped = false then [] :: splitPipes false s
    else
      match splitPipes (c == '\\' && !escaped) s with
      | [] => [[c]]
      | cell :: cells => (c :: cell) :: cells

/-- The cells of a line. -/
def cells (s : List Char) : List (List Char) := (splitPipes false (trim s)).map trim

theorem splitPipes_ne_nil (escaped : Bool) (s : List Char) : splitPipes escaped s ≠ [] := by
  cases s with
  | nil => simp [splitPipes]
  | cons c s =>
    simp only [splitPipes]
    split
    · simp
    · split <;> simp

/-- The alignment that a cell of the second line tells: a colon stands at each side to which its
dashes are aligned. A cell can also be empty. -/
def alignment? (cell : List Char) : Option (Option Alignment) :=
  let left := cell.head? == some ':'
  let right := cell.getLast? == some ':'
  let dashes := cell.count '-'
  let colons := (if left then 1 else 0) + (if right then 1 else 0)
  if cell.isEmpty then some none
  else if dashes = 0 ∨ cell.length ≠ dashes + colons then none
  else if left && right then some (some .center)
  else if left then some (some .left)
  else if right then some (some .right)
  else some none

/-- The alignments that the second line tells. It has a dash at least. -/
def alignments? (s : List Char) : Option (List (Option Alignment)) :=
  if s.contains '-' then (cells s).mapM alignment? else none

/-- What stands between the pipes at the two ends of a text. They can be one and the same. -/
def between? (s : List Char) : Option (List Char) :=
  let s := trim s
  if s.head? == some '|' && s.getLast? == some '|' then some s.tail.dropLast else none

/-- The table of some heads, alignments and further lines, if they agree. -/
def build? (heads : List Char) (alignments : List (Option Alignment)) (rows : List (List Char)) :
    Option Table :=
  let heads := cells heads
  let rows := rows.map cells
  if heads.length = alignments.length ∧ rows.all (·.length == heads.length) = true then
    some ⟨heads, alignments, rows⟩
  else none

/-- A table between pipes if its lines agree, and the number of lines behind its first. -/
def piped? (line : Line) (rest : List Line) : Option (Option Table × Nat) := do
  let heads ← between? (← line.body?)
  let second :: rest := rest | none
  let alignments ← alignments? (← between? second)
  guard (!heads.isEmpty)
  let rows := rest.takeWhile fun l => (between? l).isSome
  return (build? heads alignments (rows.filterMap between?), 1 + rows.length)

/-- Whether a line can be one of a table without pipes around it. -/
def hasPipe (l : Line) : Bool := l.contains '|'

/-- A table without pipes around it if its lines agree, and the number of lines behind its
first. -/
def open? (line : Line) (rest : List Line) : Option (Option Table × Nat) := do
  let heads ← line.body?
  let second :: rest := rest | none
  guard (heads.tail.contains '|' && hasPipe second)
  let alignments ← alignments? second
  let rows := rest.takeWhile hasPipe
  return (build? heads alignments rows, 1 + rows.length)

/-- The table that a line and those behind it make if they agree, and the number of lines behind the
first. -/
def read? (line : Line) (rest : List Line) : Option (Option Table × Nat) :=
  if hasPipe line then (piped? line rest).or (open? line rest) else none

end Table
end Chartdown.Markdown
