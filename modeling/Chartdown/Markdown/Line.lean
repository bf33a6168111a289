import Chartdown.Markdown.Url
import Chartdown.Text.Blank
import Chartdown.Text.Digit

/-! # Lines of Markdown

What a line can be by itself: blank, a line of code, a fence, a heading, a rule, the line under a
heading, a line of a quote or the start of a list item. A form other than a line of code has at
most three spaces before it.

* `length_dedent`  a line without some spaces before it is no longer
-/

namespace Chartdown.Markdown

open Text

/-- A line without the line feed that ends it. -/
abbrev Line := List Char

namespace Line

/-- Whether a character is a space or a tab. -/
def isSpace (c : Char) : Bool := c == ' ' || c == '\t'

/-- Whether a line holds nothing. -/
def isBlank (l : Line) : Bool := l.all fun c => isSpace c || c == '\x0b' || c == '\x0c'

/-- The number of spaces before a line. -/
def indent (l : Line) : Nat := (l.takeWhile (· == ' ')).length

/-- A line whose indent ends in a tab, with spaces up to a column in place of the tab. -/
def expandTab (column : Nat) (l : Line) : Line :=
  match l.drop l.indent with
  | '\t' :: rest =>
    if l.indent ≤ 3 then
      List.replicate (l.indent + (column - l.indent)) ' ' ++ rest
    else l
  | _ => l

/-- A line whose indent ends in a tab, with four spaces in place of the tab. -/
def widenTab (l : Line) : Line := expandTab (l.indent + 4) l

/-- A line without up to a number of spaces before it. -/
def dedent (n : Nat) (l : Line) : Line := l.drop (min n l.indent)

/-- A line without its indent, unless that is wider than three spaces. -/
def body? (l : Line) : Option (List Char) :=
  if l.indent ≤ 3 then some (l.drop l.indent) else none

/-! ## Indented code -/

/-- Whether a line is one of indented code: there is more behind four spaces, or behind some spaces
and a tab. -/
def isCode (l : Line) : Bool :=
  (4 ≤ l.indent && 5 ≤ l.length) ||
    match l.drop l.indent with
    | '\t' :: _ :: _ => true
    | _ => false

/-- What a line in an indented block of code holds. -/
def codeContent (l : Line) : Line := dedent 4 (expandTab 4 l)

/-- Whether four spaces stand side by side in a text. -/
def hasWideGap : List Char → Bool
  | [] => false
  | c :: s => ("    ".toList.isPrefixOf (c :: s)) || hasWideGap s

/-- Whether a line goes on with an indented block of code: it is blank, or there is a tab or four
spaces in the gap before it. -/
def continuesCode (l : Line) : Bool :=
  let gap := l.takeWhile Text.isBlank
  gap.length = l.length || gap.contains '\t' || hasWideGap gap

end Line

open Line

/-! ## Fences -/

/-- The line that opens a fenced block of code. -/
structure Fence where
  indent : Nat
  marker : List Char
  info : List Char
  deriving DecidableEq

/-- The fence that a line opens. -/
def Fence.ofLine? (l : Line) : Option Fence := do
  let s ← l.body?
  let c ← s.head?
  let marker := s.takeWhile (· == c)
  if (c == '\x60' || c == '~') && 3 ≤ marker.length then
    return ⟨l.indent, marker, (s.drop marker.length).dropWhile isSpace⟩
  else none

/-- Whether a fence opens a block: a fence of backticks has none behind it. -/
def Fence.isValid (f : Fence) : Bool := !(f.marker.head? == some '\x60' && f.info.contains '\x60')

/-- Whether a line closes a fence. -/
def Fence.closes (f : Fence) (l : Line) : Bool :=
  match l.body?, f.marker.head? with
  | some s, some c =>
    let marker := s.takeWhile (· == c)
    f.marker.length ≤ marker.length && (s.drop marker.length).all isSpace
  | _, _ => false

/-- The info string of a fence. -/
def Fence.infoText (f : Fence) : String := String.ofList (trim (unescape f.info))

/-! ## Headings and rules -/

/-- A heading's text without the marks that may close it. -/
def dropClosing (s : List Char) : List Char :=
  let kept := dropEndWhile (· == '#') s
  match kept.getLast? with
  | none => []
  | some c => if Text.isBlank c then dropEndWhile Text.isBlank kept else s

/-- The level and the text of a heading. -/
def headingOf? (l : Line) : Option (Nat × List Char) := do
  let s ← l.body?
  let level := (s.takeWhile (· == '#')).length
  let rest := s.drop level
  if 1 ≤ level && level ≤ 6 && rest.head?.all isSpace then return (level, dropClosing (trim rest))
  else none

/-- Whether a line is a rule: three or more of one mark, with spaces behind each. -/
def isRule (l : Line) : Bool :=
  match l.body? with
  | some (c :: s) =>
    (c == '-' || c == '_' || c == '*') && 2 ≤ s.count c && s.all fun d => d == c || isSpace d
  | _ => false

/-- The level of the heading that a line makes of the paragraph above it. Its last mark decides. -/
def underlineLevel? (l : Line) : Option Nat := do
  let marks := dropEndWhile isSpace (← l.body?)
  let c ← marks.getLast?
  if marks.all fun c => c == '=' || c == '-' then return if c = '=' then 1 else 2 else none

/-! ## Quotes and items -/

/-- What a line of a quote holds behind its mark. -/
def quoteContent? (l : Line) : Option Line :=
  match l.body? with
  | some ('>' :: rest) => some (dedent 1 (expandTab 3 rest))
  | _ => none

/-- The start of a list item. Items of one list agree in their bullet, which for a number is the
mark behind it. -/
structure ItemMark where
  bullet : Char
  number : Option Nat
  /-- The width of all up to the end of the mark. -/
  lead : Nat
  /-- Where the content of the item starts. -/
  width : Nat
  /-- The content on the line of the mark. -/
  content : Line
  deriving DecidableEq

/-- The start of an item from the width of all up to the end of its mark and what follows the mark.
The content starts behind a gap, or behind one space if the gap is wider than four. -/
def ItemMark.build (bullet : Char) (number : Option Nat) (lead : Nat) (rest : Line) : ItemMark :=
  -- A tab reaches up to the next of the columns that are multiples of four.
  let rest := widenTab (expandTab (4 - lead % 4) rest)
  let gap := if 5 ≤ rest.indent then 1 else (rest.takeWhile Text.isBlank).length
  if isBlankText rest then ⟨bullet, number, lead, lead + 1, []⟩
  else ⟨bullet, number, lead, lead + gap, rest.drop gap⟩

/-- Whether what follows a mark lets it start an item. -/
def ItemMark.parted : List Char → Bool
  | [] => true
  | c :: _ => isSpace c

/-- The start of an item on a line. The number of an item that is not the first of its list can lack
its digits. -/
def ItemMark.read? (further : Bool) (l : Line) : Option ItemMark := do
  let s ← l.body?
  let digits := s.takeWhile isDigit
  match s.drop digits.length with
  | c :: rest =>
    if !parted rest then none
    else if c == '.' || c == ')' then
      if digits.length ≤ 9 && (further || !digits.isEmpty) then
        return .build c (some (valueOfDigits digits)) (l.indent + digits.length + 1) rest
      else none
    else if digits.isEmpty && (c == '-' || c == '+' || c == '*') then
      return .build c none (l.indent + 1) rest
    else none
  | [] => none

/-- The start of the first item of a list. -/
def ItemMark.ofLine? (l : Line) : Option ItemMark := read? false l

/-- The start of a further item of a list. Its indent is not wider than that of the item before and
its mark together. -/
def ItemMark.next? (mark : ItemMark) (l : Line) : Option ItemMark :=
  if l.indent ≤ mark.lead then (read? true l).filter (·.bullet == mark.bullet) else none

/-- Whether an item may start in the middle of a paragraph: it has content, and its number, if it
has one, is 1. -/
def ItemMark.breaks (m : ItemMark) : Bool := !m.content.isEmpty && m.number.all (· == 1)

theorem length_dedent (n : Nat) (l : Line) : (dedent n l).length ≤ l.length := by
  simp [dedent]

end Chartdown.Markdown
