import Chartdown.Markdown.Line
import Chartdown.Markdown.Link

/-! # What a line starts

The forms of lines that are more than text, in the order in which they are tried. Fewer of them end
a quote or a list item from a line without the marks of that quote or item.

* `first?_cons_of_some`  the first form that fits is taken
-/

namespace Chartdown.Markdown

open Text

/-- What may stand in some lines. -/
structure Scope where
  /-- The number of quotes and lists around the lines. -/
  depth : Nat := 0
  tables : Bool := true
  quotes : Bool := true
  lists : Bool := true

namespace Scope

/-- The depth from which quotes hold no quotes and lists no lists. -/
def depthLimit : Nat := 20

/-- What may stand in a quote. -/
def inQuote (s : Scope) : Scope :=
  { depth := s.depth + 1, tables := false, quotes := s.depth + 1 < depthLimit }

/-- What may stand in the items of a list. -/
def inList (s : Scope) : Scope :=
  { depth := s.depth + 1, tables := false, lists := s.depth + 1 < depthLimit }

end Scope

/-- What a line starts. -/
inductive Start
  /-- Text, although the line has the form of more. -/
  | text
  | blank
  | code
  | fence (f : Fence)
  | heading (level : Nat) (text : List Char)
  /-- The line under a heading, whose text is the open paragraph. -/
  | underline (level : Nat)
  | rule
  | quote (content : Line)
  | item (mark : ItemMark)
  /-- A definition with the number of further lines that it takes. -/
  | definition (d : Definition) (count : Nat)
  /-- Raw HTML with the text behind its opening. -/
  | html (ending : RawHtml.BlockEnd) (behind : List Char)

namespace Start

/-! ## Forms of lines

Where a paragraph is open, what some forms would start goes on with it as text: these forms ask
whether one is. -/

/-- A form of a line: what a line of the form starts. -/
abbrev Form := Line → Option Start

/-- What a line starts by the first form that fits. -/
def first? (forms : List Form) (l : Line) : Option Start := forms.findSome? (· l)

theorem first?_cons_of_some {form : Form} {l : Line} {s : Start} (h : form l = some s)
    (forms : List Form) : first? (form :: forms) l = some s := by
  simp [first?, h]

/-- A blank line. -/
def blank? : Form := fun l => if l.isBlank then some .blank else none

/-- A line of indented code. -/
def code? (isOpen : Bool) : Form := fun l =>
  if l.isCode then some (if isOpen then .text else .code) else none

/-- The line that opens a fenced block of code. -/
def fence? : Form := fun l => ((Fence.ofLine? l).filter Fence.isValid).map .fence

/-- A line that would open a fenced block of code, had it no backticks behind the fence. -/
def spoiltFence? : Form := fun l => (Fence.ofLine? l).map fun _ => .text

/-- A heading. -/
def heading? : Form := fun l => (headingOf? l).map fun (level, s) => .heading level s

/-- A rule. -/
def rule? : Form := fun l => if isRule l then some .rule else none

/-- A line of a quote. -/
def quote? : Form := fun l => (quoteContent? l).map .quote

/-- The first line of a list. -/
def item? (isOpen : Bool) : Form := fun l =>
  (ItemMark.ofLine? l).map fun mark => if isOpen && !mark.breaks then .text else .item mark

/-- The line under a heading. Without a paragraph above it can still be a rule or an item. -/
def underline? (isOpen : Bool) : Form := fun l =>
  (underlineLevel? l).map fun level =>
    if isOpen then .underline level else (first? [rule?, item? false] l).getD .text

/-- Raw HTML. -/
def html? (isOpen : Bool) : Form := fun l =>
  (l.body?.bind RawHtml.opening?).map fun (opening, behind) =>
    match opening.ending? with
    | some ending => .html ending behind
    | none => if !isOpen && opening.isLone behind then .html .blank behind else .text

/-- Raw HTML of a known kind, unless it is text of its own. -/
def knownHtml? (isOpen : Bool) : Form := fun l =>
  if (l.body?.bind RawHtml.opening?).any fun (opening, behind) => opening.parts behind then
    (html? isOpen l).filter fun s => isOpen || !(s matches .text)
  else none

/-- A label with a colon behind it, at the start of some lines. -/
def definition? (isOpen : Bool) (rest : List Line) : Form := fun l => do
  let '[' :: s ← l.body? | none
  let lines := s :: rest.takeWhile fun (l : Line) => !l.isBlank
  let text := ['\n'].intercalate lines
  let (_, ':' :: _) ← Link.label? text | none
  match if isOpen then none else Link.definition? ('[' :: text) with
  | some (d, behind) =>
    -- The definition ends with a line, so what is behind it is whole lines.
    let left := if behind.isEmpty then 0 else behind.count '\n' + 1
    return .definition d (lines.length - 1 - left)
  | none => return .text

/-- What a line starts with some lines behind it. -/
def ofLine? (scope : Scope) (isOpen : Bool) (l : Line) (rest : List Line) : Option Start :=
  let quotes := if scope.quotes then [quote?] else []
  let lists := if scope.lists then [item? isOpen] else []
  first? ([fence?, spoiltFence?, code? isOpen, heading?, underline? isOpen, rule?] ++
    quotes ++ lists ++ [definition? isOpen rest, html? isOpen, blank?]) l

/-! ## Ends of quotes and lists -/

/-- What a line without the mark of a quote starts, if that ends the quote. `isOpen` tells whether a
paragraph is open around the quote. -/
def endingQuote? (isOpen : Bool) : Form :=
  first? [blank?, rule?, fence?, item? isOpen, knownHtml? isOpen]

/-- What a line left of the content of an item starts, if that ends the list and is no item.
`isOpen` tells whether a paragraph is open around the list. -/
def endingList? (isOpen : Bool) : Form :=
  first? [rule?, fence?, heading?, quote?, knownHtml? isOpen]

end Start
end Chartdown.Markdown
