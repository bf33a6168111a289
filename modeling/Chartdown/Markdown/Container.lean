import Chartdown.Markdown.Start

/-! # Lines of quotes and lists

How far a quote or a list reaches, and the lines that its content is read from. A line without the
marks of a quote or an item can go on with a paragraph in it, unless it starts something by itself
or a blank line parts it from the content.

* `length_keptLines`  the content of an item has no more lines than were taken
-/

namespace Chartdown.Markdown

open Text

/-! ## Quotes -/

/-- The lines of a quote behind its first. -/
structure QuoteExtent where
  lines : List Line := []
  /-- What the line behind the quote starts, if that ends the quote. -/
  stop : Option Start := none

namespace QuoteExtent

/-- A quote with a line more in front. -/
def cons (l : Line) (e : QuoteExtent) : QuoteExtent := { e with lines := l :: e.lines }

/-- Whether a quote that starts with some content holds only lines with its mark: no paragraph is
open in it. -/
def isStrict (content : Line) : Bool :=
  content.isBlank || content.isCode || (Fence.ofLine? content).isSome

/-- How far a quote reaches. `isOpen` tells whether there is an open paragraph around it, `bare`
whether the lines with its mark directly above hold nothing but blanks, and `parted` whether the
line above keeps one without the mark from going on. -/
def ofLines (strict isOpen bare parted : Bool) : List Line → QuoteExtent
  | [] => {}
  | l :: rest =>
    match quoteContent? l with
    | some content =>
      let bare := bare && isBlankText content
      (ofLines strict isOpen bare (bare || content.all Line.isSpace) rest).cons content
    | none =>
      if strict || parted then {}
      else
        match Start.endingQuote? isOpen l with
        | some s => { stop := some s }
        | none => (ofLines strict isOpen true false rest).cons (l.expandTab 3)

end QuoteExtent

/-! ## Items -/

/-- What ends an item. -/
inductive ItemEnd
  /-- The list ends with it. -/
  | last
  /-- A further item follows. -/
  | next (mark : ItemMark)
  /-- The line behind it starts something that ends the list. -/
  | stop (start : Start)

/-- The lines of an item behind its first. -/
structure ItemExtent where
  lines : List Line := []
  ending : ItemEnd := .last
  /-- Whether the last line is blank. -/
  parted : Bool := false

namespace ItemExtent

/-- An item with a line more in front. -/
def cons (l : Line) (e : ItemExtent) : ItemExtent := { e with lines := l :: e.lines }

/-- How a line that stands left of the content of an item ends the item, if it does. A line that is
indented by more than the mark does not. -/
def ending? (mark : ItemMark) (isOpen : Bool) (l : Line) : Option ItemEnd :=
  if mark.lead < l.indent then none
  else if isRule l then some (.stop .rule)
  else if let some next := mark.next? l then some (.next next)
  else if let some s := Start.endingList? isOpen l then some (.stop s)
  else if (ItemMark.ofLine? l).isSome then some .last
  else none

/-- How far an item reaches. `isOpen` tells whether there is an open paragraph around its list,
`begun` whether the item has content so far, and `parted` whether the line above is blank. At most
one blank line stands before the content. -/
def ofLines (mark : ItemMark) (isOpen begun parted : Bool) : List Line → ItemExtent
  | [] => { parted }
  | l :: rest =>
    let line := l.expandTab 4
    let begun' := begun || !isBlankText line
    if l.isBlank then (ofLines mark isOpen begun true rest).cons []
    else if mark.width ≤ line.indent then
      if parted && !begun then { parted }
      else (ofLines mark isOpen begun' false rest).cons (Line.widenTab (line.drop mark.width))
    else
      match ending? mark isOpen l with
      | some ending => { ending, parted }
      | none => if parted then { parted } else (ofLines mark isOpen begun' false rest).cons line

/-- The lines that the content of an item is read from: blank ones at the end are dropped, but not
the first. -/
def keptLines (mark : ItemMark) (e : ItemExtent) : List Line :=
  match (if mark.content.isEmpty then [] else [mark.content]) ++ e.lines with
  | [] => []
  | l :: rest => l :: dropEndWhile isBlankText rest

theorem length_keptLines (mark : ItemMark) (e : ItemExtent) :
    (e.keptLines mark).length ≤ e.lines.length + 1 := by
  have h (rest : List Line) : (dropEndWhile isBlankText rest).length ≤ rest.length := by
    have := (List.dropWhile_sublist isBlankText (l := rest.reverse)).length_le
    simpa [dropEndWhile] using this
  unfold keptLines
  split
  · simp
  · next l rest hl =>
    have := h rest
    have := congrArg List.length hl
    simp only [List.length_append, List.length_cons] at this ⊢
    split at this <;> simp at this <;> omega

end ItemExtent

/-! ## Lists -/

/-- The lines of the items of a list. -/
structure ListExtent where
  items : List (List Line)
  /-- Whether a blank line parts two items. -/
  parted : Bool := false
  /-- The number of lines behind the first. -/
  count : Nat
  /-- What the line behind the list starts, if that ends the list. -/
  stop : Option Start := none

namespace ListExtent

/-- How far a list reaches that starts with an item. -/
def ofLines (isOpen : Bool) (mark : ItemMark) (lines : List Line) : ListExtent :=
  let e := ItemExtent.ofLines mark isOpen (!mark.content.isEmpty) false lines
  let first := e.keptLines mark
  let count := e.lines.length
  match e.ending, _h : lines.drop count with
  | .next next, _ :: rest =>
    let more := ofLines isOpen next rest
    { more with
      items := first :: more.items
      parted := e.parted || more.parted
      count := count + 1 + more.count }
  | .stop start, _ => { items := [first], count, stop := some start }
  | _, _ => { items := [first], count }
termination_by lines.length
decreasing_by
  have := congrArg List.length _h
  simp only [List.length_drop, List.length_cons] at this
  omega

end ListExtent
end Chartdown.Markdown
