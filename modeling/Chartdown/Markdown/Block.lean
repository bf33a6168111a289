import Chartdown.Markdown.Container
import Chartdown.Markdown.Table

/-! # Blocks of Markdown

Lines make blocks: paragraphs, headings, code and so on, and quotes and lists that hold further
blocks. They are read line by line. What has been read so far shows what a line can do: many forms
of lines are text where a paragraph is open.

* `readLines_nil`  no lines add nothing
* `toBlocks_push`  a new block stands behind those before
-/

namespace Chartdown.Markdown

open Text

/-- A block of a document. -/
inductive Block
  | blank
  /-- A paragraph, given by its lines, last first. -/
  | paragraph (lines : List Line)
  | heading (level : Nat) (text : List Char)
  | rule
  /-- Code, with the fence around it if there is one. -/
  | code (body : List Char) (fence : Option Fence)
  | html (raw : List Char)
  | table (t : Table)
  | quote (content : List Block)
  /-- A list with the mark of its first item, whether it is loose, and its items. -/
  | list (mark : ItemMark) (loose : Bool) (items : List Block)
  /-- An item of a list, which may be a task that is done or not. -/
  | item (task : Option Bool) (content : List Block)

namespace Block

/-- Lines with a line feed behind each. -/
def joinLines (lines : List Line) : List Char := lines.flatMap (· ++ ['\n'])

/-- The text of a paragraph. -/
def paragraphText (lines : List Line) : List Char := ['\n'].intercalate lines.reverse

/-- The number of paragraphs among some blocks. -/
def paragraphs (bs : List Block) : Nat := bs.countP (· matches .paragraph _)

/-- Whether the content of an item makes its list loose: there is a blank line between its blocks,
or it has two paragraphs. -/
def isLoose (content : List Block) : Bool :=
  content.any (· matches .blank) || 2 ≤ paragraphs content

/-! ## Tasks -/

/-- The mark of a task at the start of a line: whether it is done, and the text behind the mark. -/
def task? (l : Line) : Option (Bool × Line) :=
  match l with
  | '[' :: c :: ']' :: rest =>
    if (c == ' ' || c == 'x' || c == 'X') && rest.head?.all Text.isBlank then
      some (c != ' ', rest.dropWhile Text.isBlank)
    else none
  | _ => none

/-- An item with some content. The mark of a task can stand where the content starts with a
paragraph. -/
def itemOf (content : List Block) : Block :=
  match content with
  | .paragraph lines :: rest =>
    match lines.getLast?.bind task? with
    | some (done, line) => .item (some done) (.paragraph (lines.dropLast ++ [line]) :: rest)
    | none => .item none content
  | _ => .item none content

/-! ## Code and raw HTML -/

/-- A fenced block of code and the number of lines behind its first. -/
def fenced (f : Fence) (rest : List Line) : Block × Nat :=
  let body := rest.takeWhile fun l => !f.closes l
  (.code (joinLines (body.map (Line.dedent f.indent))) (some f),
    min rest.length (body.length + 1))

/-- The lines behind the first of an indented block of code, and the text that ends the block in a
line of its own. The gap before that text still belongs to the code. -/
def codeLines : List Line → List Line × Option Line
  | [] => ([], none)
  | l :: rest =>
    if l.continuesCode then
      let (lines, text) := codeLines rest
      (l :: lines, text)
    else
      let gap := l.takeWhile isBlank
      if gap.isEmpty then ([], none) else ([gap], some (l.drop gap.length))

/-- An indented block of code. -/
def indented (lines : List Line) : Block :=
  let body := ['\n'].intercalate (lines.map Line.codeContent)
  .code (dropEndWhile (· == '\n') (body.dropWhile (· == '\n'))) none

/-- A block of raw HTML and the number of lines behind its first. `behind` is what follows its
opening in the first line. -/
def rawHtml (ending : RawHtml.BlockEnd) (behind : List Char) (line : Line) (rest : List Line) :
    Block × Nat :=
  let count := match ending with
    | .blank => (rest.takeWhile fun (l : Line) => !l.isBlank).length
    | .mark text =>
      if RawHtml.holdsMark text behind then 0
      else min rest.length ((rest.takeWhile fun l => !RawHtml.holdsMark text l).length + 1)
  (.html (joinLines (line :: rest.take count)), count)

end Block

/-! ## What has been read -/

/-- The blocks that have been read, last first, and the definitions, in order. The last block is
still open if it is a paragraph. -/
structure Reading where
  blocks : List Block := []
  definitions : List Definition := []

namespace Reading

/-- Whether a paragraph is open. -/
def isOpen (r : Reading) : Bool := r.blocks.head?.any (· matches .paragraph _)

/-- Read a block. -/
def push (r : Reading) (b : Block) : Reading := { r with blocks := b :: r.blocks }

/-- Read a line of text. It goes on with the open paragraph or opens one. -/
def pushText (r : Reading) (l : Line) : Reading :=
  match r.blocks with
  | .paragraph lines :: before => { r with blocks := .paragraph (l :: lines) :: before }
  | _ => r.push (.paragraph [l])

/-- Read some definitions. -/
def define (r : Reading) (ds : List Definition) : Reading :=
  { r with definitions := r.definitions ++ ds }

/-- Put a block below some number of the last ones. -/
def insert (r : Reading) (above : Nat) (b : Block) : Reading :=
  { r with blocks := r.blocks.take above ++ b :: r.blocks.drop above }

/-- The blocks in order. -/
def toBlocks (r : Reading) : List Block := r.blocks.reverse

theorem toBlocks_push (r : Reading) (b : Block) : (r.push b).toBlocks = r.toBlocks ++ [b] := by
  simp [push, toBlocks]

/-- Make a heading of the open paragraph. -/
def underline (r : Reading) (level : Nat) : Reading :=
  match r.blocks with
  | .paragraph lines :: before =>
    { r with blocks := .heading level (Block.paragraphText lines) :: before }
  | _ => r

/-! ## Reading lines -/

/-- How the content of a quote or an item is read. -/
abbrev Inner := Scope → List Line → Reading

/-- Read a line with some of the lines behind it: what has been read then, and the number of lines
behind it that were. -/
def take (inner : Inner) (scope : Scope) (r : Reading) (start : Start) (line : Line)
    (rest : List Line) : Reading × Nat :=
  match start with
  | .text => (r.pushText line, 0)
  | .blank => (r.push .blank, (rest.takeWhile Line.isBlank).length)
  | .heading level text => (r.push (.heading level text), 0)
  | .underline level => (r.underline level, 0)
  | .rule => (r.push .rule, 0)
  | .definition d count => (r.define [d], count)
  | .fence f =>
    let (b, n) := Block.fenced f rest
    (r.push b, n)
  | .html ending behind =>
    let (b, n) := Block.rawHtml ending behind line rest
    (r.push b, n)
  | .code =>
    let (lines, text) := Block.codeLines rest
    let r := r.push (Block.indented (line :: lines))
    (text.elim r r.pushText, lines.length)
  | .quote content =>
    let e := QuoteExtent.ofLines (QuoteExtent.isStrict content) r.isOpen true false rest
    let child := inner scope.inQuote ((content :: e.lines).map Line.widenTab)
    let quote := Block.quote child.toBlocks
    match e.stop, _h : rest.drop e.lines.length with
    | some start, line :: more =>
      -- The quote stands before the block that what ends it makes or goes on with.
      let (after, n) := take inner scope r start line more
      ((after.insert 1 quote).define child.definitions, e.lines.length + 1 + n)
    | _, _ => ((r.push quote).define child.definitions, e.lines.length)
  | .item mark =>
    let e := ListExtent.ofLines r.isOpen mark rest
    let children := e.items.map (inner scope.inList)
    let contents := children.map toBlocks
    let list := Block.list mark (e.parted || contents.any Block.isLoose)
      (contents.map Block.itemOf)
    -- What ends the list is read before the content of its last item.
    let early := children.dropLast.flatMap definitions
    let late := children.getLast?.elim [] definitions
    match e.stop, _h : rest.drop e.count with
    | some start, line :: more =>
      -- The list stands before the blocks that what ends it makes.
      let (after, n) := take inner scope (r.define early) start line more
      ((after.insert (after.blocks.length - r.blocks.length) list).define late, e.count + 1 + n)
    | _, _ => ((r.push list).define (early ++ late), e.count)
termination_by rest.length
decreasing_by
  all_goals
    have := congrArg List.length _h
    simp only [List.length_drop, List.length_cons] at this
    omega

/-- Read the table that a line starts, if it starts one. Where its lines do not agree, they are
text. -/
def takeTable? (r : Reading) (line : Line) (rest : List Line) : Option (Reading × Nat) :=
  (Table.read? line rest).map fun (table, n) =>
    (table.elim ((line :: rest.take n).foldl pushText r) (r.push <| .table ·), n)

/-- Read some lines. `inner` reads the content of quotes and items. -/
def readLines (inner : Inner) (scope : Scope) (r : Reading) : List Line → Reading
  | [] => r
  | line :: rest =>
    let (r, n) :=
      match Start.ofLine? scope r.isOpen line rest with
      | some start => r.take inner scope start line rest
      | none => (if scope.tables then r.takeTable? line rest else none).getD (r.pushText line, 0)
    readLines inner scope r (rest.drop n)
termination_by lines => lines.length
decreasing_by simp only [List.length_cons, List.length_drop]; omega

theorem readLines_nil (inner : Inner) (scope : Scope) (r : Reading) :
    readLines inner scope r [] = r := by
  rw [readLines]

/-- Read some lines whose containers nest at most as deep as a bound. -/
def readNested : Nat → Inner
  | 0, _, lines => lines.foldl pushText {}
  | depth + 1, scope, lines => readLines (readNested depth) scope {} lines

/-- Read the lines of a document. Each quote and item takes a mark from a line, so they nest no
deeper than the lines have characters. -/
def ofLines (lines : List Line) : Reading := readNested (lines.flatten.length + 1) {} lines

end Reading
end Chartdown.Markdown
