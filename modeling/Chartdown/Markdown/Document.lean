import Chartdown.Markdown.Block
import Chartdown.Markdown.Inline
import Chartdown.Markdown.Nodes

/-! # Documents

A Markdown text is split into lines, the lines are read as blocks, and the definitions of all
blocks serve the links in each. The tokens of the blocks make a document.

* `linesOf_nil`  a text that is empty has no lines
-/

namespace Chartdown.Markdown

open Text

/-- A text whose lines end in line feeds alone. -/
def withLineFeeds : List Char → List Char
  | [] => []
  | c :: s =>
    if c = '\r' then (if s.head? = some '\n' then withLineFeeds s else '\n' :: withLineFeeds s)
    else c :: withLineFeeds s

/-- The lines of a text. The last one may lack its line feed. -/
def linesOf (s : List Char) : List Line :=
  let lines := (withLineFeeds s).splitOnP (· == '\n')
  if lines.getLast? = some [] then lines.dropLast else lines

theorem linesOf_nil : linesOf [] = [] := rfl

/-- The token of a block of code. -/
def codeToken (body : List Char) (fence : Option Fence) : Token :=
  let info := (fence.map Fence.infoText).filter (· != "")
  .mk "block_code" (some (String.ofList body)) [] { info := info }
    (fence.map fun f => String.ofList f.marker) none

/-- The token of a cell. -/
def cellToken (inline : List Char → List Token) (align : Option Alignment) (s : List Char) :
    Token :=
  .ofChildren "table_cell" (inline s) { align := align.map Alignment.name }

/-- The token of a table. -/
def tableToken (inline : List Char → List Token) (t : Table) : Token :=
  let cells (row : List (List Char)) : List Token :=
    (t.alignments.zip row).map fun (align, s) => cellToken inline align s
  .ofChildren "table"
    [.ofChildren "table_head" (cells t.heads),
     .ofChildren "table_body" (t.rows.map fun row => .ofChildren "table_row" (cells row))]

/-- The attributes of a list. -/
def listAttributes (mark : ItemMark) (loose : Bool) : Attributes :=
  { ordered := some mark.number.isSome
    start := (mark.number.filter (· != 1)).map Int.ofNat
    tight := some !loose }

/-- The type of the token of an item. -/
def itemType (task : Option Bool) : String :=
  if task.isSome then "task_list_item" else "list_item"

mutual
/-- The token of a block, where the block has one. -/
def Block.token? (inline : List Char → List Token) : Block → Option Token
  | .blank => none
  | .paragraph lines => some (.ofChildren "paragraph" (inline (Block.paragraphText lines)))
  | .heading level text =>
    some (.ofChildren "heading" (inline text) { level := some (Int.ofNat level) })
  | .rule => some (.ofChildren "thematic_break" [])
  | .code body fence => some (codeToken body fence)
  | .html raw => some (.ofText "block_html" (String.ofList raw))
  | .table t => some (tableToken inline t)
  | .quote content => some (.ofChildren "block_quote" (Block.tokens inline content))
  | .list mark loose items =>
    some (.ofChildren "list" (Block.tokens inline items) (listAttributes mark loose))
  | .item task content =>
    some (.ofChildren (itemType task) (Block.tokens inline content) { checked := task })

/-- The tokens of some blocks. -/
def Block.tokens (inline : List Char → List Token) : List Block → List Token
  | [] => []
  | b :: rest => (b.token? inline).toList ++ Block.tokens inline rest
end

/-- The tokens of a text. -/
def tokens (o : Options) (text : String) : List Token :=
  let r := Reading.ofLines (linesOf text.toList)
  Block.tokens (Inline.read o r.definitions) r.toBlocks

/-- The document of a text. -/
def document (o : Options) (text : String) : Building Node := do
  let content ← blocks o (tokens o text)
  return .ofBranch .document content

end Chartdown.Markdown
