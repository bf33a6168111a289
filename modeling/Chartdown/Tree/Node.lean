import Chartdown.Json.Value

/-! # Document trees

A document is a tree of leaves, which hold text, and branches, which hold children. A table is a
branch whose children are its rows, the header row first if it has one.

* `children_withChildren`   a branch that is no table takes any children
-/

namespace Chartdown

/-- The kinds of nodes. -/
inductive NodeKind
  | document | heading | paragraph | codeBlock | chartBlock | blockQuote | list | listItem
  | table | tableRow | tableCell | thematicBreak | htmlBlock
  | text | emphasis | strong | code | link | image | lineBreak | strikethrough | htmlInline
  deriving DecidableEq

/-- The kinds of nodes in the order of their definition. -/
def NodeKind.all : List NodeKind :=
  [.document, .heading, .paragraph, .codeBlock, .chartBlock, .blockQuote, .list, .listItem,
   .table, .tableRow, .tableCell, .thematicBreak, .htmlBlock,
   .text, .emphasis, .strong, .code, .link, .image, .lineBreak, .strikethrough, .htmlInline]

/-- The name of a kind in data. -/
def NodeKind.name : NodeKind → String
  | .document => "document"
  | .heading => "heading"
  | .paragraph => "paragraph"
  | .codeBlock => "code_block"
  | .chartBlock => "chart_block"
  | .blockQuote => "block_quote"
  | .list => "list"
  | .listItem => "list_item"
  | .table => "table"
  | .tableRow => "table_row"
  | .tableCell => "table_cell"
  | .thematicBreak => "thematic_break"
  | .htmlBlock => "html_block"
  | .text => "text"
  | .emphasis => "emphasis"
  | .strong => "strong"
  | .code => "code"
  | .link => "link"
  | .image => "image"
  | .lineBreak => "line_break"
  | .strikethrough => "strikethrough"
  | .htmlInline => "html_inline"

/-- The name of a kind in messages. -/
def NodeKind.title : NodeKind → String
  | .document => "Document"
  | .heading => "Heading"
  | .paragraph => "Paragraph"
  | .codeBlock => "CodeBlock"
  | .chartBlock => "ChartBlock"
  | .blockQuote => "BlockQuote"
  | .list => "List"
  | .listItem => "ListItem"
  | .table => "Table"
  | .tableRow => "TableRow"
  | .tableCell => "TableCell"
  | .thematicBreak => "ThematicBreak"
  | .htmlBlock => "HTMLBlock"
  | .text => "Text"
  | .emphasis => "Emphasis"
  | .strong => "Strong"
  | .code => "Code"
  | .link => "Link"
  | .image => "Image"
  | .lineBreak => "LineBreak"
  | .strikethrough => "Strikethrough"
  | .htmlInline => "HTMLInline"

/-- The kind of a name. -/
def NodeKind.ofName? (name : String) : Option NodeKind := NodeKind.all.find? fun k => k.name == name

/-- Why a node cannot be built. -/
inductive NodeError
  | headingLevel (level : Int)
  | tableChild (kind : NodeKind)
  deriving DecidableEq

/-- The wording of an error. -/
def NodeError.message : NodeError → String
  | .headingLevel level => "Heading level must be 1-6, got " ++ String.ofList (integerText level)
  | .tableChild kind => "Table children must be TableRow instances, got " ++ kind.title

/-- The level of a heading, from 1 to 6. -/
structure HeadingLevel where
  val : Nat
  one_le : 1 ≤ val
  le_six : val ≤ 6
  deriving DecidableEq

/-- The level of a number. -/
def HeadingLevel.ofInt (n : Int) : Except NodeError HeadingLevel :=
  if h : 1 ≤ n ∧ n ≤ 6 then .ok ⟨n.toNat, by omega, by omega⟩ else .error (.headingLevel n)

/-- What is noted about a node, under names. -/
abbrev Metadata := List (Text.Utf16 × Json)

/-- Where in a source a node stands. -/
structure Location where
  format : String
  line : Option Int := none
  column : Option Int := none
  metadata : Metadata := []

/-- What every node carries. -/
structure Info where
  metadata : Metadata := []
  location : Option Location := none

/-- Nodes without children. -/
inductive Leaf
  | codeBlock (content : String) (language : Option String) (fenceChar : String) (fenceLength : Int)
  | chartBlock (lines : List String)
  | thematicBreak
  | htmlBlock (content : String)
  | text (content : String)
  | code (content : String)
  | image (url : String) (alt : String) (title : Option String)
  | lineBreak (soft : Bool)
  | htmlInline (content : String)
  deriving DecidableEq

/-- The kinds of nodes with children, and their own fields. -/
inductive Branch
  | document
  | heading (level : HeadingLevel)
  | paragraph
  | blockQuote
  | list (ordered : Bool) (start : Int) (tight : Bool)
  | listItem (task : Option String)
  /-- The first child is the header row if `headed` is set, and the alignments are by column. -/
  | table (headed : Bool) (alignments : List (Option String))
  | tableRow (isHeader : Bool)
  | tableCell (alignment : Option String)
  | emphasis
  | strong
  | link (url : String) (title : Option String)
  | strikethrough
  deriving DecidableEq

/-- A node of a document, with all that is below it. -/
inductive Node
  | leaf (leaf : Leaf) (info : Info)
  | branch (branch : Branch) (children : List Node) (info : Info)

instance : Inhabited Node := ⟨.leaf .thematicBreak {}⟩

/-- The kind of a leaf. -/
def Leaf.kind : Leaf → NodeKind
  | .codeBlock .. => .codeBlock
  | .chartBlock _ => .chartBlock
  | .thematicBreak => .thematicBreak
  | .htmlBlock _ => .htmlBlock
  | .text _ => .text
  | .code _ => .code
  | .image .. => .image
  | .lineBreak _ => .lineBreak
  | .htmlInline _ => .htmlInline

/-- The kind of a branch. -/
def Branch.kind : Branch → NodeKind
  | .document => .document
  | .heading _ => .heading
  | .paragraph => .paragraph
  | .blockQuote => .blockQuote
  | .list .. => .list
  | .listItem _ => .listItem
  | .table .. => .table
  | .tableRow _ => .tableRow
  | .tableCell _ => .tableCell
  | .emphasis => .emphasis
  | .strong => .strong
  | .link .. => .link
  | .strikethrough => .strikethrough

namespace Node

/-- The kind of a node. -/
def kind : Node → NodeKind
  | leaf l _ => l.kind
  | branch b _ _ => b.kind

/-- What a node carries. -/
def info : Node → Info
  | leaf _ i => i
  | branch _ _ i => i

/-- A node with other information. -/
def withInfo (i : Info) : Node → Node
  | leaf l _ => leaf l i
  | branch b cs _ => branch b cs i

/-- The children of a node. -/
def children : Node → List Node
  | leaf _ _ => []
  | branch _ cs _ => cs

/-- A leaf that nothing is noted about. -/
def ofLeaf (l : Leaf) : Node := leaf l {}

/-- A branch that nothing is noted about. -/
def ofBranch (b : Branch) (cs : List Node) : Node := branch b cs {}

/-- A document. -/
def document (cs : List Node) : Node := ofBranch .document cs

/-- A text. -/
def text (s : String) : Node := ofLeaf (.text s)

/-- Whether a node is a row that is flagged as a header. -/
def isHeaderRow : Node → Bool
  | branch (.tableRow true) _ _ => true
  | _ => false

end Node

/-- The rows of a table in order, of which the first that is flagged as a header goes to the
front. -/
def headerFirst (rows : List Node) : List Node :=
  match rows.find? Node.isHeaderRow with
  | some header => header :: rows.eraseP Node.isHeaderRow
  | none => rows

/-- The first child that no table can hold. -/
def strayTableChild? (children : List Node) : Option NodeKind :=
  (children.map Node.kind).find? fun k => decide (k ≠ .tableRow)

/-- A branch with children. A table takes rows only, and its header is the first row that is
flagged as one. -/
def Branch.build (b : Branch) (children : List Node) (i : Info) : Except NodeError Node :=
  match b with
  | .table _ alignments =>
    match strayTableChild? children with
    | some kind => .error (.tableChild kind)
    | none =>
      .ok (.branch (.table (children.any Node.isHeaderRow) alignments) (headerFirst children) i)
  | b => .ok (.branch b children i)

/-- A node with other children. A leaf stays as it is. -/
def Node.withChildren (n : Node) (children : List Node) : Except NodeError Node :=
  match n with
  | .leaf l i => .ok (.leaf l i)
  | .branch b _ i => b.build children i

theorem children_withChildren {b : Branch} (hb : b.kind ≠ .table) (cs children : List Node)
    (i : Info) : (Node.branch b cs i).withChildren children = .ok (.branch b children i) := by
  cases b <;> first | rfl | exact absurd rfl hb

end Chartdown
