import Chartdown.Markdown.Language
import Chartdown.Markdown.Options
import Chartdown.Markdown.Token
import Chartdown.Tree.Node

/-! # Documents from tokens

Each token of a known type becomes a node; others are left out with all below them. Raw HTML is
kept or left out as the caller says. Block tokens and inline tokens are told apart by where they
stand, since some types are known in one place only.
-/

namespace Chartdown.Markdown

open Text

/-- A node with notices, or an error. -/
abbrev Building := Noted NodeError

/-- Raw HTML, if it is kept. -/
def keptHtml (o : Options) (l : Leaf) : Option Node :=
  if o.preserveHtml then some (.ofLeaf l) else none

/-- The first word of a text and what stands behind the blanks after it. -/
def firstWord (s : List Char) : List Char × List Char :=
  let s := s.dropWhile isBlank
  let word := s.takeWhile fun c => !isBlank c
  (word, trim (s.drop word.length))

/-- The metadata of a code block: its info string, and what stands behind the first word. -/
def infoMetadata (info : List Char) : Metadata :=
  if info.isEmpty then []
  else
    let rest := (firstWord info).2
    (Utf16.ofString "info_string", .string (Utf16.ofChars info)) ::
      if rest.isEmpty then [] else [(Utf16.ofString "info_attrs", .string (Utf16.ofChars rest))]

/-- The language that an info string names. -/
def languageOf (info : List Char) : Building (Option String) :=
  if info.isEmpty then pure none
  else do
    let name ← (Language.sanitize (firstWord info).1).mapError Empty.elim
    return name.map String.ofList

/-- The code block of a token. Blocks without a fence count as fenced by three backticks. -/
def codeBlock (raw : String) (a : Attributes) (marker : Option String) : Building Node := do
  let info := trim (a.info.getD "").toList
  let language ← languageOf info
  let fence := match marker with
    | some m => if m = "" then "```" else m
    | none => "```"
  return .leaf (.codeBlock raw language (String.ofList (fence.toList.take 1)) fence.length)
    { metadata := infoMetadata info }

mutual
/-- The node of an inline token. -/
def inline (o : Options) : Token → Building (Option Node)
  | .mk type raw children a _ _ =>
    match type with
    | "text" => return some (.text (raw.getD ""))
    | "codespan" => return some (.ofLeaf (.code (raw.getD "")))
    | "emphasis" => return some (.ofBranch .emphasis (← inlines o children))
    | "strong" => return some (.ofBranch .strong (← inlines o children))
    | "strikethrough" => return some (.ofBranch .strikethrough (← inlines o children))
    | "link" => return some (.ofBranch (.link (a.url.getD "") a.title) (← inlines o children))
    | "image" =>
      return some (.ofLeaf (.image (a.url.getD "") (Token.flattenAll children) a.title))
    | "linebreak" => return some (.ofLeaf (.lineBreak false))
    | "softbreak" => return some (.ofLeaf (.lineBreak true))
    | "inline_html" => return keptHtml o (.htmlInline (raw.getD ""))
    | _ => return none

/-- The nodes of inline tokens. -/
def inlines (o : Options) : List Token → Building (List Node)
  | [] => return []
  | t :: rest => do
    let n ← inline o t
    let ns ← inlines o rest
    return n.toList ++ ns
end

/-- The cells among the tokens of a row. -/
def cells (o : Options) : List Token → Building (List Node)
  | [] => return []
  | .mk type _ children a _ _ :: rest => do
    if type = "table_cell" then
      let content ← inlines o children
      let others ← cells o rest
      return .ofBranch (.tableCell a.align) content :: others
    else cells o rest

/-- The rows of a table's body. -/
def bodyRows (o : Options) : List Token → Building (List Node)
  | [] => return []
  | .mk _ _ children _ _ _ :: rest => do
    let row ← cells o children
    let others ← bodyRows o rest
    return .ofBranch (.tableRow false) row :: others

/-- The alignment of a cell. -/
def alignmentOf : Node → Option String
  | .branch (.tableCell alignment) _ _ => alignment
  | _ => none

/-- The parts of a table: the cells of its last head, if it has one, and the rows of its bodies. -/
def tableParts (o : Options) : List Token → Building (Option (List Node) × List Node)
  | [] => return (none, [])
  | .mk type _ children _ _ _ :: rest =>
    match type with
    | "table_head" => do
      let head ← cells o children
      let (later, rows) ← tableParts o rest
      return (later.or (some head), rows)
    | "table_body" => do
      let rows ← bodyRows o children
      let (head, later) ← tableParts o rest
      return (head, rows ++ later)
    | _ => tableParts o rest

/-- The table of its sections. Its columns are aligned as the cells of its head. -/
def table (o : Options) (sections : List Token) : Building Node := do
  let (head, rows) ← tableParts o sections
  match head with
  | some cells =>
    return .ofBranch (.table true (cells.map alignmentOf))
      (.ofBranch (.tableRow true) cells :: rows)
  | none => return .ofBranch (.table false []) rows

/-- How a task stands, if an item is one. -/
def taskStatus (a : Attributes) : Option String :=
  a.checked.map fun checked => if checked then "checked" else "unchecked"

mutual
/-- The node of a block token. -/
def block (o : Options) : Token → Building (Option Node)
  | .mk type raw children a marker tight =>
    match type with
    | "heading" => do
      let content ← inlines o children
      match HeadingLevel.ofInt (a.level.getD 1) with
      | .ok level => return some (.ofBranch (.heading level) content)
      | .error e => .fail e
    | "paragraph" => return some (.ofBranch .paragraph (← inlines o children))
    | "block_text" => return some (.ofBranch .paragraph (← inlines o children))
    | "block_code" => return some (← codeBlock (raw.getD "") a marker)
    | "block_quote" => return some (.ofBranch .blockQuote (← blocks o children))
    | "list" => do
      let items ← listItems o children
      return some (.ofBranch (.list (a.ordered.getD false) (a.start.getD 1)
        ((tight.or a.tight).getD true)) items)
    | "table" => return some (← table o children)
    | "thematic_break" => return some (.ofLeaf .thematicBreak)
    | "block_html" => return keptHtml o (.htmlBlock (raw.getD ""))
    | _ => return none

/-- The nodes of block tokens. -/
def blocks (o : Options) : List Token → Building (List Node)
  | [] => return []
  | t :: rest => do
    let n ← block o t
    let ns ← blocks o rest
    return n.toList ++ ns

/-- The items of a list, one for each token whatever its type. -/
def listItems (o : Options) : List Token → Building (List Node)
  | [] => return []
  | .mk _ _ children a _ _ :: rest => do
    let content ← blocks o children
    let others ← listItems o rest
    return .ofBranch (.listItem (taskStatus a)) content :: others
end

end Chartdown.Markdown
