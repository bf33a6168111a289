import Chartdown.Chart.Markup
import Chartdown.Html.Options
import Chartdown.Html.Slug
import Chartdown.Tree.Collect

/-! # Writing documents as HTML

Every node is written on its own, and a document is its blocks one after the other. What passes
from one node to the next is small: the anchors in use, the first heading with a text, and how many
charts were drawn.
-/

namespace Chartdown.Html

/-- What a renderer knows of the nodes before. -/
structure Progress where
  /-- The anchors in use, the last one first. -/
  anchors : List String := []
  /-- The text of the first heading that is not blank. -/
  title : Option String := none
  /-- The charts drawn. -/
  charts : Nat := 0

/-- Why a document cannot be written. -/
inductive RenderError
  | chart (error : Chart.Error)
  | encoding (error : Json.EncodeError)
  | taskStatus (status : String)
  | cellText
  | cellKind (kind : NodeKind)
  | rowKind (kind : NodeKind)
  deriving DecidableEq

/-- The wording of an error. -/
def RenderError.message : RenderError → String
  | .chart error => "Failed to render chart block: " ++ error.message
  | .encoding error => error.message
  | .taskStatus status => status
  | .cellText => "'str' object has no attribute 'accept'"
  | .cellKind kind => "'" ++ kind.title ++ "' object has no attribute 'content'"
  | .rowKind kind => "'" ++ kind.title ++ "' object has no attribute 'cells'"

/-- A step of writing: it may give notices, and it fails or goes on from what is known. -/
abbrev Rendering := StateT Progress (Noted RenderError)

/-- The length of anchors. -/
def anchorLength : Int := 50

/-- Take note of a heading's text, and choose its anchor. -/
def openHeading (text : String) : Rendering String := fun p =>
  let trimmed := Text.trimmed text
  let (anchor, anchors) := Slug.claim anchorLength text p.anchors
  pure (anchor,
    { p with anchors, title := if p.title.isNone && trimmed ≠ "" then some trimmed else p.title })

/-- Draw a chart block. A description that cannot be read is left out with a notice, or it is a
failure, as the options say. -/
def chartBlock (o : Options) (text : String) : Rendering String := fun p =>
  let drawn := Chart.draw text o.chart
  match drawn.result with
  | .ok html =>
    if html = "" then ⟨drawn.notices, .ok ("", p)⟩
    else ⟨drawn.notices, .ok (html ++ "\n", { p with charts := p.charts + 1 })⟩
  | .error (.description e) =>
    if o.failOnChartErrors then ⟨drawn.notices, .error (.chart e)⟩
    else ⟨drawn.notices ++ [.chartSkipped e], .ok ("", p)⟩
  | .error (.encoding e) => ⟨drawn.notices, .error (.encoding e)⟩

/-- A text as the options say. -/
def content (o : Options) (s : String) : String := if o.escapeHtml then escape s else s

/-- Put a text between two tags. -/
def tagged (tag inner : String) : String := "<" ++ tag ++ ">" ++ inner ++ "</" ++ tag ++ ">"

/-- An attribute with a quoted value, if there is a value that is not empty. -/
def attributeText (name : String) : Option String → String
  | some value => if value = "" then "" else " " ++ name ++ "=\"" ++ value ++ "\""
  | none => ""

/-- The class of a code block. -/
def languageClass (o : Options) (language : Option String) : String :=
  match language with
  | some l =>
    if l ≠ "" ∧ o.syntaxHighlighting then attributeText "class" (some ("language-" ++ escape l)) else ""
  | none => ""

/-- The box in front of a task. -/
def taskBox (status : String) : Rendering String :=
  if status = "checked" then pure "&#9745; "
  else if status = "unchecked" then pure "&#9744; "
  else fun _ => .fail (.taskStatus status)

/-- The style of a cell in a column. -/
def cellStyle (alignments : List (Option String)) : String :=
  match alignments.head? with
  | some (some align) => if align = "" then "" else " style=\"text-align: " ++ align ++ "\""
  | _ => ""

/-- A node without children. -/
def renderLeaf (o : Options) : Leaf → Rendering String
  | .codeBlock text language _ _ =>
    pure ("<pre><code" ++ languageClass o language ++ ">" ++ content o text ++ "</code></pre>\n")
  | .chartBlock lines => chartBlock o (String.join lines)
  | .thematicBreak => pure "<hr>\n"
  | .htmlBlock html =>
    pure (if html = "" then "" else if html.endsWith "\n" then html else html ++ "\n")
  | .text s => pure (content o s)
  | .code s => pure (tagged "code" (content o s))
  | .image url alt title =>
    pure ("<img src=\"" ++ escape url ++ "\" alt=\"" ++ escape alt ++ "\"" ++
      attributeText "title" (title.map escape) ++ ">")
  | .lineBreak soft => pure (if soft then "\n" else "<br>\n")
  | .htmlInline html => pure html

mutual
/-- A node. Rows and cells are written by their table alone. -/
def render (o : Options) : Node → Rendering String
  | .leaf l _ => renderLeaf o l
  | .branch .document cs _ => renderAll o cs
  | .branch (.heading level) cs _ => do
    let anchor ← openHeading (Node.plainTextOfAll "" cs)
    let inner ← renderAll o cs
    return "<h" ++ level.val.repr ++ " id=\"" ++ anchor ++ "\">" ++ inner ++ "</h" ++
      level.val.repr ++ ">\n"
  | .branch .paragraph cs _ => return tagged "p" (← renderAll o cs) ++ "\n"
  | .branch .blockQuote cs _ =>
    return "<blockquote>\n" ++ (← renderAll o cs) ++ "</blockquote>\n"
  | .branch (.list ordered start _) cs _ => do
    let tag := if ordered then "ol" else "ul"
    let first := if ordered && start != 1 then
      attributeText "start" (some (String.ofList (integerText start))) else ""
    return "<" ++ tag ++ first ++ ">\n" ++ (← renderAll o cs) ++ "</" ++ tag ++ ">\n"
  | .branch (.listItem task) cs _ =>
    match task with
    | none => return "<li>" ++ (← renderAll o cs) ++ "</li>\n"
    | some status =>
      if status = "" then return "<li>" ++ (← renderAll o cs) ++ "</li>\n"
      else do
        let box ← taskBox status
        return "<li>" ++ (← renderTask o box cs) ++ "</li>\n"
  | .branch (.table headed alignments) cs _ =>
    return "<table>\n" ++ (← renderTable o headed alignments cs) ++ "</table>\n"
  | .branch (.tableRow _) _ _ => return ""
  | .branch (.tableCell _) _ _ => return ""
  | .branch .emphasis cs _ => return tagged "em" (← renderAll o cs)
  | .branch .strong cs _ => return tagged "strong" (← renderAll o cs)
  | .branch (.link url title) cs _ => do
    let inner ← renderAll o cs
    return "<a href=\"" ++ escape url ++ "\"" ++ attributeText "title" (title.map escape) ++ ">" ++
      inner ++ "</a>"
  | .branch .strikethrough cs _ => return tagged "del" (← renderAll o cs)

/-- Some nodes, one after the other. -/
def renderAll (o : Options) : List Node → Rendering String
  | [] => return ""
  | n :: rest => do
    let first ← render o n
    let others ← renderAll o rest
    return first ++ others

/-- The blocks of a task, its box in front. The box goes into the first paragraph, if the task
starts with one. -/
def renderTask (o : Options) (box : String) : List Node → Rendering String
  | [] => return box
  | .branch .paragraph cs _ :: rest => do
    let inner ← renderAll o cs
    let others ← renderAll o rest
    return tagged "p" (box ++ inner) ++ "\n" ++ others
  | block :: rest => do
    let first ← render o block
    let others ← renderAll o rest
    return box ++ first ++ others

/-- The head and the body of a table. -/
def renderTable (o : Options) (headed : Bool) (alignments : List (Option String)) :
    List Node → Rendering String
  | [] => return ""
  | row :: rows => do
    if headed then
      let head ← renderRow o "th" alignments row
      let body ← renderRows o alignments rows
      return "<thead>\n" ++ head ++ "</thead>\n" ++
        (if rows.isEmpty then "" else "<tbody>\n" ++ body ++ "</tbody>\n")
    else
      let first ← renderRow o "td" alignments row
      let others ← renderRows o alignments rows
      return "<tbody>\n" ++ (first ++ others) ++ "</tbody>\n"

/-- Rows of the body. -/
def renderRows (o : Options) (alignments : List (Option String)) : List Node → Rendering String
  | [] => return ""
  | row :: rows => do
    let first ← renderRow o "td" alignments row
    let others ← renderRows o alignments rows
    return first ++ others

/-- A row. Nothing else in a table has cells. -/
def renderRow (o : Options) (tag : String) (alignments : List (Option String)) :
    Node → Rendering String
  | .leaf l _ => fun _ => .fail (.rowKind l.kind)
  | .branch b cells _ =>
    match b with
    | .tableRow _ => return tagged "tr" (← renderCells o tag alignments cells) ++ "\n"
    | b => fun _ => .fail (.rowKind b.kind)

/-- The cells of a row, each with the style of its column. -/
def renderCells (o : Options) (tag : String) (alignments : List (Option String)) :
    List Node → Rendering String
  | [] => return ""
  | cell :: cells => do
    let first ← renderCell o tag (cellStyle alignments) cell
    let others ← renderCells o tag alignments.tail cells
    return first ++ others

/-- A cell. Any node with inline children is written like one. -/
def renderCell (o : Options) (tag style : String) : Node → Rendering String
  | .leaf l _ =>
    match l with
    | .codeBlock s _ _ _ | .htmlBlock s | .text s | .code s | .htmlInline s =>
      if s = "" then return "<" ++ tag ++ style ++ "></" ++ tag ++ ">" else fun _ => .fail .cellText
    | l => fun _ => .fail (.cellKind l.kind)
  | .branch b cs _ =>
    match b with
    | .heading _ | .paragraph | .tableCell _ | .emphasis | .strong | .link .. | .strikethrough =>
      return "<" ++ tag ++ style ++ ">" ++ (← renderAll o cs) ++ "</" ++ tag ++ ">"
    | b => fun _ => .fail (.cellKind b.kind)
end

end Chartdown.Html
