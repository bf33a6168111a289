import Chartdown.Html.Page

/-! # Renderers

A renderer goes through a document and adds to its output. It can be used for one document after
the other: each call starts it anew. A call may fail halfway, and then the renderer is left with
what it had written so far.

Inline content is written into an output of its own and handed to the node around it as a text.
-/

namespace Chartdown.Html

/-- A renderer: the pieces it has written, and what it knows of the nodes before. -/
structure Renderer where
  output : List String := []
  progress : Progress := {}

/-- The text a renderer has written. -/
def Renderer.text (r : Renderer) : String := String.join r.output

/-- What a step comes to. It leaves a renderer behind also when it fails. -/
structure Emitted (α : Type) where
  notices : List Notice
  result : Except RenderError α
  renderer : Renderer

/-- What a caller is told of a step. -/
def Emitted.told (e : Emitted α) : Noted RenderError α := ⟨e.notices, e.result⟩

/-- A step of a renderer. -/
def Emission (α : Type) := Renderer → Emitted α

namespace Emission

/-- Go on with a result, if there is one. -/
protected def bind (e : Emission α) (f : α → Emission β) : Emission β := fun r =>
  let first := e r
  match first.result with
  | .error error => ⟨first.notices, .error error, first.renderer⟩
  | .ok a =>
    let next := f a first.renderer
    ⟨first.notices ++ next.notices, next.result, next.renderer⟩

instance : Monad Emission where
  pure a := fun r => ⟨[], .ok a, r⟩
  bind := Emission.bind

/-- A failure. -/
def fail (error : RenderError) : Emission α := fun r => ⟨[], .error error, r⟩

/-- Start anew. -/
def reset : Emission Unit := fun _ => ⟨[], .ok (), {}⟩

/-- Add a text to the output. -/
def write (text : String) : Emission Unit := fun r =>
  ⟨[], .ok (), { r with output := r.output ++ [text] }⟩

/-- The text of the output. -/
def written : Emission String := fun r => ⟨[], .ok r.text, r⟩

/-- Take a step that reads and updates what is known, and writes nothing. -/
def perform (step : Rendering α) : Emission α := fun r =>
  let done := step r.progress
  match done.result with
  | .ok (a, progress) => ⟨done.notices, .ok a, { r with progress }⟩
  | .error error => ⟨done.notices, .error error, r⟩

/-- What a step writes, as a text. The step gets an output of its own, and the one from before is put
back behind it, also when it fails. -/
def capture (e : Emission Unit) : Emission String := fun r =>
  let inner := e { r with output := [] }
  ⟨inner.notices, inner.result.map fun _ => inner.renderer.text,
    { inner.renderer with output := r.output }⟩

end Emission

open Emission

/-- A node without children. -/
def visitLeaf (o : Options) : Leaf → Emission Unit
  | .chartBlock lines => do
    let markup ← perform (chartBlock o (String.join lines))
    if markup = "" then pure () else write markup
  | .htmlBlock html =>
    if html = "" then pure () else write (if html.endsWith "\n" then html else html ++ "\n")
  | l => do write (← perform (renderLeaf o l))

mutual
/-- A node. Rows and cells are written by their table alone. -/
def visit (o : Options) : Node → Emission Unit
  | .leaf l _ => visitLeaf o l
  | .branch .document cs _ => visitAll o cs
  | .branch (.heading level) cs _ => do
    let anchor ← perform (openHeading (Node.plainTextOfAll "" cs))
    let inner ← capture (visitAll o cs)
    write ("<h" ++ level.val.repr ++ " id=\"" ++ anchor ++ "\">" ++ inner ++ "</h" ++
      level.val.repr ++ ">\n")
  | .branch .paragraph cs _ => do write (tagged "p" (← capture (visitAll o cs)) ++ "\n")
  | .branch .blockQuote cs _ => do
    write "<blockquote>\n"
    visitAll o cs
    write "</blockquote>\n"
  | .branch (.list ordered start _) cs _ => do
    let tag := if ordered then "ol" else "ul"
    let first := if ordered && start != 1 then
      attributeText "start" (some (String.ofList (integerText start))) else ""
    write ("<" ++ tag ++ first ++ ">\n")
    visitAll o cs
    write ("</" ++ tag ++ ">\n")
  | .branch (.listItem task) cs _ => do
    write "<li>"
    match task with
    | none => visitAll o cs
    | some status =>
      if status = "" then visitAll o cs
      else do
        let box ← perform (taskBox status)
        visitTask o box cs
    write "</li>\n"
  | .branch (.table headed alignments) cs _ => do
    write "<table>\n"
    visitTable o headed alignments cs
    write "</table>\n"
  | .branch (.tableRow _) _ _ => pure ()
  | .branch (.tableCell _) _ _ => pure ()
  | .branch .emphasis cs _ => do write (tagged "em" (← capture (visitAll o cs)))
  | .branch .strong cs _ => do write (tagged "strong" (← capture (visitAll o cs)))
  | .branch (.link url title) cs _ => do
    let inner ← capture (visitAll o cs)
    write ("<a href=\"" ++ escape url ++ "\"" ++ attributeText "title" (title.map escape) ++ ">" ++
      inner ++ "</a>")
  | .branch .strikethrough cs _ => do write (tagged "del" (← capture (visitAll o cs)))

/-- Some nodes, one after the other. -/
def visitAll (o : Options) : List Node → Emission Unit
  | [] => pure ()
  | n :: rest => do
    visit o n
    visitAll o rest

/-- The blocks of a task, its box in front or in the first paragraph. -/
def visitTask (o : Options) (box : String) : List Node → Emission Unit
  | [] => write box
  | .branch .paragraph cs _ :: rest => do
    write (tagged "p" (box ++ (← capture (visitAll o cs))) ++ "\n")
    visitAll o rest
  | block :: rest => do
    write box
    visit o block
    visitAll o rest

/-- The head and the body of a table. -/
def visitTable (o : Options) (headed : Bool) (alignments : List (Option String)) :
    List Node → Emission Unit
  | [] => pure ()
  | row :: rows => do
    if headed then
      let head ← rowText o "th" alignments row
      write ("<thead>\n" ++ head ++ "</thead>\n")
      let body ← rowsText o alignments rows
      if rows.isEmpty then pure () else write ("<tbody>\n" ++ body ++ "</tbody>\n")
    else
      let first ← rowText o "td" alignments row
      let others ← rowsText o alignments rows
      write ("<tbody>\n" ++ (first ++ others) ++ "</tbody>\n")

/-- Rows of the body. -/
def rowsText (o : Options) (alignments : List (Option String)) : List Node → Emission String
  | [] => pure ""
  | row :: rows => do
    let first ← rowText o "td" alignments row
    let others ← rowsText o alignments rows
    return first ++ others

/-- A row. Nothing else in a table has cells. -/
def rowText (o : Options) (tag : String) (alignments : List (Option String)) :
    Node → Emission String
  | .leaf l _ => fail (.rowKind l.kind)
  | .branch b cells _ =>
    match b with
    | .tableRow _ => do return tagged "tr" (← cellsText o tag alignments cells) ++ "\n"
    | b => fail (.rowKind b.kind)

/-- The cells of a row, each with the style of its column. -/
def cellsText (o : Options) (tag : String) (alignments : List (Option String)) :
    List Node → Emission String
  | [] => pure ""
  | cell :: cells => do
    let first ← cellText o tag (cellStyle alignments) cell
    let others ← cellsText o tag alignments.tail cells
    return first ++ others

/-- A cell. Any node with inline children is written like one. -/
def cellText (o : Options) (tag style : String) : Node → Emission String
  | .leaf l _ =>
    match l with
    | .codeBlock s _ _ _ | .htmlBlock s | .text s | .code s | .htmlInline s =>
      if s = "" then pure ("<" ++ tag ++ style ++ "></" ++ tag ++ ">") else fail .cellText
    | l => fail (.cellKind l.kind)
  | .branch b cs _ =>
    match b with
    | .heading _ | .paragraph | .tableCell _ | .emphasis | .strong | .link .. | .strikethrough => do
      return "<" ++ tag ++ style ++ ">" ++ (← capture (visitAll o cs)) ++ "</" ++ tag ++ ">"
    | b => fail (.cellKind b.kind)
end

/-- Write some blocks behind what is there, and return all that was written. -/
def accumulate (o : Options) (blocks : List Node) : Emission String := do
  visitAll o blocks
  written

/-- What was written as a part of a page or as a whole one. -/
def finished (o : Options) (i : Info) : Emission String := do
  let body := dropFinalFeeds (← written)
  if o.standalone then perform fun p => do return (← page o i p body, p)
  else return body

/-- Write a document. Whatever the renderer wrote before is gone. -/
def renderToString (o : Options) (doc : Node) : Emission String := do
  reset
  visit o doc
  finished o doc.info

/-- Write documents one after the other with one renderer. -/
def renderEach (o : Options) (r : Renderer) : List Node → List (Noted RenderError String)
  | [] => []
  | doc :: docs =>
    let call := renderToString o doc r
    call.told :: renderEach o call.renderer docs

end Chartdown.Html
