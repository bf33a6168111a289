import Chartdown.Failure
import Chartdown.Html.Render
import Chartdown.Json.Display
import Chartdown.Tree.Json

/-! # Pages

A document is written as a part of a page or as a whole one. A page takes its title from the
document's metadata, else from the first heading with a text, and it loads the chart library where
charts were drawn and the options allow it.
-/

namespace Chartdown.Html

/-- An entry of a document's metadata, if it is given. -/
def metadataText? (name : String) (i : Info) : Option String :=
  let v := Json.get name i.metadata
  if v.isGiven then some v.display else none

/-- The title of a page. -/
def pageTitle (i : Info) (p : Progress) : String :=
  ((metadataText? "title" i).or p.title).getD "Document"

/-- The language of a page. -/
def pageLanguage (o : Options) (i : Info) : String := (metadataText? "language" i).getD o.language

/-- The line of a page's head that loads the chart library. -/
def libraryLine (o : Options) : String :=
  "<script src=\"" ++ escape o.chartLibraryUrl ++ "\"></script>\n"

/-- The page around a body. -/
def page (o : Options) (i : Info) (p : Progress) (body : String) : Noted RenderError String where
  notices := if p.charts ≠ 0 ∧ ¬ o.allowRemoteScripts then [.libraryMissing p.charts] else []
  result := .ok <|
    "<!DOCTYPE html>\n" ++
    "<html lang=\"" ++ escape (pageLanguage o i) ++ "\">\n" ++
    "<head>\n" ++
    "<meta charset=\"UTF-8\">\n" ++
    "<meta name=\"viewport\" content=\"width=device-width, initial-scale=1.0\">\n" ++
    "<title>" ++ escape (pageTitle i p) ++ "</title>\n" ++
    (if p.charts ≠ 0 ∧ o.allowRemoteScripts then libraryLine o else "") ++
    "</head>\n" ++
    "<body>\n" ++ body ++ "\n</body>\n" ++
    "</html>"

/-- A text without the line feeds at its end. -/
def dropFinalFeeds (s : String) : String :=
  String.ofList (Text.dropEndWhile (· == '\n') s.toList)

/-- A document as HTML. -/
def renderDocument (o : Options) (doc : Node) : Noted RenderError String := do
  let (body, p) ← (render o doc).run {}
  let body := dropFinalFeeds body
  if o.standalone then page o doc.info p body else pure body

/-- What keeps a document from being written as a failure. -/
def RenderError.failure (e : RenderError) : Failure :=
  match e with
  | .chart error => .rendering e.message (some "chart") (some (.chart error))
  | .encoding _ => .plain .value e.message
  | .taskStatus _ => .plain .key e.message
  | .cellText | .cellKind _ | .rowKind _ => .plain .attribute e.message

end Chartdown.Html
