import Chartdown.Markdown.Document
import Chartdown.Source
import Chartdown.Transform.Pipeline

/-! # Conversion

From a source of Markdown to a document, and on to HTML. Charts are drawn unless the caller names
other stages.

* `toDocument_nil`  a document that no stage changes is the one that is read
-/

namespace Chartdown

open Markdown Transform

/-- The document of a source. -/
def readDocument (o : Markdown.Options) (source : Source) : Noted Failure Node := do
  let text ← .ofExcept (source.load.mapError (·.failure))
  (document o text).mapError fun e => (PipelineError.node e).failure

/-- The document of a source after some stages. -/
def toDocument (o : Markdown.Options) (stages : List Stage) (source : Source) :
    Noted Failure Node := do
  let doc ← readDocument o source
  if stages.isEmpty then return doc
  else (apply {} stages doc).2.mapError (·.failure)

theorem toDocument_nil (o : Markdown.Options) (source : Source) :
    toDocument o [] source = readDocument o source := by
  exact Noted.bind_pure _

/-- The stages of a conversion to HTML that names none. -/
def defaultStages : List Stage := [.named chartBlocks.name]

/-- The stages of a conversion to HTML. The selection of chart blocks is bound to a marker. -/
def boundStages (marker : String) (stages : Option (List Stage)) : List Stage :=
  (stages.getD defaultStages).map (·.withMarker marker)

/-- The HTML of a source after some stages, whose names are looked up in a registry. Chart blocks
have the marker that the options of charts tell. -/
def toHtmlIn (r : Registry) (parsing : Markdown.Options) (writing : Html.Options)
    (stages : Option (List Stage)) (source : Source) : Noted Failure String := do
  let doc ← readDocument parsing source
  (render r (boundStages writing.chart.marker stages) writing doc).2

/-- The HTML of a source after some stages, where nothing was registered before. -/
def toHtml (parsing : Markdown.Options) (writing : Html.Options) (stages : Option (List Stage))
    (source : Source) : Noted Failure String :=
  toHtmlIn {} parsing writing stages source

end Chartdown
