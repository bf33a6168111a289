import Chartdown.Chart.Options
import Chartdown.Digest.Sha256
import Chartdown.Html.Escape
import Chartdown.Json.Encode
import Chartdown.Notice

/-! # Markup of charts

A chart is drawn by a container with a canvas, and a script that hands the canvas a configuration
once the page is read. The identifier of the canvas is made from the text of the description, so
that equal charts have equal identifiers.
-/

namespace Chartdown.Chart

open Text (Utf16)

/-- The types of chart that can be drawn. -/
inductive Kind
  | bar | line | pie
  deriving DecidableEq

/-- The name of a type in configurations. -/
def Kind.name : Kind → String
  | .bar => "bar"
  | .line => "line"
  | .pie => "pie"

/-- The name of a type in titles. -/
def Kind.title : Kind → String
  | .bar => "Bar"
  | .line => "Line"
  | .pie => "Pie"

/-- The type of chart that a layout asks for, of either case and between blanks. Everything
unknown is drawn as bars. -/
def Kind.of (layout : String) : Kind :=
  let name := (Text.trim layout.toList).map Char.toLower
  if name = "line".toList then .line
  else if name = "pie".toList then .pie
  else .bar

/-- The hue of a slice in degrees, the slices being spread evenly around the wheel. The angle
between two is rounded to a double before it is multiplied. -/
def sliceHue (count index : Nat) : Double :=
  match Double.ofRatio false 360 (max 1 count) (Nat.le_max_left 1 count) with
  | .finite step => Double.ofRatio false (step.units * index) (twoTo 1074) (twoTo_pos 1074)
  | d => d

/-- A hue as a measure. -/
def hueText : Double → List Char
  | .finite v => v.measureText
  | d => Json.doubleText d

/-- The colour of each slice of a pie. -/
def sliceColors (count : Nat) : List String :=
  (List.range count).map fun index =>
    "hsl(" ++ String.ofList (hueText (sliceHue count index)) ++ ", 70%, 60%)"

/-- Whether a text would end a declaration of a style sheet. -/
def breaksDeclaration (s : String) : Bool :=
  s.toList.any fun c => c == ';' || c == '\x7b' || c == '\x7d'

/-- The height of the container: the size hint, unless it would end its declaration. -/
def Description.height (d : Description) : String :=
  if breaksDeclaration d.sizeHint then "" else d.sizeHint

/-- The notice about a size hint that is not used. -/
def Description.heightNotices (d : Description) : List Notice :=
  if breaksDeclaration d.sizeHint then [.heightIgnored d.sizeHint] else []

/-- The first of two texts that is not empty. -/
def firstNonEmpty (s t : String) : String := if s = "" then t else s

/-- The colours of an axis. -/
def axis (color : String) (fromZero : Bool) : Json :=
  .ofMembers <|
    [("ticks", Json.ofMembers [("color", .ofString color)]),
     ("grid", Json.ofMembers [("color", .ofString color)])] ++
      (if fromZero then [("beginAtZero", .bool true)] else [])

/-- The data set of a chart. -/
def dataset (d : Description) (kind : Kind) : Json :=
  .ofMembers <|
    [("label", .ofString (firstNonEmpty d.label kind.title)),
     ("data", .array (d.points.map fun p => .number p.value)),
     ("borderWidth", .ofInt 1)] ++
      (if kind = .pie then
        [("backgroundColor", .array ((sliceColors d.points.length).map .ofString))]
      else [])

/-- The options of a chart. -/
def chartOptions (d : Description) (kind : Kind) (color : String) : Json :=
  let title := firstNonEmpty d.title d.label
  .ofMembers <|
    [("responsive", .bool true),
     ("color", .ofString color),
     ("plugins", .ofMembers
       [("title", .ofMembers
          [("display", .bool (title ≠ "")), ("text", .ofString title), ("color", .ofString color)]),
        ("legend", .ofMembers
          [("display", .bool (kind = .pie ∨ d.label ≠ "")),
           ("labels", .ofMembers [("color", .ofString color)])])])] ++
      (if d.height = "" then [] else [("maintainAspectRatio", .bool false)]) ++
      (if kind = .pie then []
       else [("scales", .ofMembers [("x", axis color false), ("y", axis color true)])])

/-- The configuration of a chart. -/
def configuration (d : Description) (o : Options) : Json :=
  let kind := Kind.of d.kind
  .ofMembers
    [("type", .ofString kind.name),
     ("data", .ofMembers
       [("labels", .array (d.points.map fun p => p.key.toJson)),
        ("datasets", .array [dataset d kind])]),
     ("options", chartOptions d kind (firstNonEmpty d.colorHint o.defaultColor))]

/-- The style of the container. -/
def containerStyle (d : Description) : String :=
  "position: relative;" ++ (if d.height = "" then "" else " height: " ++ d.height ++ ";")

/-- The container with the canvas. -/
def container (id : String) (d : Description) (o : Options) : String :=
  "<div class=\"" ++ Html.escape o.cssClass ++ "\" style=\"" ++ Html.escape (containerStyle d) ++
    "\"><canvas id=\"" ++ Html.escape id ++ "\"></canvas></div>"

/-- A character of JSON inside a script. The three that could end the script or start an entity
are written as escapes. -/
def scriptChar (c : Char) : List Char :=
  if c = '<' then "\\u003c".toList
  else if c = '>' then "\\u003e".toList
  else if c = '&' then "\\u0026".toList
  else [c]

/-- A value as a literal of a script. Numbers without a value have none. -/
def scriptLiteral (v : Json) : Except Json.EncodeError (List Char) :=
  (Json.encode false v).map fun s => s.flatMap scriptChar

/-- The script around the literals of the identifier and the configuration. -/
def scriptAround (id config : List Char) : String :=
  "<script>\n" ++
  "(function () \x7b\n" ++
  "  function draw() \x7b\n" ++
  "    var canvas = document.getElementById(" ++ String.ofList id ++ ");\n" ++
  "    if (!canvas) \x7b\n" ++
  "      return;\n" ++
  "    \x7d\n" ++
  "    new Chart(canvas.getContext(\"2d\"), " ++ String.ofList config ++ ");\n" ++
  "  \x7d\n" ++
  "  if (document.readyState === \"loading\") \x7b\n" ++
  "    document.addEventListener(\"DOMContentLoaded\", draw);\n" ++
  "  \x7d else \x7b\n" ++
  "    draw();\n" ++
  "  \x7d\n" ++
  "\x7d)();\n" ++
  "</script>"

/-- The script that draws a chart. -/
def script (id : String) (d : Description) (o : Options) : Except Json.EncodeError String :=
  match scriptLiteral (.ofString id) with
  | .error e => .error e
  | .ok idLiteral =>
    match scriptLiteral (configuration d o) with
    | .error e => .error e
    | .ok configLiteral => .ok (scriptAround idLiteral configLiteral)

/-- The container and the script of a chart. A size hint that is not used is noted for either. -/
def markup (id : String) (d : Description) (o : Options) : Noted Json.EncodeError String where
  notices := d.heightNotices ++ d.heightNotices
  result := (script id d o).map fun s => container id d o ++ s

/-- The identifier of the canvas for a text. -/
def canvasId (idPrefix : String) (text : String) : String :=
  idPrefix ++ String.ofList (Digest.sha256 text.toUTF8.toList)

/-- Why a text is not drawn as a chart. -/
inductive DrawError
  | description (error : Error)
  | encoding (error : Json.EncodeError)
  deriving DecidableEq

/-- Draw the chart that a text describes. An empty text is drawn as nothing. -/
def draw (text : String) (o : Options) : Noted DrawError String :=
  if text = "" then pure ""
  else match Description.parse text.toList with
    | .error e => .fail (.description e)
    | .ok d => (markup (canvasId o.idPrefix text) d o).mapError .encoding

end Chartdown.Chart
