import Chartdown.Chart.DataText
import Chartdown.Chart.Point
import Chartdown.Text.Lines

/-! # Chart descriptions

A chart is described by lines. A line `name: value` sets a scalar field, and the last line of a
name counts. A line `data:` starts the data array, which runs over as many lines as it takes for
its square brackets to close; brackets inside quotes do not count. Lines inside the array are data
whatever they look like. Lines behind it that are no fields are kept with the data, so that they
make it unreadable and are not passed over in silence.
-/

namespace Chartdown.Chart

open Text

/-- The scalar fields of a description. -/
inductive Field
  | layout | height | label | title | color
  deriving DecidableEq

/-- The name of a field. -/
def Field.name : Field → List Char
  | .layout => "layout".toList
  | .height => "height".toList
  | .label => "label".toList
  | .title => "title".toList
  | .color => "color".toList

/-- All fields. -/
def Field.all : List Field := [.layout, .height, .label, .title, .color]

/-- The value of each field, empty where no line sets it. -/
abbrev Fields := Field → List Char

/-- Set a field. -/
def Fields.set (fields : Fields) (field : Field) (value : List Char) : Fields :=
  fun f => if f = field then value else fields f

/-- Where a reader of an array stands: how many brackets are open, whether one was opened at all,
and, inside a string, its quote and whether the next character is escaped. -/
structure Nesting where
  depth : Int := 0
  opened : Bool := false
  inside : Option (Char × Bool) := none
  deriving DecidableEq

/-- Read one character. -/
def Nesting.step (n : Nesting) (c : Char) : Nesting :=
  match n.inside with
  | some (quote, true) => { n with inside := some (quote, false) }
  | some (quote, false) =>
    if c = '\\' then { n with inside := some (quote, true) }
    else if c = quote then { n with inside := none }
    else n
  | none =>
    if c = '\'' ∨ c = '"' then { n with inside := some (c, false) }
    else if c = '[' then { n with depth := n.depth + 1, opened := true }
    else if c = ']' then { n with depth := n.depth - 1 }
    else n

/-- Read a text. -/
def Nesting.read (n : Nesting) (s : List Char) : Nesting := s.foldl Nesting.step n

/-- Whether the array is complete. -/
def Nesting.closed (n : Nesting) : Bool := n.opened && decide (n.depth ≤ 0)

/-- What a line outside an open array is. -/
inductive LineKind
  | scalar (field : Field) (value : List Char)
  | data (start : List Char)
  | other
  deriving DecidableEq

/-- The field that a line sets, and its value. -/
def scalarLine? (line : List Char) : Option (Field × List Char) :=
  Field.all.findSome? fun f =>
    if (f.name ++ [':']).isPrefixOf line then some (f, trim (line.drop (f.name.length + 1)))
    else none

/-- How a data line starts. -/
def dataMark : List Char := "data:".toList

/-- Tell what a line is. Of a data line, the text counts from its first square bracket on. -/
def LineKind.of (line : List Char) : LineKind :=
  match scalarLine? line with
  | some (f, v) => .scalar f v
  | none =>
    if dataMark.isPrefixOf line then .data ((line.drop dataMark.length).dropWhile (· != '['))
    else .other

/-- What was gathered from the lines of a description. -/
structure Outline where
  /-- The scalar fields. -/
  fields : Fields := fun _ => []
  /-- Whether there was a data line. -/
  inData : Bool := false
  /-- The lines of the data, the last one first. -/
  dataLines : List (List Char) := []
  /-- Where the reader of the data stands. -/
  nesting : Nesting := {}

/-- Add a line to the data and read it. -/
def Outline.addData (o : Outline) (line : List Char) : Outline :=
  { o with dataLines := line :: o.dataLines, nesting := o.nesting.read line }

/-- Whether lines belong to the data whatever they look like. -/
def Outline.isOpen (o : Outline) : Bool := o.inData && !o.nesting.closed

/-- Take in one trimmed line. -/
def Outline.addLine (o : Outline) (line : List Char) : Outline :=
  if o.isOpen then o.addData line
  else match LineKind.of line with
    | .scalar f v => { o with fields := o.fields.set f v }
    | .data start =>
      let o := { o with inData := true }
      if start.isEmpty then o else o.addData start
    | .other =>
      if o.inData && !line.isEmpty then { o with dataLines := line :: o.dataLines } else o

/-- The lines of a text: cut at line feeds, without blanks at their ends, and without blank lines
before the first and after the last. -/
def trimmedLines (s : List Char) : List (List Char) := (cutAt '\n' (trim s)).map trim

/-- The outline of a text. -/
def Outline.of (s : List Char) : Outline := (trimmedLines s).foldl Outline.addLine {}

/-- The text of the data, without blanks at its ends. -/
def Outline.dataText (o : Outline) : List Char := trim (['\n'].intercalate o.dataLines.reverse)

/-- A chart as its author describes it. -/
structure Description where
  kind : String
  points : List Point
  keysAreNumeric : Bool := false
  sizeHint : String := ""
  label : String := ""
  title : String := ""
  colorHint : String := ""
  deriving DecidableEq

/-- Why a text describes no chart. -/
inductive Error
  | missingLayout
  | missingData
  | malformedData (cause : DataError)
  deriving DecidableEq

/-- The wording of an error. -/
def Error.message : Error → String
  | .missingLayout => "layout not found"
  | .missingData => "data not found"
  | .malformedData cause => "failed to parse chart data: " ++ cause.message

/-- The description that an outline amounts to. -/
def Outline.describe (o : Outline) : Except Error Description :=
  if o.fields .layout = [] then .error .missingLayout
  else if o.dataText = [] then .error .missingData
  else match decodePoints (DataText.normalize o.dataText) with
    | .error cause => .error (.malformedData cause)
    | .ok points => .ok {
        kind := String.ofList (o.fields .layout)
        points
        keysAreNumeric := points.all (·.key.isNumeric)
        sizeHint := String.ofList (o.fields .height)
        label := String.ofList (o.fields .label)
        title := String.ofList (o.fields .title)
        colorHint := String.ofList (o.fields .color) }

/-- The chart that a text describes. -/
def Description.parse (s : List Char) : Except Error Description := (Outline.of s).describe

end Chartdown.Chart
