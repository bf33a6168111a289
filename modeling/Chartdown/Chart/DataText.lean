import Chartdown.Text.Blank
import Chartdown.Text.Replace
import Chartdown.Text.Word

/-! # The lenient dialect of chart data

Chart data is written as JSON with some liberties: the outer brackets may be left out, the names
`key` and `value` may stand without quotes, quotes may be single, and a comma may stand before a
closing brace or bracket. Four rules, applied one after the other, make JSON of it.
-/

namespace Chartdown.Chart.DataText

open Text

/-- Put the text between one pair of square brackets. One closing bracket at the end is taken as
the outer one, so that a text that lacks it is read alike. -/
def rewrapBrackets (s : List Char) : List Char :=
  let s := trim s
  let s := trim (if s.getLast? = some ']' then s.dropLast else s)
  (if s.head? = some '[' then s else '[' :: s) ++ [']']

/-- The names of the fields of a point. -/
def fieldNames : List (List Char) := ["key".toList, "value".toList]

/-- Whether a name may start behind a character: it does not in a word or behind a quote. -/
def startsName (before : Option Char) : Bool :=
  before.all fun c => !(isWord c || c == '"' || c == '\'')

/-- Blanks at the ends make no difference. -/
theorem rewrapBrackets_trim (s : List Char) : rewrapBrackets (trim s) = rewrapBrackets s := by
  simp only [rewrapBrackets, trim_trim]

/-- A name without quotes and its colon are written with quotes and without blanks. -/
def bareName (name : List Char) : Rule := fun before s =>
  if startsName before && name.isPrefixOf s then
    let rest := s.drop name.length
    let blanks := rest.takeWhile isBlank
    if (rest.drop blanks.length).head? = some ':' then
      some ⟨'"' :: name ++ ['"', ':'], name.length + blanks.length⟩
    else none
  else none

/-- The rule for every field name. -/
def bareFieldName : Rule := fun before s => fieldNames.findSome? fun name => bareName name before s

/-- Put quotes around field names that stand without. -/
def quoteBareNames (s : List Char) : List Char := replace bareFieldName s

/-- Make every single quote a double quote. -/
def convertSingleQuotes (s : List Char) : List Char := s.map fun c => if c = '\'' then '"' else c

/-- A comma and the blanks behind it are dropped before a closing brace or bracket. -/
def idleComma : Rule := fun _ s =>
  match s with
  | ',' :: rest =>
    let blanks := rest.takeWhile isBlank
    match (rest.drop blanks.length).head? with
    | some c => if c = '\x7d' ∨ c = ']' then some ⟨[], blanks.length⟩ else none
    | none => none
  | _ => none

/-- Drop the commas that stand before a closing brace or bracket. -/
def dropIdleCommas (s : List Char) : List Char := replace idleComma s

/-- The JSON that a text in the dialect stands for. -/
def normalize (s : List Char) : List Char :=
  dropIdleCommas (convertSingleQuotes (quoteBareNames (rewrapBrackets s)))

theorem normalize_trim (s : List Char) : normalize (trim s) = normalize s := by
  rw [normalize, rewrapBrackets_trim, normalize]

end Chartdown.Chart.DataText
