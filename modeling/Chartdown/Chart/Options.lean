import Chartdown.Text.Blank
import Chartdown.Text.Quoted

/-! # Options of charts

The marker is the word that makes a code block a chart. It can be any text that neither is blank
nor starts or ends with a blank, since other texts are never the first word of an info string.
-/

namespace Chartdown

/-- Why options are not accepted. -/
inductive OptionError
  | blankMarker
  | untrimmedMarker (marker : String)
  | blankColor
  | noLibraryUrl
  deriving DecidableEq

/-- The wording of an error. -/
def OptionError.message : OptionError → String
  | .blankMarker => "marker must be a non-empty string"
  | .untrimmedMarker marker =>
    "marker must not contain surrounding whitespace, got " ++ Text.quotedString marker
  | .blankColor => "default_color must be a non-empty string"
  | .noLibraryUrl => "allow_remote_scripts=True requires chart_library_url to be set"

namespace Chart

/-- Options of charts. -/
structure Options where
  /-- The first word of the info string that makes a code block a chart. -/
  marker : String := "vis"
  /-- The colour of text and grid lines where a description names none. -/
  defaultColor : String := "#666666"
  /-- What the identifiers of canvases start with. -/
  idPrefix : String := "chart-"
  /-- The class of the element around a canvas. -/
  cssClass : String := "mdvis-chart"
  deriving DecidableEq

/-- What keeps options from being accepted. -/
def Options.problem? (o : Options) : Option OptionError :=
  if Text.isBlankText o.marker.toList then some .blankMarker
  else if Text.trim o.marker.toList ≠ o.marker.toList then some (.untrimmedMarker o.marker)
  else if Text.isBlankText o.defaultColor.toList then some .blankColor
  else none

/-- Options that are accepted. -/
def Options.Valid (o : Options) : Prop := o.problem? = none

/-- The options, if they are accepted. -/
def Options.check (o : Options) : Except OptionError Options :=
  match o.problem? with
  | some e => .error e
  | none => .ok o

theorem Options.check_eq_ok_iff {o o' : Options} : o.check = .ok o' ↔ o.Valid ∧ o' = o := by
  simp only [check, Valid]
  cases o.problem? <;> simp [eq_comm]

theorem Options.valid_default : ({} : Options).Valid := by
  unfold Options.Valid
  decide +kernel

end Chart
end Chartdown
