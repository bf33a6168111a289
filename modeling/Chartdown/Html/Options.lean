import Chartdown.Chart.Options

/-! # Options of HTML

Pages may load the chart library from a server only if its address is given.
-/

namespace Chartdown.Html

/-- How documents are written as HTML. -/
structure Options where
  /-- Write a whole page and not a part of one. -/
  standalone : Bool := false
  /-- Give code blocks a class for their language. -/
  syntaxHighlighting : Bool := true
  /-- Escape texts and code. -/
  escapeHtml : Bool := true
  /-- The language of pages that name none. -/
  language : String := "en"
  /-- Load the chart library in pages with charts. -/
  allowRemoteScripts : Bool := false
  /-- The address of the chart library. -/
  chartLibraryUrl : String := "https://cdn.jsdelivr.net/npm/chart.js"
  /-- Fail at a chart that cannot be read, where it is else left out. -/
  failOnChartErrors : Bool := false
  /-- How charts are drawn. -/
  chart : Chart.Options := {}
  deriving DecidableEq

/-- What keeps options from being accepted. The options of charts are checked on their own. -/
def Options.problem? (o : Options) : Option OptionError :=
  if o.allowRemoteScripts ∧ o.chartLibraryUrl = "" then some .noLibraryUrl else none

/-- Options that are accepted. -/
def Options.Valid (o : Options) : Prop := o.problem? = none ∧ o.chart.Valid

/-- The options, if they are accepted. -/
def Options.check (o : Options) : Except OptionError Options :=
  match o.problem? with
  | some e => .error e
  | none => .ok o

end Chartdown.Html
