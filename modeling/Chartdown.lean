import Chartdown.Text.Blank
import Chartdown.Text.Digit
import Chartdown.Text.Word
import Chartdown.Text.Printable
import Chartdown.Text.Letter
import Chartdown.Text.Lines
import Chartdown.Text.Utf16
import Chartdown.Number.Power
import Chartdown.Number.Double
import Chartdown.Number.Shortest
import Chartdown.Json.Encode
import Chartdown.Json.Display
import Chartdown.Text.Replace
import Chartdown.Text.Numeral
import Chartdown.Html.Escape
import Chartdown.Digest.Sha256
import Chartdown.Chart.Description
import Chartdown.Chart.Markup
import Chartdown.Html.Slug
import Chartdown.Markdown.Language
import Chartdown.Failure
import Chartdown.Text.Sorted
import Chartdown.Tree.ChartBlocks
import Chartdown.Tree.Json
import Chartdown.Html.Render
import Chartdown.Html.Page
import Chartdown.Html.Renderer
import Chartdown.Markdown.Nodes
import Chartdown.Transform.Registry
import Chartdown.Transform.Pipeline
import Chartdown.Source
import Chartdown.Target
import Chartdown.Log.Path
import Chartdown.Log
import Chartdown.Markdown.Url
import Chartdown.Text.Caseless
import Chartdown.Markdown.Line
import Chartdown.Markdown.RawHtml
import Chartdown.Markdown.Link
import Chartdown.Markdown.Table
import Chartdown.Markdown.Start
import Chartdown.Markdown.Container
import Chartdown.Markdown.Block
import Chartdown.Markdown.Emphasis
import Chartdown.Markdown.Options
import Chartdown.Markdown.Autolink
import Chartdown.Markdown.Inline
import Chartdown.Markdown.Document
import Chartdown.Convert
import Chartdown.Proofs.Text.Trim
import Chartdown.Proofs.Text.Lines
import Chartdown.Proofs.Text.Utf8
import Chartdown.Proofs.Loading
import Chartdown.Proofs.Html.Tags
import Chartdown.Proofs.Html.Slug
import Chartdown.Proofs.Html.Slug.Run
import Chartdown.Proofs.Html.Slug.Shape
import Chartdown.Proofs.Html.Elements
import Chartdown.Proofs.Selection
import Chartdown.Proofs.Copying
import Chartdown.Proofs.Replacing
import Chartdown.Proofs.PlainText
import Chartdown.Proofs.Chart.Outline
import Chartdown.Proofs.Chart.Points
import Chartdown.Proofs.Number.Range
import Chartdown.Proofs.Chart.Drawing
import Chartdown.Proofs.Html.Charts
import Chartdown.Proofs.Html.Events
import Chartdown.Proofs.Html.Steps
import Chartdown.Proofs.Html.Rendering
import Chartdown.Proofs.Html.Skipping
import Chartdown.Proofs.Html.Emission
import Chartdown.Proofs.Html.Independence
import Chartdown.Proofs.Html.Contents
import Chartdown.Proofs.Html.Anchors
import Chartdown.Proofs.Json.Reading
import Chartdown.Proofs.Text.Numeral
import Chartdown.Proofs.Text.Replace
import Chartdown.Proofs.Chart.Dialect.Writing
import Chartdown.Proofs.Text.Tidy
import Chartdown.Proofs.Chart.Nesting
import Chartdown.Proofs.Chart.Placement
import Chartdown.Proofs.Chart.Dialect.Layout
import Chartdown.Proofs.Chart.Dialect.Rules
import Chartdown.Proofs.Chart.Dialect.Reading
import Chartdown.Proofs.Chart.Dialect.RoundTrip
import Chartdown.Proofs.Transform.Circle
import Chartdown.Proofs.Transform.Reach
import Chartdown.Proofs.Transform.Order
import Chartdown.Proofs.Transform.Greedy
import Chartdown.Proofs.Transform.Discovery
import Chartdown.Proofs.Transform.Creation
import Chartdown.Proofs.Transform.Stages
import Chartdown.Proofs.Transform.Pipeline
import Chartdown.Proofs.Number.Rounding
import Chartdown.Proofs.Number.Shortest
import Chartdown.Proofs.Json.Numerals
import Chartdown.Proofs.Json.RoundTrip
import Chartdown.Proofs.Json.Members
import Chartdown.Proofs.Chart.NumericKey
import Chartdown.Proofs.Chart.Literal
import Chartdown.Proofs.Chart.Configuration
import Chartdown.Proofs.Chart.Confinement
import Chartdown.Proofs.Chart.Agreement
import Chartdown.Proofs.Html.Gathering
import Chartdown.Proofs.Html.StandalonePage
import Chartdown.Proofs.Chart.Strict.Rules
import Chartdown.Proofs.Chart.Strict.Writing
import Chartdown.Proofs.Chart.Strict.Reading
import Chartdown.Proofs.Chart.Strict.RoundTrip
import Chartdown.Proofs.Chart.Stray.Scan
import Chartdown.Proofs.Chart.Stray.Rules
import Chartdown.Proofs.Chart.Stray.Lines
import Chartdown.Proofs.Text.Feeds
import Chartdown.Proofs.Json.Lockstep
import Chartdown.Proofs.Json.Spaced
import Chartdown.Proofs.Json.Slot
import Chartdown.Proofs.Json.Constants
import Chartdown.Proofs.Chart.Spacing
import Chartdown.Proofs.Chart.Acceptance
import Chartdown.Proofs.Chart.Label.Writing
import Chartdown.Proofs.Chart.Label.Place
import Chartdown.Proofs.Chart.Label.Rules
import Chartdown.Proofs.Chart.Label.Reading
import Chartdown.Proofs.Markdown.Building
import Chartdown.Proofs.Markdown.RawHtml
import Chartdown.Proofs.Markdown.Language
import Chartdown.Proofs.Markdown.Outcome
import Chartdown.Proofs.Markdown.Markers
import Chartdown.Proofs.Markdown.InfoString
import Chartdown.Proofs.Markdown.Soundness
import Chartdown.Proofs.Chart.Payload
import Chartdown.Proofs.Chart.FixedPoints
