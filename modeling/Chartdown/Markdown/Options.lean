/-! # Options of Markdown

What of a Markdown text is taken over into a document.
-/

namespace Chartdown.Markdown

/-- How Markdown is read. -/
structure Options where
  /-- Take text between two pairs of tildes as struck through. -/
  parseStrikethrough : Bool := true
  /-- Keep raw HTML. -/
  preserveHtml : Bool := true
  deriving DecidableEq

end Chartdown.Markdown
