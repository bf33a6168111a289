import Chartdown.Notice
import Chartdown.Text.Blank

/-! # Names of languages

The first word of an info string names the language of a code block. Names that are not short and
plain are dropped with a notice, so that they can stand in a class name.
-/

namespace Chartdown.Markdown.Language

/-- The length that a name may have. -/
def lengthLimit : Nat := 50

/-- Whether a character may stand in a name. -/
def isNameChar (c : Char) : Bool := c.isAlphanum || c == '_' || c == '+' || c == '-'

/-- The first characters of a name, for a notice. -/
def excerpt (name : List Char) : String := String.ofList (name.take lengthLimit)

/-- The name without blanks at its ends if it may be used, and nothing otherwise. -/
def sanitize (name : List Char) : Noted Empty (Option (List Char)) :=
  let name := Text.trim name
  if name.isEmpty then pure none
  else if lengthLimit < name.length then ⟨[.languageTooLong (excerpt name)], .ok none⟩
  else if name.all isNameChar then pure (some name)
  else ⟨[.languageBlocked (excerpt name)], .ok none⟩

end Chartdown.Markdown.Language
