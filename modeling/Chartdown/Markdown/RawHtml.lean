import Chartdown.Text.Blank

/-! # Raw HTML in Markdown

Tags, comments and the other pieces of HTML that a Markdown text may hold, inside a line and as
blocks of lines. Each reader takes a text and gives back what follows the piece at its start.

* `length_dropThrough?`  what follows a mark is shorter than the text
-/

namespace Chartdown.Markdown.RawHtml

open Text

/-- Whether a character is a space, a tab or a line feed. -/
def isGap (c : Char) : Bool := c == ' ' || c == '\t' || c == '\n'

/-- What follows the first appearance of a mark. -/
def dropThrough? (mark : List Char) : List Char → Option (List Char)
  | [] => none
  | c :: s =>
    if mark.isPrefixOf (c :: s) then some (s.drop (mark.length - 1)) else dropThrough? mark s

theorem length_dropThrough? {mark s rest : List Char} (h : dropThrough? mark s = some rest) :
    rest.length < s.length := by
  induction s with
  | nil => simp [dropThrough?] at h
  | cons c s ih =>
    simp only [dropThrough?] at h
    split at h
    · simp only [Option.some.injEq] at h
      rw [← h, List.length_drop, List.length_cons]
      omega
    · exact Nat.lt_succ_of_lt (ih h)

/-- What follows a text at the start. -/
def dropText? (text s : List Char) : Option (List Char) :=
  if text.isPrefixOf s then some (s.drop text.length) else none

/-! ## Tags -/

/-- Whether a character may stand in the name of a tag. -/
def isTagChar (c : Char) : Bool := c.isAlphanum || c == '-'

/-- The name of a tag and what follows it. -/
def tagName? (s : List Char) : Option (List Char × List Char) :=
  match s with
  | c :: _ => if c.isAlpha then some (s.span isTagChar) else none
  | [] => none

/-- Whether a character may stand in a value without quotes. -/
def isBareChar (c : Char) : Bool := !" !\"'=<>\x60".toList.contains c

/-- What follows a value without quotes. Of blanks only spaces end it, but before an equals sign
its last word is the name of the next setting. -/
def bareValue? (s : List Char) : Option (List Char) :=
  let value := s.takeWhile isBareChar
  let rest := s.drop value.length
  let kept :=
    if (rest.dropWhile isBlank).head? == some '=' then
      dropEndWhile isBlank (dropEndWhile (fun c => !isBlank c) (dropEndWhile isBlank value))
    else value
  if kept.isEmpty then none else some (s.drop kept.length)

/-- What follows the value of a setting in a tag. -/
def value? (s : List Char) : Option (List Char) :=
  match s with
  | '"' :: rest => dropThrough? ['"'] rest
  | '\'' :: rest => dropThrough? ['\''] rest
  | s => bareValue? s

/-- What follows a setting in a tag, which stands behind a gap. -/
def setting? (s : List Char) : Option (List Char) :=
  let name := s.dropWhile isBlank
  match name with
  | c :: _ =>
    if s.length = name.length ∨ !(c.isAlpha || c == '_' || c == ':') then none
    else
      let rest := name.dropWhile fun c => c.isAlphanum || "_.:-".toList.contains c
      match rest.dropWhile isBlank with
      | '=' :: value => (value? (value.dropWhile isBlank)).or (some rest)
      | _ => some rest
  | [] => none

/-- What follows the settings in a tag, of which there are at most a number. -/
def settings : Nat → List Char → List Char
  | 0, s => s
  | n + 1, s =>
    match setting? s with
    | some rest => settings n rest
    | none => s

/-- What follows the name and the settings of a tag. -/
def tagBody? (s : List Char) : Option (List Char) := do
  let (_, rest) ← tagName? s
  return settings rest.length rest

/-! ## Pieces inside a line -/

/-- What follows an opening tag. -/
def openingTag? (s : List Char) : Option (List Char) := do
  let rest ← tagBody? (← dropText? ['<'] s)
  let rest := rest.dropWhile isBlank
  (dropText? ['>'] rest).or (dropText? ['/', '>'] rest)

/-- What follows a closing tag. -/
def closingTag? (s : List Char) : Option (List Char) := do
  let (_, rest) ← tagName? (← dropText? ['<', '/'] s)
  dropText? ['>'] (rest.dropWhile isBlank)

/-- What follows a mark that stands behind one character or more of the same line. -/
def dropLineThrough? (mark s : List Char) : Option (List Char) :=
  match s with
  | [] => none
  | c :: s' =>
    let line := s'.takeWhile (· != '\n')
    if c = '\n' then none
    else (dropThrough? mark line).map fun rest => s'.drop (line.length - rest.length)

/-- What follows a comment. It stands in one line, holds something, and has no two hyphens inside
it. -/
def comment? (s : List Char) : Option (List Char) := do
  let s ← dropText? "<!--".toList s
  guard ([['>'], ['-', '>'], ['-', '-']].all fun mark => !mark.isPrefixOf s)
  dropText? ['>'] (← dropLineThrough? ['-', '-'] s)

/-- What follows a declaration, which starts with a capital letter. -/
def declaration? (s : List Char) : Option (List Char) :=
  match s with
  | '<' :: '!' :: c :: rest => if c.isUpper then dropLineThrough? ['>'] rest else none
  | _ => none

/-- What follows a piece of HTML. -/
def piece? (s : List Char) : Option (List Char) :=
  (openingTag? s).or <|
  (closingTag? s).or <|
  (comment? s).or <|
  ((dropText? "<?".toList s).bind (dropLineThrough? "?>".toList)).or <|
  (declaration? s).or <|
  (dropText? "<![CDATA".toList s).bind (dropLineThrough? "]]>".toList)

/-! ## Blocks -/

/-- The tags whose blocks go on to the end of the tag. -/
def verbatimTags : List String := ["pre", "script", "style", "textarea"]

/-- The tags that make a block of the lines up to a blank one. -/
def blockTags : List String :=
  ["address", "article", "aside", "base", "basefont", "blockquote", "body", "caption", "center",
   "col", "colgroup", "dd", "details", "dialog", "dir", "div", "dl", "dt", "fieldset",
   "figcaption", "figure", "footer", "form", "frame", "frameset", "h1", "h2", "h3", "h4", "h5",
   "h6", "head", "header", "hr", "html", "iframe", "legend", "li", "link", "main", "menu",
   "menuitem", "meta", "nav", "noframes", "ol", "optgroup", "option", "p", "param", "section",
   "source", "summary", "table", "tbody", "td", "tfoot", "th", "thead", "title", "tr", "track",
   "ul"]

/-- How a block of HTML can open. -/
inductive Opening
  | comment
  | instruction
  | declaration
  | data
  | tag (closing : Bool) (name : List Char)
  deriving DecidableEq

/-- Where a block of HTML ends. -/
inductive BlockEnd
  /-- With the line that holds a mark. -/
  | mark (text : String)
  /-- Before a blank line. -/
  | blank
  deriving DecidableEq

/-- How a block opens in a line without its indent, and what follows the opening. -/
def opening? (s : List Char) : Option (Opening × List Char) :=
  match s with
  | '<' :: '!' :: '-' :: '-' :: rest => some (.comment, rest)
  | '<' :: '!' :: '[' :: 'C' :: 'D' :: 'A' :: 'T' :: 'A' :: '[' :: rest => some (.data, rest)
  | '<' :: '!' :: c :: rest => if c.isUpper then some (.declaration, rest) else none
  | '<' :: '?' :: rest => some (.instruction, rest)
  | '<' :: '/' :: rest => (tagName? rest).map fun (name, rest) => (.tag true name, rest)
  | '<' :: rest => (tagName? rest).map fun (name, rest) => (.tag false name, rest)
  | _ => none

/-- Where a block ends whose opening alone shows that it is one. -/
def Opening.ending? : Opening → Option BlockEnd
  | comment => some (.mark "-->")
  | instruction => some (.mark "?>")
  | declaration => some (.mark ">")
  | data => some (.mark "]]>")
  | tag closing name =>
    let name := String.ofList (name.map Char.toLower)
    if !closing && verbatimTags.contains name then some (.mark ("</" ++ name ++ ">"))
    else if blockTags.contains name then some .blank
    else none

/-- Whether an opening ends a quote or an item in whose middle it stands, by itself and by what
follows it. Of tags those known do, in small letters and before a gap. -/
def Opening.parts : Opening → List Char → Bool
  | tag _ name, rest =>
    (verbatimTags ++ blockTags).contains (String.ofList name) &&
      rest.head?.all fun c => c == ' ' || c == '\t'
  | _, _ => true

/-- Whether a tag stands alone in its line, given by what follows its opening. -/
def Opening.isLone (o : Opening) (rest : List Char) : Bool :=
  let isSpace (c : Char) : Bool := c == ' ' || c == '\t'
  let behind := match o with
    | tag false _ => settings rest.length rest
    | _ => rest
  match behind.dropWhile isSpace with
  | '>' :: rest => rest.all isSpace
  | _ => false

/-- Whether a line holds a mark. -/
def holdsMark (mark : String) (line : List Char) : Bool := (dropThrough? mark.toList line).isSome

end Chartdown.Markdown.RawHtml
