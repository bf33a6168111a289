import Chartdown.Markdown.Autolink
import Chartdown.Markdown.Emphasis
import Chartdown.Markdown.Link
import Chartdown.Markdown.Options

/-! # Inline text

The text of a paragraph, a heading or a cell, read from left to right. Code, autolinks and raw HTML
bind tighter than brackets, and brackets tighter than emphasis. A text without any of these stays
as it is.

* `read_nil`  a text that is empty is one empty token
-/

namespace Chartdown.Markdown

open Text

namespace Inline

/-! ## Code -/

/-- The text up to a run of exactly so many backticks. `run` is the number of those directly before
the text. -/
def codeText? (width run : Nat) : List Char → Option (List Char)
  | [] => if run = width then some [] else none
  | c :: s =>
    if c = '\x60' then codeText? width (run + 1) s
    else if run = width then some []
    else (codeText? width 0 s).map (List.replicate run '\x60' ++ c :: ·)

/-- The code that a text between backticks stands for. Line feeds are spaces, and one space at each
end is dropped. -/
def codeOf (s : List Char) : List Char :=
  let s := s.map fun c => if c = '\n' then ' ' else c
  if !s.all isBlank && s.head? == some ' ' && s.getLast? == some ' ' then s.tail.dropLast else s

/-! ## Runs of delimiters -/

/-- Whether what stands beside a run is blank, as both ends of the text are. -/
def isGapBeside (c : Option Char) : Bool := c.all isBlank

/-- Whether what stands beside a run is punctuation. -/
def isMarkBeside (c : Option Char) : Bool := c.any isPunctuation

/-- A run of delimiters between two characters. Underscores open or close nothing inside a word. -/
def runOf (mark : Char) (length : Nat) (before after : Option Char) : Run :=
  let left := !isGapBeside after &&
    (!isMarkBeside after || isGapBeside before || isMarkBeside before)
  let right := !isGapBeside before &&
    (!isMarkBeside before || isGapBeside after || isMarkBeside after)
  let opens := left && (mark != '_' || !right || isMarkBeside before)
  let closes := right && (mark != '_' || !left || isMarkBeside after)
  ⟨mark, length, length, opens, closes⟩

/-! ## Text that is struck through -/

/-- The text up to two tildes that close it. `ends` tells whether the text before can end here, and
`escapes` whether the character before is a backslash that escapes. -/
def struckText? (ends escapes : Bool) : List Char → Option (List Char)
  | [] => none
  | c :: s =>
    if c == '~' && s.head? == some '~' && s.tail.head? != some '~' && ends then some []
    else
      (struckText? (if c = '~' then escapes else !isBlank c) (c == '\\' && !escapes) s).map (c :: ·)

/-- The text between two tildes, of which the second stands at the start, and two that close it. -/
def struck? (s : List Char) : Option (List Char) :=
  match s with
  | '~' :: c :: rest =>
    if isBlank c || c == '~' then none else struckText? false false (c :: rest)
  | _ => none

/-! ## Lexemes -/

/-- What a text can start with. -/
inductive Lexeme
  | piece (p : Piece)
  | autolink (a : Autolink)
  | html (raw : List Char)
  /-- A text of some length to be struck through, behind two tildes. -/
  | struck (length : Nat)
  /-- A bracket that can open a link or an image. -/
  | opening (image : Bool)
  | closing

/-- Text as a lexeme. -/
def Lexeme.text (s : List Char) : Lexeme := .piece (.text s)

/-- A break between lines. -/
def Lexeme.lineBreak (hard : Bool) : Lexeme :=
  .piece (.token (.mk (if hard then "linebreak" else "softbreak") none [] {} none none))

/-- The number of blanks at the start of a text. -/
def blanks (s : List Char) : Nat := (s.takeWhile isBlank).length

/-- The marks at the start of a text that a backslash before each escapes. -/
def escapedMarks : List Char → List Char
  | c :: d :: rest =>
    if c = '\\' ∧ isAsciiPunctuation d = true then d :: escapedMarks rest else []
  | _ => []

/-- What a backslash starts. Marks that are escaped one behind the other belong together. -/
def escape (rest : List Char) : Lexeme × Nat :=
  match rest, escapedMarks ('\\' :: rest) with
  | '\n' :: next, _ => (.lineBreak true, 1 + blanks next)
  | _, [] => (.text ['\\'], 0)
  | _, marks => (.piece (.escape marks), 2 * marks.length - 1)

/-- What a space starts. -/
def space (rest : List Char) : Lexeme × Nat :=
  let more := rest.takeWhile (· == ' ')
  match rest.drop more.length with
  | '\n' :: next => (.lineBreak (!more.isEmpty), more.length + 1 + blanks next)
  | _ => (.text (' ' :: more), more.length)

/-- What a backtick starts. -/
def backtick (rest : List Char) : Lexeme × Nat :=
  let more := rest.takeWhile (· == '\x60')
  let width := more.length + 1
  match codeText? width 0 (rest.drop more.length) with
  | some code =>
    (.piece (.token (.ofText "codespan" (String.ofList (codeOf code)))),
      more.length + code.length + width)
  | none => (.text ('\x60' :: more), more.length)

/-- What an opening angle bracket starts. -/
def angle (rest : List Char) : Lexeme × Nat :=
  match Autolink.read? rest with
  | some (a, after) => (.autolink a, rest.length - after.length)
  | none =>
    match RawHtml.piece? ('<' :: rest) with
    | some after =>
      let count := rest.length - after.length
      (.html ('<' :: rest.take count), count)
    | none => (.text ['<'], 0)

/-- Whether a character stands for itself wherever it stands. -/
def isPlain (c : Char) : Bool :=
  !(['\n', ' ', '!', '*', '<', '[', '\\', ']', '_', '\x60', '~'].contains c)

/-- What a text starts with, given by the character before it, its first one and those behind, and
the number of characters behind the first that belong to it. -/
def lexeme (o : Options) (before : Option Char) (c : Char) (rest : List Char) : Lexeme × Nat :=
  match c with
  | '\n' => (.lineBreak false, blanks rest)
  | ' ' => space rest
  | '\\' => escape rest
  | '\x60' => backtick rest
  | '<' => angle rest
  | '[' => (.opening false, 0)
  | '!' => if rest.head? == some '[' then (.opening true, 1) else (.text ['!'], 0)
  | ']' => (.closing, 0)
  | '~' =>
    match if o.parseStrikethrough then struck? rest else none with
    | some s => (.struck s.length, s.length + 3)
    | none => (.text ['~'], 0)
  | c =>
    if c = '*' ∨ c = '_' then
      let more := rest.takeWhile (· == c)
      (.piece (.run (runOf c (more.length + 1) before (rest.drop more.length).head?)), more.length)
    else
      let more := rest.takeWhile isPlain
      (.text (c :: more), more.length)

/-! ## Brackets -/

/-- A bracket that may open a link or an image. -/
structure Bracket where
  image : Bool
  /-- Whether it can still open a link: links hold no links. -/
  active : Bool
  /-- The text behind the bracket. -/
  source : List Char
  /-- The pieces before the bracket, last first. -/
  before : List Piece

/-- The mark of a bracket as text. -/
def Bracket.text (b : Bracket) : Piece := .text (if b.image then ['!', '['] else ['['])

/-- A bracket that a link inside makes inactive. -/
def Bracket.quench (b : Bracket) : Bracket := { b with active := b.active && b.image }

/-- The pieces behind open brackets that stay text, last first. -/
def unwind (pieces : List Piece) : List Bracket → List Piece
  | [] => pieces
  | b :: outer => unwind (pieces ++ b.text :: b.before) outer

/-- The target for which a text in brackets stands by itself. It cannot hold brackets. -/
def shortcut? (defs : List Definition) (source : List Char) : Option LinkTarget := do
  let (label, rest) ← Link.label? (source ++ [']'])
  if rest.isEmpty then Link.find? defs label else none

/-- The target of a text in brackets, and what follows it. It stands in parentheses behind the
text, or in a definition that a label behind the text or the text itself names. -/
def target? (defs : List Definition) (source rest : List Char) :
    Option (LinkTarget × List Char) :=
  let direct := match rest with
    | '(' :: s => Link.inline? s
    | _ => none
  let labelled := match rest with
    | '[' :: s => Link.label? s
    | _ => none
  direct.or <|
    match labelled with
    | some (label, after) =>
      (if label.isEmpty then shortcut? defs source else Link.find? defs label).map (·, after)
    | none => (shortcut? defs source).map (·, rest)

/-- The token of a link or an image. -/
def linkToken (image : Bool) (target : LinkTarget) (children : List Token) : Token :=
  .ofChildren (if image then "image" else "link") children
    { url := some target.url, title := target.title }

/-- The token of an autolink. -/
def autolinkToken (a : Autolink) : Token :=
  linkToken false ⟨a.url, none⟩ [.ofText "text" (String.ofList a.text)]

/-- Whether the text behind a piece of HTML stands in an anchor. Anchors hold no links. -/
def anchors (anchored : Bool) (raw : List Char) : Bool :=
  match raw with
  | '<' :: '/' :: c :: d :: _ =>
    if (c == 'a' || c == 'A') && (d == ' ' || d == '>') then false else anchored
  | '<' :: c :: d :: _ =>
    if (c == 'a' || c == 'A') && (d == ' ' || d == '>') then true else anchored
  | _ => anchored

/-! ## Reading -/

/-- Where reading stands. -/
structure State where
  /-- The character before. -/
  before : Option Char := none
  /-- Whether the text stands in an anchor. -/
  anchored : Bool := false
  /-- The open brackets, last first. -/
  brackets : List Bracket := []
  /-- The pieces behind the last open bracket, last first. -/
  pieces : List Piece := []

/-- Go on behind a piece. -/
def State.push (st : State) (p : Piece) : State := { st with pieces := p :: st.pieces }

/-- Close a bracket that makes a link or an image. -/
def State.link (st : State) (b : Bracket) (outer : List Bracket) (target : LinkTarget) : State :=
  let token := linkToken b.image target (Emphasis.ofPieces st.pieces.reverse)
  { st with
    brackets := if b.image then outer else outer.map Bracket.quench
    pieces := .token token :: b.before }

/-- Close a bracket that stays text. -/
def State.unlink (st : State) (b : Bracket) (outer : List Bracket) : State :=
  { st with brackets := outer, pieces := .text [']'] :: (st.pieces ++ b.text :: b.before) }

/-- Close the last open bracket before some text, and the number of characters of it that belong to
the target. -/
def State.close (defs : List Definition) (st : State) (rest : List Char) : State × Nat :=
  match st.brackets with
  | [] => (st.push (.text [']']), 0)
  | b :: outer =>
    -- What stands between the brackets: `rest` starts behind the closing one.
    let source := b.source.take (b.source.length - (rest.length + 1))
    match if b.active then target? defs source rest else none with
    | some (target, after) => (st.link b outer target, rest.length - after.length)
    | none => (st.unlink b outer, 0)

/-- The pieces of a text, in order. -/
def scan (o : Options) (defs : List Definition) (st : State) : List Char → List Piece
  | [] => (unwind st.pieces st.brackets).reverse
  | c :: rest =>
    match lexeme o st.before c rest with
    | (l, n) =>
      let st := { st with before := (rest.take n).getLast?.or (some c) }
      match l with
      | .piece p => scan o defs (st.push p) (rest.drop n)
      | .autolink a =>
        let p := if st.anchored then .text (c :: rest.take n) else .token (autolinkToken a)
        scan o defs (st.push p) (rest.drop n)
      | .html raw =>
        let st := { st with anchored := anchors st.anchored raw }
        scan o defs (st.push (.token (.ofText "inline_html" (String.ofList raw)))) (rest.drop n)
      | .struck length =>
        -- Emphasis and brackets inside do not reach over the tildes.
        let inner := scan o defs { anchored := st.anchored } ((rest.drop 1).take length)
        let token := Token.ofChildren "strikethrough" (Emphasis.ofPieces inner)
        scan o defs (st.push (.token token)) (rest.drop n)
      | .opening image =>
        -- The pieces so far wait at the bracket until it is known what it opens.
        let st :=
          if st.anchored && !image then st.push (.text ['['])
          else
            { st with brackets := ⟨image, true, rest.drop n, st.pieces⟩ :: st.brackets, pieces := [] }
        scan o defs st (rest.drop n)
      | .closing =>
        match st.close defs rest with
        | (st, n) => scan o defs st (rest.drop n)
termination_by s => s.length
decreasing_by
  all_goals simp only [List.length_cons, List.length_drop, List.length_take]; omega

/-- Whether a character is dropped at the ends of a text. -/
def isEdge (c : Char) : Bool := c == ' ' || c == '\r' || c == '\n' || c == '\t' || c == '\x0c'

/-- The tokens of a text. -/
def read (o : Options) (defs : List Definition) (s : List Char) : List Token :=
  let s := dropEndWhile isEdge (s.dropWhile isEdge)
  if s.isEmpty then [.ofText "text" ""] else Emphasis.ofPieces (scan o defs {} s)

theorem read_nil (o : Options) (defs : List Definition) :
    read o defs [] = [.ofText "text" ""] := rfl

end Inline
end Chartdown.Markdown
