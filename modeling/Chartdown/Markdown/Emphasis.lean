import Chartdown.Markdown.Token

/-! # Emphasis

A run of asterisks or underscores can open emphasis, close it, or both. A closing run pairs with
the nearest run before it that opens emphasis of its kind: two marks of each make strong emphasis,
one mark of each makes plain emphasis, and marks that are left can pair again. Marks without a
partner are text. Inside emphasis each run is a text by itself, even if it has no marks left, and so
are escaped marks. Elsewhere a text with runs has texts side by side put together, so that only a
text without runs shows where marks were escaped.

* `ofPieces_text`        text without runs is one token
* `ofPieces_escape`      escaped marks are a token of their own
* `ofPieces_escape_run`  unless there is a run, with which they are one token
-/

namespace Chartdown.Markdown

/-- A run of delimiters. -/
structure Run where
  mark : Char
  /-- The number of marks as written. -/
  length : Nat
  /-- The number of marks that have no partner yet. -/
  count : Nat
  opens : Bool
  closes : Bool
  deriving DecidableEq

/-- A run with fewer marks left. -/
def Run.without (r : Run) (width : Nat) : Run := { r with count := r.count - width }

/-- A piece of inline text. -/
inductive Piece
  | token (t : Token)
  | text (s : List Char)
  /-- Marks behind a backslash each. -/
  | escape (marks : List Char)
  | run (r : Run)

/-- Whether a piece is a run. -/
def Piece.isRun : Piece → Bool
  | run _ => true
  | _ => false

namespace Emphasis

/-- The marks of a run that have no partner. -/
def marks (r : Run) : List Char := List.replicate r.count r.mark

/-- Whether two runs can pair. The opener has marks left. Where one of them can both open and close,
the sum of their lengths is not a multiple of three unless both lengths are. -/
def pairs (opener closer : Run) : Bool :=
  opener.opens && opener.count != 0 && closer.closes && opener.mark == closer.mark &&
    (!(opener.closes || closer.opens) || (opener.length + closer.length) % 3 != 0 ||
      (opener.length % 3 == 0 && closer.length % 3 == 0))

/-- A token of text, unless there is none. -/
def textToken (s : List Char) : List Token :=
  if s.isEmpty then [] else [.ofText "text" (String.ofList s)]

/-- What a piece is in the end: a token, or text that joins the text beside it. Escaped marks and
runs are either, according to whether they stay `apart`. -/
def settle (apart : Bool) : Piece → Token ⊕ List Char
  | .token t => .inl t
  | .text s => .inr s
  | .escape s => leftover s
  | .run r => leftover (marks r)
where
  leftover (s : List Char) : Token ⊕ List Char :=
    if apart then .inl (.ofText "text" (String.ofList s)) else .inr s

/-- The tokens of some tokens and texts behind some texts, which stand last first. Texts side by
side are one. -/
def join (texts : List (List Char)) : List (Token ⊕ List Char) → List Token
  | [] => textToken texts.reverse.flatten
  | .inl t :: rest => textToken texts.reverse.flatten ++ t :: join [] rest
  | .inr s :: rest => join (s :: texts) rest

/-- The tokens of some pieces, which stand last first. -/
def flatten (apart : Bool) (pieces : List Piece) : List Token :=
  join [] (pieces.reverse.map (settle apart))

/-- The nearest run with which a closing run pairs: the pieces behind it, the run itself and the
pieces before it. Pieces stand last first. -/
def findOpener? (closer : Run) : List Piece → Option (List Piece × Run × List Piece)
  | [] => none
  | .run r :: before =>
    if pairs r closer then some ([], r, before)
    else (findOpener? closer before).map fun (behind, found) => (.run r :: behind, found)
  | p :: before => (findOpener? closer before).map fun (behind, found) => (p :: behind, found)

/-- The token of emphasis by one or two marks. -/
def token (width : Nat) (children : List Token) : Token :=
  .ofChildren (if width = 2 then "strong" else "emphasis") children

/-- Put a run behind some pieces, which stand last first. It pairs as often as it can. -/
def put (pieces : List Piece) (r : Run) : List Piece :=
  if _h : r.count = 0 then .run r :: pieces
  else
    match findOpener? r pieces with
    | none => .run r :: pieces
    | some (behind, opener, before) =>
      -- Runs between the two have found no partner and never will.
      let width := if 2 ≤ r.count ∧ 2 ≤ opener.count then 2 else 1
      let token := token width (flatten true behind)
      put (.token token :: .run (opener.without width) :: before) (r.without width)
termination_by r.count
decreasing_by simp only [Run.without]; split <;> omega

/-- Put a piece behind some others, which stand last first. -/
def push (pieces : List Piece) : Piece → List Piece
  | .run r => put pieces r
  | p => p :: pieces

/-- The tokens of some pieces. -/
def ofPieces (pieces : List Piece) : List Token :=
  flatten (!pieces.any Piece.isRun) (pieces.foldl push [])

theorem ofPieces_text (s : List Char) : ofPieces [.text s] = textToken s := by
  simp [ofPieces, push, flatten, join, settle]

theorem ofPieces_escape (s : List Char) :
    ofPieces [.escape s] = [.ofText "text" (String.ofList s)] := by
  simp [ofPieces, push, flatten, join, settle, settle.leftover, textToken, Piece.isRun]

theorem ofPieces_escape_run (s : List Char) (r : Run) :
    ofPieces [.escape s, .run r] = textToken (s ++ marks r) := by
  have h : put [.escape s] r = [.run r, .escape s] := by
    rw [put]
    simp [findOpener?]
  simp [ofPieces, push, flatten, join, settle, settle.leftover, Piece.isRun, h]

end Emphasis
end Chartdown.Markdown
