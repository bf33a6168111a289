import Chartdown.Markdown.RawHtml
import Chartdown.Markdown.Url
import Chartdown.Text.Blank
import Chartdown.Text.Caseless

/-! # Links

The parts of links: the address, the title and the label by which a link refers to a definition.
Labels are compared without regard to case and to the width of gaps.

* `find?_cons_of_eq`  of two definitions of a label the first one counts
-/

namespace Chartdown.Markdown

open Text RawHtml

/-- Where a link leads to. -/
structure LinkTarget where
  url : String
  title : Option String := none
  deriving DecidableEq

/-- What a label stands for. -/
structure Definition where
  label : List Char
  target : LinkTarget
  deriving DecidableEq

namespace Link

/-- A text up to a closing mark that no backslash escapes, and what follows it. Some marks may not
stand in the text. -/
def until? (close : Char) (barred : List Char) : List Char → Option (List Char × List Char)
  | [] => none
  | [c] => if c = close then some ([], []) else none
  | c :: d :: rest =>
    if c = '\\' ∧ isAsciiPunctuation d = true then
      (until? close barred rest).map fun (s, after) => (c :: d :: s, after)
    else if c = close then some ([], d :: rest)
    else if barred.contains c then none
    else (until? close barred (d :: rest)).map fun (s, after) => (c :: s, after)

/-- An address without brackets around it, and what follows. It ends at a gap or at a parenthesis
that was not opened in it. `depth` counts those that are open. -/
def bareAddress? (depth : Nat) : List Char → Option (List Char × List Char)
  | [] => if depth = 0 then some ([], []) else none
  | c :: rest =>
    if c.toNat ≤ 0x20 || c.toNat == 0x7f then
      if depth = 0 then some ([], c :: rest) else none
    else if c = '(' then (bareAddress? (depth + 1) rest).map fun (s, after) => (c :: s, after)
    else if c = ')' then
      match depth with
      | 0 => some ([], c :: rest)
      | depth + 1 => (bareAddress? depth rest).map fun (s, after) => (c :: s, after)
    else if c = '\\' then
      match rest with
      | d :: rest' =>
        if isAsciiPunctuation d then
          (bareAddress? depth rest').map fun (s, after) => (c :: d :: s, after)
        else (bareAddress? depth (d :: rest')).map fun (s, after) => (c :: s, after)
      | [] => if depth = 0 then some ([c], []) else none
    else (bareAddress? depth rest).map fun (s, after) => (c :: s, after)

/-- The source of an address, and what follows. -/
def address? (s : List Char) : Option (List Char × List Char) :=
  match s with
  | '<' :: rest => until? '>' ['<', '\n'] rest
  | s => bareAddress? 0 s

/-- The source of a title, and what follows. -/
def title? (s : List Char) : Option (List Char × List Char) :=
  match s with
  | '"' :: rest => until? '"' [] rest
  | '\'' :: rest => until? '\'' [] rest
  | '(' :: rest => until? ')' ['('] rest
  | _ => none

/-- A title as it is shown. An empty one is none. -/
def titleText? (s : List Char) : Option String :=
  if s.isEmpty then none else some (String.ofList (unescape s))

/-- The target of an address and a title. -/
def target (address title : List Char) : LinkTarget := ⟨Url.ofSource address, titleText? title⟩

/-- The source of a label behind its opening bracket, and what follows its closing one. -/
def label? (s : List Char) : Option (List Char × List Char) := do
  let (label, rest) ← until? ']' ['['] s
  if label.length ≤ 999 then return (label, rest) else none

/-- A label as it is compared. -/
def key (label : List Char) : List Char := caseless ([' '].intercalate (words label))

/-- What a label stands for among some definitions. -/
def find? (defs : List Definition) (label : List Char) : Option LinkTarget :=
  if label.all isBlank then none
  else (defs.find? fun d => key d.label == key label).map (·.target)

theorem find?_cons_of_eq {d : Definition} {label : List Char} (h : key d.label = key label)
    (hb : label.all isBlank = false) (defs : List Definition) :
    find? (d :: defs) label = some d.target := by
  simp [find?, hb, h]

/-- Gaps and the closing parenthesis. -/
def closing? (s : List Char) : Option (List Char) :=
  match s.dropWhile isGap with
  | ')' :: rest => some rest
  | _ => none

/-- A target in parentheses, from behind the opening one, and what follows. -/
def inline? (s : List Char) : Option (LinkTarget × List Char) := do
  let (address, rest) ← address? (s.dropWhile isGap)
  let titled := do
    guard (rest.head?.any isGap)
    let (title, rest) ← title? (rest.dropWhile isGap)
    let rest ← closing? rest
    return (target address title, rest)
  titled.or ((closing? rest).map fun rest => (target address [], rest))

/-- What follows spaces to the end of a line. -/
def lineEnd? (s : List Char) : Option (List Char) :=
  match s.dropWhile fun c => c == ' ' || c == '\t' with
  | [] => some []
  | '\n' :: rest => some rest
  | _ => none

/-- A definition at the start of a text, and the text behind its last line. -/
def definition? (s : List Char) : Option (Definition × List Char) := do
  let '[' :: s := s | none
  let (label, rest) ← label? s
  let ':' :: rest := rest | none
  guard (!label.all isBlank)
  let rest := rest.dropWhile isGap
  let (address, behind) ← address? rest
  guard (rest.length ≠ behind.length)
  let titled := do
    guard (behind.head?.any isGap)
    let (title, rest) ← title? (behind.dropWhile isGap)
    let rest ← lineEnd? rest
    return (Definition.mk label (target address title), rest)
  titled.or ((lineEnd? behind).map fun rest => (⟨label, target address []⟩, rest))

end Link
end Chartdown.Markdown
