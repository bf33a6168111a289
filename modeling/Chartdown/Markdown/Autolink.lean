import Chartdown.Markdown.Url

/-! # Autolinks

An address between angle brackets is a link to it: one with a scheme, or one of electronic mail.

* `wordEnd_append`  a word ends where its characters do
-/

namespace Chartdown.Markdown

/-- An address between angle brackets. -/
structure Autolink where
  /-- The address as written. -/
  text : List Char
  /-- Whether it is one of electronic mail. -/
  mail : Bool
  deriving DecidableEq

namespace Autolink

/-- The characters of a word and what follows it. -/
def wordEnd (isPart : Char → Bool) (s : List Char) : List Char × List Char :=
  (s.takeWhile isPart, s.dropWhile isPart)

theorem wordEnd_append (isPart : Char → Bool) (s : List Char) :
    (wordEnd isPart s).1 ++ (wordEnd isPart s).2 = s :=
  List.takeWhile_append_dropWhile

/-- Whether a character may stand in a scheme. -/
def isSchemeChar (c : Char) : Bool := c.isAlphanum || c == '.' || c == '+' || c == '-'

/-- Whether a character may stand behind a scheme. -/
def isAddressChar (c : Char) : Bool := c != '<' && c != '>' && 0x20 < c.toNat

/-- An address with a scheme at the start of a text, and what follows it. -/
def address? (s : List Char) : Option (List Char × List Char) :=
  let (scheme, rest) := wordEnd isSchemeChar s
  match rest with
  | ':' :: rest =>
    if 2 ≤ scheme.length && scheme.length ≤ 32 && scheme.head?.any Char.isAlpha then
      let (path, rest) := wordEnd isAddressChar rest
      some (scheme ++ ':' :: path, rest)
    else none
  | _ => none

/-- Whether a character may stand in the name of a mailbox. -/
def isMailboxChar (c : Char) : Bool :=
  c.isAlphanum || ".!#$%&'*+/=?^_\x60\x7b|\x7d~-".toList.contains c

/-- Whether a text is a part of a host's name. -/
def isHostPart (s : List Char) : Bool :=
  s.all (fun c => c.isAlphanum || c == '-') && s.length ≤ 63 &&
    s.head?.any Char.isAlphanum && s.getLast?.any Char.isAlphanum

/-- An address of mail at the start of a text, and what follows it. -/
def mailAddress? (s : List Char) : Option (List Char × List Char) :=
  let (mailbox, rest) := wordEnd isMailboxChar s
  match rest with
  | '@' :: rest =>
    let (host, rest) := wordEnd (fun c => c.isAlphanum || c == '-' || c == '.') rest
    if !mailbox.isEmpty && (host.splitOnP (· == '.')).all isHostPart then
      some (mailbox ++ '@' :: host, rest)
    else none
  | _ => none

/-- What follows a closing angle bracket. -/
def closed? (found : Option (List Char × List Char)) : Option (List Char × List Char) :=
  match found with
  | some (text, '>' :: rest) => some (text, rest)
  | _ => none

/-- The autolink at the start of a text behind its opening bracket, and what follows it. -/
def read? (s : List Char) : Option (Autolink × List Char) :=
  ((closed? (address? s)).map fun (text, rest) => (⟨text, false⟩, rest)).or <|
  (closed? (mailAddress? s)).map fun (text, rest) => (⟨text, true⟩, rest)

/-- Where an autolink leads to. -/
def url (a : Autolink) : String :=
  Url.ofText (if a.mail then "mailto:".toList ++ a.text else a.text)

end Autolink
end Chartdown.Markdown
