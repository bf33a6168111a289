import Chartdown.Text.Punctuation
import Chartdown.Text.Reference

/-! # Addresses

A backslash before a mark of ASCII stands for the mark. An address is read with such escapes and
with character references, and written with the bytes of all but some characters in hexadecimal.

* `encode_append`  an address is written character by character
-/

namespace Chartdown.Markdown

open Text

/-- A text with each escaped mark replaced by the mark. -/
def unescape : List Char → List Char
  | [] => []
  | [c] => [c]
  | c :: d :: rest =>
    if c = '\\' ∧ isAsciiPunctuation d = true then d :: unescape rest else c :: unescape (d :: rest)

namespace Url

/-- Whether a character stands for itself in an address. -/
def isPlain (c : Char) : Bool := c.isAlphanum || "_.-~:/?#@!$&()*+,;=%".toList.contains c

/-- A digit of a byte in hexadecimal. -/
def digit (n : Nat) : Char :=
  if n < 10 then Char.ofNat ('0'.toNat + n) else Char.ofNat ('A'.toNat + (n - 10))

/-- A byte in hexadecimal. -/
def encodeByte (b : UInt8) : List Char := ['%', digit (b.toNat / 16), digit (b.toNat % 16)]

/-- A character of an address. -/
def encodeChar (c : Char) : List Char :=
  if isPlain c then [c] else (String.utf8EncodeChar c).flatMap encodeByte

/-- An address as it is written. -/
def encode (s : List Char) : List Char := s.flatMap encodeChar

theorem encode_append (s t : List Char) : encode (s ++ t) = encode s ++ encode t :=
  List.flatMap_append

/-- The address that a text without escapes stands for. -/
def ofText (s : List Char) : String := String.ofList (encode (decodeReferences s))

/-- The address that a text with escapes stands for. -/
def ofSource (s : List Char) : String := ofText (unescape s)

end Url
end Chartdown.Markdown
