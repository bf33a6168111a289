import Chartdown.Text.Blank
import Chartdown.Text.Letter
import Chartdown.Text.Lines

/-! # Slugs

A slug is an anchor made from a text: the words of the text in small letters and digits of ASCII,
joined by hyphens. Marks are taken off letters, other characters are left out, and a text without
any word has the slug `section`. Slugs that share a set are told apart by numbers from 2 on.
-/

namespace Chartdown.Html.Slug

open Text

/-- What a slug keeps of a character: a hyphen for what separates words, a small letter or a
digit for what can be written so, and nothing else. -/
def keep (c : Char) : Option Char :=
  if isBlank c || c == '_' || c == '-' then some '-'
  else if c.isLower || c.isDigit then some c
  else if c.isUpper then some c.toLower
  else baseLetter? c

/-- The words of a text, as a slug keeps them. -/
def words (s : List Char) : List (List Char) :=
  (cutAt '-' (s.filterMap keep)).filter fun word => !word.isEmpty

/-- The first part of a list. A negative length counts from the end. -/
def takeInt (n : Int) (s : List α) : List α :=
  match n with
  | .ofNat k => s.take k
  | .negSucc k => s.take (s.length - (k + 1))

/-- The slug of a text, cut to a length. -/
def ofChars (maxLength : Int) (s : List Char) : List Char :=
  let cut := dropEndWhile (· == '-') (takeInt maxLength (['-'].intercalate (words s)))
  if cut.isEmpty then "section".toList else cut

/-- The slug of a text, cut to a length. -/
def ofText (maxLength : Int) (text : String) : String :=
  String.ofList (ofChars maxLength text.toList)

/-- A slug with a number. -/
def numbered (slug : String) (n : Nat) : String := slug ++ "-" ++ n.repr

/-- The first numbered slug, from `n` on, that is not taken, looking at no more than `fuel`. -/
def firstFree (slug : String) (taken : List String) : Nat → Nat → String
  | 0, n => numbered slug n
  | fuel + 1, n =>
    if numbered slug n ∈ taken then firstFree slug taken fuel (n + 1) else numbered slug n

/-- The slug of a text that is not taken yet: without a number if it can be, else with the least
one. One more number than there are taken slugs is enough to find one. -/
def choose (maxLength : Int) (text : String) (taken : List String) : String :=
  let slug := ofText maxLength text
  if slug ∈ taken then firstFree slug taken taken.length 2 else slug

/-- Choose a slug and take it. -/
def claim (maxLength : Int) (text : String) (taken : List String) : String × List String :=
  let slug := choose maxLength text taken
  (slug, slug :: taken)

/-- The slugs of texts one after the other, and the slugs that are taken then. -/
def claimAll (maxLength : Int) : List String → List String → List String × List String
  | [], taken => ([], taken)
  | text :: texts, taken =>
    let (slug, taken) := claim maxLength text taken
    let (slugs, taken) := claimAll maxLength texts taken
    (slug :: slugs, taken)

end Chartdown.Html.Slug
