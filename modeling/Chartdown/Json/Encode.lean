import Chartdown.Json.Value
import Chartdown.Json.Decode

/-! # Writing JSON

Values are written in ASCII on one line, `, ` between items and `: ` behind names. Some numbers
cannot be written: whole numbers of too many digits and, where the caller asks for standard JSON,
doubles without a value. `text` writes everything, and `obstacle?` finds the first number in the
way, so `encode` is the one after the other.
-/

namespace Chartdown.Json

open Text (Utf16)

/-- The character of a hexadecimal digit. -/
def hexChar (n : Nat) : Char := Nat.digitChar n

/-- The escape of a code unit by its number. -/
def unicodeEscape (u : UInt16) : List Char :=
  let n := u.toNat
  ['\\', 'u', hexChar (n / 4096), hexChar (n / 256 % 16), hexChar (n / 16 % 16), hexChar (n % 16)]

/-- A code unit inside a string. Printable ASCII stands for itself, but for the quote and the
backslash. -/
def unitText (u : UInt16) : List Char :=
  if u = 0x22 then ['\\', '"']
  else if u = 0x5c then ['\\', '\\']
  else if u = 0x0a then ['\\', 'n']
  else if u = 0x0d then ['\\', 'r']
  else if u = 0x09 then ['\\', 't']
  else if u = 0x0c then ['\\', 'f']
  else if u = 0x08 then ['\\', 'b']
  else if 0x20 ≤ u ∧ u < 0x7f then [Char.ofNat u.toNat]
  else unicodeEscape u

/-- A string in quotes. -/
def stringText (s : Utf16) : List Char := '"' :: s.flatMap unitText ++ ['"']

/-- A double; those without a value are named. -/
def doubleText : Double → List Char
  | .finite v => v.text
  | .infinite negative => (if negative then "-Infinity" else "Infinity").toList
  | .nan => "NaN".toList

/-- A number. -/
def numberText : Number → List Char
  | .integer n => integerText n
  | .double d => doubleText d

mutual
/-- A value. -/
def text : Json → List Char
  | .null => "null".toList
  | .bool b => (if b then "true" else "false").toList
  | .number n => numberText n
  | .string s => stringText s
  | .array items => '[' :: itemsText items ++ [']']
  | .object members => '\x7b' :: membersText members ++ ['\x7d']

/-- Values one after the other. -/
def itemsText : List Json → List Char
  | [] => []
  | v :: rest => text v ++ (if rest.isEmpty then [] else ',' :: ' ' :: itemsText rest)

/-- Members one after the other. -/
def membersText : List (Utf16 × Json) → List Char
  | [] => []
  | (name, v) :: rest =>
    stringText name ++ ':' :: ' ' :: text v ++
      (if rest.isEmpty then [] else ',' :: ' ' :: membersText rest)
end

/-- Why a value cannot be written. -/
inductive EncodeError
  | noValue
  | tooManyDigits
  deriving DecidableEq

/-- The wording of an error. -/
def EncodeError.message : EncodeError → String
  | .noValue => "Out of range float values are not JSON compliant"
  | .tooManyDigits =>
    "Exceeds the limit (" ++ digitLimit.repr ++
      " digits) for integer string conversion; use sys.set_int_max_str_digits() to increase the limit"

/-- What keeps a number from being written. -/
def numberObstacle? (constants : Bool) : Number → Option EncodeError
  | .integer n => if digitLimit < (digitsOf n.natAbs).length then some .tooManyDigits else none
  | .double d => if constants || d.isFinite then none else some .noValue

mutual
/-- The first thing in a value that cannot be written. -/
def obstacle? (constants : Bool) : Json → Option EncodeError
  | .number n => numberObstacle? constants n
  | .array items => itemsObstacle? constants items
  | .object members => membersObstacle? constants members
  | _ => none

/-- The first thing in a list of values that cannot be written. -/
def itemsObstacle? (constants : Bool) : List Json → Option EncodeError
  | [] => none
  | v :: rest => (obstacle? constants v).or (itemsObstacle? constants rest)

/-- The first thing in a list of members that cannot be written. -/
def membersObstacle? (constants : Bool) : List (Utf16 × Json) → Option EncodeError
  | [] => none
  | (_, v) :: rest => (obstacle? constants v).or (membersObstacle? constants rest)
end

/-- Write a value. Doubles without a value are written only if the caller says so. -/
def encode (constants : Bool) (v : Json) : Except EncodeError (List Char) :=
  match obstacle? constants v with
  | some e => .error e
  | none => .ok (text v)

end Chartdown.Json
