import Chartdown.Json.Encode
import Chartdown.Text.Quoted

/-! # Values in messages

How a value is shown to people. A string is shown in quotes inside other values and as it is
where it stands alone.
-/

namespace Chartdown.Json

/-- A double as shown to people. -/
def shownDouble : Double → List Char
  | .finite v => v.text
  | .infinite negative => (if negative then "-inf" else "inf").toList
  | .nan => "nan".toList

/-- A string in quotes. -/
def shownString (s : Text.Utf16) : List Char := Text.quoted (Text.Utf16.toChars s)

mutual
/-- A value as it is shown inside another or in a message. -/
def shown : Json → List Char
  | .null => "None".toList
  | .bool b => (if b then "True" else "False").toList
  | .number (.integer n) => integerText n
  | .number (.double d) => shownDouble d
  | .string s => shownString s
  | .array items => '[' :: shownItems items ++ [']']
  | .object members => '\x7b' :: shownMembers members ++ ['\x7d']

/-- Values one after the other. -/
def shownItems : List Json → List Char
  | [] => []
  | v :: rest => shown v ++ (if rest.isEmpty then [] else ',' :: ' ' :: shownItems rest)

/-- Members one after the other. -/
def shownMembers : List (Text.Utf16 × Json) → List Char
  | [] => []
  | (name, v) :: rest =>
    shownString name ++ ':' :: ' ' :: shown v ++
      (if rest.isEmpty then [] else ',' :: ' ' :: shownMembers rest)
end

/-- A value as it is shown in a message. -/
def inspect (v : Json) : String := String.ofList (shown v)

/-- A value as it is shown alone. -/
def display : Json → String
  | .string s => Text.Utf16.toString s
  | v => inspect v

end Chartdown.Json
