import Chartdown.Json.Value
import Chartdown.Text.Lines

/-! # Reading JSON

The reader takes one value from the front of a text and hands back the rest. It is stricter than
no standard and laxer in three points: the constants `NaN`, `Infinity` and `-Infinity` are read
or refused as the caller says, half a surrogate pair may stand alone in an escape, and a name may
be repeated in an object. Nesting and the digits of whole numbers are bounded.

A fault is reported with the place where it shows: inside the reader as the number of characters
that are left there, to the caller as a `Position`.
-/

namespace Chartdown.Json

open Text (Utf16)

/-- What a text can lack or hold against the grammar. -/
inductive Problem
  | value | propertyName | colon | comma
  | unterminatedString | controlCharacter | escape | unicodeEscape
  | extraData | byteOrderMark
  deriving DecidableEq

/-- The wording of a problem. -/
def Problem.message : Problem → String
  | .value => "Expecting value"
  | .propertyName => "Expecting property name enclosed in double quotes"
  | .colon => "Expecting ':' delimiter"
  | .comma => "Expecting ',' delimiter"
  | .unterminatedString => "Unterminated string starting at"
  | .controlCharacter => "Invalid control character at"
  | .escape => "Invalid \\escape"
  | .unicodeEscape => "Invalid \\uXXXX escape"
  | .extraData => "Extra data"
  | .byteOrderMark => "Unexpected UTF-8 BOM (decode using utf-8-sig)"

/-- What holds other values. -/
inductive Holder
  | array | object
  deriving DecidableEq

/-- The name of a holder in messages. -/
def Holder.name : Holder → String
  | .array => "array"
  | .object => "object"

/-- Why no value is read. A problem of the grammar shows where `left` characters are left. -/
inductive Fault
  | grammar (problem : Problem) (left : Nat)
  | constant (name : String)
  | digits (count : Nat)
  | depth (holder : Holder)
  deriving DecidableEq

/-- The rest of a text behind what was read of it. -/
abbrev Reading (α : Type) := Except Fault (α × List Char)

/-- The digits a whole number may have. -/
def digitLimit : Nat := 4300

/-- The levels that arrays and objects may be nested. -/
def depthLimit : Nat := 1000

/-- Whether a character may stand between tokens. -/
def isSpace (c : Char) : Bool := c == ' ' || c == '\t' || c == '\n' || c == '\r'

/-- The text behind its leading space. -/
def skipSpace (s : List Char) : List Char := s.dropWhile isSpace

/-- The value of a hexadecimal digit. -/
def hexDigit? (c : Char) : Option Nat :=
  if c.isDigit then some (c.toNat - '0'.toNat)
  else if 'a' ≤ c && c ≤ 'f' then some (c.toNat - 'a'.toNat + 10)
  else if 'A' ≤ c && c ≤ 'F' then some (c.toNat - 'A'.toNat + 10)
  else none

/-- The code unit that four hexadecimal digits write. -/
def hexUnit? (a b c d : Char) : Option UInt16 := do
  let a ← hexDigit? a
  let b ← hexDigit? b
  let c ← hexDigit? c
  let d ← hexDigit? d
  return (((a * 16 + b) * 16 + c) * 16 + d).toUInt16

/-- The code unit that a character stands for behind a backslash. -/
def shortEscape? : Char → Option UInt16
  | '"' => some 0x22
  | '\\' => some 0x5c
  | '/' => some 0x2f
  | 'b' => some 0x08
  | 'f' => some 0x0c
  | 'n' => some 0x0a
  | 'r' => some 0x0d
  | 't' => some 0x09
  | _ => none

/-- Put code units in front of those that were read. -/
def prependUnits (units : Utf16) : Reading Utf16 → Reading Utf16
  | .ok (s, rest) => .ok (units ++ s, rest)
  | .error e => .error e

/-- The string behind an opening quote at which `opening` characters were left. -/
def readString (opening : Nat) : List Char → Reading Utf16
  | [] => .error (.grammar .unterminatedString opening)
  | c :: s =>
    if c = '"' then .ok ([], s)
    else if c = '\\' then
      match s with
      | [] => .error (.grammar .unterminatedString opening)
      | e :: s' =>
        if e = 'u' then
          match s' with
          | h₁ :: h₂ :: h₃ :: h₄ :: s'' =>
            if s''.isEmpty then .error (.grammar .unicodeEscape (s'.length + 1))
            else match hexUnit? h₁ h₂ h₃ h₄ with
              | some unit => prependUnits [unit] (readString opening s'')
              | none => .error (.grammar .unicodeEscape (s'.length + 1))
          | _ => .error (.grammar .unicodeEscape (s'.length + 1))
        else match shortEscape? e with
          | some unit => prependUnits [unit] (readString opening s')
          | none => .error (.grammar .escape (s'.length + 2))
    else if c.toNat < 0x20 then .error (.grammar .controlCharacter (s.length + 1))
    else prependUnits (Utf16.unitsOf c) (readString opening s)

/-- A quote ends a string. -/
theorem readString_quote (opening : Nat) (s : List Char) :
    readString opening ('"' :: s) = .ok ([], s) := by
  rw [readString.eq_def]
  rfl

/-- The number that decimal digits write. -/
def naturalOf (ds : List Char) : Nat :=
  ds.foldl (fun n c => n * 10 + (c.toNat - '0'.toNat)) 0

/-- The whole part of a number: a zero alone, or digits that start with another. -/
def readWhole : List Char → Option (List Char × List Char)
  | [] => none
  | c :: s =>
    if c = '0' then some (['0'], s)
    else if c.isDigit then some (c :: s.takeWhile Char.isDigit, s.dropWhile Char.isDigit)
    else none

/-- The digits behind a decimal point. A point without digits is not part of a number. -/
def readFraction (s : List Char) : List Char × List Char :=
  match s with
  | '.' :: d :: s' =>
    if d.isDigit then (d :: s'.takeWhile Char.isDigit, s'.dropWhile Char.isDigit) else ([], s)
  | _ => ([], s)

/-- The sign and the digits behind an exponent mark. A mark without digits is not part of a
number. -/
def readExponent (s : List Char) : Option (Bool × List Char) × List Char :=
  match s with
  | [] => (none, s)
  | e :: s' =>
    if e = 'e' ∨ e = 'E' then
      let (negative, ds) := match s' with
        | '-' :: s'' => (true, s'')
        | '+' :: s'' => (false, s'')
        | _ => (false, s')
      if (ds.takeWhile Char.isDigit).isEmpty then (none, s)
      else (some (negative, ds.takeWhile Char.isDigit), ds.dropWhile Char.isDigit)
    else (none, s)

/-- A number without its sign. -/
def readMagnitude (negative : Bool) (s : List Char) : Option (Except Fault Number × List Char) := do
  let (whole, s₁) ← readWhole s
  let (fraction, s₂) := readFraction s₁
  let (exponent, s₃) := readExponent s₂
  if fraction.isEmpty && exponent.isNone then
    if digitLimit < whole.length then return (.error (.digits whole.length), s₃)
    let n : Int := naturalOf whole
    return (.ok (.integer (if negative then -n else n)), s₃)
  else
    let power : Int := match exponent with
      | some (true, ds) => -(naturalOf ds)
      | some (false, ds) => naturalOf ds
      | none => 0
    let digits := naturalOf (whole ++ fraction)
    return (.ok (.double (Double.ofDecimal negative digits (power - fraction.length))), s₃)

/-- A number. -/
def readNumber (s : List Char) : Reading Json :=
  let magnitude := match s with
    | '-' :: s' => readMagnitude true s'
    | _ => readMagnitude false s
  match magnitude with
  | some (.ok n, rest) => .ok (.number n, rest)
  | some (.error e, _) => .error e
  | none => .error (.grammar .value s.length)

/-- A number without a value, where such are read. -/
def readConstant (constants : Bool) (name : String) (value : Double) (rest : List Char) :
    Reading Json :=
  if constants then .ok (.number (.double value), rest) else .error (.constant name)

/-- The items of an array, from the start of one to the closing bracket. Every item takes at least
one character, so the text's length is fuel enough. -/
def readItems (item : List Char → Reading Json) : Nat → List Char → Reading (List Json)
  | 0, s => .error (.grammar .value s.length)
  | fuel + 1, s =>
    match item s with
    | .error e => .error e
    | .ok (v, rest) =>
      match skipSpace rest with
      | ']' :: rest => .ok ([v], rest)
      | ',' :: rest =>
        match readItems item fuel (skipSpace rest) with
        | .error e => .error e
        | .ok (vs, rest) => .ok (v :: vs, rest)
      | rest => .error (.grammar .comma rest.length)

/-- One member of an object: a name, a colon and a value. -/
def readMember (item : List Char → Reading Json) (s : List Char) : Reading (Utf16 × Json) :=
  match s with
  | '"' :: s' =>
    match readString s.length s' with
    | .error e => .error e
    | .ok (name, rest) =>
      match skipSpace rest with
      | ':' :: rest =>
        match item (skipSpace rest) with
        | .error e => .error e
        | .ok (v, rest) => .ok ((name, v), rest)
      | rest => .error (.grammar .colon rest.length)
  | _ => .error (.grammar .propertyName s.length)

/-- The members of an object in the order of the text, from the start of one to the closing
brace. -/
def readMembers (item : List Char → Reading Json) : Nat → List Char → Reading (List (Utf16 × Json))
  | 0, s => .error (.grammar .propertyName s.length)
  | fuel + 1, s =>
    match readMember item s with
    | .error e => .error e
    | .ok (m, rest) =>
      match skipSpace rest with
      | '}' :: rest => .ok ([m], rest)
      | ',' :: rest =>
        match readMembers item fuel (skipSpace rest) with
        | .error e => .error e
        | .ok (ms, rest) => .ok (m :: ms, rest)
      | rest => .error (.grammar .comma rest.length)

/-- The object of a list of members. -/
def ofMemberList (members : List (Utf16 × Json)) : Json :=
  .object (members.foldl (fun known m => put m.1 m.2 known) [])

/-- One value that holds no others. -/
def readPlain (constants : Bool) (s : List Char) : Reading Json :=
  match s with
  | '"' :: rest =>
    match readString s.length rest with
    | .error e => .error e
    | .ok (units, rest) => .ok (.string units, rest)
  | 'n' :: 'u' :: 'l' :: 'l' :: rest => .ok (.null, rest)
  | 't' :: 'r' :: 'u' :: 'e' :: rest => .ok (.bool true, rest)
  | 'f' :: 'a' :: 'l' :: 's' :: 'e' :: rest => .ok (.bool false, rest)
  | 'N' :: 'a' :: 'N' :: rest => readConstant constants "NaN" .nan rest
  | 'I' :: 'n' :: 'f' :: 'i' :: 'n' :: 'i' :: 't' :: 'y' :: rest =>
    readConstant constants "Infinity" (.infinite false) rest
  | '-' :: 'I' :: 'n' :: 'f' :: 'i' :: 'n' :: 'i' :: 't' :: 'y' :: rest =>
    readConstant constants "-Infinity" (.infinite true) rest
  | _ => readNumber s

/-- One value, in which arrays and objects nest at most as many levels as the first argument
says. -/
def readValue (constants : Bool) : Nat → List Char → Reading Json
  | 0, s =>
    match s with
    | '[' :: _ => .error (.depth .array)
    | '{' :: _ => .error (.depth .object)
    | _ => readPlain constants s
  | depth + 1, s =>
    match s with
    | '[' :: rest =>
      match skipSpace rest with
      | ']' :: rest => .ok (.array [], rest)
      | rest =>
        match readItems (readValue constants depth) (rest.length + 1) rest with
        | .error e => .error e
        | .ok (items, rest) => .ok (.array items, rest)
    | '{' :: rest =>
      match skipSpace rest with
      | '}' :: rest => .ok (.object [], rest)
      | rest =>
        match readMembers (readValue constants depth) (rest.length + 1) rest with
        | .error e => .error e
        | .ok (members, rest) => .ok (ofMemberList members, rest)
    | _ => readPlain constants s

/-- The value that a whole text writes. -/
def readDocument (constants : Bool) (s : List Char) : Except Fault Json :=
  if s.head? = some '\ufeff' then .error (.grammar .byteOrderMark s.length)
  else match readValue constants depthLimit (skipSpace s) with
    | .error e => .error e
    | .ok (v, rest) =>
      match skipSpace rest with
      | [] => .ok v
      | rest => .error (.grammar .extraData rest.length)

/-- A place in a text. Lines and columns count from one, characters from zero. -/
structure Position where
  line : Nat
  column : Nat
  index : Nat
  deriving DecidableEq

/-- The place behind a part of a text. -/
def Position.after (part : List Char) : Position where
  line := part.count '\n' + 1
  column := (part.reverse.takeWhile (· != '\n')).length + 1
  index := part.length

/-- Why a text is no JSON that can be used. -/
inductive DecodeError
  | malformed (problem : Problem) (position : Position)
  | constant (name : String)
  | tooManyDigits (count : Nat)
  | tooDeep (holder : Holder)
  deriving DecidableEq

/-- The wording of an error. -/
def DecodeError.message : DecodeError → String
  | .malformed problem p =>
    problem.message ++ ": line " ++ p.line.repr ++ " column " ++ p.column.repr ++ " (char " ++
      p.index.repr ++ ")"
  | .constant name => "non-finite number " ++ name ++ " is not allowed"
  | .tooManyDigits count =>
    "Exceeds the limit (" ++ digitLimit.repr ++ " digits) for integer string conversion: value has " ++
      count.repr ++ " digits; use sys.set_int_max_str_digits() to increase the limit"
  | .tooDeep holder =>
    "maximum recursion depth exceeded while decoding a JSON " ++ holder.name ++
      " from a unicode string"

/-- A fault with its place in the text. -/
def Fault.toError (s : List Char) : Fault → DecodeError
  | .grammar problem left => .malformed problem (.after (s.take (s.length - left)))
  | .constant name => .constant name
  | .digits count => .tooManyDigits count
  | .depth holder => .tooDeep holder

/-- Read a text as JSON. The constants without a value are read only if the caller says so. -/
def decode (constants : Bool) (s : List Char) : Except DecodeError Json :=
  (readDocument constants s).mapError (Fault.toError s)

end Chartdown.Json
