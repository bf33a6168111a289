import Chartdown.Json.Decode
import Chartdown.Text.Numeral

/-! # Points of a chart

The data of a chart is a non-empty JSON array of objects, each with a `key` and a `value`. Keys are
strings or numbers, values are numbers, and every number must have a value as a double. A key is
kept as it was written, a value becomes a double.
-/

namespace Chartdown.Chart

open Text (Utf16)

/-- What a point is about. -/
inductive Key
  | text (s : Utf16)
  | number (n : Number)
  deriving DecidableEq

/-- A point of a chart. -/
structure Point where
  key : Key
  value : Number
  deriving DecidableEq

/-- A key as JSON. -/
def Key.toJson : Key → Json
  | .text s => .string s
  | .number n => .number n

/-- Whether a value of JSON is a number or the text of one. Truth values are no numbers. -/
def isNumericValue : Json → Bool
  | .string s => Text.isNumeral (Text.trim (Utf16.toChars s))
  | .number _ => true
  | _ => false

/-- Whether a key is a number or the text of one. -/
def Key.isNumeric (k : Key) : Bool := isNumericValue k.toJson

/-- What is wrong with an item of a data array. -/
inductive PointFault
  | notObject
  | noKey
  | noValue
  | keyKind (kind : Json.Kind)
  | valueKind (kind : Json.Kind)
  | keyOutOfRange
  | keyNotFinite
  | valueOutOfRange
  | valueNotFinite
  deriving DecidableEq

/-- The wording of a fault, behind the item's index. -/
def PointFault.message : PointFault → String
  | .notObject => " is not an object"
  | .noKey => " has no key"
  | .noValue => " has no value"
  | .keyKind kind => " key must be a string or number, got " ++ kind.name
  | .valueKind kind => " value must be a number, got " ++ kind.name
  | .keyOutOfRange => " key is out of range"
  | .keyNotFinite => " key is not finite"
  | .valueOutOfRange => " value is out of range"
  | .valueNotFinite => " value is not finite"

/-- Why a text is no chart data. -/
inductive DataError
  | json (error : Json.DecodeError)
  | notArray (kind : Json.Kind)
  | noPoints
  | point (index : Nat) (fault : PointFault)
  deriving DecidableEq

/-- The wording of an error. -/
def DataError.message : DataError → String
  | .json (.tooDeep _) => "data is nested too deeply"
  | .json error => error.message
  | .notArray kind => "expected an array of points, got " ++ kind.name
  | .noPoints => "data array is empty"
  | .point index fault => "point " ++ index.repr ++ fault.message

/-- The double nearest to a number, which must be finite. The two faults tell a whole number
beyond the range of doubles from a double without a value. -/
def finiteDouble (outOfRange notFinite : PointFault) : Number → Except PointFault Double
  | .integer n => if (Double.ofInt n).isFinite then .ok (Double.ofInt n) else .error outOfRange
  | .double d => if d.isFinite then .ok d else .error notFinite

/-- The key that a value of JSON is. -/
def Key.ofJson? : Json → Option Key
  | .string s => some (.text s)
  | .number n => some (.number n)
  | _ => none

/-- Check that a key which is a number is finite. -/
def Key.check : Key → Except PointFault Unit
  | .text _ => .ok ()
  | .number n => (finiteDouble .keyOutOfRange .keyNotFinite n).map fun _ => ()

/-- The point that an item of a data array describes. -/
def Point.ofJson : Json → Except PointFault Point
  | .object members =>
    match Json.lookup (Utf16.ofString "key") members with
    | none => .error .noKey
    | some key =>
      match Json.lookup (Utf16.ofString "value") members with
      | none => .error .noValue
      | some value =>
        match Key.ofJson? key with
        | none => .error (.keyKind key.kind)
        | some key =>
          match value with
          | .number n =>
            match key.check with
            | .error fault => .error fault
            | .ok _ =>
              match finiteDouble .valueOutOfRange .valueNotFinite n with
              | .error fault => .error fault
              | .ok d => .ok ⟨key, .double d⟩
          | value => .error (.valueKind value.kind)
  | _ => .error .notObject

/-- The points of items of a data array, the first of which has the given index. -/
def pointsFrom (index : Nat) : List Json → Except DataError (List Point)
  | [] => .ok []
  | item :: rest =>
    match Point.ofJson item with
    | .error fault => .error (.point index fault)
    | .ok p =>
      match pointsFrom (index + 1) rest with
      | .error e => .error e
      | .ok points => .ok (p :: points)

/-- The points of a value of JSON. -/
def pointsOfJson : Json → Except DataError (List Point)
  | .array [] => .error .noPoints
  | .array items => pointsFrom 0 items
  | v => .error (.notArray v.kind)

/-- The points that a JSON text describes. Constants without a value are refused. -/
def decodePoints (s : List Char) : Except DataError (List Point) :=
  match Json.decode false s with
  | .error e => .error (.json e)
  | .ok v => pointsOfJson v

end Chartdown.Chart
