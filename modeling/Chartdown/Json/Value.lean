import Chartdown.Number.Shortest
import Chartdown.Text.Utf16

/-! # JSON values

Objects keep their members in the order of first appearance; a name that appears again replaces
the value and keeps the place.

* `lookup_put`  a member that was put is found
-/

namespace Chartdown

open Text (Utf16)

/-- A value of JSON. -/
inductive Json
  | null
  | bool (b : Bool)
  | number (n : Number)
  | string (s : Utf16)
  | array (items : List Json)
  | object (members : List (Utf16 × Json))
  deriving Inhabited

namespace Json

/-- A string given as text. -/
def ofString (s : String) : Json := .string (Utf16.ofString s)

/-- A whole number. -/
def ofInt (n : Int) : Json := .number (.integer n)

/-- An object whose names are given as text. -/
def ofMembers (members : List (String × Json)) : Json :=
  .object (members.map fun m => (Utf16.ofString m.1, m.2))

/-- Give a name a value: at its place if it has one, else at the end. -/
def put (name : Utf16) (value : Json) : List (Utf16 × Json) → List (Utf16 × Json)
  | [] => [(name, value)]
  | m :: rest => if m.1 = name then (name, value) :: rest else m :: put name value rest

/-- The value under a name. -/
def lookup (name : Utf16) : List (Utf16 × Json) → Option Json
  | [] => none
  | m :: rest => if m.1 = name then some m.2 else lookup name rest

theorem lookup_put (name : Utf16) (value : Json) (members : List (Utf16 × Json)) :
    lookup name (put name value members) = some value := by
  induction members with
  | nil => simp [put, lookup]
  | cons m rest ih => by_cases h : m.1 = name <;> simp [put, lookup, h, ih]

theorem lookup_put_of_ne {name other : Utf16} (h : other ≠ name) (value : Json)
    (members : List (Utf16 × Json)) :
    lookup other (put name value members) = lookup other members := by
  induction members with
  | nil => simp [put, lookup, Ne.symm h]
  | cons m rest ih =>
    by_cases hm : m.1 = name
    · simp [put, lookup, hm, Ne.symm h]
    · simp only [put, hm, if_false, lookup, ih]

/-- The kinds of JSON values, numbers split by their notation. -/
inductive Kind
  | null | bool | integer | double | string | array | object
  deriving DecidableEq

/-- The kind of a value. -/
def kind : Json → Kind
  | .null => .null
  | .bool _ => .bool
  | .number (.integer _) => .integer
  | .number (.double _) => .double
  | .string _ => .string
  | .array _ => .array
  | .object _ => .object

/-- The name of a kind in messages. -/
def Kind.name : Kind → String
  | .null => "NoneType"
  | .bool => "bool"
  | .integer => "int"
  | .double => "float"
  | .string => "str"
  | .array => "list"
  | .object => "dict"

/-- The name of a value's kind in messages. -/
def kindName (v : Json) : String := v.kind.name

/-- Whether a value counts as given: null, false, zero and whatever is empty do not. -/
def isGiven : Json → Bool
  | .null => false
  | .bool b => b
  | .number (.integer n) => n != 0
  | .number (.double d) => !d.isZero
  | .string s => !s.isEmpty
  | .array items => !items.isEmpty
  | .object members => !members.isEmpty

/-- The value of a number or of a truth value, in units of `2 ^ -1074`. -/
def units? : Json → Option Int
  | .bool b => some (if b then twoTo 1074 else 0)
  | .number n => n.units?
  | _ => none

mutual
/-- Whether two values are equal in meaning: numbers by value, truth values as 0 and 1, objects
without regard to the order of members. -/
def agrees : Json → Json → Bool
  | .null, w => w.kind == .null
  | .bool b, w => units? (.bool b) == units? w
  | .number (.integer n), w => units? (.number (.integer n)) == units? w
  | .number (.double d), w =>
    match w with
    | .number (.double e) => d == e && d != .nan || (d.isZero && e.isZero)
    | w => (units? (.number (.double d))).isSome && units? (.number (.double d)) == units? w
  | .string s, w => match w with
    | .string t => s == t
    | _ => false
  | .array items, w => match w with
    | .array others => agreesItems items others
    | _ => false
  | .object members, w => match w with
    | .object others => members.length == others.length && agreesMembers members others
    | _ => false

/-- Whether the items of two arrays are equal in meaning, one by one. -/
def agreesItems : List Json → List Json → Bool
  | [], others => others.isEmpty
  | v :: rest, others => match others with
    | w :: others => agrees v w && agreesItems rest others
    | [] => false

/-- Whether every member has a partner that is equal in meaning. -/
def agreesMembers : List (Utf16 × Json) → List (Utf16 × Json) → Bool
  | [], _ => true
  | (name, v) :: rest, others => match lookup name others with
    | some w => agrees v w && agreesMembers rest others
    | none => false
end

end Json
end Chartdown
