import Chartdown.Chart.Description
import Chartdown.Proofs.Json.Reading

/-!
# Ways of writing a chart

A chart can be written in many ways: names and strings have a choice of quotes, fields a choice of
order, commas may trail, brackets may be left out, and there may be space between any two tokens.
A `Writing` holds all these choices. It has a text (`Writing.text`) and it says which points are
written (`Writing.points`).

A `Change` makes other choices without touching what is written.

## Key results

- `ItemsText.points_change`: a change of writing leaves the points alone
-/

namespace Chartdown.Chart.Dialect

open Text (Utf16)
open Json (NumberText)

/-! ### Tokens -/

/-- Space between two tokens. -/
abbrev Gap := { g : List Char // ∀ c ∈ g, Json.isSpace c = true }

/-- No space. -/
def Gap.none : Gap := ⟨[], by simp⟩

/-- A single space. -/
def Gap.blank : Gap := ⟨[' '], by decide⟩

/-- A line feed. -/
def Gap.feed : Gap := ⟨['\n'], by decide⟩

/-- The quotes around a text. -/
inductive Quote
  | single | double

/-- The character of a quote. -/
def Quote.char : Quote → Char
  | .single => '\''
  | .double => '"'

/-- A text between quotes. -/
def Quote.write (q : Quote) (s : List Char) : List Char := q.char :: (s ++ [q.char])

/-- The two fields of a point. -/
inductive Role
  | key | value

/-- The name of a field. -/
def Role.chars : Role → List Char
  | .key => "key".toList
  | .value => "value".toList

/-- How a name is written: without quotes or in some. -/
inductive NameStyle
  | bare
  | quoted (q : Quote)

/-- A name in a style. -/
def NameStyle.write (name : List Char) : NameStyle → List Char
  | .bare => name
  | .quoted q => q.write name

/-- A text of characters that stand for themselves. -/
abbrev PlainText := { s : List Char // ∀ c ∈ s, Json.IsPlainChar c }

/-- A value as it is written. -/
inductive ScalarText
  | string (quote : Quote) (s : PlainText)
  | number (n : NumberText)

/-- The text of a value. -/
def ScalarText.text : ScalarText → List Char
  | .string q s => q.write s
  | .number n => n.text

/-- The key that a value means. -/
def ScalarText.toKey : ScalarText → Key
  | .string _ s => .text (Utf16.ofChars s)
  | .number n => .number n.value

/-! ### Points -/

/-- The choices in front of a value. -/
structure NameText where
  style : NameStyle
  beforeColon : Gap := .none
  afterColon : Gap := .none

/-- A field as it is written. -/
structure FieldText where
  role : Role
  name : NameText
  value : ScalarText

/-- The text of a field. -/
def FieldText.text (f : FieldText) : List Char :=
  f.name.style.write f.role.chars ++
    (f.name.beforeColon ++ (':' :: (f.name.afterColon ++ f.value.text)))

/-- What stands before a closing brace or bracket: space, in which there may be a comma. -/
structure Ending where
  beforeComma : Option Gap := none
  gap : Gap := .none

/-- The text of an ending. -/
def Ending.text (e : Ending) : List Char :=
  match e.beforeComma with
  | none => e.gap
  | some g => g ++ ',' :: e.gap.val

/-- A point as it is written. -/
structure PointText where
  keyFirst : Bool := true
  keyName : NameText
  key : ScalarText
  valueName : NameText
  value : NumberText
  start : Gap := .none
  beforeComma : Gap := .none
  afterComma : Gap := .none
  ending : Ending := {}

namespace PointText

/-- The field of the key. -/
def keyField (p : PointText) : FieldText := ⟨.key, p.keyName, p.key⟩

/-- The field of the value. -/
def valueField (p : PointText) : FieldText := ⟨.value, p.valueName, .number p.value⟩

/-- The field that is written first. -/
def firstField (p : PointText) : FieldText := if p.keyFirst then p.keyField else p.valueField

/-- The field that is written last. -/
def lastField (p : PointText) : FieldText := if p.keyFirst then p.valueField else p.keyField

/-- The text of a point. -/
def text (p : PointText) : List Char :=
  '\x7b' :: (p.start ++ (p.firstField.text ++ (p.beforeComma ++ (',' :: (p.afterComma ++
    (p.lastField.text ++ (p.ending.text ++ ['\x7d'])))))))

/-- The point that is meant. -/
def point (p : PointText) : Point := ⟨p.key.toKey, .double p.value.value.toDouble⟩

end PointText

/-! ### Arrays -/

/-- Some points as they are written, at least one. -/
inductive ItemsText
  | last (p : PointText) (ending : Ending)
  | next (p : PointText) (beforeComma afterComma : Gap) (rest : ItemsText)

namespace ItemsText

/-- The text of points. -/
def text : ItemsText → List Char
  | .last p ending => p.text ++ ending.text
  | .next p beforeComma afterComma rest =>
    p.text ++ (beforeComma ++ (',' :: (afterComma ++ rest.text)))

/-- The written points. -/
def toList : ItemsText → List PointText
  | .last p _ => [p]
  | .next p _ _ rest => p :: rest.toList

/-- The points that are meant. -/
def points (items : ItemsText) : List Point := items.toList.map PointText.point

end ItemsText

/-- A data array as it is written: either bracket may be left out. -/
structure ArrayText where
  /-- The space behind the opening bracket, if there is one. -/
  opening : Option Gap
  items : ItemsText
  /-- Whether there is a closing bracket. -/
  closed : Bool

namespace ArrayText

/-- The text in front of the items of an array. -/
def front (a : ArrayText) : List Char :=
  match a.opening with
  | some g => '[' :: g.val
  | none => []

/-- The text of an array. -/
def text (a : ArrayText) : List Char := a.front ++ (a.items.text ++ if a.closed then [']'] else [])

end ArrayText

/-- A chart as it is written: lines, the data, and lines that set fields. The data comes last
unless it has both brackets, and it starts below its mark if it has no opening one. -/
structure Writing where
  before : List (List Char)
  indent : Gap := .none
  afterMark : Gap
  array : ArrayText
  finish : Gap := .none
  after : List (List Char) := []
  before_ok : ∀ line ∈ before, '\n' ∉ line ∧ dataMark.isPrefixOf (Text.trim line) = false
  after_ok : ∀ line ∈ after, '\n' ∉ line ∧
    (Text.isBlankText line = true ∨ (scalarLine? (Text.trim line)).isSome = true)
  below_of_opening : array.opening = none → '\n' ∈ afterMark.val
  closed_of_after : after ≠ [] → array.opening ≠ none ∧ array.closed = true

/-- The fields that lines set, in order. -/
def recordedBy (lines : List (List Char)) : List (Field × List Char) :=
  lines.filterMap fun line => scalarLine? (Text.trim line)

theorem recordedBy_append (lines more : List (List Char)) :
    recordedBy (lines ++ more) = recordedBy lines ++ recordedBy more := List.filterMap_append

namespace Writing

/-- The text of a chart. -/
def text (w : Writing) : List Char :=
  w.before.flatMap (· ++ ['\n']) ++ (w.indent ++ (dataMark ++ (w.afterMark ++ (w.array.text ++
    (w.finish ++ w.after.flatMap ('\n' :: ·))))))

/-- The fields that are set, in order. -/
def recorded (w : Writing) : List (Field × List Char) := recordedBy (w.before ++ w.after)

/-- The points that are meant. -/
def points (w : Writing) : List Point := w.array.items.points

end Writing

/-! ### Other choices -/

/-- Another choice at each place. -/
structure Change where
  gap : Gap → Gap := id
  quote : Quote → Quote := id
  name : NameText → NameText := id
  ending : Ending → Ending := id

def ScalarText.change (c : Change) : ScalarText → ScalarText
  | .string q s => .string (c.quote q) s
  | .number n => .number n

def FieldText.change (c : Change) (f : FieldText) : FieldText :=
  ⟨f.role, c.name f.name, f.value.change c⟩

def PointText.change (c : Change) (p : PointText) : PointText :=
  { p with
    keyName := c.name p.keyName, key := p.key.change c, valueName := c.name p.valueName
    start := c.gap p.start, beforeComma := c.gap p.beforeComma, afterComma := c.gap p.afterComma
    ending := c.ending p.ending }

def ItemsText.change (c : Change) : ItemsText → ItemsText
  | .last p ending => .last (p.change c) (c.ending ending)
  | .next p beforeComma afterComma rest =>
    .next (p.change c) (c.gap beforeComma) (c.gap afterComma) (rest.change c)

theorem PointText.firstField_change (c : Change) (p : PointText) :
    (p.change c).firstField = p.firstField.change c := by
  unfold firstField
  cases hkey : p.keyFirst <;> simp [change, hkey] <;> rfl

theorem PointText.lastField_change (c : Change) (p : PointText) :
    (p.change c).lastField = p.lastField.change c := by
  unfold lastField
  cases hkey : p.keyFirst <;> simp [change, hkey] <;> rfl

/-- A change leaves the key alone. -/
@[simp] theorem ScalarText.toKey_change (c : Change) (s : ScalarText) :
    (s.change c).toKey = s.toKey := by
  cases s <;> rfl

/-- A change leaves the point alone. -/
@[simp] theorem PointText.point_change (c : Change) (p : PointText) :
    (p.change c).point = p.point := by
  simp [point, change]

/-- A change leaves the points alone. -/
@[simp] theorem ItemsText.points_change (c : Change) (items : ItemsText) :
    (items.change c).points = items.points := by
  unfold points
  induction items with
  | last p ending => simp [change, toList]
  | next p g g' rest ih => simp [change, toList, ih]

end Chartdown.Chart.Dialect
