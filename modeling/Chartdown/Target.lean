import Chartdown.Failure
import Chartdown.Json.Value

/-! # Targets of text

A text is written as it is to whatever takes text, and as UTF-8 to files and whatever takes bytes.

* `write_isOk_iff`  every target but a value without a way to write takes a text
-/

namespace Chartdown

/-- What a text is written to. -/
inductive Target
  | file
  | byteStream
  | textStream
  /-- Something else that can be written to, with its mode if it tells one. -/
  | sink (mode : Option Json)
  /-- A value of a type that cannot be written to. -/
  | unsupported (typeName : String)

namespace Target

/-- What reaches a target. -/
inductive Written
  | text (s : String)
  | bytes (b : ByteArray)

/-- That a type of values cannot be written to. -/
structure Unsupported where
  typeName : String
  deriving DecidableEq

/-- The wording of the error. -/
def Unsupported.message (e : Unsupported) : String :=
  "Output must be a path or file-like object, got " ++ e.typeName

/-- An unsupported target as a failure. -/
def Unsupported.failure (e : Unsupported) : Failure := .plain .type e.message

/-- Whether a mode stands for bytes: it is a text with a `b`. -/
def isByteMode : Option Json → Bool
  | some (.string s) => (Text.Utf16.toChars s).contains 'b'
  | _ => false

/-- Write a text to a target. -/
def write (content : String) : Target → Except Unsupported Written
  | .file => .ok (.bytes content.toUTF8)
  | .byteStream => .ok (.bytes content.toUTF8)
  | .textStream => .ok (.text content)
  | .sink mode => .ok (if isByteMode mode then .bytes content.toUTF8 else .text content)
  | .unsupported typeName => .error ⟨typeName⟩

theorem write_isOk_iff {content : String} {t : Target} :
    (t.write content).isOk = true ↔ ∀ name, t ≠ .unsupported name := by
  cases t <;> simp [write, Except.isOk, Except.toBool]

end Target
end Chartdown
