import Chartdown.Failure

/-! # Sources of text

A text is given as it is or as bytes, in memory, in a file or in a stream. Bytes are UTF-8 and may
start with a byte order mark, which is dropped. A text that is given as such keeps its mark.

* `decode_eq_some_iff`  bytes decode to the text whose encoding they are
-/

namespace Chartdown

/-- What a text is read from. -/
inductive Source
  | text (s : String)
  | textStream (s : String)
  | bytes (b : ByteArray)
  | byteStream (b : ByteArray)
  | file (contents : ByteArray)
  | missingFile (path : String)
  /-- A value of a type that no text can be read from. -/
  | unsupported (typeName : String)

namespace Source

/-- Why no text can be read. -/
inductive Error
  | missingFile (path : String)
  | unsupported (typeName : String)
  | notUtf8
  deriving DecidableEq

/-- The wording of an error. -/
def Error.message : Error → String
  | .missingFile path => "Failed to read input file: " ++ path
  | .unsupported typeName => "Unsupported input type: " ++ typeName
  | .notUtf8 => "Input is not valid UTF-8"

/-- What keeps a text from being read as a failure. -/
def Error.failure (e : Error) : Failure :=
  match e with
  | .missingFile _ =>
    .parsing e.message (some "input_loading") (some (.plain .missingFile "No such file or directory"))
  | .unsupported _ => .parsing e.message (some "input_loading") none
  | .notUtf8 => .parsing e.message (some "decoding") (some (.plain .encoding "invalid UTF-8"))

/-- The bytes of a byte order mark. -/
def mark : List UInt8 := [0xEF, 0xBB, 0xBF]

/-- Bytes without a byte order mark at their start. -/
def dropMark (b : ByteArray) : ByteArray :=
  match b.data.toList with
  | 0xEF :: 0xBB :: 0xBF :: rest => ⟨⟨rest⟩⟩
  | _ => b

/-- The text that bytes are the encoding of, if they are one. -/
def decode? (b : ByteArray) : Option String := String.fromUTF8? b

theorem decode_eq_some_iff {b : ByteArray} {s : String} : decode? b = some s ↔ s.toUTF8 = b := by
  unfold decode? String.fromUTF8?
  constructor
  · intro h
    split at h
    · injection h with h
      rw [← h]
      rfl
    · simp at h
  · rintro rfl
    exact dif_pos s.isValidUTF8

/-- The text of bytes. -/
def decode (b : ByteArray) : Except Error String :=
  match decode? (dropMark b) with
  | some s => .ok s
  | none => .error .notUtf8

/-- The text that is read from a source. -/
def load : Source → Except Error String
  | .text s => .ok s
  | .textStream s => .ok s
  | .bytes b => decode b
  | .byteStream b => decode b
  | .file contents => decode contents
  | .missingFile path => .error (.missingFile path)
  | .unsupported typeName => .error (.unsupported typeName)

theorem dropMark_mark (rest : List UInt8) : dropMark ⟨⟨mark ++ rest⟩⟩ = ⟨⟨rest⟩⟩ := rfl

end Source
end Chartdown
