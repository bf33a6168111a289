import Chartdown.Text.Blank
import Chartdown.Text.ReferenceTable

/-! # Character references

A reference stands for a character by its number or by its name, and ends at a semicolon. Where a
name is not known, the longest bare name at its start counts, and the rest of it stays text.

* `decodeReferences_of_not_mem`  a text without an ampersand stands for itself
-/

namespace Chartdown.Text

/-- The value of a hexadecimal digit. -/
def hexValue? (c : Char) : Option Nat :=
  if '0' ≤ c ∧ c ≤ '9' then some (c.toNat - '0'.toNat)
  else if 'a' ≤ c ∧ c ≤ 'f' then some (c.toNat - 'a'.toNat + 10)
  else if 'A' ≤ c ∧ c ≤ 'F' then some (c.toNat - 'A'.toNat + 10)
  else none

/-- The number of some digits to a base. -/
def numberOf (base : Nat) (digits : List Char) : Nat :=
  digits.foldl (fun n c => n * base + (hexValue? c).getD 0) 0

/-- The names of characters with the texts they stand for. -/
def namedCharacters : List (List Char × List Char) :=
  (words namedCharactersText.toList).map fun entry =>
    match entry.splitOnP (· == ':') with
    | [name, codes] =>
      (name, (codes.splitOnP (· == '+')).map fun code => Char.ofNat (numberOf 16 code))
    | _ => ([], [])

/-- The names that need no semicolon. -/
def bareNames : List (List Char) := words bareNamesText.toList

/-- What the numbers from 128 to 159 stand for, as those numbers were used of old. -/
def oldNumbers : List Nat :=
  [0x20ac, 0x81, 0x201a, 0x192, 0x201e, 0x2026, 0x2020, 0x2021, 0x2c6, 0x2030, 0x160, 0x2039,
   0x152, 0x8d, 0x17d, 0x8f, 0x90, 0x2018, 0x2019, 0x201c, 0x201d, 0x2022, 0x2013, 0x2014, 0x2dc,
   0x2122, 0x161, 0x203a, 0x153, 0x9d, 0x17e, 0x178]

/-- Whether a number stands for no character that a text may hold. -/
def isBarredNumber (n : Nat) : Bool :=
  (1 ≤ n && n ≤ 8) || n == 0xb || (0xe ≤ n && n ≤ 0x1f) || n == 0x7f ||
    (0xfdd0 ≤ n && n ≤ 0xfdef) || 0xfffe ≤ n % 0x10000

/-- The text of a reference by number. -/
def characterOfNumber (n : Nat) : List Char :=
  if n = 0 ∨ (0xd800 ≤ n ∧ n ≤ 0xdfff) ∨ 0x10ffff < n then ['\ufffd']
  else if 0x80 ≤ n ∧ n ≤ 0x9f then [Char.ofNat (oldNumbers.getD (n - 0x80) 0)]
  else if isBarredNumber n then []
  else [Char.ofNat n]

/-- The text of a name. -/
def characterOfName? (name : List Char) : Option (List Char) := namedCharacters.lookup name

/-- The longest beginning of a text, of at most a number of characters, that is a bare name: its
text and what follows. -/
def bareReference? (s : List Char) : Nat → Option (List Char × List Char)
  | 0 => none
  | n + 1 =>
    let name := s.take (n + 1)
    if bareNames.contains name then some ((characterOfName? name).getD [], s.drop (n + 1))
    else bareReference? s n

/-- The text of a reference by a number to a base, and what follows it. The number has at most
`longest` digits. -/
def numberReference? (base longest : Nat) (isDigit : Char → Bool) (s : List Char) :
    Option (List Char × List Char) :=
  let digits := s.takeWhile isDigit
  match s.drop digits.length with
  | ';' :: rest =>
    if 1 ≤ digits.length ∧ digits.length ≤ longest then
      some (characterOfNumber (numberOf base digits), rest)
    else none
  | _ => none

/-- The text of a reference by name, and what follows it. A name that is not known may start with
one that needs no semicolon. -/
def nameReference? (s : List Char) : Option (List Char × List Char) :=
  let name := s.takeWhile fun c => !"\t\n\x0c <&#;".toList.contains c
  match s.drop name.length with
  | ';' :: rest =>
    if 32 < name.length then none
    else match characterOfName? name with
      | some text => some (text, rest)
      | none => bareReference? s name.length
  | _ => none

/-- What a reference behind an ampersand stands for, and what follows it. -/
def reference? (s : List Char) : Option (List Char × List Char) :=
  match s with
  | '#' :: 'x' :: rest => numberReference? 16 rest.length (fun c => (hexValue? c).isSome) rest
  | '#' :: 'X' :: rest => numberReference? 16 rest.length (fun c => (hexValue? c).isSome) rest
  | '#' :: rest => numberReference? 10 7 (fun c => '0' ≤ c && c ≤ '9') rest
  | s => nameReference? s

theorem length_bareReference? {s text rest : List Char} {n : Nat}
    (h : bareReference? s n = some (text, rest)) : rest.length ≤ s.length := by
  induction n with
  | zero => simp [bareReference?] at h
  | succ n ih =>
    simp only [bareReference?] at h
    split at h
    · simp only [Option.some.injEq, Prod.mk.injEq] at h
      rw [← h.2]
      simp
    · exact ih h

theorem length_numberReference? {base longest : Nat} {isDigit : Char → Bool}
    {s text rest : List Char} (h : numberReference? base longest isDigit s = some (text, rest)) :
    rest.length ≤ s.length := by
  simp only [numberReference?] at h
  split at h
  · rename_i hd
    split at h
    · simp only [Option.some.injEq, Prod.mk.injEq] at h
      have := congrArg List.length hd
      simp only [List.length_drop, List.length_cons] at this
      rw [← h.2]
      omega
    · simp at h
  · simp at h

theorem length_nameReference? {s text rest : List Char}
    (h : nameReference? s = some (text, rest)) : rest.length ≤ s.length := by
  simp only [nameReference?] at h
  split at h
  · rename_i hd
    split at h
    · simp at h
    · split at h
      · simp only [Option.some.injEq, Prod.mk.injEq] at h
        have := congrArg List.length hd
        simp only [List.length_drop, List.length_cons] at this
        rw [← h.2]
        omega
      · exact length_bareReference? h
  · simp at h

theorem length_reference? {s text rest : List Char} (h : reference? s = some (text, rest)) :
    rest.length ≤ s.length := by
  unfold reference? at h
  split at h
  · exact Nat.le_trans (length_numberReference? h) (by simp; omega)
  · exact Nat.le_trans (length_numberReference? h) (by simp; omega)
  · exact Nat.le_trans (length_numberReference? h) (by simp)
  · exact length_nameReference? h

/-- A text with its references replaced by what they stand for. -/
def decodeReferences (s : List Char) : List Char :=
  match s with
  | [] => []
  | c :: rest =>
    if c = '&' then
      match _h : reference? rest with
      | some (text, rest') => text ++ decodeReferences rest'
      | none => '&' :: decodeReferences rest
    else c :: decodeReferences rest
termination_by s.length
decreasing_by
  · have := length_reference? _h
    simp only [List.length_cons]
    omega
  · simp
  · simp

theorem decodeReferences_of_not_mem {s : List Char} (h : '&' ∉ s) : decodeReferences s = s := by
  induction s with
  | nil => simp [decodeReferences]
  | cons c rest ih =>
    simp only [List.mem_cons, not_or] at h
    rw [decodeReferences, if_neg (Ne.symm h.1), ih h.2]

end Chartdown.Text
