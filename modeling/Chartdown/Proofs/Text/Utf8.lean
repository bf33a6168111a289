import Mathlib.Data.List.Basic
import Mathlib.Data.List.TakeWhile

/-!
# Well-formed UTF-8

A character is one to four bytes. The first byte tells how many go on behind it, and each of these
holds six bits of the character's number. The bytes must be the fewest that can hold the number, the
number no surrogate, and at most `0x10FFFF`. A text is one character after the other.

Bytes that are no text have a first flaw (`Flawed`) behind a part that is one: a byte that starts no
character, a character that is cut off, or one whose number is not to be written so.

## Key results

- `wellFormed_iff`: the well-formed bytes are those of the strings
- `WellFormed.of_append`: the bytes behind a text are a text if all are
- `not_wellFormed_iff`: all other bytes have a flaw
-/

namespace Chartdown.Text.Utf8

/-- Whether a byte goes on with a character. -/
def goesOn (b : UInt8) : Bool := decide (0x80 ≤ b.toNat) && decide (b.toNat < 0xC0)

/-- How many bytes go on behind a first byte, and the bits of the number that it holds itself. -/
def first? (a : UInt8) : Option (Nat × Nat) :=
  if a.toNat < 0x80 then some (0, a.toNat)
  else if a.toNat < 0xC0 then none
  else if a.toNat < 0xE0 then some (1, a.toNat - 0xC0)
  else if a.toNat < 0xF0 then some (2, a.toNat - 0xE0)
  else if a.toNat < 0xF8 then some (3, a.toNat - 0xF0)
  else none

/-- The number with some first bits, and six bits in each byte that goes on. -/
def number (bits : Nat) (tail : List UInt8) : Nat :=
  tail.foldl (fun n b => 0x40 * n + (b.toNat - 0x80)) bits

theorem number_nil (bits : Nat) : number bits [] = bits := rfl

theorem number_cons (bits : Nat) (b : UInt8) (tail : List UInt8) :
    number bits (b :: tail) = number (0x40 * bits + (b.toNat - 0x80)) tail := by
  simp only [number, List.foldl_cons]

/-- Bytes that have the form of a character with a number, whatever the number is. -/
inductive Form : List UInt8 → Nat → Prop
  | mk {a : UInt8} {tail : List UInt8} {bits : Nat} (hfirst : first? a = some (tail.length, bits))
      (htail : ∀ b ∈ tail, goesOn b = true) : Form (a :: tail) (number bits tail)

/-- The least number for which so many bytes are needed. -/
def least : Nat → Nat
  | 2 => 0x80
  | 3 => 0x800
  | 4 => 0x10000
  | _ => 0

/-- Bytes that are those of the character with a number. -/
structure Encodes (bytes : List UInt8) (code : Nat) : Prop where
  form : Form bytes code
  isShortest : least bytes.length ≤ code
  notSurrogate : code < 0xD800 ∨ 0xE000 ≤ code
  inRange : code < 0x110000

/-- Bytes that are one character after the other. -/
inductive WellFormed : List UInt8 → Prop
  | nil : WellFormed []
  | cons {bytes rest : List UInt8} {code : Nat} (h : Encodes bytes code) (hrest : WellFormed rest) :
      WellFormed (bytes ++ rest)

/-- Bytes that start with no character. -/
inductive Flawed : List UInt8 → Prop
  /-- The first byte goes on with a character that is not there, or is no byte of any. -/
  | noFirst {a : UInt8} {back : List UInt8} (hfirst : first? a = none) : Flawed (a :: back)
  /-- A byte that should go on with the character is missing. -/
  | truncated {a : UInt8} {tail back : List UInt8} {more bits : Nat}
      (hfirst : first? a = some (more, bits)) (htail : ∀ b ∈ tail, goesOn b = true)
      (hmore : tail.length < more) (hback : ∀ b ∈ back.head?, goesOn b = false) :
      Flawed (a :: tail ++ back)
  | overlong {bytes back : List UInt8} {code : Nat} (h : Form bytes code)
      (hlong : code < least bytes.length) : Flawed (bytes ++ back)
  | surrogate {bytes back : List UInt8} {code : Nat} (h : Form bytes code) (hge : 0xD800 ≤ code)
      (hlt : code < 0xE000) : Flawed (bytes ++ back)
  | beyond {bytes back : List UInt8} {code : Nat} (h : Form bytes code) (hge : 0x110000 ≤ code) :
      Flawed (bytes ++ back)

/-! ### The form of a character -/

variable {bytes other front back rest : List UInt8} {code : Nat}

theorem Form.ne_nil (h : Form bytes code) : bytes ≠ [] := by
  cases h
  exact List.cons_ne_nil _ _

/-- The first byte tells where a character ends. -/
theorem Form.eq_of_append {code' : Nat} (h : Form bytes code) (h' : Form other code')
    (heq : bytes ++ rest = other ++ back) : bytes = other ∧ code = code' ∧ rest = back := by
  cases h with
  | @mk a tail bits hfirst _ =>
    cases h' with
    | @mk a' tail' bits' hfirst' _ =>
      simp only [List.cons_append, List.cons.injEq] at heq
      obtain ⟨rfl, heq⟩ := heq
      rw [hfirst, Option.some.injEq, Prod.mk.injEq] at hfirst'
      obtain ⟨hlength, rfl⟩ := hfirst'
      obtain ⟨rfl, rfl⟩ := List.append_inj heq hlength
      exact ⟨rfl, rfl, rfl⟩

/-- How many bytes a form has, the first of them, and what it is about. -/
theorem first?_eq_some {a : UInt8} {more bits : Nat} (h : first? a = some (more, bits)) :
    (more = 0 ∧ a.toNat < 0x80 ∧ bits = a.toNat) ∨
    (more = 1 ∧ a.toNat = 0xC0 + bits ∧ bits < 0x20) ∨
    (more = 2 ∧ a.toNat = 0xE0 + bits ∧ bits < 0x10) ∨
    (more = 3 ∧ a.toNat = 0xF0 + bits ∧ bits < 0x08) := by
  unfold first? at h
  split_ifs at h
  all_goals
    simp only [Option.some.injEq, Prod.mk.injEq] at h
    obtain ⟨rfl, rfl⟩ := h
    omega

theorem first?_of_lt {a : UInt8} (h : a.toNat < 0x80) : first? a = some (0, a.toNat) := by
  unfold first?
  rw [if_pos h]

theorem first?_two {a : UInt8} {bits : Nat} (h : a.toNat = 0xC0 + bits) (hlt : bits < 0x20) :
    first? a = some (1, bits) := by
  unfold first?
  rw [if_neg (by omega), if_neg (by omega), if_pos (by omega), h, Nat.add_sub_cancel_left]

theorem first?_three {a : UInt8} {bits : Nat} (h : a.toNat = 0xE0 + bits) (hlt : bits < 0x10) :
    first? a = some (2, bits) := by
  unfold first?
  rw [if_neg (by omega), if_neg (by omega), if_neg (by omega), if_pos (by omega), h,
    Nat.add_sub_cancel_left]

theorem first?_four {a : UInt8} {bits : Nat} (h : a.toNat = 0xF0 + bits) (hlt : bits < 0x08) :
    first? a = some (3, bits) := by
  unfold first?
  rw [if_neg (by omega), if_neg (by omega), if_neg (by omega), if_neg (by omega),
    if_pos (by omega), h, Nat.add_sub_cancel_left]

theorem goesOn_iff {b : UInt8} : goesOn b = true ↔ 0x80 ≤ b.toNat ∧ b.toNat < 0xC0 := by
  simp [goesOn]

/-! ### Characters -/

/-- The last six bits of a number, in a byte that goes on. -/
def lastBits (n : Nat) : UInt8 := .ofNat (n % 64 + 128)

theorem toNat_lastBits (n : Nat) : (lastBits n).toNat = 0x80 + n % 64 := by
  unfold lastBits
  rw [UInt8.toNat_ofNat']
  omega

theorem goesOn_of_mem_lastBits {ns : List Nat} : ∀ b ∈ ns.map lastBits, goesOn b = true := by
  intro b hb
  obtain ⟨n, -, rfl⟩ := List.mem_map.mp hb
  rw [goesOn_iff, toNat_lastBits]
  omega

theorem number_lastBits (bits : Nat) (ns : List Nat) :
    number bits (ns.map lastBits) = ns.foldl (fun m n => 0x40 * m + n % 64) bits := by
  unfold number
  simp only [List.foldl_map, toNat_lastBits, Nat.add_sub_cancel_left]

/-- A first byte and the last bits of some numbers are a character if they hold its number. -/
theorem encodes_lastBits {a : UInt8} {bits : Nat} {ns : List Nat}
    (hfirst : first? a = some (ns.length, bits))
    (hnumber : ns.foldl (fun m n => 0x40 * m + n % 64) bits = code)
    (hshort : least (ns.length + 1) ≤ code)
    (hvalid : code < 0xD800 ∨ 0xDFFF < code ∧ code < 0x110000) :
    Encodes (a :: ns.map lastBits) code := by
  rw [← number_lastBits] at hnumber
  subst hnumber
  refine ⟨.mk ?_ goesOn_of_mem_lastBits, ?_, by omega, by omega⟩
  · rw [List.length_map]
    exact hfirst
  · rw [List.length_cons, List.length_map]
    exact hshort

/-- Every character is encoded as one. -/
theorem encodes_utf8EncodeChar (c : Char) : Encodes (String.utf8EncodeChar c) c.toNat := by
  have hvalid : c.val.toNat < 0xD800 ∨ 0xDFFF < c.val.toNat ∧ c.val.toNat < 0x110000 := c.valid
  show Encodes (String.utf8EncodeChar c) c.val.toNat
  unfold String.utf8EncodeChar
  generalize c.val.toNat = v at hvalid ⊢
  have hbyte {n : Nat} (hn : n < 256) : (UInt8.ofNat n).toNat = n := by
    rw [UInt8.toNat_ofNat']
    omega
  -- One case for each number of bytes: the first holds the bits that the others leave.
  simp only
  split_ifs with hone htwo hthree
  · have hfirst := first?_of_lt (a := .ofNat v) (by rw [hbyte (by omega)]; omega)
    show Encodes (_ :: [].map lastBits) v
    exact encodes_lastBits hfirst (hbyte (by omega)) (Nat.zero_le v) hvalid
  · have hfirst : first? (.ofNat (v / 64 % 32 + 192)) = some (1, v / 64 % 32) :=
      first?_two (by rw [hbyte (by omega)]; omega) (by omega)
    have hnumber : 64 * (v / 64 % 32) + v % 64 = v := by omega
    show Encodes (_ :: [v].map lastBits) v
    exact encodes_lastBits hfirst hnumber (show 0x80 ≤ v by omega) hvalid
  · have hfirst : first? (.ofNat (v / 4096 % 16 + 224)) = some (2, v / 4096 % 16) :=
      first?_three (by rw [hbyte (by omega)]; omega) (by omega)
    have hnumber : 64 * (64 * (v / 4096 % 16) + v / 64 % 64) + v % 64 = v := by omega
    show Encodes (_ :: [v / 64, v].map lastBits) v
    exact encodes_lastBits hfirst hnumber (show 0x800 ≤ v by omega) hvalid
  · have hfirst : first? (.ofNat (v / 262144 % 8 + 240)) = some (3, v / 262144 % 8) :=
      first?_four (by rw [hbyte (by omega)]; omega) (by omega)
    have hnumber :
        64 * (64 * (64 * (v / 262144 % 8) + v / 4096 % 64) + v / 64 % 64) + v % 64 = v := by
      omega
    show Encodes (_ :: [v / 4096, v / 64, v].map lastBits) v
    exact encodes_lastBits hfirst hnumber (show 0x10000 ≤ v by omega) hvalid

/-- A number tells the bits that it is made of. -/
theorem number_inj {bits bits' : Nat} {tail tail' : List UInt8}
    (hlength : tail.length = tail'.length) (h : ∀ b ∈ tail, goesOn b = true)
    (h' : ∀ b ∈ tail', goesOn b = true) (heq : number bits tail = number bits' tail') :
    bits = bits' ∧ tail = tail' := by
  induction tail generalizing bits bits' tail' with
  | nil =>
    obtain rfl := List.eq_nil_of_length_eq_zero hlength.symm
    exact ⟨heq, rfl⟩
  | cons b tail ih =>
    cases tail' with
    | nil => cases hlength
    | cons b' tail' =>
      obtain ⟨hb, htail⟩ := List.forall_mem_cons.mp h
      obtain ⟨hb', htail'⟩ := List.forall_mem_cons.mp h'
      rw [goesOn_iff] at hb hb'
      rw [number_cons, number_cons] at heq
      obtain ⟨hbits, rfl⟩ := ih (Nat.succ.inj hlength) htail htail' heq
      -- Six bits of a byte count, and the two others are the same in both.
      have hbyte : b.toNat = b'.toNat := by omega
      rw [UInt8.toNat_inj.mp hbyte]
      exact ⟨by omega, rfl⟩

/-- The numbers that so many bytes can hold, of those that are not held by fewer. -/
theorem Encodes.range (h : Encodes bytes code) :
    (bytes.length = 1 ∧ code < 0x80) ∨ (bytes.length = 2 ∧ 0x80 ≤ code ∧ code < 0x800) ∨
      (bytes.length = 3 ∧ 0x800 ≤ code ∧ code < 0x10000) ∨
      (bytes.length = 4 ∧ 0x10000 ≤ code) := by
  obtain ⟨hform, hshort, -, -⟩ := h
  cases hform with
  | @mk a tail bits hfirst htail =>
    -- The first byte bounds the first bits, and each other byte adds less than 64.
    rcases first?_eq_some hfirst with ⟨hmore, ha, rfl⟩ | ⟨hmore, -, hbits⟩ | ⟨hmore, -, hbits⟩ |
      ⟨hmore, -, hbits⟩
    · obtain rfl := List.eq_nil_of_length_eq_zero hmore
      exact .inl ⟨rfl, ha⟩
    · obtain ⟨b, rfl⟩ := List.length_eq_one_iff.mp hmore
      simp only [List.forall_mem_singleton, goesOn_iff] at htail
      refine .inr (.inl ⟨rfl, hshort, ?_⟩)
      rw [number_cons, number_nil]
      omega
    · obtain ⟨b, c, rfl⟩ := List.length_eq_two.mp hmore
      simp only [List.forall_mem_cons, goesOn_iff] at htail
      refine .inr (.inr (.inl ⟨rfl, hshort, ?_⟩))
      rw [number_cons, number_cons, number_nil]
      omega
    · obtain ⟨b, c, d, rfl⟩ := List.length_eq_three.mp hmore
      exact .inr (.inr (.inr ⟨rfl, hshort⟩))

/-- A number has one encoding. -/
theorem Encodes.eq (h : Encodes bytes code) (h' : Encodes other code) : bytes = other := by
  have hlength : bytes.length = other.length := by
    have := h.range
    have := h'.range
    omega
  obtain ⟨hform, -, -, -⟩ := h
  obtain ⟨hform', -, -, -⟩ := h'
  generalize hcode : code = code' at hform'
  cases hform with
  | @mk a tail bits hfirst htail =>
    cases hform' with
    | @mk a' tail' bits' hfirst' htail' =>
      have htails : tail.length = tail'.length := Nat.succ.inj hlength
      obtain ⟨rfl, rfl⟩ := number_inj htails htail htail' hcode
      -- The first bytes have the same bits and tell the same number of bytes.
      have hbyte : a.toNat = a'.toNat := by
        have := first?_eq_some hfirst
        have := first?_eq_some hfirst'
        omega
      rw [UInt8.toNat_inj.mp hbyte]

/-- What is encoded is a character. -/
theorem Encodes.exists_char (h : Encodes bytes code) :
    ∃ c : Char, c.toNat = code ∧ String.utf8EncodeChar c = bytes := by
  have hvalid : code.isValidChar := by
    have hsurrogate := h.notSurrogate
    have hrange := h.inRange
    show code < 0xD800 ∨ 0xDFFF < code ∧ code < 0x110000
    omega
  have hencodes : Encodes (String.utf8EncodeChar (Char.ofNatAux code hvalid)) code :=
    encodes_utf8EncodeChar (Char.ofNatAux code hvalid)
  exact ⟨_, rfl, hencodes.eq h⟩

/-! ### Texts -/

/-- The bytes of a string are those of its characters. -/
theorem toList_toUTF8 (s : String) :
    s.toUTF8.data.toList = s.toList.flatMap String.utf8EncodeChar := by
  conv_lhs => rw [← String.ofList_toList (s := s)]
  rw [String.toUTF8_eq_toByteArray, String.toByteArray_ofList]
  show (List.toByteArray _).data.toList = _
  rw [List.data_toByteArray]

/-- The bytes of a string are well-formed, and no others are. -/
theorem wellFormed_iff : WellFormed bytes ↔ ∃ s : String, s.toUTF8.data.toList = bytes := by
  constructor
  · intro h
    induction h with
    | nil => exact ⟨"", rfl⟩
    | cons h _ ih =>
      obtain ⟨c, -, hc⟩ := h.exists_char
      obtain ⟨s, hs⟩ := ih
      refine ⟨String.ofList (c :: s.toList), ?_⟩
      rw [toList_toUTF8] at hs ⊢
      rw [String.toList_ofList, List.flatMap_cons, hc, hs]
  · rintro ⟨s, rfl⟩
    rw [toList_toUTF8]
    induction s.toList with
    | nil => exact .nil
    | cons c cs ih => exact .cons (encodes_utf8EncodeChar c) ih

/-- Behind a text, what is left of a text is one. -/
theorem WellFormed.of_append (hfront : WellFormed front) (h : WellFormed (front ++ back)) :
    WellFormed back := by
  induction hfront with
  | nil => exact h
  | @cons bytes rest code hbytes _ ih =>
    apply ih
    generalize hall : bytes ++ rest ++ back = all at h
    cases h with
    | nil =>
      have hnil := (List.append_eq_nil_iff.mp (List.append_eq_nil_iff.mp hall).1).1
      exact absurd hnil hbytes.form.ne_nil
    | @cons bytes' rest' code' hbytes' hrest' =>
      rw [List.append_assoc] at hall
      obtain ⟨-, -, rfl⟩ := hbytes.form.eq_of_append hbytes'.form hall
      exact hrest'

/-! ### Flaws -/

/-- A form is that of a character, or it is a flaw. -/
theorem Form.encodes_or_flawed (hform : Form bytes code) (back : List UInt8) :
    Encodes bytes code ∨ Flawed (bytes ++ back) := by
  by_cases hshort : code < least bytes.length
  · exact .inr (.overlong hform hshort)
  · by_cases hrange : 0x110000 ≤ code
    · exact .inr (.beyond hform hrange)
    · by_cases hsurrogate : 0xD800 ≤ code ∧ code < 0xE000
      · exact .inr (.surrogate hform hsurrogate.1 hsurrogate.2)
      · exact .inl ⟨hform, by omega, by omega, by omega⟩

/-- Where as many bytes go on as the first one asks for, they have the form of a character. -/
theorem exists_form {a : UInt8} {s : List UInt8} {more bits : Nat}
    (hfirst : first? a = some (more, bits)) (hmore : more ≤ (s.takeWhile goesOn).length) :
    ∃ char rest code, a :: s = char ++ rest ∧ Form char code := by
  have hkept : s.takeWhile goesOn <+: s := List.takeWhile_prefix goesOn
  have hlength : (s.take more).length = more := by
    rw [List.length_take]
    have := hkept.length_le
    omega
  have htail : ∀ b ∈ s.take more, goesOn b = true := by
    intro b hb
    have htake : s.take more <+: s.takeWhile goesOn :=
      List.prefix_of_prefix_length_le (List.take_prefix more s) hkept (by omega)
    exact List.mem_takeWhile_imp (htake.subset hb)
  have hform : Form (a :: s.take more) (number bits (s.take more)) := by
    apply Form.mk _ htail
    rw [hlength]
    exact hfirst
  refine ⟨_, s.drop more, _, ?_, hform⟩
  rw [List.cons_append, List.take_append_drop]

/-- Where fewer bytes go on, one is missing. -/
theorem flawed_of_takeWhile {a : UInt8} {s : List UInt8} {more bits : Nat}
    (hfirst : first? a = some (more, bits)) (hmore : (s.takeWhile goesOn).length < more) :
    Flawed (a :: s) := by
  have hback : ∀ b ∈ (s.dropWhile goesOn).head?, goesOn b = false := by
    intro b hb
    have hhead := List.head?_dropWhile_not goesOn s
    rw [Option.mem_def.mp hb] at hhead
    simpa using hhead
  have hflawed : Flawed (a :: s.takeWhile goesOn ++ s.dropWhile goesOn) :=
    .truncated hfirst (fun b hb => List.mem_takeWhile_imp hb) hmore hback
  rwa [List.cons_append, List.takeWhile_append_dropWhile] at hflawed

/-- Bytes start with a character, or have a flaw at their start. -/
theorem encodes_or_flawed (bytes : List UInt8) :
    bytes = [] ∨ (∃ char code rest, bytes = char ++ rest ∧ Encodes char code) ∨ Flawed bytes := by
  cases bytes with
  | nil => exact .inl rfl
  | cons a s =>
    apply Or.inr
    cases hfirst : first? a with
    | none => exact .inr (.noFirst hfirst)
    | some p =>
      obtain ⟨more, bits⟩ := p
      by_cases hmore : (s.takeWhile goesOn).length < more
      · exact .inr (flawed_of_takeWhile hfirst hmore)
      · -- All bytes are there, so it is the number that counts.
        obtain ⟨char, rest, code, hsplit, hform⟩ := exists_form hfirst (Nat.le_of_not_lt hmore)
        rw [hsplit]
        exact (hform.encodes_or_flawed rest).imp_left fun hchar => ⟨char, code, rest, rfl, hchar⟩

/-- A form at the start of a text is a character. -/
theorem Form.encodes (hform : Form bytes code) (h : WellFormed (bytes ++ back)) :
    Encodes bytes code := by
  generalize hall : bytes ++ back = all at h
  cases h with
  | nil =>
    have hnil := (List.append_eq_nil_iff.mp hall).1
    exact absurd hnil hform.ne_nil
  | cons hbytes _ =>
    obtain ⟨rfl, rfl, -⟩ := hform.eq_of_append hbytes.form hall
    exact hbytes

/-- The first byte of a text is followed by as many that go on as it asks for. -/
theorem WellFormed.exists_tail {a : UInt8} {s : List UInt8} (h : WellFormed (a :: s)) :
    ∃ tail rest bits, s = tail ++ rest ∧ first? a = some (tail.length, bits) ∧
      ∀ b ∈ tail, goesOn b = true := by
  generalize hall : a :: s = all at h
  cases h with
  | nil => cases hall
  | cons hchar _ =>
    cases hchar.form with
    | mk hfirst htail =>
      obtain ⟨rfl, rfl⟩ := List.cons.inj hall
      exact ⟨_, _, _, rfl, hfirst, htail⟩

/-- Bytes with a flaw at their start are no text. -/
theorem Flawed.not_wellFormed (h : Flawed bytes) : ¬ WellFormed bytes := by
  intro hwell
  cases h with
  | overlong hform hlong =>
    have := (hform.encodes hwell).isShortest
    omega
  | surrogate hform hge hlt =>
    have := (hform.encodes hwell).notSurrogate
    omega
  | beyond hform hge =>
    have := (hform.encodes hwell).inRange
    omega
  | noFirst hnone =>
    obtain ⟨tail, rest, bits, -, hfirst, -⟩ := hwell.exists_tail
    rw [hnone] at hfirst
    cases hfirst
  | @truncated a tail back more bits hfirst htail hmore hback =>
    obtain ⟨tail', rest, bits', hsplit, hfirst', htail'⟩ := hwell.exists_tail
    rw [hfirst, Option.some.injEq, Prod.mk.injEq] at hfirst'
    obtain ⟨rfl, rfl⟩ := hfirst'
    -- The character goes on where the tail ends, with a byte that does not.
    rcases List.append_eq_append_iff.mp hsplit with ⟨gap, rfl, rfl⟩ | ⟨gap, rfl, -⟩
    · cases gap with
      | nil => simp at hmore
      | cons b gap =>
        have hgoes := htail' b (by simp)
        rw [hback b rfl] at hgoes
        cases hgoes
    · rw [List.length_append] at hmore
      omega

/-- Bytes are no text exactly if behind some text they have a flaw. -/
theorem not_wellFormed_iff :
    ¬ WellFormed bytes ↔ ∃ front back, bytes = front ++ back ∧ WellFormed front ∧ Flawed back := by
  constructor
  · intro h
    -- Characters are taken off as long as there are any.
    induction hlength : bytes.length using Nat.strong_induction_on generalizing bytes with
    | _ n ih =>
      rcases encodes_or_flawed bytes with rfl | ⟨char, code, rest, rfl, hchar⟩ | hflawed
      · exact absurd .nil h
      · have hpos := List.length_pos_of_ne_nil hchar.form.ne_nil
        rw [List.length_append] at hlength
        obtain ⟨front, back, rfl, hfront, hback⟩ :=
          ih rest.length (by omega) (fun hrest => h (.cons hchar hrest)) rfl
        exact ⟨char ++ front, back, (List.append_assoc _ _ _).symm, .cons hchar hfront, hback⟩
      · exact ⟨[], bytes, rfl, .nil, hflawed⟩
  · rintro ⟨front, back, rfl, hfront, hback⟩ h
    exact hback.not_wellFormed (hfront.of_append h)

end Chartdown.Text.Utf8
