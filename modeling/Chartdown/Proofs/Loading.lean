import Chartdown.Proofs.Text.Utf8
import Chartdown.Source

/-!
# Loading texts

A text is loaded from itself or from its bytes, with or without a byte order mark in front, and from
streams and files that hold these. Bytes that are no text are refused, wherever they come from. The
mark is a character like others, so the bytes behind it are a text exactly if all are.

## Key results

- `decode_eq_ok_iff`, `decode_eq_error_iff`: which bytes are which text, and which are none
- `load_spec`: loading undoes the encoding of texts, and refuses the bytes that have a flaw
-/

namespace Chartdown.Source

open Text.Utf8

/-- A source hands out bytes. -/
inductive Carries (b : ByteArray) : Source → Prop
  | bytes : Carries b (.bytes b)
  | byteStream : Carries b (.byteStream b)
  | file : Carries b (.file b)

/-- Bytes without the one byte order mark that they may start with. -/
inductive Unmarked : List UInt8 → List UInt8 → Prop
  | marked (bytes : List UInt8) : Unmarked (mark ++ bytes) bytes
  | plain {bytes : List UInt8} (h : ¬ mark <+: bytes) : Unmarked bytes bytes

/-- A source offers a text: it is the text or hands it out, or hands out its bytes, which may come
behind a byte order mark. -/
inductive Offers (s : String) : Source → Prop
  | text : Offers s (.text s)
  | textStream : Offers s (.textStream s)
  | encoded {source : Source} (h : Carries s.toUTF8 source) : Offers s source
  | marked {b : ByteArray} {source : Source} (hb : b.data.toList = mark ++ s.toUTF8.data.toList)
      (h : Carries b source) : Offers s source

variable {b : ByteArray} {source : Source} {s : String} {e : Error}

/-! ### The byte order mark -/

/-- The mark is a character. -/
theorem encodes_mark : Encodes mark 0xFEFF := encodes_utf8EncodeChar '\uFEFF'

theorem unmarked_dropMark (b : ByteArray) : Unmarked b.data.toList (dropMark b).data.toList := by
  unfold dropMark
  split
  case h_1 rest hb =>
    rw [hb]
    exact .marked rest
  case h_2 hne =>
    apply Unmarked.plain
    rintro ⟨rest, hrest⟩
    exact hne rest hrest.symm

/-- There is one way of dropping the mark. -/
theorem Unmarked.eq {bytes rest rest' : List UInt8} (h : Unmarked bytes rest)
    (h' : Unmarked bytes rest') : rest = rest' := by
  cases h with
  | marked =>
    generalize hbytes : mark ++ rest = bytes at h'
    cases h' with
    | marked => exact List.append_cancel_left hbytes
    | plain hplain => exact absurd ⟨rest, hbytes⟩ hplain
  | plain hplain =>
    cases h' with
    | marked => exact absurd (List.prefix_append mark rest') hplain
    | plain => rfl

/-- Bytes are a text exactly if they are one without their mark. -/
theorem Unmarked.wellFormed_iff {bytes rest : List UInt8} (h : Unmarked bytes rest) :
    WellFormed rest ↔ WellFormed bytes := by
  cases h with
  | marked =>
    constructor
    · exact .cons encodes_mark
    · intro hall
      have hmark : WellFormed (mark ++ []) := .cons encodes_mark .nil
      exact WellFormed.of_append hmark hall
  | plain => rfl

/-- The bytes of a text start with the mark only if the text does. -/
theorem head?_of_mark_isPrefix (h : mark <+: s.toUTF8.data.toList) :
    s.toList.head? = some '\uFEFF' := by
  obtain ⟨rest, hrest⟩ := h
  rw [toList_toUTF8] at hrest
  cases hs : s.toList with
  | nil => simp [hs, mark] at hrest
  | cons c cs =>
    rw [hs, List.flatMap_cons] at hrest
    obtain ⟨-, hcode, -⟩ := encodes_mark.form.eq_of_append (encodes_utf8EncodeChar c).form hrest
    have hc : c = '\uFEFF' := Char.ext (UInt32.toNat_inj.mp hcode.symm)
    rw [hc]
    rfl

/-! ### Decoding -/

theorem Carries.load_eq (h : Carries b source) : source.load = decode b := by
  cases h
  all_goals rfl

/-- Bytes decode to the text whose bytes they are without their mark. -/
theorem decode_eq_ok_iff : decode b = .ok s ↔ Unmarked b.data.toList s.toUTF8.data.toList := by
  have hdecode : decode b = .ok s ↔ s.toUTF8 = dropMark b := by
    rw [← decode_eq_some_iff]
    unfold decode
    cases decode? (dropMark b) <;> simp
  rw [hdecode]
  constructor
  · intro h
    rw [h]
    exact unmarked_dropMark b
  · intro h
    have hbytes := h.eq (unmarked_dropMark b)
    exact ByteArray.ext (Array.toList_inj.mp hbytes)

theorem decode_eq_error_iff : decode b = .error e ↔ e = .notUtf8 ∧ ¬ WellFormed b.data.toList := by
  have hnone : decode? (dropMark b) = none ↔ ¬ WellFormed b.data.toList := by
    rw [← (unmarked_dropMark b).wellFormed_iff, Text.Utf8.wellFormed_iff,
      ← Option.not_isSome_iff_eq_none, Option.isSome_iff_exists]
    apply not_congr
    apply exists_congr
    intro s
    rw [decode_eq_some_iff, ← Array.toList_inj.trans ByteArray.ext_iff.symm]
  rw [← hnone]
  unfold decode
  cases decode? (dropMark b) <;> simp [eq_comm]

/-! ### Loading -/

/-- The text that a source offers is loaded, unless it starts with a byte order mark of its own. Of
any bytes, what is loaded is the text whose bytes they are without their mark. They are refused, as
not decodable, exactly if behind some text they have a flaw: a byte that starts no character, or a
character that is cut off, overlong, a surrogate or beyond the last one. -/
theorem load_spec :
    (∀ (s : String) (source : Source), s.toList.head? ≠ some '\uFEFF' → Offers s source →
      source.load = .ok s) ∧
    ∀ (b : ByteArray) (source : Source), Carries b source →
      (∀ s, source.load = .ok s ↔ Unmarked b.data.toList s.toUTF8.data.toList) ∧
      ((∃ e, source.load = .error e) ↔ ¬ WellFormed b.data.toList) ∧
      (∀ e, source.load = .error e → ∃ message cause,
        e.failure = .parsing message (some "decoding") (some cause)) ∧
      (¬ WellFormed b.data.toList ↔
        ∃ front back, b.data.toList = front ++ back ∧ WellFormed front ∧ Flawed back) := by
  constructor
  · intro s source hs hoffers
    cases hoffers with
    | text | textStream => rfl
    | encoded h =>
      rw [h.load_eq, decode_eq_ok_iff]
      exact .plain fun hmark => hs (head?_of_mark_isPrefix hmark)
    | marked hb h =>
      rw [h.load_eq, decode_eq_ok_iff, hb]
      exact .marked _
  · intro b source h
    rw [h.load_eq]
    refine ⟨fun s => decode_eq_ok_iff, ?_, ?_, not_wellFormed_iff⟩
    · simp only [decode_eq_error_iff, exists_eq_left]
    · intro e he
      obtain ⟨rfl, -⟩ := decode_eq_error_iff.mp he
      exact ⟨_, _, rfl⟩

/-- A letter of two bytes behind a mark is loaded from a stream. The letter `a` and a zero of two
bytes are refused. -/
theorem load_spec_overlong :
    (byteStream ⟨#[0xEF, 0xBB, 0xBF, 0xC3, 0xA9]⟩).load = .ok "é" ∧
      ∃ e, (bytes ⟨#[0x61, 0xC0, 0x80]⟩).load = .error e := by
  constructor
  · have hbytes : "é".toUTF8.data.toList = [0xC3, 0xA9] := by
      rw [toList_toUTF8]
      decide
    apply load_spec.1 "é" _ (by decide)
    apply Offers.marked _ .byteStream
    rw [hbytes]
    rfl
  · obtain ⟨-, hrefused, -, hflaw⟩ := load_spec.2 ⟨#[0x61, 0xC0, 0x80]⟩ _ .bytes
    rw [hrefused, hflaw]
    have hletter : Encodes [0x61] 0x61 := encodes_utf8EncodeChar 'a'
    have hzero : Form [0xC0, 0x80] (number 0 [0x80]) :=
      .mk (by decide) (List.forall_mem_singleton.mpr (by decide))
    exact ⟨[0x61] ++ [], [0xC0, 0x80] ++ [], rfl, .cons hletter .nil,
      .overlong hzero (by decide)⟩

end Chartdown.Source
