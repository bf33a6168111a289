import Chartdown.Proofs.Json.Lockstep
import Chartdown.Proofs.Text.Feeds

/-!
# JSON with more or fewer line feeds

A line feed is space between tokens, and no token holds one. So the reader makes the same of two
texts that differ in no more than the number of line feeds in a row: where it reads one of them,
it reads the other, as the same value, and the rests are spread alike again.

Why a text is refused may well change with its line feeds, so nothing is said about faults.

## Key results

- `lockstep_spread`: texts that are spread alike part at line feeds only
- `Enumerates.exists_of_spread`: what is held, given that each part is read alike
- `keeps_readValue`: all values, by induction on the levels they may be nested
- `decode_eq_ok_iff_of_spread`: whole texts
-/

namespace Chartdown.Json

open Text (Spread Utf16)

variable {s t u r rest rest' : List Char}

theorem lockstep_spread : Lockstep Spread (· = '\n') where
  head?_eq h := h.head?_eq
  tail hc h := by
    obtain ⟨r, hr, htail⟩ := h.exists_of_cons hc
    rwa [(List.cons.inj hr).2]
  between hc := .inl hc

/-- The reader reads texts that are spread alike as the same value. -/
def Keeps {α : Type} (read : List Char → Reading α) : Prop :=
  ∀ ⦃s t : List Char⦄ ⦃v : α⦄ ⦃rest : List Char⦄, Spread s t → read s = .ok (v, rest) →
    ∃ rest', read t = .ok (v, rest') ∧ Leaves Spread t rest rest'

theorem leaves_skipSpace (h : Spread s t) : Leaves Spread t (skipSpace s) (skipSpace t) :=
  ⟨h.dropWhile isSpace, (List.dropWhile_sublist isSpace).length_le⟩

/-- The token behind the space is the same in both rests, and it is no space itself. -/
theorem Leaves.exists_of_skipSpace {c : Char} (h : Leaves Spread t rest rest')
    (hskip : skipSpace rest = c :: r) :
    ∃ r', skipSpace rest' = c :: r' ∧ Spread r r' ∧ r'.length < t.length := by
  have hspace : isSpace c = false := by
    have hhead := List.head?_dropWhile_not isSpace rest
    rw [show rest.dropWhile isSpace = c :: r from hskip] at hhead
    exact hhead
  have hfeed : c ≠ '\n' := by
    rintro rfl
    exact absurd hspace (by decide)
  have hdrop := leaves_skipSpace h.related
  rw [hskip] at hdrop
  obtain ⟨r', hr', hspread⟩ := hdrop.related.exists_of_cons hfeed
  refine ⟨r', hr', hspread, ?_⟩
  calc r'.length < (skipSpace rest').length := by rw [hr', List.length_cons]; exact Nat.lt_succ_self _
    _ ≤ rest'.length := hdrop.length_le
    _ ≤ t.length := h.length_le

/-! ### Strings -/

/-- The digits of an escape are hexadecimal. -/
theorem not_mem_of_hexUnit? {a b c d e : Char} {unit : UInt16} (he : hexDigit? e = none)
    (h : hexUnit? a b c d = some unit) : e ∉ [a, b, c, d] := by
  simp only [hexUnit?, Option.bind_eq_bind, Option.bind_eq_some_iff] at h
  obtain ⟨_, ha, _, hb, _, hc, _, hd, -⟩ := h
  have hne : ∀ {x : Char} {n : Nat}, hexDigit? x = some n → e ≠ x := by
    rintro x n hx rfl
    rw [he] at hx
    exact nomatch hx
  simp [hne ha, hne hb, hne hc, hne hd]

theorem prependUnits_eq_ok_iff {units v : Utf16} {read : Reading Utf16} :
    prependUnits units read = .ok (v, rest) ↔ ∃ w, read = .ok (w, rest) ∧ v = units ++ w := by
  cases read with
  | error e => simp [prependUnits]
  | ok first =>
    obtain ⟨w, r⟩ := first
    simp only [prependUnits, Except.ok.injEq, Prod.mk.injEq]
    constructor
    · rintro ⟨rfl, rfl⟩
      exact ⟨w, ⟨rfl, rfl⟩, rfl⟩
    · rintro ⟨_, ⟨rfl, rfl⟩, rfl⟩
      exact ⟨rfl, rfl⟩

/-- A string is read unit after unit. -/
theorem readString_eq_ok_of_units {opening : Nat} {units v : Utf16}
    (hstep : readString opening t = prependUnits units (readString opening s))
    (h : readString opening s = .ok (v, r)) : readString opening t = .ok (units ++ v, r) := by
  rw [hstep, h]
  rfl

/-- A string holds no line feed, so it is the same in both texts. Where the string starts counts
for nothing but faults. -/
theorem exists_readString_of_spread {opening : Nat} (opening' : Nat) {v : Utf16} (h : Spread s t)
    (hread : readString opening s = .ok (v, rest)) :
    ∃ rest', readString opening' t = .ok (v, rest') ∧ Leaves Spread t rest rest' := by
  fun_induction readString opening s generalizing t v with
  | case2 =>
    -- The closing quote.
    obtain ⟨r, rfl, hr⟩ := h.exists_of_cons (by decide)
    cases hread
    exact ⟨r, readString_quote opening' r, (Leaves.refl hr).cons _⟩
  | case5 a b c d s hempty unit hunit _ ih =>
    have hfeed : '\n' ∉ ['\\', 'u'] ++ [a, b, c, d] := by
      simpa using not_mem_of_hexUnit? (e := '\n') rfl hunit
    obtain ⟨r, rfl, hr⟩ := Spread.exists_of_append (u := ['\\', 'u'] ++ [a, b, c, d]) hfeed h
    obtain ⟨w, hw, rfl⟩ := prependUnits_eq_ok_iff.mp hread
    obtain ⟨rest', hread', hrest⟩ := ih hr hw
    have hne : r ≠ [] := by
      rintro rfl
      exact hempty (by rw [hr.symm.eq_nil]; rfl)
    exact ⟨rest', readString_eq_ok_of_units (readString_hexEscape opening' hunit hne) hread',
      hrest.append _⟩
  | case8 e s hunicode unit hunit _ ih =>
    have hfeed : '\n' ∉ ['\\', e] := by
      have hne : '\n' ≠ e := by
        rintro rfl
        exact nomatch hunit
      simp [hne]
    obtain ⟨r, rfl, hr⟩ := Spread.exists_of_append (u := ['\\', e]) hfeed h
    obtain ⟨w, hw, rfl⟩ := prependUnits_eq_ok_iff.mp hread
    obtain ⟨rest', hread', hrest⟩ := ih hr hw
    exact ⟨rest', readString_eq_ok_of_units (readString_shortEscape opening' hunit) hread',
      hrest.append _⟩
  | case11 c s hquote hescape hcontrol ih =>
    have hfeed : c ≠ '\n' := by
      rintro rfl
      exact hcontrol (by decide)
    obtain ⟨r, rfl, hr⟩ := h.exists_of_cons hfeed
    obtain ⟨w, hw, rfl⟩ := prependUnits_eq_ok_iff.mp hread
    obtain ⟨rest', hread', hrest⟩ := ih hr hw
    have hstep := readString_plainChar opening' (s := r) hquote hescape (Nat.not_lt.mp hcontrol)
    exact ⟨rest', readString_eq_ok_of_units hstep hread', hrest.cons _⟩
  | _ => exact nomatch hread

theorem keeps_readPlain (constants : Bool) : Keeps (readPlain constants) := by
  intro s t v rest h hread
  by_cases hquote : s.head? = some '"'
  · obtain ⟨r, rfl⟩ := List.head?_eq_some_iff.mp hquote
    obtain ⟨r', rfl, hr⟩ := h.exists_of_cons (by decide)
    obtain ⟨units, rfl, hstring⟩ := readPlain_string_eq_ok_iff.mp hread
    obtain ⟨rest', hstring', hleaves⟩ := exists_readString_of_spread (r'.length + 1) hr hstring
    exact ⟨rest', readPlain_string_eq_ok_iff.mpr ⟨units, rfl, hstring'⟩, hleaves.cons _⟩
  · exact lockstep_spread.exists_readPlain h hquote hread

/-! ### Values that hold others -/

/-- A reader of parts with commas between them, up to a mark. -/
structure Enumerates {β : Type} (part : List Char → Reading β) (mark : Char)
    (parts : Nat → List Char → Reading (List β)) : Prop where
  last : ∀ {fuel : Nat} {s r rest : List Char} {b : β}, part s = .ok (b, r) →
    skipSpace r = mark :: rest → parts (fuel + 1) s = .ok ([b], rest)
  next : ∀ {fuel : Nat} {s r s' rest : List Char} {b : β} {bs : List β}, part s = .ok (b, r) →
    skipSpace r = ',' :: s' → parts fuel (skipSpace s') = .ok (bs, rest) →
      parts (fuel + 1) s = .ok (b :: bs, rest)
  inversion : ∀ {fuel : Nat} {s rest : List Char} {bs : List β}, parts fuel s = .ok (bs, rest) →
    ∃ fuel' b r, fuel = fuel' + 1 ∧ part s = .ok (b, r) ∧ (skipSpace r = mark :: rest ∧ bs = [b] ∨
      ∃ s' bs', skipSpace r = ',' :: s' ∧ parts fuel' (skipSpace s') = .ok (bs', rest) ∧ bs = b :: bs')

section
variable {item : List Char → Reading Json}

theorem enumerates_readItems (item : List Char → Reading Json) :
    Enumerates item ']' (readItems item) :=
  ⟨readItems_last, readItems_next, readItems_eq_ok_iff.mp⟩

theorem enumerates_readMembers (item : List Char → Reading Json) :
    Enumerates (readMember item) '\x7d' (readMembers item) :=
  ⟨readMembers_last, readMembers_next, readMembers_eq_ok_iff.mp⟩

/-- Parts are read alike if each of them is, with any fuel that is enough for the second text. -/
theorem Enumerates.exists_of_spread {β : Type} {part : List Char → Reading β} {mark : Char}
    {parts : Nat → List Char → Reading (List β)} (h : Enumerates part mark parts)
    (hpart : Keeps part) {fuel fuel' : Nat} {bs : List β} (hst : Spread s t)
    (hread : parts fuel s = .ok (bs, rest)) (hfuel : t.length < fuel') :
    ∃ rest', parts fuel' t = .ok (bs, rest') ∧ Leaves Spread t rest rest' := by
  induction fuel' generalizing fuel s t bs with
  | zero => exact absurd hfuel (Nat.not_lt_zero _)
  | succ fuel' ih =>
    obtain ⟨fuel, b, r, rfl, hb, hnext⟩ := h.inversion hread
    obtain ⟨r', hb', hr⟩ := hpart hst hb
    rcases hnext with ⟨hclose, rfl⟩ | ⟨s', bs', hcomma, hrest, rfl⟩
    · obtain ⟨rest', hclose', hrest, hlength⟩ := hr.exists_of_skipSpace hclose
      exact ⟨rest', h.last hb' hclose', hrest, hlength.le⟩
    · -- The comma makes the second text shorter, and so the fuel lasts.
      obtain ⟨t', hcomma', hspread, hlength⟩ := hr.exists_of_skipSpace hcomma
      have hskip := leaves_skipSpace hspread
      obtain ⟨rest', hrest', hleaves⟩ := ih hskip.related hrest
        (hskip.length_le.trans_lt (by omega))
      exact ⟨rest', h.next hb' hcomma' hrest', hleaves.related,
        (hleaves.length_le.trans hskip.length_le).trans hlength.le⟩

theorem keeps_readMember (hitem : Keeps item) : Keeps (readMember item) := by
  intro s t m rest h hread
  obtain ⟨s', name, r, r₁, v, rfl, hname, hcolon, hvalue, rfl⟩ := exists_of_readMember hread
  obtain ⟨t', rfl, ht⟩ := h.exists_of_cons (by decide)
  obtain ⟨r', hname', hr⟩ := exists_readString_of_spread (t'.length + 1) ht hname
  obtain ⟨r₁', hcolon', hspread, hlength⟩ := hr.exists_of_skipSpace hcolon
  have hskip := leaves_skipSpace hspread
  obtain ⟨rest', hvalue', hrest⟩ := hitem hskip.related hvalue
  refine ⟨rest', ?_, hrest.related, ?_⟩
  · simp only [readMember, List.length_cons, hname', hcolon', hvalue']
  · exact ((hrest.length_le.trans hskip.length_le).trans hlength.le).trans (Nat.le_succ _)

end

section
variable {constants : Bool} {depth : Nat} {v : Json}

theorem readValue_of_head? (constants : Bool) (depth : Nat) (harray : s.head? ≠ some '[')
    (hobject : s.head? ≠ some '\x7b') : readValue constants depth s = readPlain constants s := by
  cases s with
  | nil => cases depth <;> rfl
  | cons c s =>
    exact readValue_of_plain constants depth (fun h => harray (by rw [h]; rfl))
      fun h => hobject (by rw [h]; rfl)

/-- What stands behind the space is the same mark in both texts, or in none of them. -/
theorem skipSpace_ne_of_spread {c : Char} (h : Spread s t) (hs : ∀ r, skipSpace s ≠ c :: r) (r : List Char) :
    skipSpace t ≠ c :: r := by
  intro ht
  obtain ⟨r', hr', -⟩ := (Leaves.refl h.symm).exists_of_skipSpace ht
  exact hs r' hr'

theorem exists_readValue_array_of_spread (hitem : Keeps (readValue constants depth))
    (h : Spread s t) (hread : readValue constants (depth + 1) ('[' :: s) = .ok (v, rest)) :
    ∃ rest', readValue constants (depth + 1) ('[' :: t) = .ok (v, rest') ∧ Leaves Spread t rest rest' := by
  have hskip := leaves_skipSpace h
  rcases readValue_array_eq_ok_iff.mp hread with ⟨hclose, rfl⟩ | ⟨hfilled, items, hitems, rfl⟩
  · obtain ⟨rest', hclose', hrest, hlength⟩ := (Leaves.refl h).exists_of_skipSpace hclose
    exact ⟨rest', readValue_array_eq_ok_iff.mpr (.inl ⟨hclose', rfl⟩), hrest, hlength.le⟩
  · obtain ⟨rest', hitems', hleaves⟩ :=
      (enumerates_readItems _).exists_of_spread hitem hskip.related hitems (Nat.lt_succ_self _)
    exact ⟨rest', readValue_array_eq_ok_iff.mpr (.inr ⟨skipSpace_ne_of_spread h hfilled, items, hitems', rfl⟩),
      hleaves.related, hleaves.length_le.trans hskip.length_le⟩

theorem exists_readValue_object_of_spread (hitem : Keeps (readValue constants depth))
    (h : Spread s t) (hread : readValue constants (depth + 1) ('\x7b' :: s) = .ok (v, rest)) :
    ∃ rest', readValue constants (depth + 1) ('\x7b' :: t) = .ok (v, rest') ∧
      Leaves Spread t rest rest' := by
  have hskip := leaves_skipSpace h
  rcases readValue_object_eq_ok_iff.mp hread with ⟨hclose, rfl⟩ | ⟨hfilled, members, hmembers, rfl⟩
  · obtain ⟨rest', hclose', hrest, hlength⟩ := (Leaves.refl h).exists_of_skipSpace hclose
    exact ⟨rest', readValue_object_eq_ok_iff.mpr (.inl ⟨hclose', rfl⟩), hrest, hlength.le⟩
  · obtain ⟨rest', hmembers', hleaves⟩ :=
      (enumerates_readMembers _).exists_of_spread (keeps_readMember hitem) hskip.related hmembers
        (Nat.lt_succ_self _)
    exact ⟨rest',
      readValue_object_eq_ok_iff.mpr (.inr ⟨skipSpace_ne_of_spread h hfilled, members, hmembers', rfl⟩),
      hleaves.related, hleaves.length_le.trans hskip.length_le⟩

/-- Values are read alike, whatever they hold. -/
theorem keeps_readValue (constants : Bool) (depth : Nat) : Keeps (readValue constants depth) := by
  -- The first character tells what value is to come, and spreading does not touch it.
  induction depth with
  | zero =>
    intro s t v rest h hread
    by_cases harray : s.head? = some '['
    · obtain ⟨r, rfl⟩ := List.head?_eq_some_iff.mp harray
      exact nomatch hread
    by_cases hobject : s.head? = some '\x7b'
    · obtain ⟨r, rfl⟩ := List.head?_eq_some_iff.mp hobject
      exact nomatch hread
    rw [readValue_of_head? constants 0 harray hobject] at hread
    rw [readValue_of_head? constants 0 (h.head?_eq ▸ harray) (h.head?_eq ▸ hobject)]
    exact keeps_readPlain constants h hread
  | succ depth ih =>
    intro s t v rest h hread
    by_cases harray : s.head? = some '['
    · obtain ⟨r, rfl⟩ := List.head?_eq_some_iff.mp harray
      obtain ⟨r', rfl, hr⟩ := h.exists_of_cons (by decide)
      obtain ⟨rest', hread', hrest⟩ := exists_readValue_array_of_spread ih hr hread
      exact ⟨rest', hread', hrest.cons _⟩
    by_cases hobject : s.head? = some '\x7b'
    · obtain ⟨r, rfl⟩ := List.head?_eq_some_iff.mp hobject
      obtain ⟨r', rfl, hr⟩ := h.exists_of_cons (by decide)
      obtain ⟨rest', hread', hrest⟩ := exists_readValue_object_of_spread ih hr hread
      exact ⟨rest', hread', hrest.cons _⟩
    rw [readValue_of_head? constants _ harray hobject] at hread
    rw [readValue_of_head? constants _ (h.head?_eq ▸ harray) (h.head?_eq ▸ hobject)]
    exact keeps_readPlain constants h hread

/-! ### Whole texts -/

theorem decode_of_spread (h : Spread s t) (hdecode : decode constants s = .ok v) :
    decode constants t = .ok v := by
  obtain ⟨hmark, rest, hread, hrest⟩ := decode_eq_ok_iff.mp hdecode
  obtain ⟨rest', hread', hleaves⟩ := keeps_readValue constants depthLimit (h.dropWhile isSpace) hread
  have hend : Spread (skipSpace rest) (skipSpace rest') := hleaves.related.dropWhile isSpace
  rw [hrest] at hend
  exact decode_eq_ok_iff.mpr ⟨h.head?_eq ▸ hmark, rest', hread', hend.eq_nil⟩

/-- Line feeds in a row make no difference to what a text is decoded to. -/
theorem decode_eq_ok_iff_of_spread (h : Spread s t) :
    decode constants s = .ok v ↔ decode constants t = .ok v :=
  ⟨decode_of_spread h, decode_of_spread h.symm⟩

end

end Chartdown.Json
