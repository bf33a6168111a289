import Chartdown.Proofs.Chart.Dialect.Reading
import Chartdown.Proofs.Chart.Strict.Writing

/-!
# Keys that are cut short

An apostrophe or a bare name in a key ends its string early. The reader goes on behind it and finds
no comma and no member there, so that it gives up, or it finds the closing brace, so that the point
has no value. Only a key that goes on with a comma and another member is read as something else.

## Key results

- `Tame.exists_settle_eq`: what the rules make of the rest of a key
- `spoils_of_apostrophe`: behind a key that is cut short, no further member is read
- `not_describes_of_spoils`: an item whose key is cut short is no point
-/

namespace Chartdown.Chart.Strict

open Text DataText
open Dialect
open Json (Prints skipSpace readString readMember)

/-- A text starts with the name of a member, which is bare or between apostrophes, and its colon. -/
def NamesMember (s : List Char) : Prop :=
  ∃ name g back, s = name ++ (g ++ ':' :: back) ∧ (∀ c ∈ g, isBlank c = true) ∧
    (name ∈ fieldNames ∨ ∃ t, name = '\'' :: (t ++ ['\'']) ∧ '\'' ∉ t)

/-- The text of a key closes its string at its first apostrophe and goes on with a comma and another
member. -/
def OpensMember (k : List Char) : Prop :=
  ∃ front g g' back, k = front ++ '\'' :: (g ++ ',' :: (g' ++ back)) ∧ '\'' ∉ front ∧
    (∀ c ∈ g, isBlank c = true) ∧ (∀ c ∈ g', isBlank c = true) ∧ NamesMember back

/-! ### Parts of keys -/

/-- A text that prints and shows no idle comma. -/
structure Tame (s : List Char) : Prop where
  prints : ∀ c ∈ s, Prints c
  settled : ¬ ShowsIdleComma s

/-- A part at the end of such a text. -/
theorem Tame.of_append {u s : List Char} (h : Tame (u ++ s)) : Tame s where
  prints c hc := h.prints c (List.mem_append_right u hc)
  settled := by
    rintro ⟨front, blanks, c, back, rfl, hrest⟩
    exact h.settled ⟨u ++ front, blanks, c, back, by simp, hrest⟩

theorem isBlank_eq_false_of_prints {c : Char} (h : Prints c) (hspace : Json.isSpace c = false) :
    isBlank c = false := by
  refine isBlank_eq_false ?_ h.2
  have hne : c ≠ ' ' := by
    rintro rfl
    exact nomatch hspace
  have hnat : c.toNat ≠ 0x20 := fun heq => hne (Char.toNat_inj.mp heq)
  have := h.1
  omega

theorem isSpace_eq_false {c : Char} (h : isBlank c = false) : Json.isSpace c = false := by
  by_contra hspace
  rw [isBlank_of_isSpace (by simpa using hspace)] at h
  exact nomatch h

/-- Behind a gap, a text in quotes goes on with a character of its own or with its closing quote. -/
theorem Tame.exists_gap {s : List Char} (hs : Tame s) (tail : List Char) :
    ∃ (g : Gap) (c : Char) (w : List Char), s ++ '"' :: tail = g ++ c :: w ∧ isBlank c = false ∧
      (s = g.val ∧ c = '"' ∧ w = tail ∨ ∃ s', s = g ++ c :: s' ∧ w = s' ++ '"' :: tail) := by
  obtain ⟨g, r, rfl, hr⟩ : ∃ (g : Gap) (r : List Char), s = g ++ r ∧
      Json.StartsWithout Json.isSpace r := by
    refine ⟨⟨s.takeWhile Json.isSpace, fun c hc => List.mem_takeWhile_imp hc⟩,
      s.dropWhile Json.isSpace, List.takeWhile_append_dropWhile.symm, fun c hc => ?_⟩
    have := List.head?_dropWhile_not Json.isSpace s
    rwa [Option.mem_def.mp hc] at this
  cases r with
  | nil => exact ⟨g, '"', tail, by simp, by decide, .inl ⟨by simp, rfl, rfl⟩⟩
  | cons c r =>
    have hprints : Prints c := hs.prints c (by simp)
    exact ⟨g, c, r ++ '"' :: tail, by simp, isBlank_eq_false_of_prints hprints (hr c rfl),
      .inr ⟨r, rfl, rfl⟩⟩

/-- The first character of such a text is left, or a quote is written for it or in front of it. -/
theorem Tame.exists_settle_eq_cons (before : Option Char) {c : Char} {s : List Char}
    (hs : Tame (c :: s)) (tail : List Char) :
    ∃ d t, settle before (c :: (s ++ '"' :: tail)) = d :: t ∧ (d = c ∨ d = '"' ∧
      (c = '\'' ∨ bareFieldName before (c :: (s ++ '"' :: tail)) ≠ none)) := by
  by_cases hcomma : c = ','
  · -- A comma is no idle one, neither in the text nor in front of the closing quote.
    subst hcomma
    obtain ⟨g, d, w, hgap, hblank, hd⟩ := (Tame.of_append (u := [',']) hs).exists_gap tail
    have hclose : d ≠ '\x7d' ∧ d ≠ ']' := by
      rcases hd with ⟨-, rfl, -⟩ | ⟨s', rfl, -⟩
      · decide
      · refine not_or.mp fun h => hs.settled ?_
        exact ⟨[], g.val, d, s', rfl, g.isBlank_of_mem, h⟩
    rw [hgap, settle_comma before g hblank hclose]
    exact ⟨_, _, rfl, .inl rfl⟩
  · exact Strict.exists_settle_eq_cons before hcomma _

theorem settle_quote (before : Option Char) (s : List Char) :
    ∃ t, settle before ('"' :: s) = '"' :: t :=
  ⟨_, settle_mark (by decide) before s⟩

/-- Behind a gap, what is made of such a text goes on with a character of its own or with a quote. -/
theorem Tame.exists_settle_eq (before : Option Char) {s : List Char} (hs : Tame s)
    (tail : List Char) :
    ∃ (g : Gap) (d : Char) (t : List Char), settle before (s ++ '"' :: tail) = g ++ d :: t ∧
      isBlank d = false ∧ (d = '"' ∨ ∃ s', s = g ++ d :: s') := by
  obtain ⟨g, c, w, hgap, hblank, hc⟩ := hs.exists_gap tail
  rw [hgap, (Kept.gap g).settle_append]
  rcases hc with ⟨-, rfl, rfl⟩ | ⟨s', rfl, rfl⟩
  · obtain ⟨t, ht⟩ := settle_quote (behind before g.val) w
    exact ⟨g, '"', t, by rw [ht], hblank, .inl rfl⟩
  · have hrest : Tame (c :: s') := .of_append hs
    obtain ⟨d, t, ht, hd⟩ := hrest.exists_settle_eq_cons (behind before g.val) tail
    rcases hd with rfl | ⟨rfl, -⟩
    · exact ⟨g, d, t, by rw [ht], hblank, .inr ⟨s', rfl⟩⟩
    · exact ⟨g, '"', t, by rw [ht], by decide, .inl rfl⟩

/-- The comma behind a value is kept in front of the next name. -/
theorem settle_comma_quote (before : Option Char) (s : List Char) :
    settle before (',' :: ' ' :: '"' :: s) = ',' :: ' ' :: settle (some ' ') ('"' :: s) := by
  have h := settle_comma (c := '"') (s := s) before .blank (by decide) (by decide)
  simpa only [Gap.blank, behind_cons, behind_nil, List.cons_append, List.nil_append] using h

theorem write_append (s t : List Char) :
    Quote.double.write s ++ t = '"' :: (s ++ '"' :: t) := by
  simp [Quote.write, Quote.char]

/-! ### Further members -/

theorem skipSpace_gap_append (g : Gap) {c : Char} (hc : isBlank c = false) (s : List Char) :
    skipSpace (g ++ c :: s) = c :: s :=
  g.skipSpace_append (isSpace_eq_false hc) s

theorem readString_keyText (n : Nat) (us : Utf16) (rest : List Char) :
    readString n (keyText us ++ '"' :: rest) = .ok (us, rest) := by
  have h := Json.readString_units Json.Escaping.singleton n us rest
  rwa [List.flatMap_singleton'] at h

variable {item : List Char → Json.Reading Json} {m : Utf16 × Json} {r : List Char}

/-- A colon follows the name of a member. -/
theorem exists_of_readMember_keyText {us : Utf16} {t : List Char}
    (h : readMember item ('"' :: (keyText us ++ '"' :: t)) = .ok (m, r)) :
    ∃ r', skipSpace t = ':' :: r' := by
  obtain ⟨s', name, t', r', v, hcons, hname, hcolon, -⟩ := Json.exists_of_readMember h
  obtain rfl := (List.cons.inj hcons).2
  rw [readString_keyText] at hname
  cases hname
  exact ⟨r', hcolon⟩

/-- The text of a key that is cut short is the text of another key up to there. -/
theorem exists_settle_keyText (before : Option Char) {us : Utf16}
    (hcomma : ¬ ShowsIdleComma (keyText us)) (hcut : IsCut (keyText us)) (rest : List Char) :
    ∃ us' c s t, keyText us = keyText us' ++ c :: s ∧ '\'' ∉ keyText us' ∧
      settle before ('"' :: (keyText us ++ '"' :: rest)) = '"' :: (keyText us' ++ '"' :: t) ∧
      (c = '\'' ∧ t = settle (some '\'') (s ++ '"' :: rest) ∨
        ∃ d t', t = d :: t' ∧ (d = 'k' ∨ d = 'v')) := by
  obtain ⟨p, c, s, t, hsplit, hp, hsettle, hc⟩ := settle_write before hcomma hcut rest
  have hmem : c ∈ ['\'', 'k', 'v'] := by
    rcases hc with ⟨rfl, -⟩ | ⟨rfl | rfl, -⟩
    all_goals decide
  obtain ⟨us', -, rfl, -⟩ := exists_keyText_eq hmem hsplit
  exact ⟨us', c, s, t, hsplit, hp, hsettle, hc.imp id fun ⟨hc, t', ht⟩ => ⟨c, t', ht, hc⟩⟩

/-- Behind a name there is neither space nor a mark. -/
theorem skipSpace_name_ne {c d : Char} {s t : List Char} (hc : c = 'k' ∨ c = 'v')
    (hd : d ∈ [',', ':']) : skipSpace (c :: s) ≠ d :: t := by
  have hspace : Json.isSpace c = false := by
    rcases hc with rfl | rfl
    all_goals decide
  rw [Json.skipSpace_cons hspace]
  intro h
  obtain rfl := (List.cons.inj h).1
  rcases hc with rfl | rfl
  all_goals exact absurd hd (by decide)

/-- A key that is read as the name of a member is cut short at an apostrophe in front of a colon. -/
theorem exists_of_readMember_settle (before : Option Char) {us : Utf16} (htame : Tame (keyText us))
    (w : List Char) (h : readMember item
      (settle before ('"' :: (keyText us ++ '"' :: ',' :: ' ' :: '"' :: w))) = .ok (m, r)) :
    ∃ s g back, keyText us = s ++ '\'' :: (g ++ ':' :: back) ∧ '\'' ∉ s ∧
      ∀ c ∈ g, isBlank c = true := by
  by_cases hcut : IsCut (keyText us)
  · obtain ⟨us', c, s, t, hsplit, hp, hsettle, hc⟩ :=
      exists_settle_keyText before htame.settled hcut (',' :: ' ' :: '"' :: w)
    rw [hsettle] at h
    obtain ⟨r', hcolon⟩ := exists_of_readMember_keyText h
    rcases hc with ⟨rfl, rfl⟩ | ⟨d, t', rfl, hd⟩
    · have hs : Tame s := .of_append (u := keyText us' ++ ['\'']) (by simpa [hsplit] using htame)
      obtain ⟨g, d, t, heq, hblank, hd⟩ :=
        hs.exists_settle_eq (some '\'') (',' :: ' ' :: '"' :: w)
      rw [heq, skipSpace_gap_append g hblank] at hcolon
      obtain rfl := (List.cons.inj hcolon).1
      obtain ⟨back, rfl⟩ := hd.resolve_left (by decide)
      exact ⟨_, g, back, hsplit, hp, g.isBlank_of_mem⟩
    · exact absurd hcolon (skipSpace_name_ne hd (by decide))
  · -- A comma follows the quote.
    rw [IsCut, not_or] at hcut
    have hkept := Kept.write hcut.1 hcut.2 htame.settled
    have htext := hkept.settle_append before (',' :: ' ' :: '"' :: w)
    rw [settle_comma_quote, write_append, write_append] at htext
    rw [htext] at h
    obtain ⟨r', hcolon⟩ := exists_of_readMember_keyText h
    rw [Json.skipSpace_cons (by decide)] at hcolon
    exact absurd (List.cons.inj hcolon).1 (by decide)

/-- No further member is read behind a text. -/
def Spoils (t : List Char) : Prop :=
  ∀ (item : List Char → Json.Reading Json) (u : List Char) (m : Utf16 × Json) (r : List Char),
    skipSpace t = ',' :: u → readMember item (skipSpace u) ≠ .ok (m, r)

/-- What starts the first string of the text is where the reader of a member starts. -/
theorem head_of_readMember {g : Gap} {c : Char} {s : List Char} (hc : isBlank c = false)
    (h : readMember item (skipSpace (g ++ c :: s)) = .ok (m, r)) : c = '"' := by
  obtain ⟨s', -, -, -, -, hcons, -⟩ := Json.exists_of_readMember h
  rw [skipSpace_gap_append g hc] at hcons
  exact (List.cons.inj hcons).1

/-- Between the quote behind a key and the one in front of the next name there is no member. -/
theorem readMember_closing_ne (before : Option Char) (w : List Char) :
    readMember item (settle before ('"' :: ',' :: ' ' :: '"' :: 'v' :: w)) ≠ .ok (m, r) := by
  intro h
  have hkept : Kept (Quote.double.write [',', ' ']) := .write_of_forall (by decide)
  have hstart : startsName (some '"') = false := by decide +kernel
  have hletter := settle_cons (bareFieldName_eq_none_of_startsName hstart ('v' :: w)) (by decide)
    (by decide)
  have htext := hkept.settle_append before ('v' :: w)
  simp only [Quote.write, Quote.char, List.cons_append, List.nil_append, behind_cons,
    behind_nil, hletter] at htext
  rw [htext] at h
  obtain ⟨s', name, t', r', v, hcons, hname, hcolon, -⟩ := Json.exists_of_readMember h
  obtain rfl := (List.cons.inj hcons).2
  have hstring := Json.readString_plain ((',' :: ' ' :: '"' :: 'v' :: settle (some 'v') w).length + 1)
    (s := [',', ' ']) (by decide) ('v' :: settle (some 'v') w)
  rw [List.cons_append, List.singleton_append, hname] at hstring
  cases hstring
  rw [Json.skipSpace_cons (by decide)] at hcolon
  exact absurd (List.cons.inj hcolon).1 (by decide)

/-- Behind a comma in a key a member is read only if the key names one there. In front of a quote,
which could start one too, there is a backslash in a key. -/
theorem namesMember_of_readMember (before : Option Char) (g : Gap) {us : Utf16} {c : Char}
    {x s : List Char} (hkey : keyText us = x ++ c :: s) (htame : Tame (c :: s))
    (hblank : isBlank c = false) (w : List Char) (h : readMember item
      (skipSpace (g ++ settle before (c :: (s ++ '"' :: ',' :: ' ' :: '"' :: w)))) = .ok (m, r)) :
    NamesMember (c :: s) ∨ x.getLast? = some '\\' := by
  by_cases hquote : c = '\''
  · -- The name of the member is in apostrophes.
    subst hquote
    obtain ⟨-, us', -, rfl⟩ := exists_keyText_eq (by decide) hkey
    have hrest : Tame (keyText us') := .of_append (u := ['\'']) htame
    rw [settle_apostrophe_eq] at h
    obtain ⟨t, ht⟩ := settle_quote before (keyText us' ++ '"' :: ',' :: ' ' :: '"' :: w)
    rw [ht, skipSpace_gap_append g (by decide), ← ht] at h
    obtain ⟨name, g', back, hname, hnot, hg'⟩ := exists_of_readMember_settle before hrest w h
    exact .inl ⟨'\'' :: (name ++ ['\'']), g', back, by simp [hname], hg', .inr ⟨name, rfl, hnot⟩⟩
  · obtain ⟨d, t, hhead, hd⟩ := htame.exists_settle_eq_cons before (',' :: ' ' :: '"' :: w)
    rcases hd with rfl | ⟨rfl, hd⟩
    · rw [hhead] at h
      obtain rfl := head_of_readMember hblank h
      exact .inr (getLast?_of_quote hkey)
    · -- The name is bare, and it ends in front of the closing quote.
      obtain ⟨rule, hrule⟩ := Option.ne_none_iff_exists'.mp (hd.resolve_left hquote)
      obtain ⟨-, name, g', back, heq, hname, hg'⟩ := exists_of_bareFieldName_eq_some hrule
      have hmeet : (c :: s) ++ '"' :: ',' :: ' ' :: '"' :: w = (name ++ (g' ++ [':'])) ++ back := by
        simpa using heq
      obtain ⟨z, hz⟩ := exists_eq_append_of_not_mem hmeet (Quote.double.not_mem_name hname hg')
      exact .inl ⟨name, g', z, by simp [hz], hg', .inl hname⟩

/-- Behind a key that is cut short at an apostrophe, no further member is read, unless the key
itself opens one. -/
theorem spoils_of_apostrophe {us : Utf16} {p s : List Char} (htame : Tame (keyText us))
    (hopens : ¬ OpensMember (keyText us)) (hsplit : keyText us = p ++ '\'' :: s) (hp : '\'' ∉ p)
    (w : List Char) :
    Spoils (settle (some '\'') (s ++ '"' :: ',' :: ' ' :: '"' :: 'v' :: w)) := by
  intro item u m r hcomma hread
  have hs : Tame s := .of_append (u := p ++ ['\'']) (by simpa [hsplit] using htame)
  -- The comma is one of the key's own.
  obtain ⟨g, s₁, rfl⟩ : ∃ (g : Gap) (s₁ : List Char), s = g ++ ',' :: s₁ := by
    obtain ⟨g, d, t, heq, hblank, hd⟩ :=
      hs.exists_settle_eq (some '\'') (',' :: ' ' :: '"' :: 'v' :: w)
    rw [heq, skipSpace_gap_append g hblank] at hcomma
    obtain rfl := (List.cons.inj hcomma).1
    obtain ⟨s₁, rfl⟩ := hd.resolve_left (by decide)
    exact ⟨g, s₁, rfl⟩
  have hs₁ : Tame s₁ := .of_append (u := g ++ [',']) (by simpa using hs)
  obtain ⟨g', c, x, hgap, hblank, hc⟩ := hs₁.exists_gap (',' :: ' ' :: '"' :: 'v' :: w)
  have hclose : c ≠ '\x7d' ∧ c ≠ ']' := by
    rcases hc with ⟨-, rfl, -⟩ | ⟨s₂, rfl, -⟩
    · decide
    · refine not_or.mp fun h => hs.settled ?_
      exact ⟨g.val, g'.val, c, s₂, rfl, g'.isBlank_of_mem, h⟩
  rw [List.append_assoc, List.cons_append, hgap, (Kept.gap g).settle_append,
    settle_comma _ g' hblank hclose, skipSpace_gap_append g (by decide)] at hcomma
  obtain rfl := (List.cons.inj hcomma).2
  rcases hc with ⟨-, rfl, rfl⟩ | ⟨s₂, rfl, rfl⟩
  · -- The key ends behind the comma.
    obtain ⟨t, ht⟩ := settle_quote (behind (some ',') g'.val) (',' :: ' ' :: '"' :: 'v' :: w)
    rw [ht, skipSpace_gap_append g' (by decide), ← ht] at hread
    exact readMember_closing_ne _ w hread
  · have hkey : keyText us = (p ++ '\'' :: g.val ++ ',' :: g'.val) ++ c :: s₂ := by simp [hsplit]
    rcases namesMember_of_readMember _ g' hkey (.of_append hs₁) hblank _ hread with hnames | hlast
    · exact hopens ⟨p, g, g', c :: s₂, hsplit, hp, g.isBlank_of_mem, g'.isBlank_of_mem, hnames⟩
    · rw [List.getLast?_append_cons] at hlast
      rcases List.mem_cons.mp (List.mem_of_mem_getLast? hlast) with h | h
      · exact absurd h (by decide)
      · exact absurd (g'.isBlank_of_mem _ h) (by decide)

/-! ### Points -/

/-- The name and the key of a point are read, wherever the key ends. -/
theorem readMember_key (depth : Nat) (us : Utf16) (t : List Char) :
    readMember (Json.readValue false depth) (mark .key ++ '"' :: (keyText us ++ '"' :: t)) =
      .ok ((Utf16.ofString "key", .string us), t) := by
  have hvalue : Json.readValue false depth ('"' :: (keyText us ++ '"' :: t)) =
      .ok (.string us, t) := by
    rw [Json.readValue_of_plain _ _ (by decide) (by decide), Json.readPlain_quote,
      readString_keyText]
    rfl
  have hskip : ∀ s, skipSpace (' ' :: '"' :: s) = '"' :: s := fun s => rfl
  have hcolon : ∀ s, skipSpace (':' :: s) = ':' :: s := fun s => rfl
  have hname : Role.key.chars = keyText (Utf16.ofString "key") := by decide +kernel
  rw [mark, List.append_assoc, write_append, hname, readMember]
  simp only [List.cons_append, List.nil_append, readString_keyText, hcolon, hskip, hvalue]

/-- An object with a key and nothing else is no point. -/
theorem not_describes_of_key {us : Utf16} (q : Point) :
    ¬ Point.Describes (Json.ofMemberList [(Utf16.ofString "key", .string us)]) q := by
  rintro ⟨members, n, hmembers, -, -, hvalue, -⟩
  obtain rfl := (Json.object.inj hmembers).symm
  have hne : Utf16.ofString "key" ≠ Utf16.ofString "value" := by decide
  simp [Json.put, Json.lookup, hne] at hvalue

/-- An item whose key is cut short is no point. -/
theorem not_describes_of_spoils {us : Utf16} {t : List Char} (hspoils : Spoils t) {depth : Nat}
    {v : Json} {rest : List Char} (h : Json.readValue false (depth + 1)
      ('\x7b' :: (mark .key ++ '"' :: (keyText us ++ '"' :: t))) = .ok (v, rest)) (q : Point) :
    ¬ Point.Describes v q := by
  have hskip : ∀ s, skipSpace (mark .key ++ s) = mark .key ++ s := fun s => rfl
  have hmember := readMember_key depth us t
  rcases Json.exists_of_readValue_object h with ⟨hclose, -⟩ | ⟨fuel, members, hmembers, rfl⟩
  · rw [hskip] at hclose
    exact absurd (List.cons.inj hclose).1 (by decide)
  · obtain ⟨fuel', m, r, -, hfirst, hrest⟩ := Json.readMembers_eq_ok_iff.mp hmembers
    rw [hskip, hmember] at hfirst
    cases hfirst
    -- The object ends behind its key, or a comma asks for a member that is not there.
    rcases hrest with ⟨-, rfl⟩ | ⟨u, others, hcomma, hothers, -⟩
    · exact not_describes_of_key q
    · obtain ⟨-, m', r', -, hnext, -⟩ := Json.readMembers_eq_ok_iff.mp hothers
      exact absurd hnext (hspoils _ u m' r' hcomma)

end Chartdown.Chart.Strict
