import Chartdown.Proofs.Chart.Dialect.RoundTrip
import Chartdown.Proofs.Chart.Label.Place
import Chartdown.Proofs.Chart.Label.Rules
import Chartdown.Proofs.Chart.Points

/-!
# Labels are read

A place of a chart is the place of a key when each word is the key of the same point there, put
between single quotes. Such a place holds any label: what is read is the label, with its apostrophes
as double quotes.

## Key results

- `Frame.describes`: a point that has each of two strings as its key in turn has any
- `Frame.exists_points`: so have the points of an array
- `parse_of_keyPlace`: a label in the place of a key
-/

namespace Chartdown.Json

open Text (Utf16)

/-- Members decide what is under a name, or leave it as it was. -/
theorem lookup_foldl_put (name : Utf16) (members : List (Utf16 × Json)) :
    (∃ v, ∀ known, lookup name (members.foldl (fun known m => put m.1 m.2 known) known) = some v) ∨
      ∀ known, lookup name (members.foldl (fun known m => put m.1 m.2 known) known) =
        lookup name known := by
  induction members with
  | nil => exact .inr fun known => rfl
  | cons m rest ih =>
    rcases ih with ⟨v, hv⟩ | hrest
    · exact .inl ⟨v, fun known => hv _⟩
    · by_cases hm : name = m.1
      · refine .inl ⟨m.2, fun known => ?_⟩
        rw [List.foldl_cons, hrest, hm, lookup_put]
      · refine .inr fun known => ?_
        rw [List.foldl_cons, hrest, lookup_put_of_ne hm]

/-- What is under a name does not depend on a member of another name. -/
theorem lookup_foldl_put_of_ne {name other other' : Utf16} (h : name ≠ other) (h' : name ≠ other')
    (ms ns known : List (Utf16 × Json)) (v v' : Json) :
    lookup name ((ms ++ (other, v) :: ns).foldl (fun known m => put m.1 m.2 known) known) =
      lookup name ((ms ++ (other', v') :: ns).foldl (fun known m => put m.1 m.2 known) known) := by
  simp only [List.foldl_append, List.foldl_cons]
  rcases lookup_foldl_put name ns with ⟨w, hw⟩ | hns
  · rw [hw, hw]
  · rw [hns, hns, lookup_put_of_ne h, lookup_put_of_ne h']

/-- Of the members under a name, what is under it depends on no one but the last. -/
theorem lookup_foldl_put_self (name : Utf16) (ms ns known : List (Utf16 × Json)) :
    (∃ w, ∀ v, lookup name
      ((ms ++ (name, v) :: ns).foldl (fun known m => put m.1 m.2 known) known) = some w) ∨
    ∀ v, lookup name
      ((ms ++ (name, v) :: ns).foldl (fun known m => put m.1 m.2 known) known) = some v := by
  simp only [List.foldl_append, List.foldl_cons]
  rcases lookup_foldl_put name ns with ⟨w, hw⟩ | hns
  · exact .inl ⟨w, fun v => hw _⟩
  · exact .inr fun v => by rw [hns, lookup_put]

end Chartdown.Json

namespace Chartdown.Chart.Label

open Text DataText
open Dialect (ShowsIdleComma Quote)
open Json (Frame Writes IsWord slot lookup ofMemberList)

/-! ### Points -/

/-- Two strings that differ, and that are no name of a field nor the end of one. -/
structure AreWords (us us' : Utf16) : Prop where
  ne : us ≠ us'
  left : ∀ x, x ++ us ≠ Utf16.ofString "key"
  right : ∀ x, x ++ us' ≠ Utf16.ofString "key"

/-- An item that has each of two strings as its key in turn has any. -/
theorem Frame.describes {C : Utf16 → Json} (hC : Frame C) {us us' : Utf16} (h : AreWords us us')
    {p p' : Point} (hp : Point.Describes (C us) p) (hkey : p.key = .text us)
    (hp' : Point.Describes (C us') p') (hkey' : p'.key = .text us') (content : Utf16) :
    Point.Describes (C content) ⟨.text content, p.value⟩ := by
  obtain ⟨members, n, hobject, hlookup, -, hvalue, hn, heq⟩ := hp
  obtain ⟨members', n', hobject', hlookup', -⟩ := hp'
  rw [hkey] at hlookup
  rw [hkey'] at hlookup'
  cases hC with
  | string => cases hobject
  | array => cases hobject
  | name ms x v ns =>
    -- The strings are names of other members than the key, which is the same with both.
    obtain rfl := Json.object.inj hobject
    obtain rfl := Json.object.inj hobject'
    rw [Json.lookup_foldl_put_of_ne (Ne.symm (h.left x)) (Ne.symm (h.right x)) ms ns [] v v,
      hlookup'] at hlookup
    exact absurd hlookup (by simpa [Key.toJson] using h.ne.symm)
  | @member C ms name hC ns =>
    obtain rfl := Json.object.inj hobject
    obtain rfl := Json.object.inj hobject'
    by_cases hname : Utf16.ofString "key" = name
    · subst hname
      rcases Json.lookup_foldl_put_self (Utf16.ofString "key") ms ns [] with ⟨w, hw⟩ | hself
      · -- A later member is the key, with both strings.
        rw [hw] at hlookup hlookup'
        exact absurd (hlookup.symm.trans hlookup') (by simpa [Key.toJson] using h.ne)
      · rw [hself] at hlookup
        cases hC with
        | string x =>
          have hstring : x ++ us = us := Json.string.inj (Option.some.inj hlookup)
          obtain rfl : x = [] := by simpa using hstring
          have hnames : Utf16.ofString "value" ≠ Utf16.ofString "key" := by decide
          rw [Json.lookup_foldl_put_of_ne hnames hnames ms ns [] _ (.string ([] ++ content))] at hvalue
          exact ⟨_, n, rfl, hself _, trivial, hvalue, hn, heq⟩
        | _ => cases hlookup
    · rw [Json.lookup_foldl_put_of_ne hname hname ms ns [] (C us) (C us'), hlookup'] at hlookup
      exact absurd hlookup (by simpa [Key.toJson] using h.ne.symm)

/-- Items describe one list of points at most. -/
theorem rightUnique_describes : Relator.RightUnique (List.Forall₂ Point.Describes) := by
  refine Relator.RightUnique.forall₂ fun item p q hp hq => ?_
  exact Except.ok.inj ((Point.ofJson_eq_ok_iff.mpr hp).symm.trans (Point.ofJson_eq_ok_iff.mpr hq))

theorem exists_of_forall₂_append_cons {α β : Type} {R : α → β → Prop} {as bs : List α} {a : α}
    {points : List β} (h : List.Forall₂ R (as ++ a :: bs) points) :
    ∃ ps p qs, points = ps ++ p :: qs ∧ List.Forall₂ R as ps ∧ R a p ∧ List.Forall₂ R bs qs := by
  induction as generalizing points with
  | nil =>
    obtain ⟨p, qs, ha, hbs, rfl⟩ := List.forall₂_cons_left_iff.mp h
    exact ⟨[], p, qs, rfl, .nil, ha, hbs⟩
  | cons b as ih =>
    obtain ⟨q, points, hb, hrest, rfl⟩ := List.forall₂_cons_left_iff.mp h
    obtain ⟨ps, p, qs, rfl, has, ha, hbs⟩ := ih hrest
    exact ⟨q :: ps, p, qs, rfl, .cons hb has, ha, hbs⟩

/-- An array whose points have each of two strings as the same key in turn has any. -/
theorem Frame.exists_points {C : Utf16 → Json} (hC : Frame C) {us us' : Utf16} (h : AreWords us us')
    {points points' : List Point} {i : Nat} (hpoints : pointsOfJson (C us) = .ok points)
    (hkey : points[i]?.map Point.key = some (.text us))
    (hpoints' : pointsOfJson (C us') = .ok points')
    (hkey' : points'[i]?.map Point.key = some (.text us')) (content : Utf16) :
    ∃ points, pointsOfJson (C content) = .ok points ∧
      points[i]?.map Point.key = some (.text content) := by
  obtain ⟨items, hitems, -, hall⟩ := pointsOfJson_eq_ok_iff.mp hpoints
  obtain ⟨items', hitems', -, hall'⟩ := pointsOfJson_eq_ok_iff.mp hpoints'
  cases hC with
  | @array C vs hC ws =>
    obtain rfl := Json.array.inj hitems
    obtain rfl := Json.array.inj hitems'
    obtain ⟨ps, p, qs, rfl, hps, hp, hqs⟩ := exists_of_forall₂_append_cons hall
    obtain ⟨ps', p', qs', rfl, hps', hp', hqs'⟩ := exists_of_forall₂_append_cons hall'
    obtain rfl := rightUnique_describes hps hps'
    obtain rfl := rightUnique_describes hqs hqs'
    -- The other points have the same keys with both strings.
    have hi : ps.length = i := by
      by_contra hne
      have hset : ps ++ p' :: qs = (ps ++ p :: qs).set ps.length p' := by simp
      rw [hset, List.getElem?_set_ne hne, hkey] at hkey'
      exact h.ne (Key.text.inj (Option.some.inj hkey'))
    subst hi
    rw [List.getElem?_append_right (Nat.le_refl _), Nat.sub_self] at hkey hkey'
    have hitem := Frame.describes hC h hp (Option.some.inj hkey) hp' (Option.some.inj hkey') content
    refine ⟨ps ++ ⟨.text content, p.value⟩ :: qs, pointsOfJson_eq_ok_iff.mpr ⟨_, rfl, by simp, ?_⟩, ?_⟩
    · exact List.rel_append hps (.cons hitem hqs)
    · rw [List.getElem?_append_right (Nat.le_refl _), Nat.sub_self]
      rfl
  | _ => exact nomatch hitems

/-! ### Words -/

/-- A word of letters. -/
def IsLetters (word : List Char) : Prop := word ≠ [] ∧ ∀ c ∈ word, c.isAlpha = true

instance (word : List Char) : Decidable (IsLetters word) := inferInstanceAs (Decidable (_ ∧ _))

theorem ne_of_isAlpha {c : Char} (h : c.isAlpha = true) {d : Char} (hd : d.isAlpha = false) : c ≠ d :=
  fun heq => by rw [heq, hd] at h; exact nomatch h

theorem isPlainChar_of_isAlpha {c : Char} (h : c.isAlpha = true) : Json.IsPlainChar c := by
  refine ⟨ne_of_isAlpha h rfl, ne_of_isAlpha h rfl, ne_of_isAlpha h rfl, ?_⟩
  have hcase : (c.isUpper || c.isLower) = true := h
  rcases Bool.or_eq_true_iff.mp hcase with hupper | hlower
  · exact le_trans (by decide) (of_decide_eq_true hupper : 'A'.val ≤ c.val ∧ c.val ≤ 'Z'.val).1
  · exact le_trans (by decide) (of_decide_eq_true (Bool.and_eq_true_iff.mp hlower).1 : 'a'.val ≤ c.val)

/-- Plain characters are written as they are. -/
theorem LabelForm.of_plain {s : List Char} (h : ∀ c ∈ s, Json.IsPlainChar c) : LabelForm s s := by
  induction s with
  | nil => exact .nil
  | cons c s ih =>
    rw [List.forall_mem_cons] at h
    exact .cons (.plain h.1.2.1 h.1.2.2.1 h.1.2.2.2) (ih h.2)

namespace IsLetters

variable {word : List Char}

theorem not_mem (h : IsLetters word) {d : Char} (hd : d.isAlpha = false) : d ∉ word :=
  fun hmem => ne_of_isAlpha (h.2 d hmem) hd rfl

theorem isPlainChar (h : IsLetters word) : ∀ c ∈ word, Json.IsPlainChar c :=
  fun c hc => isPlainChar_of_isAlpha (h.2 c hc)

theorem not_showsName (h : IsLetters word) : ¬ ShowsName word := by
  rintro ⟨front, name, blanks, back, rfl, -⟩
  exact h.not_mem (d := ':') rfl (by simp)

theorem not_showsIdleComma (h : IsLetters word) : ¬ ShowsIdleComma word := by
  rintro ⟨front, blanks, c, back, rfl, -⟩
  exact h.not_mem (d := ',') rfl (by simp)

theorem isWord (h : IsLetters word) : IsWord word (Utf16.ofChars word) where
  writes opening rest := Json.readString_plain opening h.isPlainChar rest
  starts c hc := by
    have halpha := h.2 c (List.mem_of_mem_head? hc)
    have hne : ∀ {d : Char}, d.isAlpha = false → c ≠ d := ne_of_isAlpha halpha
    simp [Json.isSpace, hne]
  ne_nil := h.1

end IsLetters

/-! ### Places of keys -/

/-- A text between single quotes, between two others. -/
def placed (front back written : List Char) : List Char :=
  front ++ (Quote.single.write written ++ back)

/-- The place of the key of a point, counted from zero. The data is open in front of it, and each word
that is put there between single quotes is read as the key. -/
structure KeyPlace (front back : List Char) (i : Nat) : Prop extends IsOpenPlace front where
  reads : ∀ word, IsLetters word → ∃ d, Description.parse (placed front back word) = .ok d ∧
    d.points[i]?.map Point.key = some (.text (Utf16.ofChars word))

/-- A label between single quotes is a piece of the data. -/
theorem LabelForm.isPiece {label written : List Char} (h : LabelForm label written) :
    IsPiece (Quote.single.write written) where
  starts := startsSolid_write .single written
  ends := endsSolid_write .single written
  feed_not_mem := by simp [Quote.write, Quote.char, h.feed_not_mem]
  read n hn := h.read hn

variable {front back label written : List Char} {i : Nat}

/-- No name ends in more than itself. -/
theorem not_append_eq_key {us : Utf16} (h : 3 < us.length) (x : Utf16) :
    x ++ us ≠ Utf16.ofString "key" := by
  intro heq
  have hlength : x.length + us.length = 3 := by rw [← List.length_append, heq]; decide
  omega

/-- The words that are tried in the place of a key. -/
theorem areWords : AreWords (Utf16.ofChars "left".toList) (Utf16.ofChars "right".toList) where
  ne := by decide
  left := not_append_eq_key (by decide)
  right := not_append_eq_key (by decide)

theorem isLetters_left : IsLetters "left".toList := by decide

theorem isLetters_right : IsLetters "right".toList := by decide

/-- A label is taken into a line of the data. -/
theorem KeyPlace.exists_outline (h : KeyPlace front back i) :
    ∃ o lines x y, ∀ s, IsPiece s →
      Outline.upTo (front ++ (s ++ back)) = Outline.onto o ((x ++ (s ++ y)) :: lines) := by
  refine (exists_outline_around h.toIsOpenPlace back).resolve_right ?_
  -- If it were passed over, two words would be the same key.
  rintro ⟨o, ho⟩
  have hparse : ∀ word, IsLetters word → Description.parse (placed front back word) = o.describe := by
    intro word hword
    have hpiece := (LabelForm.of_plain hword.isPlainChar).isPiece
    have hbracket : '[' ∉ Quote.single.write word := by
      simp [Quote.write, Quote.char, hword.not_mem (d := '[') rfl]
    rw [parse_eq_describe, placed, ← ho _ hpiece hbracket]
    rfl
  obtain ⟨d, hd, hkey⟩ := h.reads _ isLetters_left
  obtain ⟨d', hd', hkey'⟩ := h.reads _ isLetters_right
  rw [hparse _ isLetters_left] at hd
  rw [hparse _ isLetters_right] at hd'
  obtain rfl := Except.ok.inj (hd.symm.trans hd')
  exact areWords.ne (Key.text.inj (Option.some.inj (hkey.symm.trans hkey')))

/-- What JSON makes of the data of a text with a label in the place of a key. -/
theorem KeyPlace.exists_text (h : KeyPlace front back i) :
    ∃ x y, ∀ label written, LabelForm label written → ¬ ShowsName label → ¬ ShowsIdleComma label →
      ∀ points, decodePoints (x ++ slot (convertSingleQuotes written) y) = .ok points ↔
        ∃ d, Description.parse (placed front back written) = .ok d ∧ d.points = points := by
  obtain ⟨o, lines, u, v, houtline⟩ := h.exists_outline
  obtain ⟨x, y, hnormal⟩ := exists_normalize_around (['\n'].intercalate (lines.reverse ++ [u]))
    (['\n'].intercalate (v :: o.dataLines.reverse))
  have hparse : ∀ label written, LabelForm label written →
      Description.parse (placed front back written) =
        (o.onto ((u ++ (Quote.single.write written ++ v)) :: lines)).describe := by
    intro label written hform
    rw [parse_eq_describe, placed, ← houtline _ hform.isPiece]
    rfl
  have hdata : ∀ label written, LabelForm label written → ¬ ShowsName label → ¬ ShowsIdleComma label →
      DataText.normalize (o.onto ((u ++ (Quote.single.write written ++ v)) :: lines)).dataText =
        x ++ slot (convertSingleQuotes written) y := by
    intro label written hform hname hcomma
    rw [Outline.dataText_onto, normalize_trim, hnormal label written hform hname hcomma]
  -- A word shows that there is a layout.
  obtain ⟨d, hd, -⟩ := h.reads _ isLetters_left
  rw [hparse _ _ (.of_plain isLetters_left.isPlainChar)] at hd
  have hlayout : o.fields .layout ≠ [] := (Outline.describe_eq_ok_iff.mp hd).1
  refine ⟨x, y, fun label written hform hname hcomma points => ?_⟩
  have hfilled : (o.onto ((u ++ (Quote.single.write written ++ v)) :: lines)).dataText ≠ [] := by
    rw [Outline.dataText_onto, trim_around (startsSolid_write _ _) (endsSolid_write _ _)]
    simp [Quote.write]
  rw [hparse label written hform, ← hdata label written hform hname hcomma]
  constructor
  · intro hpoints
    exact ⟨_, Outline.describe_eq_ok_iff.mpr ⟨hlayout, hfilled, points, hpoints, rfl⟩, rfl⟩
  · rintro ⟨d, hd, rfl⟩
    exact Outline.decodePoints_of_describe hd

theorem exists_decode_of_decodePoints {s : List Char} {points : List Point}
    (h : decodePoints s = .ok points) :
    ∃ v, Json.decode false s = .ok v ∧ pointsOfJson v = .ok points := by
  obtain ⟨items, hdecode, hne, hall⟩ := decodePoints_eq_ok_iff.mp h
  exact ⟨.array items, hdecode, pointsOfJson_eq_ok_iff.mpr ⟨items, rfl, hne, hall⟩⟩

theorem convertSingleQuotes_eq_self_iff {s : List Char} : convertSingleQuotes s = s ↔ '\'' ∉ s := by
  refine ⟨fun h hmem => ?_, Dialect.convertSingleQuotes_of_not_mem⟩
  rw [← h] at hmem
  obtain ⟨c, -, hc⟩ := List.mem_map.mp hmem
  by_cases hquote : c = '\''
  · rw [if_pos hquote] at hc
    exact absurd hc (by decide)
  · rw [if_neg hquote] at hc
    exact hquote hc

/-- A label is read in the place of a key, with its apostrophes as double quotes: so it is the key
exactly if it holds none. -/
theorem parse_of_keyPlace (hplace : KeyPlace front back i) (hform : LabelForm label written)
    (hquote : '"' ∉ label) (hcomma : ¬ ShowsIdleComma label) (hname : ¬ ShowsName label) :
    ∃ d, Description.parse (placed front back written) = .ok d ∧
      d.points[i]?.map Point.key = some (.text (Utf16.ofChars (convertSingleQuotes label))) ∧
      (d.points[i]?.map Point.key = some (.text (Utf16.ofChars label)) ↔ '\'' ∉ label) := by
  obtain ⟨x, y, htext⟩ := hplace.exists_text
  -- Words are decoded in the place, and each of them is the key.
  have hwords : ∀ word, IsLetters word → ∃ v points, Json.decode false (x ++ slot word y) = .ok v ∧
      pointsOfJson v = .ok points ∧
      points[i]?.map Point.key = some (.text (Utf16.ofChars word)) := by
    intro word hword
    obtain ⟨d, hd, hkey⟩ := hplace.reads word hword
    have hpoints := (htext word word (.of_plain hword.isPlainChar) hword.not_showsName
      hword.not_showsIdleComma d.points).mpr ⟨d, hd, rfl⟩
    rw [Dialect.convertSingleQuotes_of_not_mem (hword.not_mem rfl)] at hpoints
    obtain ⟨v, hdecode, hv⟩ := exists_decode_of_decodePoints hpoints
    exact ⟨v, d.points, hdecode, hv, hkey⟩
  obtain ⟨v, points, hdecode, hpoints, hkey⟩ := hwords _ isLetters_left
  obtain ⟨v', points', hdecode', hpoints', hkey'⟩ := hwords _ isLetters_right
  obtain ⟨C, hC, hframe⟩ := Json.exists_frame_of_decode isLetters_left.isWord hdecode
  obtain rfl := Except.ok.inj (hdecode.symm.trans (hframe _ _ isLetters_left.isWord.writes))
  obtain rfl := Except.ok.inj (hdecode'.symm.trans (hframe _ _ isLetters_right.isWord.writes))
  -- So the label is decoded to a frame around it, and is the key as well.
  obtain ⟨read, hread, hlabel⟩ := Frame.exists_points hC areWords hpoints hkey hpoints' hkey'
    (Utf16.ofChars (convertSingleQuotes label))
  have hdecoded : decodePoints (x ++ slot (convertSingleQuotes written) y) = .ok read := by
    rw [decodePoints, hframe _ _ (hform.writes hquote)]
    exact hread
  obtain ⟨d, hd, rfl⟩ := (htext label written hform hname hcomma read).mp hdecoded
  refine ⟨d, hd, hlabel, ?_⟩
  rw [hlabel, ← convertSingleQuotes_eq_self_iff]
  constructor
  · intro heq
    have hunits := Key.text.inj (Option.some.inj heq)
    rw [← Utf16.toChars_ofChars (convertSingleQuotes label), hunits, Utf16.toChars_ofChars]
  · intro heq
    rw [heq]

/-! ### A chart of one point -/

/-- Up to the key. -/
def sampleFront : List Char := "layout: bar\ndata:[\x7bkey:".toList

/-- From behind the key on. -/
def sampleBack : List Char := ",value:1\x7d]".toList

theorem keyPlace_sample : KeyPlace sampleFront sampleBack 0 where
  isOpen := by decide +kernel
  inside := by decide +kernel
  reads word hword := by
    let w := Dialect.Writing.ofKey (.string .single ⟨word, hword.isPlainChar⟩)
    have htext : w.text = sampleFront ++ (Quote.single.write word ++ sampleBack) := by
      show sampleFront ++ ((Quote.single.write word ++ ",value:1\x7d".toList ++ []) ++ [']']) ++ [] = _
      simp only [List.append_assoc, List.append_nil]
      rfl
    have hinert : w.array.items.IsInert := by
      refine List.forall_mem_singleton.mpr (Dialect.ScalarText.isInert_of_forall .single ?_)
      exact fun c hc => ⟨ne_of_isAlpha (hword.2 c hc) rfl, ne_of_isAlpha (hword.2 c hc) rfl⟩
    have hfinite : w.array.items.IsFinite := by
      refine List.forall_mem_singleton.mpr ⟨trivial, ?_⟩
      show ({ whole := ['1'] } : Json.NumberText).value.toDouble.isFinite = true
      decide +kernel
    have hlayout : w.field .layout ≠ [] := by
      show Dialect.Writing.withIdleComma.field .layout ≠ []
      decide +kernel
    refine ⟨w.description, ?_, rfl⟩
    rw [placed, ← htext]
    exact w.parse_text hinert hfinite hlayout

theorem labelForm_escapes : LabelForm "[\\\n".toList "[\\\\\\n".toList :=
  .cons (.plain (by decide) (by decide) (by decide)) (.cons .backslash
    (.cons (.short (by decide) (by decide)) .nil))

theorem not_shows_of_forall {s : List Char} (h : ∀ c ∈ s, c ≠ ':' ∧ c ≠ ',') :
    ¬ ShowsIdleComma s ∧ ¬ ShowsName s := by
  constructor
  · rintro ⟨front, blanks, c, back, rfl, -⟩
    exact (h ',' (by simp)).2 rfl
  · rintro ⟨front, name, blanks, back, rfl, -⟩
    exact (h ':' (by simp)).1 rfl

/-- A bracket, a backslash and a line feed are a key. -/
theorem parse_of_keyPlace_escapes :
    (KeyPlace sampleFront sampleBack 0 ∧ LabelForm "[\\\n".toList "[\\\\\\n".toList ∧
      '"' ∉ "[\\\n".toList ∧ ¬ ShowsIdleComma "[\\\n".toList ∧ ¬ ShowsName "[\\\n".toList) ∧
    ∃ d, Description.parse (placed sampleFront sampleBack "[\\\\\\n".toList) = .ok d ∧
      d.points[0]?.map Point.key = some (.text (Utf16.ofChars "[\\\n".toList)) := by
  obtain ⟨hcomma, hname⟩ := not_shows_of_forall (s := "[\\\n".toList) (by decide)
  obtain ⟨d, hd, -, hkey⟩ := parse_of_keyPlace keyPlace_sample labelForm_escapes (by decide) hcomma hname
  exact ⟨⟨keyPlace_sample, labelForm_escapes, by decide, hcomma, hname⟩, d, hd, hkey.mpr (by decide)⟩

theorem labelForm_apostrophe : LabelForm "it's".toList "it\\'s".toList :=
  .cons (.plain (by decide) (by decide) (by decide)) (.cons (.plain (by decide) (by decide) (by decide))
    (.cons .apostrophe (.cons (.plain (by decide) (by decide) (by decide)) .nil)))

/-- An apostrophe is read as a double quote, though it is escaped. -/
theorem parse_of_keyPlace_ne :
    (KeyPlace sampleFront sampleBack 0 ∧ LabelForm "it's".toList "it\\'s".toList ∧
      '"' ∉ "it's".toList ∧ ¬ ShowsIdleComma "it's".toList ∧ ¬ ShowsName "it's".toList) ∧
    ∃ d, Description.parse (placed sampleFront sampleBack "it\\'s".toList) = .ok d ∧
      ¬ ∃ p ∈ d.points, p.key = .text (Utf16.ofChars "it's".toList) := by
  obtain ⟨hcomma, hname⟩ := not_shows_of_forall (s := "it's".toList) (by decide)
  refine ⟨⟨keyPlace_sample, labelForm_apostrophe, by decide, hcomma, hname⟩, ?_⟩
  have hparse : Description.parse (placed sampleFront sampleBack "it\\'s".toList) = .ok {
      kind := "bar", points := [⟨.text (Utf16.ofChars "it\"s".toList), .double (.ofInt 1)⟩] } := by
    decide +kernel
  exact ⟨_, hparse, by decide⟩

end Chartdown.Chart.Label
