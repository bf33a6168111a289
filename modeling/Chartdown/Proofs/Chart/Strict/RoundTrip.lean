import Chartdown.Proofs.Chart.Strict.Reading
import Chartdown.Proofs.Json.Members

/-!
# Strict JSON is read as it stands or not at all

Points that are written as strict JSON go through the rules of the dialect before they are read. If
no key holds an apostrophe or a bare name, the rules leave the array alone and the points are read.
If one does, its string is cut short and the data is malformed. Keys that show an idle comma, and
keys that open a member of their own, are left out of this: they can be read as something else.

## Key results

- `kept_text_pairJson`, `settle_followed`: points that the rules leave alone
- `exists_normalize_of_isCut`: what the rules make of an array in which a key is cut short
- `parse_chartText`: a chart is read as the points that were written, or its data is malformed
-/

namespace Chartdown.Chart.Strict

open Text DataText
open Dialect
open Json (readValue readItems skipSpace)

/-- The number of a point has a finite double. -/
def IsFinite (p : Utf16 × Number) : Prop := p.2.toDouble.isFinite = true

theorem isPortable_pairJson {p : Utf16 × Number} (h : IsFinite p) (depth : Nat) :
    Json.isPortable (depth + 1) (pairJson p) = true := by
  have hnames : [Utf16.ofString "key", Utf16.ofString "value"].Nodup := by decide
  have hstring : Json.isPortable depth (.string p.1) = true := by rw [Json.isPortable]
  rw [pairJson, Json.isPortable, Json.membersPortable, Json.membersPortable, Json.membersPortable,
    hstring, Json.isPortable_number h, Bool.and_eq_true, decide_eq_true_eq]
  exact ⟨hnames, rfl⟩

theorem itemsPortable_map {ps : List (Utf16 × Number)} (h : ∀ p ∈ ps, IsFinite p) (depth : Nat) :
    Json.itemsPortable (depth + 1) (ps.map pairJson) = true := by
  induction ps with
  | nil => rfl
  | cons p ps ih =>
    rw [List.forall_mem_cons] at h
    rw [List.map_cons, Json.itemsPortable, isPortable_pairJson h.1, ih h.2]
    rfl

/-! ### Points that are kept -/

theorem kept_mark (role : Role) : Kept (mark role) := by
  refine Kept.append (.write_of_forall ?_) (.of_forall (by decide))
  cases role
  all_goals decide

theorem kept_closing {n : Number} (h : n.toDouble.isFinite = true) : Kept (closing n) := by
  have hnumber : Kept (Json.numberText n ++ ['\x7d']) := by
    obtain ⟨t, ht, -⟩ := Json.exists_numberText (Json.isPortable_number h 0)
    refine .append (.of_forall fun c hc => ?_) (.of_forall (by decide))
    rw [← ht] at hc
    have hchar := Json.NumberText.isNumberChar_of_mem_text hc
    refine ⟨?_, ?_, ?_, ?_⟩
    all_goals
      rintro rfl
      exact absurd hchar (by decide)
  exact .comma .blank (by decide) (by decide) ((kept_mark .value).append hnumber)

/-- A point whose key is not cut short is left alone. -/
theorem kept_text_pairJson {p : Utf16 × Number} (hfinite : IsFinite p)
    (hcut : ¬ IsCut (keyText p.1)) (hcomma : ¬ ShowsIdleComma (keyText p.1)) :
    Kept (Json.text (pairJson p)) := by
  have hbrace : Kept ['\x7b'] := .of_forall (by decide)
  rw [IsCut, not_or] at hcut
  have hkey := Kept.write hcut.1 hcut.2 hcomma
  have htext := hbrace.append ((kept_mark .key).append (hkey.append (kept_closing hfinite)))
  rw [write_append] at htext
  rwa [text_pairJson]

/-- Points in front of another one are left alone. -/
theorem settle_followed {good : List (Utf16 × Number)}
    (hgood : ∀ q ∈ good, Kept (Json.text (pairJson q))) (before : Option Char) (s : List Char) :
    settle before (followed good ++ '\x7b' :: s) = followed good ++ settle none ('\x7b' :: s) := by
  induction good generalizing before with
  | nil => exact (settle_mark (by decide) before s).trans (settle_mark (by decide) none s).symm
  | cons q good ih =>
    rw [List.forall_mem_cons] at hgood
    -- Behind the comma there is the brace of the next point.
    obtain ⟨r, hr⟩ := exists_followed_eq_cons good s
    have htext : followed (q :: good) ++ '\x7b' :: s =
        Json.text (pairJson q) ++ ',' :: (Gap.blank ++ '\x7b' :: r) := by
      rw [← hr]
      simp [followed, Gap.blank]
    rw [htext, hgood.1.settle_append, settle_comma _ .blank (by decide) (by decide), ← hr,
      ih hgood.2]
    simp [followed, Gap.blank]

/-! ### Arrays -/

/-- An array has its outer brackets already. -/
theorem rewrapBrackets_dataJson {ps : List (Utf16 × Number)} (hne : ps ≠ []) :
    rewrapBrackets (Json.text (dataJson ps)) = Json.text (dataJson ps) := by
  obtain ⟨hstarts, hends⟩ := text_dataJson_solid ps
  obtain ⟨good, p, rfl⟩ := (List.eq_nil_or_concat ps).resolve_left hne
  obtain ⟨more, htext, hmore⟩ := exists_itemsText_append good p []
  -- Without the closing bracket the array ends with the brace of the last point.
  have hopen : EndsSolid ('[' :: Json.itemsText ((good.concat p).map pairJson)) := by
    rw [List.concat_eq_append, htext, hmore rfl, List.append_nil, ← List.cons_append]
    exact EndsSolid.append _ ⟨_, '\x7d', rfl, by decide⟩
  have hconcat : Json.text (dataJson (good.concat p)) =
      ('[' :: Json.itemsText ((good.concat p).map pairJson)) ++ [']'] := rfl
  have hdropped := trim_of_solid ⟨'[', _, rfl, by decide⟩ hopen
  rw [rewrapBrackets, trim_of_solid hstarts hends]
  simp only [hconcat, List.getLast?_concat, List.dropLast_concat, if_true, hdropped]
  rw [List.head?_cons, if_pos rfl]

/-- An array is left alone if no key is cut short. -/
theorem normalize_of_forall {ps : List (Utf16 × Number)} (hne : ps ≠ [])
    (hkept : ∀ p ∈ ps, Kept (Json.text (pairJson p))) :
    normalize (Json.text (dataJson ps)) = Json.text (dataJson ps) := by
  rw [normalize_eq_settle, rewrapBrackets_dataJson hne]
  obtain ⟨good, p, rfl⟩ := (List.eq_nil_or_concat ps).resolve_left hne
  obtain ⟨more, htext, hmore⟩ := exists_itemsText_append good p []
  obtain rfl := hmore rfl
  rw [List.concat_eq_append, List.forall_mem_append, List.forall_mem_singleton] at hkept
  have hlast := (hkept.2.append (.of_forall (u := [']']) (by decide))).settle_eq none
  rw [text_pairJson, List.append_nil] at htext
  rw [text_pairJson, List.cons_append] at hlast
  rw [text_dataJson, List.concat_eq_append, htext, settle_mark (by decide), List.append_assoc,
    List.cons_append, settle_followed hkept.1, hlast]

/-- What the rules make of a key that is cut short: behind it no further member is read. -/
theorem exists_settle_of_isCut (before : Option Char) {us : Utf16} (hcut : IsCut (keyText us))
    (hcomma : ¬ ShowsIdleComma (keyText us)) (hopens : ¬ OpensMember (keyText us)) (n : Number)
    (rest : List Char) :
    ∃ us' t, Spoils t ∧ settle before ('"' :: (keyText us ++ '"' :: (closing n ++ rest))) =
      '"' :: (keyText us' ++ '"' :: t) := by
  have htame : Tame (keyText us) := ⟨fun c hc => prints_of_mem_keyText hc, hcomma⟩
  obtain ⟨us', c, s, t, hsplit, hp, hsettle, hc⟩ :=
    exists_settle_keyText before hcomma hcut (closing n ++ rest)
  refine ⟨us', t, ?_, hsettle⟩
  rcases hc with ⟨rfl, rfl⟩ | ⟨d, t', rfl, hd⟩
  · exact spoils_of_apostrophe htame hopens hsplit hp _
  · exact fun item u m r hcomma => absurd hcomma (skipSpace_name_ne hd (by decide))

/-- What the rules make of an array in which a key is cut short. -/
theorem exists_normalize_of_isCut {good bad : List (Utf16 × Number)} {p : Utf16 × Number}
    (hkept : ∀ q ∈ good, Kept (Json.text (pairJson q))) (hcut : IsCut (keyText p.1))
    (hcomma : ¬ ShowsIdleComma (keyText p.1)) (hopens : ¬ OpensMember (keyText p.1)) :
    ∃ us t, Spoils t ∧ normalize (Json.text (dataJson (good ++ p :: bad))) =
      '[' :: (followed good ++ '\x7b' :: (mark .key ++ '"' :: (keyText us ++ '"' :: t))) := by
  obtain ⟨more, htext, -⟩ := exists_itemsText_append good p bad
  have hbrace : Kept ('\x7b' :: mark .key) :=
    (Kept.of_forall (u := ['\x7b']) (by decide)).append (kept_mark .key)
  rw [normalize_eq_settle, rewrapBrackets_dataJson (by simp), text_dataJson, htext,
    settle_mark (by decide), text_pairJson]
  obtain ⟨us, t, hspoils, hstring⟩ := exists_settle_of_isCut (behind none ('\x7b' :: mark .key))
    hcut hcomma hopens p.2 (more ++ [']'])
  have hpoint := hbrace.settle_append none
    ('"' :: (keyText p.1 ++ '"' :: (closing p.2 ++ (more ++ [']']))))
  rw [hstring] at hpoint
  refine ⟨us, t, hspoils, ?_⟩
  simp only [List.append_assoc, List.cons_append] at hpoint ⊢
  rw [settle_followed hkept, hpoint]

/-! ### Reading -/

/-- Items that go on with one that is no point describe no points. -/
theorem not_forall₂_of_readItems {good : List (Utf16 × Number)}
    (hgood : ∀ q ∈ good, IsFinite q) {depth fuel : Nat} {s rest : List Char} {items : List Json}
    (hs : ∀ v r, readValue false (depth + 1) ('\x7b' :: s) = .ok (v, r) →
      ∀ q, ¬ Point.Describes v q)
    (h : readItems (readValue false (depth + 1)) fuel (followed good ++ '\x7b' :: s) =
      .ok (items, rest)) (points : List Point) : ¬ List.Forall₂ Point.Describes items points := by
  induction good generalizing fuel items points with
  | nil =>
    obtain ⟨fuel', v, r, -, hfirst, hrest⟩ := Json.readItems_eq_ok_iff.mp h
    obtain ⟨vs, rfl⟩ : ∃ vs, items = v :: vs := by
      rcases hrest with ⟨-, rfl⟩ | ⟨-, vs, -, -, rfl⟩
      all_goals exact ⟨_, rfl⟩
    intro hpoints
    obtain ⟨q, -, hq, -⟩ := List.forall₂_cons_left_iff.mp hpoints
    exact hs v r hfirst q hq
  | cons q good ih =>
    rw [List.forall_mem_cons] at hgood
    have htext : followed (q :: good) ++ '\x7b' :: s =
        Json.text (pairJson q) ++ ',' :: ' ' :: (followed good ++ '\x7b' :: s) := by
      simp [followed]
    obtain ⟨t, ht⟩ := exists_followed_eq_cons good s
    have hfirst := Json.readValue_text Json.Escaping.singleton false (depth + 1) (pairJson q)
      (isPortable_pairJson hgood.1 depth) (',' :: ' ' :: (followed good ++ '\x7b' :: s))
      (Json.ends_mark (by decide) _)
    rw [List.flatMap_singleton'] at hfirst
    rw [htext] at h
    -- The first point is read as it was written, and its comma leads to the next one.
    obtain ⟨fuel', v, r, -, hread, hrest⟩ := Json.readItems_eq_ok_iff.mp h
    rw [hfirst] at hread
    cases hread
    rw [Json.skipSpace_cons (by decide)] at hrest
    rcases hrest with ⟨hclose, -⟩ | ⟨r', vs, hcomma, hothers, rfl⟩
    · exact absurd (List.cons.inj hclose).1 (by decide)
    · obtain rfl := (List.cons.inj hcomma).2
      rw [ht, show skipSpace (' ' :: '\x7b' :: t) = '\x7b' :: t from rfl, ← ht] at hothers
      intro hpoints
      obtain ⟨-, qs, -, hqs, -⟩ := List.forall₂_cons_left_iff.mp hpoints
      exact ih hgood.2 hothers qs hqs

/-- An array in which a key is cut short describes no points. -/
theorem decodePoints_ne_of_spoils {good : List (Utf16 × Number)} (hgood : ∀ q ∈ good, IsFinite q)
    {us : Utf16} {t : List Char} (hspoils : Spoils t) (points : List Point) :
    decodePoints ('[' :: (followed good ++ '\x7b' :: (mark .key ++ '"' :: (keyText us ++ '"' :: t)))) ≠
      .ok points := by
  intro h
  obtain ⟨items, hdecode, -, hpoints⟩ := decodePoints_eq_ok_iff.mp h
  obtain ⟨rest, hread, -⟩ := Json.exists_of_decode hdecode
  obtain ⟨s, hs⟩ := exists_followed_eq_cons good (mark .key ++ '"' :: (keyText us ++ '"' :: t))
  rw [Json.skipSpace_cons (by decide)] at hread
  rcases Json.exists_of_readValue_array hread with ⟨hclose, -⟩ | ⟨fuel, items', hitems, hsame⟩
  · rw [hs, Json.skipSpace_cons (by decide)] at hclose
    exact absurd (List.cons.inj hclose).1 (by decide)
  · cases hsame
    rw [hs, Json.skipSpace_cons (by decide), ← hs] at hitems
    exact not_forall₂_of_readItems hgood
      (fun v r hitem q => not_describes_of_spoils hspoils hitem q) hitems points hpoints

/-- An array of strict JSON describes the points that were written. -/
theorem decodePoints_dataJson {ps : List (Utf16 × Number)} (hne : ps ≠ [])
    (hfinite : ∀ p ∈ ps, IsFinite p) :
    decodePoints (Json.text (dataJson ps)) = .ok (ps.map point) := by
  have hportable : Json.isPortable Json.depthLimit (dataJson ps) = true :=
    itemsPortable_map hfinite _
  have hdecode := Json.decode_text_self false hportable
  have hnames : Utf16.ofString "key" ≠ Utf16.ofString "value" := by decide
  refine decodePoints_eq_ok_iff.mpr ⟨_, hdecode, by simpa using hne, ?_⟩
  rw [List.forall₂_map_left_iff, List.forall₂_map_right_iff, List.forall₂_same]
  intro p hp
  exact ⟨_, p.2, rfl, by simp [Json.lookup, point, Key.toJson], trivial,
    by simp [Json.lookup, hnames], hfinite p hp, rfl⟩

/-! ### Charts -/

/-- A chart of strict JSON whose keys show no idle comma and open no member is read as the points
that were written, unless a key is cut short: then its data is malformed. -/
theorem parse_chartText (ps : List (Utf16 × Number)) (hne : ps ≠ [])
    (hfinite : ∀ p ∈ ps, IsFinite p)
    (hkeys : ∀ p ∈ ps, ¬ ShowsIdleComma (keyText p.1) ∧ ¬ OpensMember (keyText p.1)) :
    ((∀ p ∈ ps, ¬ IsCut (keyText p.1)) →
      Description.parse (chartText ps) = .ok {
        kind := "bar"
        points := ps.map point
        keysAreNumeric := (ps.map point).all (·.key.isNumeric) }) ∧
    ((∃ p ∈ ps, IsCut (keyText p.1)) →
      ∃ cause, Description.parse (chartText ps) = .error (.malformedData cause)) := by
  have hkept : ∀ p ∈ ps, ¬ IsCut (keyText p.1) → Kept (Json.text (pairJson p)) := fun p hp hcut =>
    kept_text_pairJson (hfinite p hp) hcut (hkeys p hp).1
  constructor
  · intro hcut
    rw [parse_chartText_eq, normalize_of_forall hne fun p hp => hkept p hp (hcut p hp),
      decodePoints_dataJson hne hfinite]
  · rintro ⟨p, hp, hcut⟩
    classical
    -- The first key that is cut short spoils the array.
    have hfound : (ps.find? fun p => decide (IsCut (keyText p.1))).isSome = true :=
      List.find?_isSome.mpr ⟨p, hp, decide_eq_true hcut⟩
    obtain ⟨p, hfind⟩ := Option.isSome_iff_exists.mp hfound
    obtain ⟨hcut, good, bad, rfl, hgood⟩ := List.find?_eq_some_iff_append.mp hfind
    have hfront : ∀ q ∈ good, q ∈ good ++ p :: bad := fun q hq => List.mem_append_left _ hq
    have hmem : p ∈ good ++ p :: bad := by simp
    obtain ⟨us, t, hspoils, hnormal⟩ := @exists_normalize_of_isCut good bad p
      (fun q hq => hkept q (hfront q hq) (by simpa using hgood q hq)) (of_decide_eq_true hcut)
      (hkeys p hmem).1 (hkeys p hmem).2
    rw [parse_chartText_eq, hnormal]
    cases hdecode : decodePoints _ with
    | error cause => exact ⟨cause, rfl⟩
    | ok points =>
      exact absurd hdecode
        (decodePoints_ne_of_spoils (fun q hq => hfinite q (hfront q hq)) hspoils points)

theorem conditions_of_forall {k : List Char} (h : ∀ c ∈ k, c ≠ ',') :
    ¬ ShowsIdleComma k ∧ ¬ OpensMember k := by
  constructor
  · rintro ⟨front, blanks, c, back, rfl, -⟩
    exact h ',' (by simp) rfl
  · rintro ⟨front, g, g', back, rfl, -⟩
    exact h ',' (by simp) rfl

theorem not_isCut_of_forall {k : List Char} (h : ∀ c ∈ k, c ≠ '\'' ∧ c ≠ ':') : ¬ IsCut k := by
  rintro (hquote | ⟨front, c, name, blanks, back, rfl, -⟩)
  · exact (h _ hquote).1 rfl
  · exact (h ':' (by simp)).2 rfl

/-- A point of one key. -/
def single (key : String) : List (Utf16 × Number) := [(Utf16.ofString key, .integer 1)]

/-- Brackets, quotes and escapes in a key do no harm, and an apostrophe makes the data malformed. -/
theorem parse_chartText_single :
    (∃ d, Description.parse (chartText (single "a]\"b\\ [key é")) = .ok d ∧
      d.points = (single "a]\"b\\ [key é").map point) ∧
    ∃ cause, Description.parse (chartText (single "it's")) = .error (.malformedData cause) := by
  have hfinite : ∀ key, ∀ p ∈ single key, IsFinite p := by
    intro key p hp
    rw [List.mem_singleton.mp hp]
    show (Number.integer 1).toDouble.isFinite = true
    decide +kernel
  constructor
  · have hparse := (parse_chartText (single "a]\"b\\ [key é") (by decide) (hfinite _) fun p hp =>
      conditions_of_forall (by rw [List.mem_singleton.mp hp]; decide +kernel)).1 fun p hp =>
        not_isCut_of_forall (by rw [List.mem_singleton.mp hp]; decide +kernel)
    exact ⟨_, hparse, rfl⟩
  · refine (parse_chartText (single "it's") (by decide) (hfinite _) fun p hp =>
      conditions_of_forall (by rw [List.mem_singleton.mp hp]; decide +kernel)).2
        ⟨_, List.mem_singleton_self _, .inl ?_⟩
    decide +kernel

/-- Points that are read as other ones. -/
def IsAltered (ps : List (Utf16 × Number)) : Prop :=
  ps ≠ [] ∧ (∀ p ∈ ps, IsFinite p) ∧
    ∃ d, Description.parse (chartText ps) = .ok d ∧ d.points ≠ ps.map point

theorem isAltered_single {key : String} (points : List Point)
    (h : (Description.parse (chartText (single key))).map Description.points = .ok points)
    (hne : points ≠ (single key).map point) : IsAltered (single key) := by
  refine ⟨List.cons_ne_nil _ _, fun p hp => ?_, ?_⟩
  · rw [List.mem_singleton.mp hp]
    show (Number.integer 1).toDouble.isFinite = true
    decide +kernel
  · cases hparse : Description.parse (chartText (single key)) with
    | error e => simp [hparse, Except.map] at h
    | ok d =>
      rw [hparse] at h
      cases h
      exact ⟨d, rfl, hne⟩

/-- Keys of both kinds that are left out are read as others. -/
theorem parse_chartText_ne :
    IsAltered (single "a,]b") ∧ IsAltered (single "a', 'key': 'b") := by
  constructor
  · exact isAltered_single ((single "a]b").map point) (by decide +kernel) (by decide +kernel)
  · exact isAltered_single ((single "b").map point) (by decide +kernel) (by decide +kernel)

end Chartdown.Chart.Strict
