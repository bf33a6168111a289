import Chartdown.Proofs.Html.Slug

/-!
# The shape of slugs

A slug is one or more groups of small letters and digits of ASCII, joined by single hyphens. This is
told in two ways: by the groups, and by what a slug is free of. Cutting a slug to a length can leave
a hyphen at its end but nothing else that is wrong, and that hyphen is dropped. A slug is its own
slug, so an anchor can be made from an anchor.

## Key results

- `isClean_iff_isShaped`: the two ways of telling the shape agree
- `IsClean.of_prefix`: what is cut off a slug leaves one, but for a hyphen at the end
- `intercalate_words_of_isClean`: a slug is put together from its own words
- `ofText_shape`: the shape and the length of slugs, and that they are their own slugs
-/

namespace Chartdown.Html.Slug

open Text

/-! ### Shapes -/

/-- A group of a slug: some small letters and digits of ASCII. -/
def IsGroup (group : List Char) : Prop :=
  group ≠ [] ∧ ∀ c ∈ group, c.isLower = true ∨ c.isDigit = true

/-- One or more groups, joined by single hyphens. -/
def IsShaped (s : List Char) : Prop :=
  ∃ groups : List (List Char), groups ≠ [] ∧ (∀ group ∈ groups, IsGroup group) ∧
    s = ['-'].intercalate groups

/-- A text that is not empty, of small letters, digits and hyphens, without a hyphen at either end
and without two of them side by side. -/
structure IsClean (s : List Char) : Prop where
  ne_nil : s ≠ []
  chars : ∀ c ∈ s, IsSlugChar c
  head : s.head? ≠ some '-'
  last : s.getLast? ≠ some '-'
  single : ¬ ['-', '-'] <:+: s

variable {s group : List Char}

theorem IsGroup.hyphen_not_mem (h : IsGroup group) : '-' ∉ group := fun hmem =>
  (by decide : ¬ ('-'.isLower = true ∨ '-'.isDigit = true)) (h.2 _ hmem)

theorem IsGroup.isClean (h : IsGroup group) : IsClean group where
  ne_nil := h.1
  chars c hc := .inr (h.2 c hc)
  head hhead := h.hyphen_not_mem (List.mem_of_head? hhead)
  last hlast := h.hyphen_not_mem (List.mem_of_getLast? hlast)
  single hpair := h.hyphen_not_mem (hpair.subset List.mem_cons_self)

/-- A group and a hyphen can stand in front. -/
theorem IsClean.cons_group (hs : IsClean s) (h : IsGroup group) :
    IsClean (group ++ '-' :: s) where
  ne_nil := by simp
  chars := by
    rw [List.forall_mem_append, List.forall_mem_cons]
    exact ⟨h.isClean.chars, .inl rfl, hs.chars⟩
  head := by
    obtain ⟨c, rest, rfl⟩ := List.exists_cons_of_ne_nil h.1
    exact h.isClean.head
  last := by
    rw [List.getLast?_append_of_ne_nil _ (by simp), List.getLast?_cons_of_ne_nil hs.ne_nil]
    exact hs.last
  single hpair := by
    have hrest := isInfix_of_append_of_not_mem h.hyphen_not_mem hpair
    rw [List.infix_cons_iff, List.cons_prefix_cons] at hrest
    rcases hrest with ⟨-, hstart⟩ | hrest
    · obtain ⟨rest, rfl⟩ := hstart
      exact hs.head rfl
    · exact hs.single hrest

theorem IsShaped.isClean (h : IsShaped s) : IsClean s := by
  obtain ⟨groups, hne, hgroups, rfl⟩ := h
  induction groups with
  | nil => exact absurd rfl hne
  | cons group groups ih =>
    rw [List.forall_mem_cons] at hgroups
    cases groups with
    | nil => simpa using hgroups.1.isClean
    | cons next groups =>
      rw [List.intercalate_cons_cons, List.append_assoc]
      exact (ih (by simp) hgroups.2).cons_group hgroups.1

/-- Only the first part of a text can be empty where nothing is cut at its end and no two cuts stand
side by side. -/
theorem nil_not_mem_tail_cutAt (hlast : s.getLast? ≠ some '-') (hsingle : ¬ ['-', '-'] <:+: s) :
    [] ∉ (cutAt '-' s).tail := by
  induction s with
  | nil => simp [cutAt]
  | cons c s ih =>
    have hsingle' : ¬ ['-', '-'] <:+: s := fun h => hsingle (List.infix_cons h)
    cases s with
    | nil =>
      have hc : c ≠ '-' := by simpa using hlast
      simp [cutAt, hc, consFirst]
    | cons d s =>
      have ih' := ih (by simpa using hlast) hsingle'
      by_cases hc : c = '-'
      · -- What follows a hyphen does not start with another one, so its first part is not empty.
        have hd : d ≠ '-' := by
          rintro rfl
          exact hsingle (hc ▸ (List.prefix_append ['-', '-'] s).isInfix)
        obtain ⟨part, parts, hparts⟩ := List.exists_cons_of_ne_nil (cutAt_ne_nil '-' s)
        simp only [cutAt, hd, if_false, hparts, consFirst, List.tail_cons] at ih'
        simp [cutAt, hc, hd, hparts, consFirst, ih']
      · obtain ⟨part, parts, hparts⟩ := List.exists_cons_of_ne_nil (cutAt_ne_nil '-' (d :: s))
        rw [hparts] at ih'
        rw [cutAt, if_neg hc, hparts]
        exact ih'

/-- The parts of a clean text between its hyphens are groups. -/
theorem IsClean.isGroup_of_mem_cutAt (h : IsClean s) (hgroup : group ∈ cutAt '-' s) :
    IsGroup group := by
  have hne : group ≠ [] := by
    rintro rfl
    obtain ⟨c, t, rfl⟩ := List.exists_cons_of_ne_nil h.ne_nil
    have hc : c ≠ '-' := by simpa using h.head
    have htail := nil_not_mem_tail_cutAt h.last h.single
    obtain ⟨part, parts, hparts⟩ := List.exists_cons_of_ne_nil (cutAt_ne_nil '-' t)
    simp only [cutAt, hc, if_false, hparts, consFirst, List.tail_cons] at htail hgroup
    simp [htail] at hgroup
  refine ⟨hne, fun c hc => (h.chars c (mem_of_mem_cutAt hgroup hc)).resolve_left ?_⟩
  rintro rfl
  exact not_mem_of_mem_cutAt hgroup hc

theorem isClean_iff_isShaped : IsClean s ↔ IsShaped s :=
  ⟨fun h => ⟨cutAt '-' s, cutAt_ne_nil '-' s, fun _ => h.isGroup_of_mem_cutAt,
    (intercalate_cutAt '-' s).symm⟩, IsShaped.isClean⟩

/-! ### Slugs have the shape -/

/-- A part at the start has the shape if it does not end with a hyphen. -/
theorem IsClean.of_prefix {t : List Char} (h : IsClean s) (ht : t <+: s) (hne : t ≠ [])
    (hlast : t.getLast? ≠ some '-') : IsClean t where
  ne_nil := hne
  chars c hc := h.chars c (ht.subset hc)
  head := by
    obtain ⟨c, t, rfl⟩ := List.exists_cons_of_ne_nil hne
    obtain ⟨rest, rfl⟩ := ht
    exact h.head
  last := hlast
  single hpair := h.single (hpair.trans ht.isInfix)

theorem takeInt_isPrefix {α : Type*} (n : Int) (s : List α) : takeInt n s <+: s := by
  cases n <;> exact List.take_prefix _ s

theorem isGroup_of_mem_words (h : group ∈ words s) : IsGroup group := by
  have hmem := List.mem_filter.mp h
  refine ⟨by simpa using hmem.2, fun c hc => ?_⟩
  refine (isSlugChar_of_mem_words h c hc).resolve_left ?_
  rintro rfl
  exact not_mem_of_mem_cutAt hmem.1 hc

theorem isClean_section : IsClean "section".toList :=
  IsGroup.isClean ⟨by decide, by decide⟩

/-- The slug of a text has the shape, whatever it is cut to. -/
theorem isClean_ofChars (maxLength : Int) (s : List Char) : IsClean (ofChars maxLength s) := by
  simp only [ofChars]
  split
  · exact isClean_section
  rename_i hcut
  have hstart := (dropEndWhile_isPrefix (· == '-') _).trans
    (takeInt_isPrefix maxLength (['-'].intercalate (words s)))
  -- Something is left, so the text has words.
  have hwords : words s ≠ [] := by
    intro hnil
    rw [hnil, List.intercalate_nil, List.prefix_nil] at hstart
    rw [hnil, List.intercalate_nil] at hcut
    simp [hstart] at hcut
  have hjoined : IsClean (['-'].intercalate (words s)) :=
    IsShaped.isClean ⟨words s, hwords, fun _ => isGroup_of_mem_words, rfl⟩
  refine hjoined.of_prefix hstart (by simpa using hcut) fun hlast => ?_
  simpa using getLast?_dropEndWhile _ _ _ hlast

theorem isClean_ofText (maxLength : Int) (text : String) :
    IsClean (ofText maxLength text).toList := by
  rw [ofText, String.toList_ofList]
  exact isClean_ofChars maxLength text.toList

/-- The number of a slug is one more group. -/
theorem IsShaped.numbered {slug : String} (h : IsShaped slug.toList) (n : Nat) :
    IsShaped (Slug.numbered slug n).toList := by
  obtain ⟨groups, hne, hgroups, hslug⟩ := h
  have hdigits : IsGroup (Nat.toDigits 10 n) :=
    ⟨Nat.toDigits_ne_nil, fun c hc => .inr (Nat.isDigit_of_mem_toDigits (by decide) (by decide) hc)⟩
  refine ⟨groups ++ [Nat.toDigits 10 n], by simp, ?_, ?_⟩
  · rw [List.forall_mem_append, List.forall_mem_singleton]
    exact ⟨hgroups, hdigits⟩
  · rw [intercalate_append _ hne (by simp), ← hslug, Slug.numbered]
    simp [Nat.toList_repr]

theorem isShaped_choose (maxLength : Int) (text : String) (taken : List String) :
    IsShaped (choose maxLength text taken).toList := by
  have hplain := isClean_iff_isShaped.mp (isClean_ofText maxLength text)
  simp only [choose]
  split
  · obtain ⟨k, -, hfound, -⟩ :=
      exists_firstFree (ofText maxLength text) taken taken.length 2
    rw [hfound]
    exact hplain.numbered _
  · exact hplain

/-! ### Slugs of slugs -/

/-- Small letters and digits print, and none of them is an underscore. -/
theorem printable_of_isLower_or_isDigit {c : Char} (h : c.isLower = true ∨ c.isDigit = true) :
    0x21 ≤ c.toNat ∧ c.toNat < 0x7f ∧ c ≠ '_' := by
  have hword : (c.isUpper || c.isLower || c.isDigit) = true := by
    rw [Bool.or_assoc, Bool.or_eq_true, Bool.or_eq_true]
    exact .inr h
  obtain ⟨hge, hlt⟩ : 0x21 ≤ c.toNat ∧ c.toNat < 0x7f := range_of_isAlphanum hword
  refine ⟨hge, hlt, ?_⟩
  rintro rfl
  exact absurd h (by decide)

/-- A character of a slug is kept as it is. -/
theorem keep_of_isSlugChar {c : Char} (h : IsSlugChar c) : keep c = some c := by
  by_cases hc : c = '-'
  · rw [hc]
    decide
  have hkept := h.resolve_left hc
  obtain ⟨hge, hlt, hunder⟩ := printable_of_isLower_or_isDigit hkept
  simp [keep, isBlank_eq_false hge hlt, hc, hunder, hkept]

/-- A slug is put together from its own words. -/
theorem intercalate_words_of_isClean (h : IsClean s) : ['-'].intercalate (words s) = s := by
  have hkept : s.filterMap keep = s := by
    rw [List.filterMap_congr fun c hc => keep_of_isSlugChar (h.chars c hc), List.filterMap_some]
  have hwords : words s = cutAt '-' s := by
    rw [words, hkept, List.filter_eq_self]
    exact fun group hgroup => by simpa using (h.isGroup_of_mem_cutAt hgroup).1
  rw [hwords, intercalate_cutAt]

/-- A slug that is not too long is its own slug. -/
theorem ofChars_of_isClean (h : IsClean s) {maxLength : Int} (hlength : s.length ≤ maxLength) :
    ofChars maxLength s = s := by
  obtain ⟨k, rfl⟩ := Int.eq_ofNat_of_zero_le (a := maxLength) (by omega)
  have htake : takeInt k s = s := List.take_of_length_le (by omega)
  have hdrop : dropEndWhile (· == '-') s = s := by
    obtain ⟨t, c, rfl⟩ := (List.eq_nil_or_concat' s).resolve_left h.ne_nil
    have hc : c ≠ '-' := by simpa using h.last
    simp [dropEndWhile, hc]
  rw [ofChars, intercalate_words_of_isClean h]
  simp only [htake, hdrop]
  rw [if_neg (by simpa using h.ne_nil)]

/-- A slug is no longer than it may be, if it may be as long as the slug of a text without words. -/
theorem length_ofChars_le {maxLength : Int} (h : 7 ≤ maxLength) (s : List Char) :
    ((ofChars maxLength s).length : Int) ≤ maxLength := by
  obtain ⟨k, rfl⟩ := Int.eq_ofNat_of_zero_le (a := maxLength) (by omega)
  simp only [ofChars]
  split
  · exact h
  · have hcut :=
      (dropEndWhile_isPrefix (· == '-') (takeInt k (['-'].intercalate (words s)))).length_le
    have htake : (takeInt (k : Int) (['-'].intercalate (words s))).length ≤ k :=
      List.length_take_le _ _
    omega

/-- Every slug is groups of small letters and digits joined by single hyphens, whatever its text is,
whatever length it is cut to and whatever slugs are taken. Where nothing is taken and there is room
for the slug of a text without words, it keeps to its length and is its own slug. -/
theorem ofText_shape (maxLength : Int) (text : String) :
    (IsShaped (ofText maxLength text).toList ∧ IsClean (ofText maxLength text).toList) ∧
      (∀ taken, IsShaped (choose maxLength text taken).toList ∧
        IsClean (choose maxLength text taken).toList) ∧
      (7 ≤ maxLength → ((ofText maxLength text).length : Int) ≤ maxLength ∧
        ofText maxLength (ofText maxLength text) = ofText maxLength text) := by
  have hplain := isClean_ofText maxLength text
  refine ⟨⟨isClean_iff_isShaped.mp hplain, hplain⟩, fun taken => ?_, fun h => ?_⟩
  · have htaken := isShaped_choose maxLength text taken
    exact ⟨htaken, htaken.isClean⟩
  · have hlength := length_ofChars_le h text.toList
    refine ⟨by simpa [ofText] using hlength, ?_⟩
    rw [ofText, ofText, String.toList_ofList, ofChars_of_isClean (isClean_ofChars _ _) hlength]

/-- A cut behind a hyphen, and one from the end. -/
theorem ofText_shape_cut :
    (7 : Int) ≤ 8 ∧ ofText 8 "Café -- au lait" = "cafe-au" ∧
      ofText 8 (ofText 8 "Café -- au lait") = ofText 8 "Café -- au lait" ∧
      IsShaped (choose (-10) "Café -- au lait" ["ca"]).toList ∧
      choose (-10) "Café -- au lait" ["ca"] = "ca-2" :=
  ⟨by decide, by decide +kernel, ((ofText_shape 8 "Café -- au lait").2.2 (by decide)).2,
    ((ofText_shape (-10) "Café -- au lait").2.1 ["ca"]).1, by decide +kernel⟩

end Chartdown.Html.Slug
