import Chartdown.Proofs.Chart.Dialect.Rules
import Chartdown.Proofs.Chart.Points

/-!
# Arrays of JSON are read as the points they mean

An array all of whose choices are those of JSON is read token by token, and its items describe the
points that are written.

## Key results

- `FieldText.readMember_text`, `PointText.readValue_text`, `ItemsText.readItems_text`: how fields,
  points and items are read
- `ItemsText.isStrict_strict`: the rules make every choice as JSON has it
- `ArrayText.decodePoints_normalize`: the points of an array
-/

namespace Chartdown.Chart.Dialect

open Json
open Text (Utf16)

/-! ### The choices of JSON -/

/-- A value is not in single quotes. -/
def ScalarText.IsStrict : ScalarText → Prop
  | .string q _ => q = .double
  | .number _ => True

/-- A field with double quotes only. -/
def FieldText.IsStrict (f : FieldText) : Prop :=
  f.name.style = .quoted .double ∧ f.value.IsStrict

/-- A point with double quotes only and without an idle comma. -/
def PointText.IsStrict (p : PointText) : Prop :=
  p.keyField.IsStrict ∧ p.valueField.IsStrict ∧ p.ending.beforeComma = none

/-- Items with double quotes only and without idle commas. -/
def ItemsText.IsStrict : ItemsText → Prop
  | .last p e => p.IsStrict ∧ e.beforeComma = none
  | .next p _ _ rest => p.IsStrict ∧ rest.IsStrict

theorem NameText.style_changes (n : NameText) :
    (settled.name (doubled.name (named.name n))).style = .quoted .double := by
  obtain ⟨style, g, g'⟩ := n
  cases style <;> rfl

theorem PointText.isStrict_changes (p : PointText) :
    (((p.change named).change doubled).change settled).IsStrict := by
  refine ⟨⟨p.keyName.style_changes, ?_⟩, ⟨p.valueName.style_changes, trivial⟩, rfl⟩
  show (((p.key.change named).change doubled).change settled).IsStrict
  cases p.key
  · rfl
  · trivial

theorem ItemsText.isStrict_changes (items : ItemsText) :
    (((items.change named).change doubled).change settled).IsStrict := by
  induction items with
  | last p e => exact ⟨p.isStrict_changes, rfl⟩
  | next p g g' rest ih => exact ⟨p.isStrict_changes, ih⟩

theorem ItemsText.isStrict_strict (items : ItemsText) : items.strict.IsStrict :=
  items.trimmed.isStrict_changes

theorem PointText.IsStrict.fields {p : PointText} (h : p.IsStrict) :
    p.firstField.IsStrict ∧ p.lastField.IsStrict := by
  obtain ⟨hkey, hvalue, -⟩ := h
  unfold firstField lastField
  cases p.keyFirst with
  | true => exact ⟨hkey, hvalue⟩
  | false => exact ⟨hvalue, hkey⟩

/-! ### Values -/

/-- A number has no more digits than are read. -/
def ScalarText.IsReadable : ScalarText → Prop
  | .string _ _ => True
  | .number n => n.IsReadable

/-- The first character of a value is no space and opens no array or object. -/
theorem ScalarText.exists_text_eq_cons (s : ScalarText) :
    ∃ c t, s.text = c :: t ∧ isSpace c = false ∧ c ≠ '[' ∧ c ≠ '\x7b' := by
  cases s with
  | string q s => cases q <;> exact ⟨_, _, rfl, by decide, by decide, by decide⟩
  | number n =>
    obtain ⟨c, t, hcons, -⟩ := n.exists_text_eq_cons
    have hnumber : isNumberChar c = true :=
      NumberText.isNumberChar_of_mem_text (n := n) (by rw [hcons]; exact List.mem_cons_self)
    refine ⟨c, t, hcons, ?_, ?_, ?_⟩
    · have hblank := isBlank_of_isNumberChar hnumber
      by_contra hspace
      rw [isBlank_of_isSpace (by simpa using hspace)] at hblank
      exact nomatch hblank
    · rintro rfl
      exact absurd hnumber (by decide)
    · rintro rfl
      exact absurd hnumber (by decide)

/-- A value is read as what it means, before anything that cannot go on with a number. -/
theorem ScalarText.readValue_text {s : ScalarText} (hstrict : s.IsStrict) (hread : s.IsReadable)
    (depth : Nat) {rest : List Char} (hrest : NumberText.Ends rest) :
    readValue false depth (s.text ++ rest) = .ok (s.toKey.toJson, rest) := by
  obtain ⟨c, t, hcons, -, harray, hobject⟩ := s.exists_text_eq_cons
  have hplain : readValue false depth (s.text ++ rest) = readPlain false (s.text ++ rest) := by
    rw [hcons, List.cons_append]
    exact readValue_of_plain false depth harray hobject
  rw [hplain]
  cases s with
  | string q s =>
    obtain rfl : q = .double := hstrict
    simp only [text, Quote.write, Quote.char, List.cons_append, List.append_assoc]
    exact readPlain_string false s.property rest
  | number n => exact readPlain_number false n hrest hread

theorem Gap.skipSpace_append (g : Gap) {c : Char} (hc : isSpace c = false) (s : List Char) :
    skipSpace (g ++ c :: s) = c :: s := by
  rw [Json.skipSpace_append g.property, skipSpace_cons hc]

/-- What follows a value: space, and a mark that no number goes on with. -/
theorem ends_gap_append (g : Gap) {c : Char} (hc : c = ',' ∨ c = '\x7d') (s : List Char) :
    NumberText.Ends (g ++ c :: s) := by
  intro d hd
  obtain ⟨g, hg⟩ := g
  cases g with
  | nil =>
    obtain rfl : c = d := by simpa using hd
    rcases hc with rfl | rfl <;> decide
  | cons e g =>
    obtain rfl : e = d := by simpa using hd
    have hspace := hg e List.mem_cons_self
    simp only [isSpace, Bool.or_eq_true, beq_iff_eq] at hspace
    rcases hspace with ((rfl | rfl) | rfl) | rfl <;> decide

/-! ### Fields -/

/-- The member of an object that a field means. -/
def FieldText.member (f : FieldText) : Utf16 × Json :=
  (Utf16.ofChars f.role.chars, f.value.toKey.toJson)

theorem FieldText.IsStrict.exists_text_eq_cons {f : FieldText} (h : f.IsStrict) :
    ∃ s, f.text = '"' :: s := by
  rw [text, h.1]
  exact ⟨_, rfl⟩

/-- A field is read as the member it means. -/
theorem FieldText.readMember_text {f : FieldText} (hstrict : f.IsStrict)
    (hread : f.value.IsReadable) (depth : Nat) {rest : List Char} (hrest : NumberText.Ends rest) :
    readMember (readValue false depth) (f.text ++ rest) = .ok (f.member, rest) := by
  obtain ⟨hstyle, hvalue⟩ := hstrict
  have hname : ∀ c ∈ f.role.chars, IsPlainChar c := by cases f.role <;> decide
  have hcolon : ∀ s, skipSpace (f.name.beforeColon ++ ':' :: s) = ':' :: s := fun s =>
    f.name.beforeColon.skipSpace_append (by decide) s
  have hskip : skipSpace (f.name.afterColon ++ (f.value.text ++ rest)) = f.value.text ++ rest := by
    obtain ⟨c, t, hcons, hspace, -, -⟩ := f.value.exists_text_eq_cons
    rw [hcons, List.cons_append, f.name.afterColon.skipSpace_append hspace]
  have htext : f.text ++ rest = '"' :: (f.role.chars ++ '"' ::
      (f.name.beforeColon ++ ':' :: (f.name.afterColon ++ (f.value.text ++ rest)))) := by
    simp only [text, hstyle, NameStyle.write, Quote.write, Quote.char, List.cons_append,
      List.append_assoc, List.nil_append]
  rw [htext]
  simp only [readMember, readString_plain _ hname, hcolon, hskip,
    f.value.readValue_text hvalue hread depth hrest]
  rfl

/-! ### Points -/

/-- The object that a point means. -/
def PointText.json (p : PointText) : Json := ofMemberList [p.firstField.member, p.lastField.member]

/-- The numbers of a point have finite doubles. -/
def PointText.IsFinite (p : PointText) : Prop :=
  p.key.toKey.IsFinite ∧ p.value.value.toDouble.isFinite = true

instance (p : PointText) : Decidable p.IsFinite := inferInstanceAs (Decidable (_ ∧ _))

theorem ScalarText.isReadable_of_isFinite {s : ScalarText} (h : s.toKey.IsFinite) :
    s.IsReadable := by
  cases s with
  | string q s => trivial
  | number n => exact NumberText.isReadable_of_isFinite h

theorem PointText.IsFinite.isReadable {p : PointText} (h : p.IsFinite) :
    p.firstField.value.IsReadable ∧ p.lastField.value.IsReadable := by
  have hkey : p.keyField.value.IsReadable := ScalarText.isReadable_of_isFinite h.1
  have hvalue : p.valueField.value.IsReadable := NumberText.isReadable_of_isFinite h.2
  unfold firstField lastField
  cases p.keyFirst with
  | true => exact ⟨hkey, hvalue⟩
  | false => exact ⟨hvalue, hkey⟩

/-- A point is read as the object it means. -/
theorem PointText.readValue_text {p : PointText} (hstrict : p.IsStrict) (hfinite : p.IsFinite)
    (depth : Nat) (rest : List Char) :
    readValue false (depth + 1) (p.text ++ rest) = .ok (p.json, rest) := by
  obtain ⟨hfirst, hlast⟩ := hstrict.fields
  obtain ⟨hreadFirst, hreadLast⟩ := hfinite.isReadable
  obtain ⟨s, hs⟩ := hfirst.exists_text_eq_cons
  obtain ⟨t, ht⟩ := hlast.exists_text_eq_cons
  have hending : p.ending.text = p.ending.gap.val := by rw [Ending.text, hstrict.2.2]
  -- Each field is read in front of what follows it: the comma of the other, or the closing brace.
  have hmemberFirst := FieldText.readMember_text hfirst hreadFirst depth
    (ends_gap_append p.beforeComma (.inl rfl) (p.afterComma ++ (p.lastField.text ++
      (p.ending.gap ++ '\x7d' :: rest))))
  have hmemberLast := FieldText.readMember_text hlast hreadLast depth
    (ends_gap_append p.ending.gap (.inr rfl) rest)
  have hcomma : ∀ u, skipSpace (p.beforeComma ++ ',' :: u) = ',' :: u := fun u =>
    p.beforeComma.skipSpace_append (by decide) u
  have hclose : ∀ u, skipSpace (p.ending.gap ++ '\x7d' :: u) = '\x7d' :: u := fun u =>
    p.ending.gap.skipSpace_append (by decide) u
  have hnext : ∀ u, skipSpace (p.afterComma ++ (p.lastField.text ++ u)) = p.lastField.text ++ u :=
    fun u => by rw [ht, List.cons_append, p.afterComma.skipSpace_append (by decide)]
  have hmembers : ∀ fuel, readMembers (readValue false depth) (fuel + 2) (p.firstField.text ++
      (p.beforeComma ++ ',' :: (p.afterComma ++ (p.lastField.text ++ (p.ending.gap ++
        '\x7d' :: rest))))) = .ok ([p.firstField.member, p.lastField.member], rest) := fun fuel =>
    readMembers_next hmemberFirst (hcomma _) (by
      rw [hnext]
      exact readMembers_last hmemberLast (hclose _))
  have htext : p.text ++ rest = '\x7b' :: (p.start ++ (p.firstField.text ++ (p.beforeComma ++
      ',' :: (p.afterComma ++ (p.lastField.text ++ (p.ending.gap ++ '\x7d' :: rest)))))) := by
    simp only [text, hending, List.cons_append, List.append_assoc, List.nil_append]
  have hopen : ∀ u, skipSpace (p.start ++ (p.firstField.text ++ u)) = '"' :: (s ++ u) := fun u => by
    rw [hs, List.cons_append, p.start.skipSpace_append (by decide)]
  rw [hs, List.cons_append] at hmembers
  rw [htext]
  exact readValue_object (hopen _) (by decide) (hmembers _)

theorem Role.ofChars_key_ne_value : Utf16.ofChars Role.key.chars ≠ Utf16.ofChars Role.value.chars := by
  decide

/-- The object of a point describes the point. -/
theorem PointText.describes_json {p : PointText} (h : p.IsFinite) :
    Point.Describes p.json p.point := by
  have hne := Role.ofChars_key_ne_value
  refine ⟨_, p.value.value, rfl, ?_, h.1, ?_, h.2, rfl⟩
  · show lookup (Utf16.ofChars Role.key.chars) _ = some p.key.toKey.toJson
    unfold firstField lastField
    cases p.keyFirst with
    | true => exact (lookup_put_of_ne hne _ _).trans (lookup_put _ _ _)
    | false => exact lookup_put _ _ _
  · show lookup (Utf16.ofChars Role.value.chars) _ = some (.number p.value.value)
    unfold firstField lastField
    cases p.keyFirst with
    | true => exact lookup_put _ _ _
    | false => exact (lookup_put_of_ne hne.symm _ _).trans (lookup_put _ _ _)

/-! ### Arrays -/

/-- All numbers of the items have finite doubles. -/
def ItemsText.IsFinite (items : ItemsText) : Prop := ∀ p ∈ items.toList, p.IsFinite

instance (items : ItemsText) : Decidable items.IsFinite :=
  inferInstanceAs (Decidable (∀ p ∈ items.toList, p.IsFinite))

theorem PointText.IsFinite.change (c : Change) {p : PointText} (h : p.IsFinite) :
    (p.change c).IsFinite := by
  refine ⟨?_, h.2⟩
  show (p.key.change c).toKey.IsFinite
  rw [p.key.toKey_change]
  exact h.1

theorem ItemsText.isFinite_change (c : Change) {items : ItemsText} (h : items.IsFinite) :
    (items.change c).IsFinite := by
  intro q hq
  rw [toList_change] at hq
  obtain ⟨p, hp, rfl⟩ := List.mem_map.mp hq
  exact (h p hp).change c

/-- The rules do not touch the numbers. -/
theorem ItemsText.isFinite_strict {items : ItemsText} (h : items.IsFinite) :
    items.strict.IsFinite := by
  have htrimmed : items.trimmed.IsFinite := by
    rw [IsFinite, items.toList_trimmed]
    exact h
  exact isFinite_change settled (isFinite_change doubled (isFinite_change named htrimmed))

/-- The rules do not touch the points. -/
theorem ItemsText.points_strict (items : ItemsText) : items.strict.points = items.points := by
  rw [strict, points_change, points_change, points_change, points, points, items.toList_trimmed]

theorem ItemsText.exists_text_eq_cons (items : ItemsText) : ∃ s, items.text = '\x7b' :: s := by
  cases items <;> exact ⟨_, rfl⟩

/-- Every point takes a character at least. -/
theorem ItemsText.length_toList_le (items : ItemsText) :
    items.toList.length ≤ items.text.length := by
  induction items with
  | last p e =>
    simp only [toList, text, PointText.text, List.length_append, List.length_cons, List.length_nil]
    omega
  | next p g g' rest ih =>
    simp only [toList, text, PointText.text, List.length_append, List.length_cons]
    omega

/-- Items are read as the objects they mean, up to the closing bracket. -/
theorem ItemsText.readItems_text {items : ItemsText} (hstrict : items.IsStrict)
    (hfinite : items.IsFinite) (depth : Nat) {fuel : Nat} (hfuel : items.toList.length ≤ fuel)
    (rest : List Char) :
    readItems (readValue false (depth + 1)) fuel (items.text ++ ']' :: rest) =
      .ok (items.toList.map PointText.json, rest) := by
  -- Each item takes one unit of fuel.
  induction items generalizing fuel with
  | last p e =>
    obtain ⟨hp, he⟩ := hstrict
    obtain ⟨fuel, rfl⟩ := Nat.exists_eq_add_of_le' hfuel
    have htext : (ItemsText.last p e).text ++ ']' :: rest = p.text ++ (e.gap ++ ']' :: rest) := by
      rw [text, Ending.text, he, List.append_assoc]
    rw [htext]
    exact readItems_last (p.readValue_text hp (hfinite p List.mem_cons_self) depth _)
      (e.gap.skipSpace_append (by decide) rest)
  | next p g g' others ih =>
    obtain ⟨hp, hothers⟩ := hstrict
    simp only [toList, List.length_cons] at hfuel
    obtain ⟨fuel, rfl⟩ := Nat.exists_eq_add_of_le' (show 1 ≤ fuel by omega)
    have hlength : others.toList.length ≤ fuel := by omega
    have hrest := ih hothers (fun q hq => hfinite q (List.mem_cons_of_mem _ hq)) hlength
    have htext : (ItemsText.next p g g' others).text ++ ']' :: rest =
        p.text ++ (g ++ ',' :: (g' ++ (others.text ++ ']' :: rest))) := by
      simp only [text, List.append_assoc, List.cons_append]
    have hskip : skipSpace (g' ++ (others.text ++ ']' :: rest)) = others.text ++ ']' :: rest := by
      obtain ⟨s, hs⟩ := others.exists_text_eq_cons
      rw [hs, List.cons_append, g'.skipSpace_append (by decide)]
    rw [htext]
    refine readItems_next (p.readValue_text hp (hfinite p List.mem_cons_self) depth _)
      (g.skipSpace_append (by decide) _) ?_
    rw [hskip]
    exact hrest

/-- An array in both brackets is read as an array of the objects that its points mean. -/
theorem ArrayText.decode_wrap (a : ArrayText) {items : ItemsText} (hstrict : items.IsStrict)
    (hfinite : items.IsFinite) :
    Json.decode false (a.wrap items) = .ok (.array (items.toList.map PointText.json)) := by
  obtain ⟨s, hs⟩ := items.exists_text_eq_cons
  have hfuel : items.toList.length ≤ (s ++ [']']).length + 2 := by
    have hlength := items.length_toList_le
    rw [hs, List.length_cons] at hlength
    rw [List.length_append]
    omega
  have hitems := items.readItems_text hstrict hfinite (depthLimit - 2) hfuel []
  have hskip : skipSpace (a.start ++ (items.text ++ [']'])) = '\x7b' :: (s ++ [']']) := by
    rw [hs, List.cons_append, a.start.skipSpace_append (by decide)]
  rw [hs, List.cons_append] at hitems
  have hvalue : readValue false depthLimit (a.wrap items) =
      .ok (.array (items.toList.map PointText.json), []) :=
    readValue_array hskip (by decide) hitems
  have hopen : skipSpace (a.wrap items) = a.wrap items := skipSpace_cons (by decide) _
  have hmark : (a.wrap items).head? ≠ some '\ufeff' := by simp [wrap]
  rw [decode, readDocument, if_neg hmark, hopen, hvalue]
  rfl

/-- The points of an array in both brackets. -/
theorem ArrayText.decodePoints_wrap (a : ArrayText) {items : ItemsText} (hstrict : items.IsStrict)
    (hfinite : items.IsFinite) : decodePoints (a.wrap items) = .ok items.points := by
  refine decodePoints_eq_ok_iff.mpr ⟨_, a.decode_wrap hstrict hfinite, ?_, ?_⟩
  · cases items <;> exact List.cons_ne_nil _ _
  · rw [ItemsText.points, List.forall₂_map_left_iff, List.forall₂_map_right_iff, List.forall₂_same]
    exact fun p hp => p.describes_json (hfinite p hp)

/-- The points of an array are read whatever way it is written. -/
theorem ArrayText.decodePoints_normalize {a : ArrayText} (hinert : a.items.IsInert)
    (hfinite : a.items.IsFinite) :
    decodePoints (DataText.normalize a.core) = .ok a.items.points := by
  rw [a.normalize_core hinert, a.decodePoints_wrap a.items.isStrict_strict
    (ItemsText.isFinite_strict hfinite), a.items.points_strict]

end Chartdown.Chart.Dialect
