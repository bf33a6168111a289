import Chartdown.Proofs.Chart.Dialect.Layout
import Chartdown.Proofs.Text.Replace

/-!
# The rules make JSON of an array

The four rules of the dialect are applied to the text of an array, and each makes another choice of
writing: both brackets are there, no name is bare, all quotes are double, no comma is idle. A rule
sees characters and no tokens, so it must also leave the texts of keys alone: a key is inert when
neither a bare name nor an idle comma shows inside it.

## Key results

- `ArrayText.rewrapBrackets_core`: the outer brackets
- `ItemsText.rewrites_named`: bare names get quotes
- `ItemsText.convertSingleQuotes_text`: single quotes become double ones
- `ItemsText.rewrites_settled`: idle commas go
- `ArrayText.normalize_core`: all rules together
-/

namespace Chartdown.Chart.Dialect

open Text
open DataText
open Json (NumberText)

/-! ### Inert keys -/

/-- A text shows a bare name: a name of a field and a colon, with a character before that is not of
a word and only blanks between. -/
def ShowsBareName (s : List Char) : Prop :=
  ∃ front c name blanks back, s = front ++ c :: (name ++ (blanks ++ ':' :: back)) ∧
    isWord c = false ∧ name ∈ fieldNames ∧ ∀ b ∈ blanks, isBlank b = true

/-- A text shows an idle comma: only blanks are between it and a closing brace or bracket. -/
def ShowsIdleComma (s : List Char) : Prop :=
  ∃ front blanks c back, s = front ++ ',' :: (blanks ++ c :: back) ∧
    (∀ b ∈ blanks, isBlank b = true) ∧ (c = '\x7d' ∨ c = ']')

/-- A value that no rule reaches into. -/
def ScalarText.IsInert : ScalarText → Prop
  | .string _ s => ¬ ShowsBareName s.val ∧ ¬ ShowsIdleComma s.val
  | .number _ => True

/-- A text without colons and commas is inert. -/
theorem ScalarText.isInert_of_forall (q : Quote) {s : PlainText}
    (h : ∀ c ∈ s.val, c ≠ ':' ∧ c ≠ ',') : (ScalarText.string q s).IsInert := by
  constructor
  · rintro ⟨front, c, name, blanks, back, hs, -⟩
    exact (h ':' (by simp [hs])).1 rfl
  · rintro ⟨front, blanks, c, back, hs, -⟩
    exact (h ',' (by simp [hs])).2 rfl

theorem ScalarText.isInert_change (c : Change) (s : ScalarText) :
    (s.change c).IsInert ↔ s.IsInert := by
  cases s <;> rfl

/-- The keys of all items are inert. -/
def ItemsText.IsInert (items : ItemsText) : Prop := ∀ p ∈ items.toList, p.key.IsInert

theorem ItemsText.toList_change (c : Change) (items : ItemsText) :
    (items.change c).toList = items.toList.map (PointText.change c) := by
  induction items with
  | last p e => rfl
  | next p g g' rest ih => simp only [change, toList, ih, List.map_cons]

theorem ItemsText.isInert_change (c : Change) {items : ItemsText} (h : items.IsInert) :
    (items.change c).IsInert := by
  intro q hq
  rw [toList_change] at hq
  obtain ⟨p, hp, rfl⟩ := List.mem_map.mp hq
  exact (ScalarText.isInert_change c p.key).mpr (h p hp)

theorem ItemsText.toList_trimmed (items : ItemsText) : items.trimmed.toList = items.toList := by
  induction items with
  | last p e => rfl
  | next p g g' rest ih => simp only [trimmed, toList, ih]

/-! ### The outer brackets -/

/-- Items end with a brace or a comma. -/
theorem ItemsText.exists_trimmed_eq_concat (items : ItemsText) :
    ∃ t c, items.trimmed.text = t ++ [c] ∧ (c = '\x7d' ∨ c = ',') := by
  induction items with
  | last p e =>
    obtain ⟨beforeComma, g⟩ := e
    cases beforeComma with
    | none =>
      refine ⟨'\x7b' :: (p.start ++ (p.firstField.text ++ (p.beforeComma ++ (',' ::
        (p.afterComma ++ (p.lastField.text ++ p.ending.text)))))), '\x7d', ?_, .inl rfl⟩
      simp [trimmed, text, PointText.text, Ending.text, Gap.none]
    | some g' =>
      exact ⟨p.text ++ g'.val, ',', by simp [trimmed, text, Ending.text, Gap.none], .inr rfl⟩
  | next p g g' rest ih =>
    obtain ⟨t, c, hrest, hc⟩ := ih
    exact ⟨p.text ++ (g ++ ',' :: (g' ++ t)), c, by simp [trimmed, text, hrest], hc⟩

theorem ItemsText.exists_trimmed_eq_cons (items : ItemsText) :
    ∃ t, items.trimmed.text = '\x7b' :: t := by
  cases items <;> exact ⟨_, rfl⟩

/-- The gap behind the opening bracket, if there is one. -/
def ArrayText.start (a : ArrayText) : Gap := a.opening.getD .none

/-- Some items in both brackets, behind the gap of an array. -/
def ArrayText.wrap (a : ArrayText) (items : ItemsText) : List Char :=
  ['['] ++ (a.start ++ (items.text ++ [']']))

/-- An array is put in both brackets. -/
theorem ArrayText.rewrapBrackets_core (a : ArrayText) :
    rewrapBrackets a.core = a.wrap a.items.trimmed := by
  have hcore := a.tidies_core .none
  -- Without a closing bracket, which is how the rule sees every array.
  have hopen := (⟨a.opening, a.items, false⟩ : ArrayText).tidies_core .none
  have hopenCore : (⟨a.opening, a.items, false⟩ : ArrayText).core = a.front ++ a.items.trimmed.text :=
    rfl
  rw [hopenCore] at hopen
  have hdropped : trim (if a.core.getLast? = some ']' then a.core.dropLast else a.core) =
      a.front ++ a.items.trimmed.text := by
    rw [core]
    cases a.closed with
    | true =>
      have hgap := a.items.finish.isBlank_of_mem
      rw [if_pos rfl, ← List.append_assoc, List.getLast?_concat, if_pos rfl, List.dropLast_concat,
        a.items.text_eq, ← List.append_assoc, trim_append_gap _ hgap, trim_of_solid hopen.starts hopen.ends]
    | false =>
      obtain ⟨t, c, ht, hc⟩ := a.items.exists_trimmed_eq_concat
      have hne : (a.front ++ a.items.trimmed.text).getLast? ≠ some ']' := by
        rw [ht, ← List.append_assoc, List.getLast?_concat]
        rcases hc with rfl | rfl <;> decide
      rw [if_neg Bool.false_ne_true, if_neg hne, trim_of_solid hopen.starts hopen.ends]
  obtain ⟨t, ht⟩ := a.items.exists_trimmed_eq_cons
  rw [rewrapBrackets, trim_of_solid hcore.starts hcore.ends]
  simp only [hdropped]
  rw [front, wrap, start]
  cases a.opening with
  | none => simp [ht, Gap.none]
  | some g => simp

/-! ### Bare names -/

theorem bareFieldName_eq_none_of_head {before : Option Char} {c : Char} {s : List Char}
    (hkey : c ≠ 'k') (hvalue : c ≠ 'v') : bareFieldName before (c :: s) = none := by
  have hnames : ∀ name ∈ fieldNames, name.isPrefixOf (c :: s) = false := by
    intro name hname
    have hnames : name = 'k' :: "ey".toList ∨ name = 'v' :: "alue".toList := by
      simpa [fieldNames] using hname
    rcases hnames with rfl | rfl
    · rw [List.isPrefixOf, beq_false_of_ne hkey.symm, Bool.false_and]
    · rw [List.isPrefixOf, beq_false_of_ne hvalue.symm, Bool.false_and]
  rw [bareFieldName, List.findSome?_eq_none_iff]
  intro name hname
  rw [bareName, hnames name hname, Bool.and_false]
  rfl

/-- The names of the fields are those of the roles. -/
theorem exists_role_of_mem {name : List Char} (h : name ∈ fieldNames) :
    ∃ role : Role, name = role.chars := by
  simp only [fieldNames, List.mem_cons, List.not_mem_nil, or_false] at h
  rcases h with rfl | rfl
  · exact ⟨.key, rfl⟩
  · exact ⟨.value, rfl⟩

/-- Where the rule applies, a name may start, and there are a name, blanks and a colon. -/
theorem exists_of_bareFieldName_eq_some {before : Option Char} {s : List Char} {r : Replacement}
    (h : bareFieldName before s = some r) :
    startsName before = true ∧ ∃ name blanks back, s = name ++ (blanks ++ ':' :: back) ∧
      name ∈ fieldNames ∧ ∀ b ∈ blanks, isBlank b = true := by
  obtain ⟨name, hname, hrule⟩ := List.exists_of_findSome?_eq_some h
  simp only [bareName] at hrule
  split at hrule
  · rename_i hstart
    rw [Bool.and_eq_true] at hstart
    obtain ⟨rest, hrest⟩ := List.isPrefixOf_iff_prefix.mp hstart.2
    rw [← hrest, List.drop_left] at hrule
    split at hrule
    · rename_i hcolon
      obtain ⟨back, hback⟩ := List.head?_eq_some_iff.mp hcolon
      refine ⟨hstart.1, name, rest.takeWhile isBlank, back, ?_, hname, fun b hb =>
        List.mem_takeWhile_imp hb⟩
      rw [← hrest, ← hback, takeWhile_append_drop]
    · exact nomatch hrule
  · exact nomatch hrule

/-- A name and its colon, with blanks between, get quotes. -/
theorem bareFieldName_of_name {before : Option Char} (h : startsName before = true) (r : Role)
    {g : List Char} (hg : ∀ c ∈ g, isBlank c = true) (s : List Char) :
    bareFieldName before (r.chars ++ (g ++ ':' :: s)) =
      some ⟨'"' :: (r.chars ++ ['"', ':']), r.chars.length + g.length⟩ := by
  have hself : bareName r.chars before (r.chars ++ (g ++ ':' :: s)) =
      some ⟨'"' :: (r.chars ++ ['"', ':']), r.chars.length + g.length⟩ := by
    have hprefix : r.chars.isPrefixOf (r.chars ++ (g ++ ':' :: s)) = true :=
      List.isPrefixOf_iff_prefix.mpr (List.prefix_append _ _)
    have hblanks : (g ++ ':' :: s).takeWhile isBlank = g := by
      rw [List.takeWhile_append_of_pos hg]
      simp [show isBlank ':' = false by decide]
    simp only [bareName, h, hprefix, Bool.and_self, if_true, List.drop_left, hblanks, List.head?_cons]
    rfl
  cases r with
  | key => simp only [bareFieldName, fieldNames, List.findSome?_cons, Role.chars] at hself ⊢; rw [hself]
  | value =>
    have hkey : bareName "key".toList before (Role.value.chars ++ (g ++ ':' :: s)) = none := by
      have hprefix : "key".toList.isPrefixOf (Role.value.chars ++ (g ++ ':' :: s)) = false := rfl
      rw [bareName, hprefix, Bool.and_false]
      rfl
    simp only [bareFieldName, fieldNames, List.findSome?_cons, Role.chars] at hself hkey ⊢
    rw [hkey, hself]

/-- All that the rule does: a name and its colon, with blanks between, get quotes. -/
theorem bareFieldName_cases {before : Option Char} {s : List Char} {r : Replacement}
    (h : bareFieldName before s = some r) :
    startsName before = true ∧ ∃ (role : Role) (blanks back : List Char),
      s = role.chars ++ (blanks ++ ':' :: back) ∧ (∀ b ∈ blanks, isBlank b = true) ∧
      r = ⟨'"' :: (role.chars ++ ['"', ':']), role.chars.length + blanks.length⟩ := by
  obtain ⟨hstart, name, blanks, back, rfl, hname, hblanks⟩ := exists_of_bareFieldName_eq_some h
  obtain ⟨role, rfl⟩ := exists_role_of_mem hname
  rw [bareFieldName_of_name hstart role hblanks, Option.some.injEq] at h
  exact ⟨hstart, role, blanks, back, rfl, hblanks, h.symm⟩

/-- Bare names get double quotes, and no space stays before their colon. -/
def named : Change where
  name n := match n.style with
    | .bare => ⟨.quoted .double, .none, n.afterColon⟩
    | .quoted q => ⟨.quoted q, n.beforeColon, n.afterColon⟩

theorem startsName_of_isSpace {c : Char} (h : Json.isSpace c = true) :
    startsName (some c) = true := by
  simp only [Json.isSpace, Bool.or_eq_true, beq_iff_eq] at h
  rcases h with ((rfl | rfl) | rfl) | rfl <;> decide +kernel

/-- A name may start behind a gap if it may start before it. -/
theorem startsName_behind_gap {before : Option Char} (h : startsName before = true) (g : Gap) :
    startsName (behind before g.val) = true := by
  obtain ⟨s, hs⟩ := g
  show startsName (behind before s) = true
  induction s generalizing before with
  | nil => exact h
  | cons c s ih =>
    rw [List.forall_mem_cons] at hs
    rw [behind_cons]
    exact ih (startsName_of_isSpace hs.1) hs.2

section

variable {before : Option Char}

/-- A text that cannot start a name is passed. -/
theorem rewrites_bareFieldName_of_forall {u : List Char} (hu : ∀ c ∈ u, c ≠ 'k' ∧ c ≠ 'v') :
    Rewrites bareFieldName before u u := by
  refine .of_never fun p c s rest h => ?_
  obtain ⟨hkey, hvalue⟩ := hu c (by rw [h]; simp)
  exact bareFieldName_eq_none_of_head hkey hvalue

/-- A mark that starts no name is passed. -/
theorem rewrites_bareFieldName_mark {c : Char} (hkey : c ≠ 'k') (hvalue : c ≠ 'v') :
    Rewrites bareFieldName before [c] [c] :=
  rewrites_bareFieldName_of_forall (List.forall_mem_singleton.mpr ⟨hkey, hvalue⟩)

theorem Gap.rewrites_bareFieldName (g : Gap) : Rewrites bareFieldName before g.val g.val := by
  refine rewrites_bareFieldName_of_forall fun c hc => ?_
  have hspace := g.property c hc
  constructor <;> rintro rfl <;> exact absurd hspace (by decide)

/-- A text holds a name of a field and a colon where the rule takes the name for bare. -/
def HoldsBareName (s : List Char) : Prop :=
  ∃ front c name blanks back, s = front ++ c :: (name ++ (blanks ++ ':' :: back)) ∧
    startsName (some c) = true ∧ name ∈ fieldNames ∧ ∀ b ∈ blanks, isBlank b = true

/-- No quote stands in a bare name, in front of its colon or at it. -/
theorem Quote.not_mem_name (q : Quote) {name blanks : List Char} (hname : name ∈ fieldNames)
    (hblanks : ∀ b ∈ blanks, isBlank b = true) : q.char ∉ name ++ (blanks ++ [':']) := by
  have hnotName : ∀ n ∈ fieldNames, q.char ∉ n := by cases q <;> decide
  have hnotBlank : isBlank q.char = false := by cases q <;> decide
  have hnotColon : q.char ≠ ':' := by cases q <;> decide
  simp only [List.mem_append, List.mem_singleton, not_or]
  refine ⟨hnotName name hname, fun hmem => ?_, hnotColon⟩
  rw [hblanks _ hmem] at hnotBlank
  exact nomatch hnotBlank

/-- A quoted text that holds no bare name is passed. -/
theorem Quote.rewrites_of_not_holdsBareName (q : Quote) {s : List Char} (h : ¬ HoldsBareName s) :
    Rewrites bareFieldName before (q.write s) (q.write s) := by
  have hq : q.char = '\'' ∨ q.char = '"' := by cases q <;> decide
  refine .of_never fun p c t rest hsplit => ?_
  -- The rule is tried at the opening quote, and then inside the string or at its closing quote.
  rcases quoted_eq_append hsplit with rfl | ⟨p, t, rfl, rfl, hst⟩
  · refine bareFieldName_eq_none_of_head ?_ ?_ <;> rcases hq with hq | hq <;> rw [hq] <;> decide
  · rw [behind_cons]
    by_contra hne
    obtain ⟨r, hr⟩ := Option.ne_none_iff_exists'.mp hne
    obtain ⟨hstart, name, blanks, back, heq, hname, hblanks⟩ := exists_of_bareFieldName_eq_some hr
    rcases List.eq_nil_or_concat p with rfl | ⟨p, d, rfl⟩
    · -- Right behind the opening quote no name may start.
      have hquote : startsName (some q.char) = false := by
        rcases hq with hq | hq <;> rw [hq] <;> decide +kernel
      rw [behind_nil, hquote] at hstart
      exact nomatch hstart
    · -- Behind another character of the string a name would show in the string itself.
      rw [List.concat_eq_append, behind_append, behind_cons, behind_nil] at hstart
      have hmeet : (c :: t) ++ q.char :: rest = (name ++ (blanks ++ [':'])) ++ back := by
        simpa using heq
      obtain ⟨z, hz⟩ := exists_eq_append_of_not_mem hmeet (q.not_mem_name hname hblanks)
      exact h ⟨p, d, name, blanks, z, by simp [hst, hz], hstart, hname, hblanks⟩

/-- A quoted text that shows no bare name is passed. -/
theorem Quote.rewrites_bareFieldName (q : Quote) {s : List Char} (hinert : ¬ ShowsBareName s) :
    Rewrites bareFieldName before (q.write s) (q.write s) := by
  refine q.rewrites_of_not_holdsBareName fun hholds => hinert ?_
  obtain ⟨front, c, name, blanks, back, heq, hstart, hname, hblanks⟩ := hholds
  simp only [startsName, Option.all_some, Bool.not_eq_true', Bool.or_eq_false_iff] at hstart
  exact ⟨front, c, name, blanks, back, heq, hstart.1.1, hname, hblanks⟩

theorem ScalarText.rewrites_bareFieldName {s : ScalarText} (h : s.IsInert) :
    Rewrites bareFieldName before s.text s.text := by
  cases s with
  | string q s => exact q.rewrites_bareFieldName h.1
  | number n =>
    refine rewrites_bareFieldName_of_forall fun c hc => ?_
    have hnumber : Json.isNumberChar c = true := NumberText.isNumberChar_of_mem_text hc
    constructor <;> rintro rfl <;> exact absurd hnumber (by decide)

theorem ScalarText.change_named (s : ScalarText) : s.change named = s := by
  cases s <;> rfl

/-- The name of a field gets quotes if it has none. -/
theorem FieldText.rewrites_named (f : FieldText) (hbefore : startsName before = true)
    (h : f.value.IsInert) : Rewrites bareFieldName before f.text (f.change named).text := by
  obtain ⟨role, ⟨style, beforeColon, afterColon⟩, value⟩ := f
  have hcolon : ∀ {before}, Rewrites bareFieldName before [':'] [':'] :=
    rewrites_bareFieldName_mark (by decide) (by decide)
  have hvalue : ∀ {before}, Rewrites bareFieldName before (afterColon ++ value.text)
      (afterColon ++ (value.change named).text) := by
    rw [value.change_named]
    exact afterColon.rewrites_bareFieldName.append (ScalarText.rewrites_bareFieldName h)
  cases style with
  | quoted q =>
    -- A name in quotes is passed like any string, since it shows no colon.
    have hname : ∀ {before}, Rewrites bareFieldName before (q.write role.chars) (q.write role.chars) :=
      q.rewrites_bareFieldName fun hshows => by
        obtain ⟨_, _, _, _, _, heq, -⟩ := hshows
        have : ':' ∈ role.chars := by rw [heq]; simp
        cases role <;> exact absurd this (by decide)
    exact hname.append (beforeColon.rewrites_bareFieldName.append (hcolon.append hvalue))
  | bare =>
    have hname : Rewrites bareFieldName before (role.chars ++ (beforeColon ++ [':']))
        (Quote.double.write role.chars ++ [':']) := by
      refine .of_applies (by simp) fun rest => ?_
      have happlies := bareFieldName_of_name hbefore role beforeColon.isBlank_of_mem rest
      simp only [List.append_assoc, List.singleton_append, happlies, Option.some.injEq]
      congr 1
      · simp [Quote.write, Quote.char]
      · simp
    have htext := hname.append hvalue
    simp only [List.append_assoc, List.singleton_append] at htext
    exact htext

/-- The values of a point are inert if its key is. -/
theorem PointText.isInert_fields {p : PointText} (h : p.key.IsInert) :
    p.firstField.value.IsInert ∧ p.lastField.value.IsInert := by
  unfold firstField lastField
  cases p.keyFirst with
  | true => exact ⟨h, trivial⟩
  | false => exact ⟨trivial, h⟩

theorem Ending.rewrites_bareFieldName (e : Ending) : Rewrites bareFieldName before e.text e.text := by
  obtain ⟨beforeComma, g⟩ := e
  cases beforeComma with
  | none => exact g.rewrites_bareFieldName
  | some g' =>
    have hcomma : ∀ {before}, Rewrites bareFieldName before [','] [','] :=
      rewrites_bareFieldName_mark (by decide) (by decide)
    exact g'.rewrites_bareFieldName.append (hcomma.append g.rewrites_bareFieldName)

theorem PointText.rewrites_named (p : PointText) (h : p.key.IsInert) :
    Rewrites bareFieldName before p.text (p.change named).text := by
  obtain ⟨hfirst, hlast⟩ := p.isInert_fields h
  -- A name may start behind the brace and behind the comma, which is where the fields stand.
  have hopen : ∀ c ∈ ['\x7b', ','], startsName (some c) = true := by decide +kernel
  have hend : ∀ {before}, Rewrites bareFieldName before (p.ending.text ++ ['\x7d'])
      (p.ending.text ++ ['\x7d']) :=
    p.ending.rewrites_bareFieldName.append (rewrites_bareFieldName_mark (by decide) (by decide))
  have hback : ∀ {before}, Rewrites bareFieldName before
      (p.beforeComma ++ ([','] ++ (p.afterComma ++ (p.lastField.text ++ (p.ending.text ++ ['\x7d'])))))
      (p.beforeComma ++ ([','] ++ (p.afterComma ++
        ((p.lastField.change named).text ++ (p.ending.text ++ ['\x7d']))))) := by
    refine p.beforeComma.rewrites_bareFieldName.append
      ((rewrites_bareFieldName_mark (by decide) (by decide)).append (p.afterComma.rewrites_bareFieldName.append
        ((p.lastField.rewrites_named ?_ hlast).append hend)))
    exact startsName_behind_gap (hopen ',' (by simp)) p.afterComma
  rw [text, text, p.firstField_change, p.lastField_change]
  exact (rewrites_bareFieldName_mark (by decide) (by decide)).append
    ((p.start.rewrites_bareFieldName).append ((p.firstField.rewrites_named
      (startsName_behind_gap (hopen '\x7b' (by simp)) p.start) hfirst).append hback))

/-- Bare names get quotes. -/
theorem ItemsText.rewrites_named {items : ItemsText} (h : items.IsInert) :
    Rewrites bareFieldName before items.text (items.change named).text := by
  induction items generalizing before with
  | last p e => exact (p.rewrites_named (h p List.mem_cons_self)).append e.rewrites_bareFieldName
  | next p g g' rest ih =>
    have hcomma : ∀ {before}, Rewrites bareFieldName before [','] [','] :=
      rewrites_bareFieldName_mark (by decide) (by decide)
    exact (p.rewrites_named (h p List.mem_cons_self)).append (g.rewrites_bareFieldName.append
      (hcomma.append (g'.rewrites_bareFieldName.append
        (ih fun q hq => h q (List.mem_cons_of_mem _ hq)))))

end

/-! ### Single quotes -/

/-- All quotes are double. -/
def doubled : Change where
  quote _ := .double
  name n := match n.style with
    | .bare => n
    | .quoted _ => ⟨.quoted .double, n.beforeColon, n.afterColon⟩

@[simp] theorem convertSingleQuotes_append (u v : List Char) :
    convertSingleQuotes (u ++ v) = convertSingleQuotes u ++ convertSingleQuotes v :=
  List.map_append

@[simp] theorem convertSingleQuotes_cons (c : Char) (s : List Char) :
    convertSingleQuotes (c :: s) = (if c = '\'' then '"' else c) :: convertSingleQuotes s := rfl

@[simp] theorem convertSingleQuotes_nil : convertSingleQuotes [] = [] := rfl

theorem convertSingleQuotes_of_not_mem {u : List Char} (h : '\'' ∉ u) :
    convertSingleQuotes u = u := by
  have hid : ∀ c ∈ u, (if c = '\'' then '"' else c) = id c := fun c hc =>
    if_neg fun heq : c = '\'' => h (heq ▸ hc)
  exact (List.map_congr_left hid).trans (List.map_id u)

@[simp] theorem Gap.convertSingleQuotes_val (g : Gap) : convertSingleQuotes g.val = g.val :=
  convertSingleQuotes_of_not_mem fun h => absurd (g.property _ h) (by decide)

theorem Quote.convertSingleQuotes_write (q : Quote) {s : List Char}
    (hs : ∀ c ∈ s, Json.IsPlainChar c) : convertSingleQuotes (q.write s) = Quote.double.write s := by
  have hplain := convertSingleQuotes_of_not_mem fun h => (hs _ h).2.1 rfl
  cases q <;> simp [write, Quote.char, hplain]

theorem ScalarText.convertSingleQuotes_text (s : ScalarText) :
    convertSingleQuotes s.text = (s.change doubled).text := by
  cases s with
  | string q s => exact q.convertSingleQuotes_write s.property
  | number n =>
    refine convertSingleQuotes_of_not_mem fun h => ?_
    exact absurd (NumberText.isNumberChar_of_mem_text h) (by decide)

theorem FieldText.convertSingleQuotes_text (f : FieldText) :
    convertSingleQuotes f.text = (f.change doubled).text := by
  obtain ⟨role, ⟨style, beforeColon, afterColon⟩, value⟩ := f
  have hvalue := value.convertSingleQuotes_text
  cases style with
  | bare =>
    have hname : convertSingleQuotes role.chars = role.chars := by cases role <;> decide
    simp only [text, NameStyle.write, convertSingleQuotes_append, convertSingleQuotes_cons, hname,
      Gap.convertSingleQuotes_val, hvalue]
    rfl
  | quoted q =>
    have hname : convertSingleQuotes (q.write role.chars) = Quote.double.write role.chars :=
      q.convertSingleQuotes_write (by cases role <;> decide)
    simp only [text, NameStyle.write, convertSingleQuotes_append, convertSingleQuotes_cons, hname,
      Gap.convertSingleQuotes_val, hvalue]
    rfl

theorem Ending.convertSingleQuotes_text (e : Ending) : convertSingleQuotes e.text = e.text := by
  obtain ⟨beforeComma, g⟩ := e
  cases beforeComma <;> simp [text]

theorem PointText.convertSingleQuotes_text (p : PointText) :
    convertSingleQuotes p.text = (p.change doubled).text := by
  rw [text, text, p.firstField_change, p.lastField_change]
  simp only [convertSingleQuotes_append, convertSingleQuotes_cons, convertSingleQuotes_nil,
    Gap.convertSingleQuotes_val, p.firstField.convertSingleQuotes_text,
    p.lastField.convertSingleQuotes_text, p.ending.convertSingleQuotes_text]
  rfl

/-- Single quotes become double ones. -/
theorem ItemsText.convertSingleQuotes_text (items : ItemsText) :
    convertSingleQuotes items.text = (items.change doubled).text := by
  induction items with
  | last p e =>
    simp only [text, change, convertSingleQuotes_append, p.convertSingleQuotes_text,
      e.convertSingleQuotes_text]
    rfl
  | next p g g' rest ih =>
    simp only [text, change, convertSingleQuotes_append, convertSingleQuotes_cons,
      p.convertSingleQuotes_text, Gap.convertSingleQuotes_val, ih]
    rfl

/-! ### Idle commas -/

/-- No comma stands before a closing brace or bracket. -/
def settled : Change where
  ending e := ⟨none, e.beforeComma.getD e.gap⟩

theorem idleComma_eq_none_of_head {before : Option Char} {c : Char} {s : List Char} (hc : c ≠ ',') :
    idleComma before (c :: s) = none := by
  unfold idleComma
  split
  · rename_i heq
    exact absurd (List.cons.inj heq).1 hc
  · rfl

/-- Where the rule applies, there are a comma, blanks and a closing brace or bracket. -/
theorem exists_of_idleComma_eq_some {before : Option Char} {c : Char} {s : List Char}
    {r : Replacement} (h : idleComma before (c :: s) = some r) :
    c = ',' ∧ ∃ blanks d back, s = blanks ++ d :: back ∧ (∀ b ∈ blanks, isBlank b = true) ∧
      (d = '\x7d' ∨ d = ']') := by
  unfold idleComma at h
  split at h
  · rename_i rest heq
    obtain ⟨rfl, rfl⟩ := List.cons.inj heq
    simp only at h
    split at h
    · rename_i d hd
      obtain ⟨back, hback⟩ := List.head?_eq_some_iff.mp hd
      split at h
      · rename_i hclose
        refine ⟨rfl, s.takeWhile isBlank, d, back, ?_, fun b hb => List.mem_takeWhile_imp hb, hclose⟩
        rw [← hback, takeWhile_append_drop]
      · exact nomatch h
    · exact nomatch h
  · exact nomatch h

/-- A comma and the blanks behind it are dropped before a closing brace or bracket. -/
theorem idleComma_of_closing (before : Option Char) {g : List Char} (hg : ∀ b ∈ g, isBlank b = true)
    {c : Char} (hc : c = '\x7d' ∨ c = ']') (s : List Char) :
    idleComma before (',' :: (g ++ c :: s)) = some ⟨[], g.length⟩ := by
  have hblank : isBlank c = false := by rcases hc with rfl | rfl <;> decide
  have hblanks : (g ++ c :: s).takeWhile isBlank = g := by
    rw [List.takeWhile_append_of_pos hg]
    simp [hblank]
  simp [idleComma, hblanks, hc]

/-- All that the rule does: a comma and the blanks behind it are dropped before a closing brace or
bracket. -/
theorem idleComma_cases {before : Option Char} {s : List Char} {r : Replacement}
    (h : idleComma before s = some r) :
    ∃ blanks d back, s = ',' :: (blanks ++ d :: back) ∧ (∀ b ∈ blanks, isBlank b = true) ∧
      (d = '\x7d' ∨ d = ']') ∧ r = ⟨[], blanks.length⟩ := by
  cases s with
  | nil => cases h
  | cons c s =>
    obtain ⟨rfl, blanks, d, back, rfl, hblanks, hd⟩ := exists_of_idleComma_eq_some h
    rw [idleComma_of_closing before hblanks hd, Option.some.injEq] at h
    exact ⟨blanks, d, back, rfl, hblanks, hd, h.symm⟩

theorem takeWhile_gap_append (g : Gap) {c : Char} (hc : isBlank c = false) (s : List Char) :
    (g.val ++ c :: s).takeWhile isBlank = g.val := by
  rw [List.takeWhile_append_of_pos g.isBlank_of_mem]
  simp [hc]

section

variable {before : Option Char}

/-- A text without commas is passed. -/
theorem rewrites_idleComma_of_forall {u : List Char} (hu : ∀ c ∈ u, c ≠ ',') :
    Rewrites idleComma before u u :=
  .of_never fun p c s rest h => idleComma_eq_none_of_head (hu c (by rw [h]; simp))

/-- A mark that is no comma is passed. -/
theorem rewrites_idleComma_mark {c : Char} (hc : c ≠ ',') : Rewrites idleComma before [c] [c] :=
  rewrites_idleComma_of_forall (List.forall_mem_singleton.mpr hc)

theorem Gap.rewrites_idleComma (g : Gap) : Rewrites idleComma before g.val g.val := by
  refine rewrites_idleComma_of_forall fun c hc => ?_
  rintro rfl
  exact absurd (g.property _ hc) (by decide)

/-- A comma is dropped, and so is the gap behind it, before a closing brace or bracket. -/
theorem rewrites_idleComma_of_closing (g : Gap) {c : Char} (hc : c = '\x7d' ∨ c = ']') :
    Rewrites idleComma before (',' :: (g ++ [c])) [c] := by
  intro rest
  have hcomma : c ≠ ',' := by rcases hc with rfl | rfl <;> decide
  rw [List.cons_append, List.append_assoc, List.singleton_append, replaceFrom,
    idleComma_of_closing before g.isBlank_of_mem hc rest]
  simp only [List.nil_append, replaceFrom_skip]
  rw [replaceFrom, idleComma_eq_none_of_head hcomma]
  simp [behind_cons, behind_append]

/-- A comma stays before anything else. -/
theorem rewrites_idleComma_of_opening (g : Gap) {c : Char} {s v : List Char}
    (hblank : isBlank c = false) (hc : ¬ (c = '\x7d' ∨ c = ']'))
    (hv : ∀ {before}, Rewrites idleComma before (c :: s) v) :
    Rewrites idleComma before (',' :: (g ++ (c :: s))) (',' :: (g ++ v)) := by
  intro rest
  have hnot : idleComma before (',' :: (g ++ c :: (s ++ rest))) = none := by
    simp [idleComma, takeWhile_gap_append g hblank, hc]
  have hrest := (@Gap.rewrites_idleComma (some ',') g).append hv rest
  simp only [List.append_assoc, List.cons_append] at hrest ⊢
  rw [replaceFrom, hnot]
  simp only [hrest, behind_cons]

/-- No quote stands in blanks or at a closing mark behind them. -/
theorem Quote.not_mem_closing (q : Quote) {blanks : List Char}
    (hblanks : ∀ b ∈ blanks, isBlank b = true) {d : Char} (hd : d = '\x7d' ∨ d = ']') :
    q.char ∉ blanks ++ [d] := by
  have hq : isBlank q.char = false ∧ q.char ≠ '\x7d' ∧ q.char ≠ ']' := by cases q <;> decide
  rw [List.mem_append, List.mem_singleton, not_or]
  refine ⟨fun hmem => absurd (hblanks _ hmem) (by simp [hq.1]), ?_⟩
  rcases hd with rfl | rfl
  · exact hq.2.1
  · exact hq.2.2

/-- A quoted text that shows no idle comma is passed. -/
theorem Quote.rewrites_idleComma (q : Quote) {s : List Char} (hinert : ¬ ShowsIdleComma s) :
    Rewrites idleComma before (q.write s) (q.write s) := by
  refine .of_never fun p c t rest h => ?_
  rcases quoted_eq_append h with rfl | ⟨p, t, rfl, rfl, hst⟩
  · exact idleComma_eq_none_of_head (by cases q <;> decide)
  · by_contra hne
    obtain ⟨r, hr⟩ := Option.ne_none_iff_exists'.mp hne
    obtain ⟨rfl, blanks, d, back, heq, hblanks, hd⟩ := exists_of_idleComma_eq_some hr
    -- The brace or bracket comes before the quote, so the string itself shows the comma.
    have hmeet : t ++ q.char :: rest = (blanks ++ [d]) ++ back := by simpa using heq
    obtain ⟨z, hz⟩ := exists_eq_append_of_not_mem hmeet (q.not_mem_closing hblanks hd)
    exact hinert ⟨p, blanks, d, z, by simp [hst, hz], hblanks, hd⟩

theorem ScalarText.rewrites_idleComma {s : ScalarText} (h : s.IsInert) :
    Rewrites idleComma before s.text s.text := by
  cases s with
  | string q s => exact q.rewrites_idleComma h.2
  | number n =>
    refine rewrites_idleComma_of_forall fun c hc => ?_
    rintro rfl
    exact absurd (NumberText.isNumberChar_of_mem_text hc) (by decide)

theorem FieldText.rewrites_idleComma {f : FieldText} (h : f.value.IsInert) :
    Rewrites idleComma before f.text f.text := by
  have hname : ∀ {before}, Rewrites idleComma before (f.name.style.write f.role.chars)
      (f.name.style.write f.role.chars) := by
    refine rewrites_idleComma_of_forall ?_
    cases f.name.style with
    | bare => cases f.role <;> decide
    | quoted q => cases q <;> cases f.role <;> decide
  have hcolon : ∀ {before}, Rewrites idleComma before [':'] [':'] :=
    rewrites_idleComma_mark (by decide)
  exact hname.append (f.name.beforeColon.rewrites_idleComma.append (hcolon.append
    (f.name.afterColon.rewrites_idleComma.append (ScalarText.rewrites_idleComma h))))

/-- The comma of an ending is dropped. -/
theorem Ending.rewrites_settled (e : Ending) {c : Char} (hc : c = '\x7d' ∨ c = ']') :
    Rewrites idleComma before (e.text ++ [c]) ((settled.ending e).text ++ [c]) := by
  obtain ⟨beforeComma, g⟩ := e
  cases beforeComma with
  | none =>
    have hclose : ∀ {before}, Rewrites idleComma before [c] [c] :=
      rewrites_idleComma_mark (by rcases hc with rfl | rfl <;> decide)
    exact g.rewrites_idleComma.append hclose
  | some g' =>
    have htext := (@Gap.rewrites_idleComma before g').append
      (rewrites_idleComma_of_closing g hc)
    simp only [text, settled, Option.getD_some, List.append_assoc, List.cons_append]
    exact htext

/-- A field starts with neither a blank nor a closing mark. -/
theorem FieldText.exists_text_eq_cons (f : FieldText) :
    ∃ c s, f.text = c :: s ∧ isBlank c = false ∧ ¬ (c = '\x7d' ∨ c = ']') := by
  obtain ⟨role, ⟨style, beforeColon, afterColon⟩, value⟩ := f
  cases style with
  | bare => cases role <;> exact ⟨_, _, rfl, by decide, by decide⟩
  | quoted q => cases q <;> exact ⟨_, _, rfl, by decide, by decide⟩

theorem FieldText.change_settled (f : FieldText) : f.change settled = f := by
  obtain ⟨role, name, value⟩ := f
  cases value <;> rfl

theorem PointText.rewrites_settled (p : PointText) (h : p.key.IsInert) :
    Rewrites idleComma before p.text (p.change settled).text := by
  obtain ⟨hfirst, hlast⟩ := p.isInert_fields h
  have hopen : ∀ {before}, Rewrites idleComma before ['\x7b'] ['\x7b'] :=
    rewrites_idleComma_mark (by decide)
  -- Behind the comma between the fields there is a field and no closing mark, so it stays.
  obtain ⟨c, s, hcons, hblank, hclose⟩ := p.lastField.exists_text_eq_cons
  have hback : ∀ {before}, Rewrites idleComma before
      (p.lastField.text ++ (p.ending.text ++ ['\x7d']))
      (p.lastField.text ++ ((settled.ending p.ending).text ++ ['\x7d'])) :=
    (FieldText.rewrites_idleComma hlast).append (p.ending.rewrites_settled (.inl rfl))
  have hcomma : ∀ {before}, Rewrites idleComma before
      (',' :: (p.afterComma ++ (p.lastField.text ++ (p.ending.text ++ ['\x7d']))))
      (',' :: (p.afterComma ++ (p.lastField.text ++ ((settled.ending p.ending).text ++ ['\x7d'])))) := by
    intro before
    rw [hcons] at hback ⊢
    exact rewrites_idleComma_of_opening p.afterComma hblank hclose hback
  rw [text, text, p.firstField_change, p.lastField_change, FieldText.change_settled,
    FieldText.change_settled]
  exact hopen.append (p.start.rewrites_idleComma.append ((FieldText.rewrites_idleComma hfirst).append
    (p.beforeComma.rewrites_idleComma.append hcomma)))

/-- Idle commas go, when the closing bracket follows. -/
theorem ItemsText.rewrites_settled {items : ItemsText} (h : items.IsInert) :
    Rewrites idleComma before (items.text ++ [']']) ((items.change settled).text ++ [']']) := by
  induction items generalizing before with
  | last p e =>
    simp only [text, change, List.append_assoc]
    exact (p.rewrites_settled (h p List.mem_cons_self)).append (e.rewrites_settled (.inr rfl))
  | next p g g' rest ih =>
    have hrest : ∀ {before}, Rewrites idleComma before (rest.text ++ [']'])
        ((rest.change settled).text ++ [']']) := ih fun q hq => h q (List.mem_cons_of_mem _ hq)
    -- Behind the comma between two items there is an opening brace.
    obtain ⟨s, hcons⟩ : ∃ s, rest.text ++ [']'] = '\x7b' :: s := by cases rest <;> exact ⟨_, rfl⟩
    have hcomma : ∀ {before}, Rewrites idleComma before (',' :: (g' ++ (rest.text ++ [']'])))
        (',' :: (g' ++ ((rest.change settled).text ++ [']']))) := by
      intro before
      rw [hcons] at hrest ⊢
      exact rewrites_idleComma_of_opening g' (by decide) (by decide) hrest
    simp only [text, change, List.append_assoc, List.cons_append]
    exact (p.rewrites_settled (h p List.mem_cons_self)).append (g.rewrites_idleComma.append hcomma)

end

/-! ### All rules -/

/-- All choices as JSON has them. -/
def ItemsText.strict (items : ItemsText) : ItemsText :=
  ((items.trimmed.change named).change doubled).change settled

/-- The rules make the choices of JSON. -/
theorem ArrayText.normalize_core {a : ArrayText} (h : a.items.IsInert) :
    DataText.normalize a.core = a.wrap a.items.strict := by
  have htrimmed : a.items.trimmed.IsInert := by
    rw [ItemsText.IsInert, a.items.toList_trimmed]
    exact h
  have hdoubled : ((a.items.trimmed.change named).change doubled).IsInert :=
    ItemsText.isInert_change doubled (ItemsText.isInert_change named htrimmed)
  -- One rule after the other makes the items closer to JSON, and each finds them as it needs them.
  have hnames : Rewrites bareFieldName none (a.wrap a.items.trimmed)
      (a.wrap (a.items.trimmed.change named)) :=
    (rewrites_bareFieldName_mark (by decide) (by decide)).append
      (a.start.rewrites_bareFieldName.append ((ItemsText.rewrites_named htrimmed).append
        (rewrites_bareFieldName_mark (by decide) (by decide))))
  have hquotes : convertSingleQuotes (a.wrap (a.items.trimmed.change named)) =
      a.wrap ((a.items.trimmed.change named).change doubled) := by
    simp [wrap, ItemsText.convertSingleQuotes_text]
  have hcommas : Rewrites idleComma none
      (a.wrap ((a.items.trimmed.change named).change doubled)) (a.wrap a.items.strict) :=
    (rewrites_idleComma_mark (by decide)).append (a.start.rewrites_idleComma.append
      (ItemsText.rewrites_settled hdoubled))
  rw [DataText.normalize, a.rewrapBrackets_core, quoteBareNames, hnames.replace_eq, hquotes, dropIdleCommas,
    hcommas.replace_eq]

end Chartdown.Chart.Dialect
