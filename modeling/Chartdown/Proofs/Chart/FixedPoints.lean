import Chartdown.Proofs.Chart.Payload

/-!
# Texts that a rule of the dialect leaves alone

The rule for names leaves a text alone just if no name is bare in it, and the rule for the outer
brackets just if the text stands in brackets, with no blank in front of the closing one. Each rule
makes a text that it leaves alone of every text, so neither does anything a second time.

## Key results

- `quoteBareNames_eq_self_iff`, `not_hasBareName_quoteBareNames`: bare names get quotes once
- `respects_bareFieldName`: the rule for names does not tell the two kinds of quotes apart
- `quoteBareNames_stable`: bare names get quotes in one go, before single quotes are converted or
  after
- `rewrapBrackets_eq_self_iff`, `isWrapped_rewrapBrackets`: outer brackets are put once
- `rewrapBrackets_append_eq_iff`: a closing bracket makes no difference where none is
- `rewrapBrackets_canonical`: brackets are put alike around all ways of writing the same
-/

namespace Chartdown.Chart

open Text DataText
open Dialect (Quote Role)

variable {s t u v : List Char} {before : Option Char}

/-! ### Bare names -/

/-- A name of a field, blanks and a colon stand where a name may start. -/
def HasBareName (s : List Char) : Prop :=
  ∃ front name blanks back, s = front ++ (name ++ (blanks ++ ':' :: back)) ∧
    startsName front.getLast? = true ∧ name ∈ fieldNames ∧ ∀ b ∈ blanks, isBlank b = true

/-- The rule goes by bare names. -/
theorem untouched_bareFieldName_iff : Untouched bareFieldName none s ↔ ¬ HasBareName s := by
  have hbehind (front : List Char) : behind none front = front.getLast? := Option.or_none
  constructor
  · rintro h ⟨front, name, blanks, back, hs, hstart, hname, hblanks⟩
    obtain ⟨role, rfl⟩ := Dialect.exists_role_of_mem hname
    obtain ⟨c, w, hchars⟩ : ∃ c w, role.chars = c :: w := by cases role <;> exact ⟨_, _, rfl⟩
    have hnone := h front c (w ++ (blanks ++ ':' :: back)) (by rw [hs, hchars]; rfl)
    have happlies := Dialect.bareFieldName_of_name hstart role hblanks back
    rw [← List.cons_append, ← hchars, hbehind, happlies] at hnone
    exact nomatch hnone
  · intro h p c w hs
    by_contra hne
    obtain ⟨r, hr⟩ := Option.ne_none_iff_exists'.mp hne
    obtain ⟨hstart, name, blanks, back, heq, hname, hblanks⟩ :=
      Dialect.exists_of_bareFieldName_eq_some hr
    exact h ⟨p, name, blanks, back, by rw [hs, heq], hbehind p ▸ hstart, hname, hblanks⟩

/-- A part that the rule replaces holds no quote, and the rule goes by nothing behind it. -/
structure IsBarePart (before : Option Char) (r : Replacement) (u : List Char) : Prop where
  length_eq : u.length = r.extra + 1
  getLast?_eq : u.getLast? = some ':'
  not_mem (q : Quote) : q.char ∉ u
  written_eq : ∃ role : Role, r.written = '"' :: (role.chars ++ ['"', ':'])
  applies {start : Option Char} (hstart : startsName start = startsName before)
    (rest : List Char) : bareFieldName start (u ++ rest) = some r

theorem exists_isBarePart {r : Replacement} (h : bareFieldName before s = some r) :
    ∃ u back, s = u ++ back ∧ IsBarePart before r u := by
  obtain ⟨hstart, role, blanks, back, rfl, hblanks, rfl⟩ := Dialect.bareFieldName_cases h
  refine ⟨role.chars ++ (blanks ++ [':']), back, by simp, ?_⟩
  refine ⟨by simp [Nat.add_assoc], by simp, fun q => ?_, ⟨role, rfl⟩, fun hsame rest => ?_⟩
  · exact q.not_mem_name (by cases role <;> decide) hblanks
  · have happlies := Dialect.bareFieldName_of_name (hsame.trans hstart) role hblanks rest
    simpa using happlies

/-- Letters that start no name are passed. -/
theorem untouched_append_of_forall (hu : ∀ c ∈ u, c ≠ 'k' ∧ c ≠ 'v')
    (ht : Untouched bareFieldName (behind before u) t) :
    Untouched bareFieldName before (u ++ t) := by
  induction u generalizing before with
  | nil => exact ht
  | cons c u ih =>
    rw [List.forall_mem_cons] at hu
    rw [behind_cons] at ht
    exact untouched_cons_iff.mpr
      ⟨Dialect.bareFieldName_eq_none_of_head hu.1.1 hu.1.2, ih hu.2 ht⟩

/-- The name that the rule has written stands behind a quote, where no name starts. -/
theorem untouched_written (role : Role) (ht : Untouched bareFieldName (some ':') t) :
    Untouched bareFieldName before ('"' :: (role.chars ++ ['"', ':']) ++ t) := by
  obtain ⟨c, w, hchars, hw⟩ : ∃ c w, role.chars = c :: w ∧
      ∀ d ∈ w ++ ['"', ':'], d ≠ 'k' ∧ d ≠ 'v' := by
    cases role
    · exact ⟨'k', "ey".toList, rfl, by decide⟩
    · exact ⟨'v', "alue".toList, rfl, by decide⟩
  have hquote : startsName (some '"') = false := by decide +kernel
  have hbehind : behind (some c) (w ++ ['"', ':']) = some ':' := by
    rw [behind_append, behind_cons, behind_cons, behind_nil]
  have hrest : Untouched bareFieldName (some c) ((w ++ ['"', ':']) ++ t) :=
    untouched_append_of_forall hw (hbehind ▸ ht)
  have hname : Untouched bareFieldName (some '"') (c :: ((w ++ ['"', ':']) ++ t)) :=
    untouched_cons_iff.mpr ⟨Strict.bareFieldName_eq_none_of_startsName hquote _, hrest⟩
  rw [hchars]
  exact untouched_cons_iff.mpr
    ⟨Dialect.bareFieldName_eq_none_of_head (by decide) (by decide), hname⟩

/-- The rule does not apply where it has gone by. -/
theorem leavesItsWork_bareFieldName : LeavesItsWork bareFieldName where
  passed := by
    intro before s hnone
    by_contra hne
    obtain ⟨r, hr⟩ := Option.ne_none_iff_exists'.mp hne
    obtain ⟨u, back, hcopied, hu⟩ := exists_isBarePart hr
    have hwritten : ∀ before s r, bareFieldName before s = some r → r.written.head? = some '"' := by
      intro before s r hr
      obtain ⟨_, _, -, hpart⟩ := exists_isBarePart hr
      obtain ⟨role, hrole⟩ := hpart.written_eq
      rw [hrole, List.head?_cons]
    -- The part holds no quote, so it was copied, and the rule applied to it before.
    obtain ⟨rest, rfl⟩ := exists_append_of_replaceFrom_eq hwritten (hu.not_mem .double) hcopied
    rw [hu.applies rfl rest] at hnone
    exact nomatch hnone
  written := by
    intro before s r hr
    obtain ⟨u, back, rfl, hu⟩ := exists_isBarePart hr
    obtain ⟨role, hrole⟩ := hu.written_eq
    refine ⟨u, back, rfl, hu.length_eq, fun t ht => ?_⟩
    rw [behind, hu.getLast?_eq] at ht
    rw [hrole]
    exact untouched_written role ht

/-- No name is bare any more. -/
theorem not_hasBareName_quoteBareNames (s : List Char) : ¬ HasBareName (quoteBareNames s) :=
  untouched_bareFieldName_iff.mp (leavesItsWork_bareFieldName.untouched none s)

/-- A text without bare names is left alone, and no other one is. -/
theorem quoteBareNames_eq_self_iff : quoteBareNames s = s ↔ ¬ HasBareName s := by
  constructor
  · intro h
    rw [← h]
    exact not_hasBareName_quoteBareNames s
  · exact fun h => (untouched_bareFieldName_iff.mpr h).replaceFrom_eq

/-! ### Bare names among quotes -/

/-- The double quote in place of a single one. -/
def doubleQuote (c : Char) : Char := if c = '\'' then '"' else c

theorem map_doubleQuote (s : List Char) : s.map doubleQuote = convertSingleQuotes s := rfl

theorem startsName_doubleQuote (before : Option Char) :
    startsName (before.map doubleQuote) = startsName before := by
  have hquotes : startsName (some '"') = startsName (some '\'') := by decide +kernel
  cases before with
  | none => rfl
  | some c =>
    by_cases hc : c = '\''
    · rw [hc]
      exact hquotes
    · rw [Option.map_some, doubleQuote, if_neg hc]

/-- What holds no quote when the quotes are converted was there before. -/
theorem exists_of_convertSingleQuotes_eq_append (hu : '"' ∉ u)
    (h : convertSingleQuotes s = u ++ v) : ∃ v', s = u ++ v' := by
  obtain ⟨u', v', rfl, hu', -⟩ := List.map_eq_append_iff.mp h
  have hquote : '\'' ∉ u' := fun hmem => hu (hu' ▸ List.mem_map.mpr ⟨'\'', hmem, rfl⟩)
  obtain rfl : u' = u := (Dialect.convertSingleQuotes_of_not_mem hquote).symm.trans hu'
  exact ⟨v', rfl⟩

/-- The rule for names does not tell the two kinds of quotes apart. -/
theorem respects_bareFieldName : Respects bareFieldName doubleQuote := by
  intro before s
  rw [map_doubleQuote]
  -- A bare name holds no quote of either kind, so the conversion makes none and takes none away.
  cases hr : bareFieldName before s with
  | some r =>
    obtain ⟨u, back, rfl, hu⟩ := exists_isBarePart hr
    obtain ⟨role, hrole⟩ := hu.written_eq
    have hwritten : r.written.map doubleQuote = r.written := by
      rw [hrole]
      cases role <;> decide
    rw [Dialect.convertSingleQuotes_append,
      Dialect.convertSingleQuotes_of_not_mem (hu.not_mem .single),
      hu.applies (startsName_doubleQuote before), Option.map_some, hwritten]
  | none =>
    cases hconverted : bareFieldName (before.map doubleQuote) (convertSingleQuotes s) with
    | none => rfl
    | some r =>
      obtain ⟨u, back, hs, hu⟩ := exists_isBarePart hconverted
      obtain ⟨rest, rfl⟩ := exists_of_convertSingleQuotes_eq_append (hu.not_mem .double) hs
      rw [hu.applies (startsName_doubleQuote before).symm rest] at hr
      exact nomatch hr

/-- All bare names get quotes in one go, and it makes no difference whether single quotes are
converted before or after. -/
theorem quoteBareNames_stable (s : List Char) :
    ¬ HasBareName (quoteBareNames s) ∧ quoteBareNames (quoteBareNames s) = quoteBareNames s ∧
      quoteBareNames (convertSingleQuotes s) = convertSingleQuotes (quoteBareNames s) := by
  refine ⟨not_hasBareName_quoteBareNames s, ?_, ?_⟩
  · exact quoteBareNames_eq_self_iff.mpr (not_hasBareName_quoteBareNames s)
  · exact respects_bareFieldName.replaceFrom_map none 0 s

example : quoteBareNames "key:key value :'key':".toList =
    "\"key\":key \"value\":'key':".toList := by decide +kernel

/-! ### The outer brackets -/

/-- A text in brackets, with no blank in front of the closing one. -/
def IsWrapped (s : List Char) : Prop :=
  ∃ t, s = '[' :: (t ++ [']']) ∧ ∀ c ∈ t.getLast?, isBlank c = false

/-- What is put between the outer brackets, of which the opening one may be the text's own. -/
def inside (s : List Char) : List Char :=
  trim (if (trim s).getLast? = some ']' then (trim s).dropLast else trim s)

/-- A text with an opening bracket in front, unless it has one. -/
def opened (s : List Char) : List Char := if s.head? = some '[' then s else '[' :: s

theorem rewrapBrackets_eq (s : List Char) : rewrapBrackets s = opened (inside s) ++ [']'] := rfl

theorem trim_inside (s : List Char) : trim (inside s) = inside s := trim_trim _

theorem inside_of_closed (h : trim s = u ++ [']']) : inside s = trim u := by
  rw [inside, h, List.getLast?_concat, if_pos rfl, List.dropLast_concat]

theorem inside_of_not_closed (h : (trim s).getLast? ≠ some ']') : inside s = trim s := by
  rw [inside, if_neg h, trim_trim]

theorem trim_bracket_cons (s : List Char) : trim ('[' :: s) = '[' :: dropEndWhile isBlank s := by
  have hsolid : isBlank '[' = false := by decide
  rw [trim_of_startsSolid ⟨'[', s, rfl, hsolid⟩, dropEndWhile_cons_of_neg hsolid]

theorem trim_opened (h : trim s = s) : trim (opened s) = opened s := by
  rw [opened]
  split
  · exact h
  · have hend : dropEndWhile isBlank s = s := by
      rw [← h]
      exact dropEndWhile_idem isBlank _
    rw [trim_bracket_cons, hend]

theorem count_opened (s : List Char) : (opened s).count ']' = s.count ']' := by
  rw [opened]
  split
  · rfl
  · exact List.count_cons_of_ne (by decide)

/-- Every text is put in brackets. -/
theorem isWrapped_rewrapBrackets (s : List Char) : IsWrapped (rewrapBrackets s) := by
  obtain ⟨t, ht⟩ := exists_rewrapBrackets_eq s
  have hopened : opened (inside s) = '[' :: t :=
    List.append_cancel_right ((rewrapBrackets_eq s).symm.trans ht)
  have htrimmed : trim ('[' :: t) = '[' :: t := hopened ▸ trim_opened (trim_inside s)
  rw [trim_bracket_cons] at htrimmed
  refine ⟨t, ht, fun c hc => getLast?_dropEndWhile isBlank t c ?_⟩
  rw [(List.cons.inj htrimmed).2]
  exact hc

theorem rewrapBrackets_of_isWrapped (h : IsWrapped s) : rewrapBrackets s = s := by
  obtain ⟨t, rfl, hlast⟩ := h
  have hbracket : isBlank '[' = false ∧ isBlank ']' = false := by decide
  have hwhole : trim ('[' :: (t ++ [']'])) = ('[' :: t) ++ [']'] :=
    trim_of_solid ⟨'[', _, rfl, hbracket.1⟩ ⟨'[' :: t, ']', rfl, hbracket.2⟩
  have hend : dropEndWhile isBlank t = t := by
    by_cases ht : t = []
    · rw [ht]
      rfl
    · exact dropEndWhile_of_endsSolid (endsSolid_of_getLast? ht hlast)
  rw [rewrapBrackets_eq, inside_of_closed hwhole, trim_bracket_cons, hend]
  rfl

/-- A text in brackets is left alone, and no other one is. -/
theorem rewrapBrackets_eq_self_iff : rewrapBrackets s = s ↔ IsWrapped s := by
  constructor
  · intro h
    rw [← h]
    exact isWrapped_rewrapBrackets s
  · exact rewrapBrackets_of_isWrapped

/-- Blanks around a text make no difference. -/
theorem rewrapBrackets_around {front back : List Char} (hfront : ∀ c ∈ front, isBlank c = true)
    (hback : ∀ c ∈ back, isBlank c = true) (s : List Char) :
    rewrapBrackets (front ++ (s ++ back)) = rewrapBrackets s := by
  rw [← rewrapBrackets_trim, trim_gap_append hfront, trim_append_gap s hback, rewrapBrackets_trim]

/-- A closing bracket behind a text is taken as the outer one. -/
theorem rewrapBrackets_append (s : List Char) :
    rewrapBrackets (s ++ [']']) = opened (trim s) ++ [']'] := by
  have hbracket : isBlank ']' = false := by decide
  have hclosed : trim (s ++ [']']) = s.dropWhile isBlank ++ [']'] :=
    trim_around (s := [']']) ⟨']', [], rfl, hbracket⟩ ⟨[], ']', rfl, hbracket⟩ s []
  have hstart : trim (s.dropWhile isBlank) = trim s := by
    have hgap := trim_gap_append (g := s.takeWhile isBlank)
      (fun c hc => List.mem_takeWhile_imp hc) (s.dropWhile isBlank)
    rw [← hgap, List.takeWhile_append_dropWhile]
  rw [rewrapBrackets_eq, inside_of_closed hclosed, hstart]

/-- It makes no difference just if there is none yet. -/
theorem rewrapBrackets_append_eq_iff :
    rewrapBrackets (s ++ [']']) = rewrapBrackets s ↔ (trim s).getLast? ≠ some ']' := by
  constructor
  · intro h hlast
    obtain ⟨u, hu⟩ := List.getLast?_eq_some_iff.mp hlast
    rw [rewrapBrackets_append, rewrapBrackets_eq, inside_of_closed hu, hu] at h
    -- One closing bracket more is left on one side than on the other.
    have hcount := congrArg (List.count ']') (List.append_cancel_right h)
    rw [count_opened, count_opened, count_trim (by decide), List.count_append] at hcount
    simp at hcount
  · intro h
    rw [rewrapBrackets_append, rewrapBrackets_eq, inside_of_not_closed h]

/-- Every text is put in brackets and stays as it is from then on. Blanks around it make no
difference, and neither does a closing bracket behind it, unless there is one at its end already. -/
theorem rewrapBrackets_canonical (s : List Char) :
    IsWrapped (rewrapBrackets s) ∧ rewrapBrackets (rewrapBrackets s) = rewrapBrackets s ∧
      (∀ front back, (∀ c ∈ front, isBlank c = true) → (∀ c ∈ back, isBlank c = true) →
        rewrapBrackets (front ++ (s ++ back)) = rewrapBrackets s) ∧
      (rewrapBrackets (s ++ [']']) = rewrapBrackets s ↔ (trim s).getLast? ≠ some ']') := by
  refine ⟨isWrapped_rewrapBrackets s, ?_, ?_, rewrapBrackets_append_eq_iff⟩
  · exact rewrapBrackets_eq_self_iff.mpr (isWrapped_rewrapBrackets s)
  · exact fun front back hfront hback => rewrapBrackets_around hfront hback s

/-- Blanks around a text with two closing brackets, and a third bracket behind them. -/
theorem rewrapBrackets_canonical_doubled :
    (∀ c ∈ [' ', '\u00a0'], isBlank c = true) ∧ (∀ c ∈ ['\n'], isBlank c = true) ∧
      rewrapBrackets ([' ', '\u00a0'] ++ ("1 ]]".toList ++ ['\n'])) = "[1 ]]".toList ∧
      rewrapBrackets "1 ]]".toList = "[1 ]]".toList ∧
      rewrapBrackets ("1 ]]".toList ++ [']']) ≠ rewrapBrackets "1 ]]".toList := by
  have hwrapped : rewrapBrackets "1 ]]".toList = "[1 ]]".toList := by decide +kernel
  have hclosed : ¬ (trim "1 ]]".toList).getLast? ≠ some ']' := by decide +kernel
  obtain ⟨-, -, hblanks, hbracket⟩ := rewrapBrackets_canonical "1 ]]".toList
  have haround := hblanks [' ', '\u00a0'] ['\n'] (by decide) (by decide)
  exact ⟨by decide, by decide, haround.trans hwrapped, hwrapped, mt hbracket.mp hclosed⟩

end Chartdown.Chart
