import Chartdown.Proofs.Chart.Dialect.Rules

/-!
# The rules of the dialect on strict JSON

The rules that follow the first one go through a text from left to right. Parts of strict JSON are
kept by them whatever follows, up to a string in which an apostrophe or a bare name comes first: a
quote is written there, which ends the string early, and what stands behind it decides how the
reader goes on.

## Key results

- `Kept`, `Kept.settle_append`: parts that the rules leave alone
- `Kept.write`: a string in which no rule shows is kept
- `IsCut`, `settle_write`: what becomes of another string
-/

namespace Chartdown.Chart.Strict

open Text DataText
open Dialect

/-- What the rules behind the first one make of a text behind a character. -/
def settle (before : Option Char) (s : List Char) : List Char :=
  replaceFrom idleComma none 0 (convertSingleQuotes (replaceFrom bareFieldName before 0 s))

theorem normalize_eq_settle (s : List Char) : normalize s = settle none (rewrapBrackets s) := rfl

/-- The rule for commas does not look back. -/
theorem replaceFrom_idleComma (before : Option Char) (s : List Char) :
    replaceFrom idleComma before 0 s = replaceFrom idleComma none 0 s := by
  cases s <;> rfl

/-- A part of a text that the rules leave alone, whatever is around it. -/
structure Kept (u : List Char) : Prop where
  named : ∀ before, Rewrites bareFieldName before u u
  unquoted : '\'' ∉ u
  settled : Rewrites idleComma none u u

namespace Kept
variable {u v : List Char}

theorem settle_append (hu : Kept u) (before : Option Char) (s : List Char) :
    settle before (u ++ s) = u ++ settle (behind before u) s := by
  rw [settle, hu.named before, convertSingleQuotes_append,
    convertSingleQuotes_of_not_mem hu.unquoted, hu.settled, replaceFrom_idleComma]
  rfl

theorem settle_eq (hu : Kept u) (before : Option Char) : settle before u = u := by
  have h := hu.settle_append before []
  rw [List.append_nil] at h
  rw [h]
  exact List.append_nil u

theorem append (hu : Kept u) (hv : Kept v) : Kept (u ++ v) where
  named before := (hu.named before).append (hv.named _)
  unquoted := fun h => (List.mem_append.mp h).elim hu.unquoted hv.unquoted
  settled := by
    intro rest
    rw [List.append_assoc, hu.settled, replaceFrom_idleComma, hv.settled,
      replaceFrom_idleComma (behind none v), replaceFrom_idleComma (behind none (u ++ v)),
      List.append_assoc]

/-- A part without letters that start a name, apostrophes and commas. -/
theorem of_forall (hu : ∀ c ∈ u, c ≠ 'k' ∧ c ≠ 'v' ∧ c ≠ '\'' ∧ c ≠ ',') : Kept u where
  named _ := rewrites_bareFieldName_of_forall fun c hc => ⟨(hu c hc).1, (hu c hc).2.1⟩
  unquoted := fun h => (hu _ h).2.2.1 rfl
  settled := rewrites_idleComma_of_forall fun c hc => (hu c hc).2.2.2

theorem gap (g : Gap) : Kept g.val := by
  refine of_forall fun c hc => ?_
  have hspace := g.property c hc
  refine ⟨?_, ?_, ?_, ?_⟩
  all_goals
    rintro rfl
    exact absurd hspace (by decide)

/-- A string in which no rule shows. -/
theorem write {s : List Char} (hquote : '\'' ∉ s) (hname : ¬ HoldsBareName s)
    (hcomma : ¬ ShowsIdleComma s) : Kept (Quote.double.write s) where
  named _ := Quote.double.rewrites_of_not_holdsBareName hname
  unquoted := by
    simp only [Quote.write, Quote.char, List.mem_cons, List.mem_append, List.not_mem_nil, or_false,
      not_or]
    exact ⟨by decide, hquote, by decide⟩
  settled := Quote.double.rewrites_idleComma hcomma

/-- A string of a few harmless characters. -/
theorem write_of_forall {s : List Char} (hs : ∀ c ∈ s, c ≠ '\'' ∧ c ≠ ':' ∧ c ≠ '\x7d' ∧ c ≠ ']') :
    Kept (Quote.double.write s) := by
  refine write (fun h => (hs _ h).1 rfl) ?_ ?_
  · rintro ⟨front, c, name, blanks, back, rfl, -⟩
    exact (hs ':' (by simp)).2.1 rfl
  · rintro ⟨front, blanks, c, back, rfl, -, hc⟩
    obtain ⟨-, -, hbrace, hbracket⟩ := hs c (by simp)
    exact hc.elim hbrace hbracket

/-- A comma and what follows it, if that does not start with a closing brace or bracket. -/
theorem comma (g : Gap) {c : Char} {s : List Char} (hblank : isBlank c = false)
    (hc : c ≠ '\x7d' ∧ c ≠ ']') (hs : Kept (c :: s)) : Kept (',' :: (g ++ c :: s)) where
  named before := by
    have hmark : Rewrites bareFieldName before [','] [','] :=
      rewrites_bareFieldName_mark (by decide) (by decide)
    have h := hmark.append (((gap g).named _).append (hs.named _))
    exact h
  unquoted := by
    rw [List.mem_cons, List.mem_append, not_or, not_or]
    exact ⟨by decide, (gap g).unquoted, hs.unquoted⟩
  settled := by
    refine rewrites_idleComma_of_opening g hblank (not_or.mpr hc) ?_
    intro before rest
    rw [replaceFrom_idleComma, hs.settled, replaceFrom_idleComma (behind before (c :: s)),
      replaceFrom_idleComma (behind none (c :: s))]

end Kept

/-! ### Single characters -/

section Heads
variable {before : Option Char} {c : Char} {s : List Char}

/-- An apostrophe becomes a quote. -/
theorem settle_apostrophe (before : Option Char) (s : List Char) :
    settle before ('\'' :: s) = '"' :: settle (some '\'') s := by
  have hnone : bareFieldName before ('\'' :: s) = none :=
    bareFieldName_eq_none_of_head (by decide) (by decide)
  rw [settle, replaceFrom, hnone]
  simp only [convertSingleQuotes_cons, if_true]
  rw [replaceFrom, idleComma_eq_none_of_head (by decide)]
  simp only [replaceFrom_idleComma (some '"')]
  rfl

theorem bareFieldName_eq_none_of_startsName (h : startsName before = false) (s : List Char) :
    bareFieldName before s = none := by
  simp [bareFieldName, bareName, h]

/-- A character that starts no bare name and is no apostrophe and no comma is kept. -/
theorem settle_cons (hname : bareFieldName before (c :: s) = none) (hquote : c ≠ '\'')
    (hcomma : c ≠ ',') : settle before (c :: s) = c :: settle (some c) s := by
  rw [settle, replaceFrom, hname]
  simp only [convertSingleQuotes_cons, if_neg hquote]
  rw [replaceFrom, idleComma_eq_none_of_head hcomma]
  simp only [replaceFrom_idleComma (some c)]
  rfl

/-- A mark that no rule is about is kept. -/
theorem settle_mark (hc : c ∉ ['k', 'v', '\'', ',']) (before : Option Char) (s : List Char) :
    settle before (c :: s) = c :: settle (some c) s := by
  simp only [List.mem_cons, List.not_mem_nil, or_false, not_or] at hc
  obtain ⟨hkey, hvalue, hquote, hcomma⟩ := hc
  exact settle_cons (bareFieldName_eq_none_of_head hkey hvalue) hquote hcomma

/-- An apostrophe becomes what a quote is: behind neither of them a name starts. -/
theorem settle_apostrophe_eq (before : Option Char) (s : List Char) :
    settle before ('\'' :: s) = settle before ('"' :: s) := by
  have hbehind : settle (some '\'') s = settle (some '"') s := by
    cases s with
    | nil => rfl
    | cons c s =>
      rw [settle, settle, replaceFrom, replaceFrom,
        bareFieldName_eq_none_of_startsName (by decide +kernel),
        bareFieldName_eq_none_of_startsName (by decide +kernel)]
  rw [settle_apostrophe, hbehind, settle_mark (by decide)]

/-- A bare name is put in quotes. -/
theorem exists_convert_of_bareFieldName (hname : bareFieldName before (c :: s) ≠ none) :
    (c = 'k' ∨ c = 'v') ∧
      ∃ t, convertSingleQuotes (replaceFrom bareFieldName before 0 (c :: s)) = '"' :: c :: t := by
  obtain ⟨r, hr⟩ := Option.ne_none_iff_exists'.mp hname
  obtain ⟨-, role, blanks, back, hsplit, -, rfl⟩ := bareFieldName_cases hr
  rw [replaceFrom, hr]
  cases role with
  | key =>
    rw [show c = 'k' from (List.cons.inj hsplit).1]
    exact ⟨.inl rfl, _, rfl⟩
  | value =>
    rw [show c = 'v' from (List.cons.inj hsplit).1]
    exact ⟨.inr rfl, _, rfl⟩

/-- The first two of the rules leave a character, or write a quote for an apostrophe or in front of a
bare name. -/
theorem exists_convert_eq_cons (before : Option Char) (c : Char) (s : List Char) :
    ∃ d t, convertSingleQuotes (replaceFrom bareFieldName before 0 (c :: s)) = d :: t ∧
      (d = c ∨ d = '"' ∧ (c = '\'' ∨ bareFieldName before (c :: s) ≠ none)) := by
  by_cases hname : bareFieldName before (c :: s) = none
  · rw [replaceFrom, hname]
    refine ⟨_, _, rfl, ?_⟩
    by_cases hquote : c = '\''
    · exact .inr ⟨if_pos hquote, .inl hquote⟩
    · exact .inl (if_neg hquote)
  · obtain ⟨-, t, ht⟩ := exists_convert_of_bareFieldName hname
    exact ⟨'"', _, ht, .inr ⟨rfl, .inr hname⟩⟩

/-- The rules leave a character that is no comma, or write a quote for an apostrophe or in front of a
bare name. -/
theorem exists_settle_eq_cons (before : Option Char) (hcomma : c ≠ ',') (s : List Char) :
    ∃ d t, settle before (c :: s) = d :: t ∧
      (d = c ∨ d = '"' ∧ (c = '\'' ∨ bareFieldName before (c :: s) ≠ none)) := by
  obtain ⟨d, t, hhead, hd⟩ := exists_convert_eq_cons before c s
  have hne : d ≠ ',' := by
    rcases hd with rfl | ⟨rfl, -⟩
    · exact hcomma
    · decide
  refine ⟨d, replaceFrom idleComma (some d) 0 t, ?_, hd⟩
  rw [settle, hhead, replaceFrom, idleComma_eq_none_of_head hne]

/-- A comma is kept before what is no closing brace or bracket. -/
theorem settle_comma (before : Option Char) (g : Gap) (hblank : isBlank c = false)
    (hc : c ≠ '\x7d' ∧ c ≠ ']') :
    settle before (',' :: (g ++ c :: s)) =
      ',' :: (g ++ settle (behind (some ',') g.val) (c :: s)) := by
  have hname : bareFieldName before (',' :: (g.val ++ c :: s)) = none :=
    bareFieldName_eq_none_of_head (by decide) (by decide)
  -- The rule for commas sees the character behind the gap when its quote is already converted.
  obtain ⟨d, t, hhead, hd⟩ := exists_convert_eq_cons (behind (some ',') g.val) c s
  have hdblank : isBlank d = false := by
    rcases hd with rfl | ⟨rfl, -⟩
    · exact hblank
    · decide
  have hdclose : ¬ (d = '\x7d' ∨ d = ']') := by
    rcases hd with rfl | ⟨rfl, -⟩
    · exact not_or.mpr hc
    · decide
  have hidle : idleComma none (',' :: (g.val ++ d :: t)) = none := by
    simp [idleComma, takeWhile_gap_append g hdblank, hdclose]
  rw [settle, replaceFrom, hname]
  simp only [convertSingleQuotes_cons, (Kept.gap g).named (some ',') (c :: s),
    convertSingleQuotes_append, g.convertSingleQuotes_val, hhead]
  rw [if_neg (by decide), replaceFrom, hidle]
  simp only [g.rewrites_idleComma (d :: t)]
  rw [settle, hhead, replaceFrom_idleComma]

end Heads

/-! ### Strings that are cut short -/

/-- Something is said of no place of a part, or there is a first place of which it is. -/
theorem exists_first_place (holds : Option Char → List Char → Prop) (before : Option Char)
    (u rest : List Char) :
    (∀ p c s, u = p ++ c :: s → ¬ holds (behind before p) (c :: s ++ rest)) ∨
      ∃ p c s, u = p ++ c :: s ∧ holds (behind before p) (c :: s ++ rest) ∧
        ∀ p' c' s', p = p' ++ c' :: s' → ¬ holds (behind before p') (c' :: s' ++ (c :: s ++ rest)) := by
  induction u generalizing before with
  | nil => exact .inl fun p c s h => by simp at h
  | cons d u ih =>
    by_cases hhere : holds before (d :: u ++ rest)
    · exact .inr ⟨[], d, u, rfl, hhere, fun p' c' s' h => by simp at h⟩
    · -- A place of the text is its first one or a place of the rest.
      have hstep : ∀ {p : List Char} {c : Char} {s tail : List Char}, d :: tail = p ++ c :: s →
          p = [] ∧ c = d ∧ s = tail ∨ ∃ p', p = d :: p' ∧ tail = p' ++ c :: s := by
        intro p c s tail h
        cases p with
        | nil => exact .inl ⟨rfl, (List.cons.inj h).1.symm, (List.cons.inj h).2.symm⟩
        | cons e p =>
          obtain ⟨rfl, htail⟩ := List.cons.inj h
          exact .inr ⟨p, rfl, htail⟩
      rcases ih (some d) with hnever | ⟨p, c, s, hu, hfound, hfirst⟩
      · refine .inl fun p c s h => ?_
        rcases hstep h with ⟨rfl, rfl, rfl⟩ | ⟨p, rfl, hp⟩
        · exact hhere
        · rw [behind_cons]
          exact hnever p c s hp
      · refine .inr ⟨d :: p, c, s, by rw [hu]; rfl, by rwa [behind_cons], fun p' c' s' h => ?_⟩
        rcases hstep h with ⟨rfl, rfl, rfl⟩ | ⟨p', rfl, hp'⟩
        · rw [hu] at hhere
          simpa using hhere
        · rw [behind_cons]
          exact hfirst p' c' s' hp'

/-- The rules cut a string short: it holds an apostrophe or a bare name. -/
def IsCut (k : List Char) : Prop := '\'' ∈ k ∨ HoldsBareName k

/-- The place where a string is cut short: a bare name or an apostrophe, and neither before. -/
theorem IsCut.exists_place {k : List Char} (h : IsCut k) (rest : List Char) :
    ∃ p c s, k = p ++ c :: s ∧ '\'' ∉ p ∧
      (∀ p' c' s', p = p' ++ c' :: s' →
        bareFieldName (behind (some '"') p') (c' :: s' ++ (c :: s ++ '"' :: rest)) = none) ∧
      (c = '\'' ∨ bareFieldName (behind (some '"') p) (c :: s ++ '"' :: rest) ≠ none) := by
  rcases exists_first_place (fun before s => s.head? = some '\'' ∨ bareFieldName before s ≠ none)
    (some '"') k ('"' :: rest) with hnever | ⟨p, c, s, rfl, hfound, hfirst⟩
  · -- An apostrophe or a bare name would be such a place.
    rcases h with hquote | ⟨front, d, name, blanks, back, rfl, hstart, hmem, hblanks⟩
    · obtain ⟨p, s, rfl⟩ := List.append_of_mem hquote
      exact absurd (.inl rfl) (hnever p _ s rfl)
    · obtain ⟨role, rfl⟩ := exists_role_of_mem hmem
      obtain ⟨e, name, hname⟩ : ∃ e name, role.chars = e :: name := by
        cases role
        all_goals exact ⟨_, _, rfl⟩
      have happlies := bareFieldName_of_name hstart role hblanks (back ++ '"' :: rest)
      refine absurd (.inr ?_) (hnever (front ++ [d]) e (name ++ (blanks ++ ':' :: back))
        (by rw [hname]; simp))
      rw [behind_append, behind_cons, behind_nil]
      rw [hname] at happlies
      simp only [List.cons_append, List.append_assoc] at happlies ⊢
      rw [happlies]
      exact Option.some_ne_none _
  · refine ⟨p, c, s, rfl, fun hmem => ?_, fun p' c' s' hp' => ?_, ?_⟩
    · obtain ⟨p', s', rfl⟩ := List.append_of_mem hmem
      exact hfirst p' _ s' rfl (.inl rfl)
    · exact of_not_not (not_or.mp (hfirst p' c' s' hp')).2
    · exact hfound.imp Option.some.inj id

/-- Up to such a place a string is kept, and there a quote is written. -/
theorem settle_append_quote (before : Option Char) {p tail t : List Char} (hquote : '\'' ∉ p)
    (hcomma : ¬ ShowsIdleComma p)
    (hname : ∀ p' c' s', p = p' ++ c' :: s' →
      bareFieldName (behind (some '"') p') (c' :: s' ++ tail) = none)
    (htail : convertSingleQuotes (replaceFrom bareFieldName (behind (some '"') p) 0 tail) = '"' :: t) :
    settle before ('"' :: (p ++ tail)) = '"' :: (p ++ '"' :: replaceFrom idleComma none 0 t) := by
  have hnamed : replaceFrom bareFieldName before 0 ('"' :: (p ++ tail)) =
      '"' :: (p ++ replaceFrom bareFieldName (behind (some '"') p) 0 tail) := by
    rw [replaceFrom, bareFieldName_eq_none_of_head (by decide) (by decide)]
    exact congrArg _ (replaceFrom_append_of_none hname)
  have hpassed : replaceFrom idleComma none 0 (Quote.double.write p ++ t) = _ :=
    Quote.double.rewrites_idleComma hcomma t
  rw [replaceFrom_idleComma (behind _ _)] at hpassed
  rw [settle, hnamed]
  simp only [convertSingleQuotes_cons, convertSingleQuotes_append,
    convertSingleQuotes_of_not_mem hquote, htail]
  simpa [Quote.write, Quote.char] using hpassed

/-- What becomes of a string that is cut short: a quote ends it early, and behind the quote stands
the name, or what is made of the rest behind the apostrophe. -/
theorem settle_write (before : Option Char) {k : List Char} (hcomma : ¬ ShowsIdleComma k)
    (hcut : IsCut k) (rest : List Char) :
    ∃ p c s t, k = p ++ c :: s ∧ '\'' ∉ p ∧
      settle before ('"' :: (k ++ '"' :: rest)) = '"' :: (p ++ '"' :: t) ∧
      (c = '\'' ∧ t = settle (some '\'') (s ++ '"' :: rest) ∨
        (c = 'k' ∨ c = 'v') ∧ ∃ t', t = c :: t') := by
  obtain ⟨p, c, s, rfl, hquote, hfirst, hfound⟩ := hcut.exists_place rest
  have hidle : ¬ ShowsIdleComma p := by
    rintro ⟨front, blanks, d, back, rfl, hd⟩
    exact hcomma ⟨front, blanks, d, back ++ c :: s, by simp, hd⟩
  have hsplit : p ++ c :: s ++ '"' :: rest = p ++ (c :: s ++ '"' :: rest) := List.append_assoc _ _ _
  -- Where no bare name starts, the place is that of an apostrophe.
  by_cases hname : bareFieldName (behind (some '"') p) (c :: s ++ '"' :: rest) = none
  · obtain rfl : c = '\'' := hfound.resolve_right (not_not.mpr hname)
    refine ⟨p, _, s, _, rfl, hquote, ?_, .inl ⟨rfl, rfl⟩⟩
    rw [hsplit]
    refine settle_append_quote before hquote hidle hfirst ?_
    rw [List.cons_append, replaceFrom, ← List.cons_append, hname]
    rfl
  · obtain ⟨hc, t, ht⟩ := exists_convert_of_bareFieldName hname
    have hletter : replaceFrom idleComma none 0 (c :: t) = c :: replaceFrom idleComma (some c) 0 t := by
      rw [replaceFrom, idleComma_eq_none_of_head (by rcases hc with rfl | rfl <;> decide)]
    refine ⟨p, c, s, _, rfl, hquote, ?_, .inr ⟨hc, _, hletter⟩⟩
    rw [hsplit]
    exact settle_append_quote before hquote hidle hfirst ht

end Chartdown.Chart.Strict
