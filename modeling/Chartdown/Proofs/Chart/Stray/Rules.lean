import Chartdown.Proofs.Chart.Points
import Chartdown.Proofs.Chart.Strict.Rules
import Chartdown.Proofs.Chart.Stray.Scan

/-!
# Stray text makes data malformed

The rules of the dialect rewrite a text in front of the bracket that closes its array, and behind
it. They do not move the bracket, and of what stands behind it they leave the last bracket, which
the first rule puts there. So where anything but blanks stands behind the array, the reader of JSON
finds more than an array.

## Key results

- `behindArray_replaceFrom`: a rule that writes no brackets leaves the end of an array
- `exists_behindArray_settle`: so do the rules of the dialect
- `exists_rewrapBrackets`: the outer brackets of an array with something behind it
- `decodePoints_normalize_ne`: an array with something behind it describes no points
-/

namespace Chartdown.Chart

open Text DataText
open Strict (settle)

/-! ### Rules and the end of an array -/

/-- A rule that replaces parts without quotes and brackets, and what it writes is passed as well. -/
def IsHarmless (rule : Rule) : Prop :=
  ∀ before s r, rule before s = some r → ∃ u v, s = u ++ v ∧ u.length = r.extra + 1 ∧
    (∀ c ∈ u, IsIdle c) ∧
    ∀ depth quoted t, behindArray depth quoted (r.written ++ t) = behindArray depth quoted t

variable {rule : Rule} {depth : Nat} {quoted : Bool}

/-- A harmless rule leaves the end of an array. -/
theorem behindArray_replaceFrom (hrule : IsHarmless rule) (before : Option Char) {s rest : List Char}
    (h : behindArray depth quoted s = some rest) :
    ∃ before', behindArray depth quoted (replaceFrom rule before 0 s) =
      some (replaceFrom rule before' 0 rest) := by
  induction before, s using run_induction rule generalizing depth quoted with
  | nil => cases h
  | passed before c s hr ih =>
    rw [replaceFrom, hr]
    rcases behindArray_cons_cases depth quoted c with hrefused | ⟨rfl, rfl, rfl⟩ |
      ⟨depth', quoted', -, heq⟩
    · rw [behindArray_refused hrefused] at h
      cases h
    · -- The array ends here, and the rule goes on behind its end.
      rw [behindArray_end, Option.some.injEq] at h
      subst h
      exact ⟨_, behindArray_end⟩
    · rw [heq] at h
      obtain ⟨before', hrest⟩ := ih h
      exact ⟨before', by rw [heq, hrest]⟩
  | replaced before c s r hr ih =>
    -- Neither the part nor what is written for it has a bracket or a quote that counts.
    obtain ⟨u, v, hsplit, hlength, hidle, hwritten⟩ := hrule before (c :: s) r hr
    rw [hsplit] at hr h ⊢
    rw [behindArray_idle_append hidle] at h
    rw [replaceFrom_append_of_some hlength hr, hwritten]
    exact ih u v hsplit hlength h

theorem IsHarmless.exchanges (hrule : IsHarmless rule) :
    Exchanges rule fun u _ => ∀ c ∈ u, IsIdle c := by
  intro before s r hr
  obtain ⟨u, v, hsplit, hlength, hidle, -⟩ := hrule before s r hr
  exact ⟨u, v, hsplit, hlength, hidle⟩

/-- A harmless rule leaves the brackets. -/
theorem mem_replaceFrom (hrule : IsHarmless rule) (before : Option Char) {s : List Char}
    (h : ']' ∈ s) : ']' ∈ replaceFrom rule before 0 s := by
  apply (hrule.exchanges.exchanged before s).mem _ h
  intro u _ hidle hmem
  exact absurd (hidle ']' hmem) (by decide)

/-! ### The rules of the dialect -/

theorem isIdle_of_isBlank {c : Char} (h : isBlank c = true) : IsIdle c := by
  intro hmem
  simp only [List.mem_cons, List.not_mem_nil, or_false] at hmem
  rcases hmem with rfl | rfl | rfl | rfl | rfl
  all_goals exact absurd h (by decide)

/-- The quotes around a bare name open and close, wherever the name stands. -/
theorem isHarmless_bareFieldName : IsHarmless bareFieldName := by
  intro before s r hr
  obtain ⟨-, role, blanks, back, rfl, hblanks, rfl⟩ := Dialect.bareFieldName_cases hr
  have hidle : ∀ c ∈ role.chars, IsIdle c := by
    cases role
    all_goals decide
  refine ⟨role.chars ++ (blanks ++ [':']), back, by simp, by simp; omega, ?_, fun depth quoted t => ?_⟩
  · rw [List.forall_mem_append, List.forall_mem_append]
    exact ⟨hidle, fun c hc => isIdle_of_isBlank (hblanks c hc), by decide⟩
  · simp only [List.cons_append, List.append_assoc, List.nil_append]
    rw [behindArray_quote, behindArray_idle_append hidle, behindArray_quote,
      behindArray_idle (by decide), Bool.not_not]

theorem isHarmless_idleComma : IsHarmless idleComma := by
  intro before s r hr
  obtain ⟨blanks, d, back, rfl, hblanks, -, rfl⟩ := Dialect.idleComma_cases hr
  refine ⟨',' :: blanks, d :: back, rfl, rfl, ?_, fun depth quoted t => rfl⟩
  rw [List.forall_mem_cons]
  exact ⟨by decide, fun c hc => isIdle_of_isBlank (hblanks c hc)⟩

/-- Quotes are converted behind the end of an array only. -/
theorem behindArray_convertSingleQuotes {s rest : List Char}
    (h : behindArray depth quoted s = some rest) :
    behindArray depth quoted (convertSingleQuotes s) = some (convertSingleQuotes rest) := by
  induction s generalizing depth quoted with
  | nil => cases h
  | cons c s ih =>
    rw [Dialect.convertSingleQuotes_cons]
    rcases behindArray_cons_cases depth quoted c with hrefused | ⟨rfl, rfl, rfl⟩ |
      ⟨depth', quoted', -, heq⟩
    · rw [behindArray_refused hrefused] at h
      cases h
    · rw [behindArray_end, Option.some.injEq] at h
      rw [if_neg (by decide), behindArray_end, h]
    · have hquote : c ≠ '\'' := by
        rintro rfl
        rw [behindArray_refused (.inl rfl)] at h
        cases h
      rw [heq] at h
      rw [if_neg hquote, heq, ih h]

/-- The rules for names, quotes and commas leave the end of an array, and a bracket behind it. -/
theorem exists_behindArray_settle (before : Option Char) {s rest : List Char}
    (h : behindArray depth quoted s = some rest) (hmem : ']' ∈ rest) :
    ∃ rest', behindArray depth quoted (settle before s) = some rest' ∧ ']' ∈ rest' := by
  obtain ⟨before', hnamed⟩ := behindArray_replaceFrom isHarmless_bareFieldName before h
  obtain ⟨before'', hsettled⟩ := behindArray_replaceFrom isHarmless_idleComma none
    (behindArray_convertSingleQuotes hnamed)
  refine ⟨_, hsettled, mem_replaceFrom isHarmless_idleComma _ ?_⟩
  exact List.mem_map.mpr ⟨']', mem_replaceFrom isHarmless_bareFieldName _ hmem, rfl⟩

/-! ### The outer brackets -/

/-- What is trimmed behind a solid part stands behind it. -/
theorem exists_trim_append_eq {u : List Char} (hs : StartsSolid u) (he : EndsSolid u)
    (v : List Char) : ∃ w, trim (u ++ v) = u ++ w := by
  rw [trim_of_startsSolid (hs.append v)]
  obtain ⟨t, c, rfl, hc⟩ := he
  obtain ⟨blanks, hsplit, hblanks⟩ := exists_dropEndWhile_append isBlank (c :: v)
  -- The last character of the part is not among the blanks that are dropped.
  cases hleft : dropEndWhile isBlank (c :: v) with
  | nil =>
    rw [hleft, List.nil_append] at hsplit
    exact absurd (hblanks c (by rw [← hsplit]; simp)) (by simp [hc])
  | cons d w =>
    rw [hleft, List.cons_append] at hsplit
    obtain rfl := (List.cons.inj hsplit).1
    refine ⟨w, ?_⟩
    rw [List.append_assoc, List.singleton_append, dropEndWhile_append_of_mem List.mem_cons_self hc,
      hleft]
    simp

/-- An array with something behind it gets a bracket behind that. -/
theorem exists_rewrapBrackets {u v : List Char} (hv : ∃ c ∈ v, isBlank c = false) :
    ∃ w, rewrapBrackets (trim ('[' :: (u ++ ']' :: v))) = '[' :: (u ++ ']' :: (w ++ [']'])) := by
  have hstarts : StartsSolid ('[' :: (u ++ [']'])) := ⟨'[', _, rfl, by decide⟩
  have hends : EndsSolid ('[' :: (u ++ [']'])) := ⟨'[' :: u, ']', rfl, by decide⟩
  have hsplit : ∀ t, '[' :: (u ++ ']' :: t) = '[' :: (u ++ [']']) ++ t := fun t => by simp
  obtain ⟨c, hc, hsolid⟩ := hv
  have htrim : trim ('[' :: (u ++ ']' :: v)) = '[' :: (u ++ [']']) ++ dropEndWhile isBlank v := by
    rw [hsplit, trim_of_startsSolid (hstarts.append v), dropEndWhile_append_of_mem hc hsolid]
  have hne : dropEndWhile isBlank v ≠ [] := fun h => by
    rw [dropEndWhile_eq_nil_iff.mp h c hc] at hsolid
    cases hsolid
  -- The bracket that is taken off again stands behind the array.
  obtain ⟨w, hw⟩ : ∃ w, trim (if ('[' :: (u ++ [']']) ++ dropEndWhile isBlank v).getLast? = some ']'
      then ('[' :: (u ++ [']']) ++ dropEndWhile isBlank v).dropLast
      else '[' :: (u ++ [']']) ++ dropEndWhile isBlank v) = '[' :: (u ++ [']']) ++ w := by
    split
    · rw [List.dropLast_append_of_ne_nil hne]
      exact exists_trim_append_eq hstarts hends _
    · exact exists_trim_append_eq hstarts hends _
  refine ⟨w, ?_⟩
  rw [rewrapBrackets, trim_trim, htrim]
  simp only [hw]
  simp

/-- An array with something behind it describes no points. -/
theorem decodePoints_normalize_ne {s rest : List Char} (h : behindArray 0 false s = some rest)
    (hrest : ∃ c ∈ rest, isBlank c = false) (points : List Point) :
    decodePoints (normalize (trim ('[' :: s))) ≠ .ok points := by
  intro hpoints
  obtain ⟨items, hdecode, -⟩ := decodePoints_eq_ok_iff.mp hpoints
  obtain ⟨u, rfl, -, -, hend⟩ := exists_of_behindArray h
  obtain ⟨w, hw⟩ := exists_rewrapBrackets hrest
  obtain ⟨rest', hsettled, hmem⟩ :=
    exists_behindArray_settle (some '[') (hend (w ++ [']'])) (by simp)
  -- The bracket that the first rule puts at the end is still there behind the array.
  rw [Strict.normalize_eq_settle, hw, Strict.settle_mark (by decide)] at hdecode
  have hspace := skipSpace_behindArray_of_decode hdecode hsettled
  have hbracket := List.dropWhile_eq_nil_iff.mp hspace _ hmem
  exact absurd hbracket (by decide)

end Chartdown.Chart
