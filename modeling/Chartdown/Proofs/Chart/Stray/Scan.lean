import Chartdown.Proofs.Chart.Nesting
import Chartdown.Proofs.Json.Reading

/-!
# Where an array ends

The reader of a description and the reader of JSON look for the end of an array in different ways:
one counts brackets outside quotes, the other reads items. Where no apostrophe and no backslash
comes first, both find it at the same bracket. `behindArray` tells what stands behind that bracket.

## Key results

- `exists_of_behindArray`: what `behindArray` says of the count of brackets
- `exists_behindArray_intercalate`: an array that is closed on some line has an end there
- `passes_readValue`: a value of JSON passes no bracket that closes the array around it
- `skipSpace_behindArray_of_decode`: behind an array that is decoded there is only space
-/

namespace Chartdown.Chart

open Json (skipSpace isSpace readString readItems readMember readMembers readValue)
open Text (Utf16)

/-- What stands behind the bracket that closes an array, where `depth` more brackets are open inside
of it. Nothing is said where an apostrophe or a backslash comes first. -/
def behindArray (depth : Nat) (quoted : Bool) : List Char → Option (List Char)
  | [] => none
  | c :: s =>
    if c = '\'' ∨ c = '\\' then none
    else if c = '"' then behindArray depth (!quoted) s
    else if quoted = true then behindArray depth true s
    else if c = '[' then behindArray (depth + 1) false s
    else if c = ']' then
      match depth with
      | 0 => some s
      | depth + 1 => behindArray depth false s
    else behindArray depth false s

/-! ### One character -/

/-- A character that changes neither the count of brackets nor what is in quotes. -/
def IsIdle (c : Char) : Prop := c ∉ ['\'', '\\', '"', '[', ']']

instance (c : Char) : Decidable (IsIdle c) := inferInstanceAs (Decidable (¬ _))

section Steps
variable {depth : Nat} {quoted : Bool} {c : Char} {s u : List Char}

theorem behindArray_quote : behindArray depth quoted ('"' :: s) = behindArray depth (!quoted) s := by
  simp [behindArray]

theorem behindArray_open : behindArray depth false ('[' :: s) = behindArray (depth + 1) false s := by
  simp [behindArray]

theorem behindArray_close : behindArray (depth + 1) false (']' :: s) = behindArray depth false s := by
  simp [behindArray]

theorem behindArray_end : behindArray 0 false (']' :: s) = some s := by
  simp [behindArray]

theorem behindArray_idle (hc : IsIdle c) : behindArray depth quoted (c :: s) = behindArray depth quoted s := by
  simp only [IsIdle, List.mem_cons, List.not_mem_nil, or_false, not_or] at hc
  obtain ⟨hsingle, hescape, hdouble, hopen, hclose⟩ := hc
  cases quoted
  all_goals simp [behindArray, hsingle, hescape, hdouble, hopen, hclose]

theorem behindArray_quoted (hc : c ≠ '\'' ∧ c ≠ '\\' ∧ c ≠ '"') :
    behindArray depth true (c :: s) = behindArray depth true s := by
  simp [behindArray, hc]

theorem behindArray_refused (hc : c = '\'' ∨ c = '\\') : behindArray depth quoted (c :: s) = none := by
  simp [behindArray, hc]

theorem behindArray_idle_append (hu : ∀ c ∈ u, IsIdle c) :
    behindArray depth quoted (u ++ s) = behindArray depth quoted s := by
  induction u with
  | nil => rfl
  | cons c u ih =>
    rw [List.forall_mem_cons] at hu
    rw [List.cons_append, behindArray_idle hu.1, ih hu.2]

end Steps

/-- The state of the reader of a description inside an array. -/
def Nesting.within (depth : Nat) (quoted : Bool) : Nesting where
  depth := depth + 1
  opened := true
  inside := if quoted then some ('"', false) else none

theorem Nesting.closed_within (depth : Nat) (quoted : Bool) :
    (Nesting.within depth quoted).closed = false := by
  have hdepth : ¬ ((depth : Int) + 1 ≤ 0) := by omega
  simp [closed, within, hdepth]

/-- Each character is refused, closes the array, or leads to another place inside of it. -/
theorem behindArray_cons_cases (depth : Nat) (quoted : Bool) (c : Char) :
    (c = '\'' ∨ c = '\\') ∨ (c = ']' ∧ depth = 0 ∧ quoted = false) ∨
    ∃ depth' quoted', (Nesting.within depth quoted).step c = .within depth' quoted' ∧
      ∀ s, behindArray depth quoted (c :: s) = behindArray depth' quoted' s := by
  by_cases hrefused : c = '\'' ∨ c = '\\'
  · exact .inl hrefused
  refine .inr ?_
  rw [not_or] at hrefused
  by_cases hquote : c = '"'
  · subst hquote
    refine .inr ⟨depth, !quoted, ?_, fun s => behindArray_quote⟩
    cases quoted
    all_goals simp [Nesting.step, Nesting.within]
  cases quoted with
  | true =>
    -- Brackets do not count between quotes.
    refine .inr ⟨depth, true, ?_, fun s => behindArray_quoted ⟨hrefused.1, hrefused.2, hquote⟩⟩
    simp [Nesting.step, Nesting.within, hrefused.2, hquote]
  | false =>
    by_cases hopen : c = '['
    · subst hopen
      refine .inr ⟨depth + 1, false, ?_, fun s => behindArray_open⟩
      simp [Nesting.step, Nesting.within]
    by_cases hclose : c = ']'
    · subst hclose
      cases depth with
      | zero => exact .inl ⟨rfl, rfl, rfl⟩
      | succ depth =>
        refine .inr ⟨depth, false, ?_, fun s => behindArray_close⟩
        simp [Nesting.step, Nesting.within]
    · refine .inr ⟨depth, false, ?_, fun s => behindArray_idle ?_⟩
      · simp [Nesting.step, Nesting.within, hrefused.1, hquote, hopen, hclose]
      · simp [IsIdle, hrefused.1, hrefused.2, hquote, hopen, hclose]

/-! ### The count of brackets -/

/-- An array that has an end is open up to its last bracket, whatever follows. -/
theorem exists_of_behindArray {depth : Nat} {quoted : Bool} {s rest : List Char}
    (h : behindArray depth quoted s = some rest) :
    ∃ u, s = u ++ ']' :: rest ∧ (Nesting.within depth quoted).read u = .within 0 false ∧
      (∀ v, v <+: u → ∃ depth' quoted',
        (Nesting.within depth quoted).read v = .within depth' quoted') ∧
      ∀ t, behindArray depth quoted (u ++ ']' :: t) = some t := by
  induction s generalizing depth quoted with
  | nil => cases h
  | cons c s ih =>
    rcases behindArray_cons_cases depth quoted c with hrefused | ⟨rfl, rfl, rfl⟩ |
      ⟨depth', quoted', hstep, heq⟩
    · rw [behindArray_refused hrefused] at h
      cases h
    · -- The array ends here, so nothing of it is in front of its last bracket.
      rw [behindArray_end, Option.some.injEq] at h
      subst h
      refine ⟨[], rfl, rfl, fun v hv => ⟨0, false, ?_⟩, fun t => behindArray_end⟩
      rw [List.prefix_nil.mp hv]
      rfl
    · rw [heq] at h
      obtain ⟨u, rfl, hread, hopen, hend⟩ := ih h
      refine ⟨c :: u, rfl, ?_, fun v hv => ?_, fun t => ?_⟩
      · rw [Nesting.read_cons, hstep, hread]
      · cases v with
        | nil => exact ⟨depth, quoted, rfl⟩
        | cons d v =>
          rw [List.cons_prefix_cons] at hv
          obtain ⟨rfl, hv⟩ := hv
          obtain ⟨depth'', quoted'', hv⟩ := hopen v hv
          exact ⟨depth'', quoted'', by rw [Nesting.read_cons, hstep, hv]⟩
      · rw [List.cons_append, heq, hend]

theorem behindArray_append {depth : Nat} {quoted : Bool} {s rest : List Char}
    (h : behindArray depth quoted s = some rest) (t : List Char) :
    behindArray depth quoted (s ++ t) = some (rest ++ t) := by
  obtain ⟨u, rfl, -, -, hend⟩ := exists_of_behindArray h
  rw [List.append_assoc, List.cons_append, hend]

/-- A text without apostrophes and backslashes closes the array or leads to another place inside of
it. -/
theorem behindArray_or_read {u : List Char} (hu : ∀ c ∈ u, c ≠ '\'' ∧ c ≠ '\\') (depth : Nat)
    (quoted : Bool) :
    (∃ rest, behindArray depth quoted u = some rest) ∨
    ∃ depth' quoted', (Nesting.within depth quoted).read u = .within depth' quoted' ∧
      ∀ s, behindArray depth quoted (u ++ s) = behindArray depth' quoted' s := by
  induction u generalizing depth quoted with
  | nil => exact .inr ⟨depth, quoted, rfl, fun s => rfl⟩
  | cons c u ih =>
    rw [List.forall_mem_cons] at hu
    rcases behindArray_cons_cases depth quoted c with hrefused | ⟨rfl, rfl, rfl⟩ |
      ⟨depth', quoted', hstep, heq⟩
    · exact absurd hrefused (not_or.mpr hu.1)
    · exact .inl ⟨u, behindArray_end⟩
    · rcases ih hu.2 depth' quoted' with ⟨rest, hrest⟩ | ⟨depth'', quoted'', hread, hgo⟩
      · exact .inl ⟨rest, by rw [heq, hrest]⟩
      · exact .inr ⟨depth'', quoted'', by rw [Nesting.read_cons, hstep, hread],
          fun s => by rw [List.cons_append, heq, hgo]⟩

/-- An array that is closed on the last of some lines has an end. -/
theorem exists_behindArray_intercalate {lines : List (List Char)} (hne : lines ≠ [])
    (hlines : ∀ line ∈ lines, ∀ c ∈ line, c ≠ '\'' ∧ c ≠ '\\') {depth : Nat} {quoted : Bool}
    (hclosed : ((Nesting.within depth quoted).read lines.flatten).closed = true) :
    ∃ rest, behindArray depth quoted (['\n'].intercalate lines) = some rest := by
  induction lines generalizing depth quoted with
  | nil => exact absurd rfl hne
  | cons line lines ih =>
    rw [List.forall_mem_cons] at hlines
    rw [List.flatten_cons, Nesting.read_append] at hclosed
    rcases behindArray_or_read hlines.1 depth quoted with ⟨rest, hrest⟩ |
      ⟨depth', quoted', hread, hgo⟩
    · -- The end is on this line, whatever the later ones hold.
      obtain ⟨t, ht⟩ : ∃ t, ['\n'].intercalate (line :: lines) = line ++ t := by
        cases lines with
        | nil => exact ⟨[], by simp⟩
        | cons line' lines => exact ⟨_, by rw [List.intercalate_cons_cons, List.append_assoc]⟩
      exact ⟨rest ++ t, by rw [ht, behindArray_append hrest]⟩
    · rw [hread] at hclosed
      cases lines with
      | nil =>
        rw [List.flatten_nil] at hclosed
        exact absurd (hclosed.symm.trans (Nesting.closed_within depth' quoted')) (by decide)
      | cons line' lines =>
        obtain ⟨rest, hrest⟩ := ih (List.cons_ne_nil _ _) hlines.2 hclosed
        refine ⟨rest, ?_⟩
        rw [List.intercalate_cons_cons, List.append_assoc, hgo, List.singleton_append,
          behindArray_idle (by decide), hrest]

/-! ### The reader of JSON -/

/-- On the way from one place of a text to another no bracket closes the array around both. -/
def Passes (s rest : List Char) : Prop :=
  ∀ depth t, behindArray depth false s = some t → behindArray depth false rest = some t

theorem Passes.refl (s : List Char) : Passes s s := fun _ _ h => h

theorem Passes.trans {s r t : List Char} (h : Passes s r) (h' : Passes r t) : Passes s t :=
  fun depth u hu => h' depth u (h depth u hu)

theorem passes_append {u : List Char} (hu : ∀ c ∈ u, IsIdle c) (s : List Char) :
    Passes (u ++ s) s := by
  intro depth t h
  rwa [behindArray_idle_append hu] at h

theorem passes_cons {c : Char} (hc : IsIdle c) (s : List Char) : Passes (c :: s) s :=
  passes_append (u := [c]) (List.forall_mem_singleton.mpr hc) s

/-- What is skipped as long as a test holds is passed. -/
theorem passes_dropWhile {p : Char → Bool} (hp : ∀ c, p c = true → IsIdle c) (s : List Char) :
    Passes s (s.dropWhile p) := by
  have h := passes_append (u := s.takeWhile p) (fun c hc => hp c (List.mem_takeWhile_imp hc))
    (s.dropWhile p)
  rwa [List.takeWhile_append_dropWhile] at h

theorem passes_skipSpace (s : List Char) : Passes s (skipSpace s) := by
  refine passes_dropWhile (fun c hc => ?_) s
  simp only [isSpace, Bool.or_eq_true, beq_iff_eq] at hc
  rcases hc with ((rfl | rfl) | rfl) | rfl
  all_goals decide

/-- The reader of a string comes out of the quotes at the quote that closes them. -/
theorem behindArray_readString {opening : Nat} {s rest : List Char} {units : Utf16}
    (h : readString opening s = .ok (units, rest)) {depth : Nat} {t : List Char}
    (ht : behindArray depth true s = some t) : behindArray depth false rest = some t := by
  induction s generalizing units with
  | nil => cases ht
  | cons c s ih =>
    unfold readString at h
    by_cases hquote : c = '"'
    · subst hquote
      rw [behindArray_quote] at ht
      simp only [if_true] at h
      cases h
      exact ht
    -- Without a backslash there is no escape, so the string ends at the next quote.
    by_cases hrefused : c = '\'' ∨ c = '\\'
    · rw [behindArray_refused hrefused] at ht
      cases ht
    rw [not_or] at hrefused
    rw [behindArray_quoted ⟨hrefused.1, hrefused.2, hquote⟩] at ht
    simp only [hquote, hrefused.2, if_false] at h
    split at h
    · cases h
    · cases hread : readString opening s with
      | error e => simp [hread, Json.prependUnits] at h
      | ok r =>
        obtain ⟨units', rest'⟩ := r
        simp only [hread, Json.prependUnits] at h
        cases h
        exact ih hread ht

theorem passes_readString {opening : Nat} {s rest : List Char} {units : Utf16}
    (h : readString opening s = .ok (units, rest)) : Passes ('"' :: s) rest := by
  intro depth t ht
  rw [behindArray_quote] at ht
  exact behindArray_readString h ht

theorem isIdle_of_isDigit {c : Char} (h : c.isDigit = true) : IsIdle c := by
  intro hmem
  simp only [List.mem_cons, List.not_mem_nil, or_false] at hmem
  rcases hmem with rfl | rfl | rfl | rfl | rfl
  all_goals exact absurd h (by decide)

theorem passes_readWhole {s ds rest : List Char} (h : Json.readWhole s = some (ds, rest)) :
    Passes s rest := by
  cases s with
  | nil => cases h
  | cons c s =>
    rw [Json.readWhole] at h
    split at h
    · rename_i hzero
      cases h
      exact passes_cons (by rw [hzero]; decide) _
    · split at h
      · rename_i hdigit
        cases h
        exact (passes_cons (isIdle_of_isDigit hdigit) s).trans
          (passes_dropWhile (fun c => isIdle_of_isDigit) s)
      · cases h

theorem passes_readFraction (s : List Char) : Passes s (Json.readFraction s).2 := by
  unfold Json.readFraction
  split
  · rename_i d s'
    split
    · rename_i hdigit
      exact (passes_append (u := ['.', d]) (by simpa using ⟨by decide, isIdle_of_isDigit hdigit⟩)
        s').trans (passes_dropWhile (fun c => isIdle_of_isDigit) s')
    · exact .refl _
  · exact .refl _

theorem passes_readExponent (s : List Char) : Passes s (Json.readExponent s).2 := by
  unfold Json.readExponent
  split
  · exact .refl _
  · rename_i e s'
    split
    · rename_i hmark
      have hidle : IsIdle e := by rcases hmark with rfl | rfl <;> decide
      -- The sign, if there is one, and the digits.
      have hdigits : ∀ u ds : List Char, (∀ c ∈ u, IsIdle c) → s' = u ++ ds →
          Passes (e :: s') (if (ds.takeWhile Char.isDigit).isEmpty then e :: s'
            else ds.dropWhile Char.isDigit) := by
        rintro u ds hu rfl
        split
        · exact .refl _
        · exact ((passes_cons hidle _).trans (passes_append hu ds)).trans
            (passes_dropWhile (fun c => isIdle_of_isDigit) ds)
      rw [apply_ite Prod.snd]
      split
      · exact hdigits ['-'] _ (by decide) rfl
      · exact hdigits ['+'] _ (by decide) rfl
      · exact hdigits [] _ (by decide) rfl
    · exact .refl _

theorem passes_readMagnitude {negative : Bool} {s rest : List Char} {n : Except Json.Fault Number}
    (h : Json.readMagnitude negative s = some (n, rest)) : Passes s rest := by
  rw [Json.readMagnitude] at h
  cases hwhole : Json.readWhole s with
  | none => simp [hwhole] at h
  | some r =>
    obtain ⟨whole, s'⟩ := r
    simp only [hwhole, Option.bind_eq_bind, Option.bind_some] at h
    have hrest : rest = (Json.readExponent (Json.readFraction s').2).2 := by
      split at h
      · split at h
        all_goals
          cases h
          rfl
      · cases h
        rfl
    rw [hrest]
    exact ((passes_readWhole hwhole).trans (passes_readFraction s')).trans (passes_readExponent _)

theorem passes_readNumber {s rest : List Char} {v : Json}
    (h : Json.readNumber s = .ok (v, rest)) : Passes s rest := by
  unfold Json.readNumber at h
  split at h
  · rename_i s'
    dsimp only at h
    split at h
    · rename_i hmagnitude
      cases h
      exact (passes_cons (by decide) s').trans (passes_readMagnitude hmagnitude)
    · cases h
    · cases h
  · dsimp only at h
    split at h
    · rename_i hmagnitude
      cases h
      exact passes_readMagnitude hmagnitude
    · cases h
    · cases h

theorem eq_of_readConstant {constants : Bool} {name : String} {d : Double} {s rest : List Char}
    {v : Json} (h : Json.readConstant constants name d s = .ok (v, rest)) : s = rest := by
  rw [Json.readConstant] at h
  split at h
  · cases h
    rfl
  · cases h

theorem passes_readPlain {constants : Bool} {s rest : List Char} {v : Json}
    (h : Json.readPlain constants s = .ok (v, rest)) : Passes s rest := by
  unfold Json.readPlain at h
  split at h
  · rename_i s'
    rw [List.length_cons] at h
    cases hread : readString (s'.length + 1) s' with
    | error e => simp [hread] at h
    | ok r =>
      simp only [hread] at h
      cases h
      exact passes_readString hread
  · cases h
    exact passes_append (u := "null".toList) (by decide) _
  · cases h
    exact passes_append (u := "true".toList) (by decide) _
  · cases h
    exact passes_append (u := "false".toList) (by decide) _
  · exact eq_of_readConstant h ▸ passes_append (u := "NaN".toList) (by decide) _
  · exact eq_of_readConstant h ▸ passes_append (u := "Infinity".toList) (by decide) _
  · exact eq_of_readConstant h ▸ passes_append (u := "-Infinity".toList) (by decide) _
  · exact passes_readNumber h

section Holders
variable {item : List Char → Json.Reading Json} {fuel : Nat} {s rest : List Char}

/-- Items are passed up to the bracket that closes their own array. -/
theorem passes_readItems (hitem : ∀ s v r, item s = .ok (v, r) → Passes s r) {vs : List Json}
    (h : readItems item fuel s = .ok (vs, rest)) : Passes s (']' :: rest) := by
  induction fuel generalizing s vs with
  | zero => cases h
  | succ fuel ih =>
    obtain ⟨fuel', v, r, hfuel, hfirst, hrest⟩ := Json.readItems_eq_ok_iff.mp h
    obtain rfl := Nat.succ.inj hfuel
    have hpassed := (hitem s v r hfirst).trans (passes_skipSpace r)
    rcases hrest with ⟨hclose, -⟩ | ⟨r', vs', hcomma, hothers, -⟩
    · rwa [hclose] at hpassed
    · rw [hcomma] at hpassed
      exact ((hpassed.trans (passes_cons (by decide) r')).trans (passes_skipSpace r')).trans
        (ih hothers)

theorem passes_readMember (hitem : ∀ s v r, item s = .ok (v, r) → Passes s r) {m : Utf16 × Json}
    (h : readMember item s = .ok (m, rest)) : Passes s rest := by
  obtain ⟨s', name, r, r', v, rfl, hname, hcolon, hvalue, -⟩ := Json.exists_of_readMember h
  have hpassed := (passes_readString hname).trans (passes_skipSpace r)
  rw [hcolon] at hpassed
  exact ((hpassed.trans (passes_cons (by decide) r')).trans (passes_skipSpace r')).trans
    (hitem _ v rest hvalue)

/-- Members are passed, and the brace that closes their object too. -/
theorem passes_readMembers (hitem : ∀ s v r, item s = .ok (v, r) → Passes s r)
    {ms : List (Utf16 × Json)} (h : readMembers item fuel s = .ok (ms, rest)) : Passes s rest := by
  induction fuel generalizing s ms with
  | zero => cases h
  | succ fuel ih =>
    obtain ⟨fuel', m, r, hfuel, hfirst, hrest⟩ := Json.readMembers_eq_ok_iff.mp h
    obtain rfl := Nat.succ.inj hfuel
    have hpassed := (passes_readMember hitem hfirst).trans (passes_skipSpace r)
    rcases hrest with ⟨hclose, -⟩ | ⟨r', ms', hcomma, hothers, -⟩
    · rw [hclose] at hpassed
      exact hpassed.trans (passes_cons (by decide) rest)
    · rw [hcomma] at hpassed
      exact ((hpassed.trans (passes_cons (by decide) r')).trans (passes_skipSpace r')).trans
        (ih hothers)

end Holders

/-- The rest of an array is read up to the bracket that closes it. -/
theorem passes_of_readValue_array {constants : Bool} {depth : Nat} {s rest : List Char} {v : Json}
    (hitem : ∀ s v r, readValue constants depth s = .ok (v, r) → Passes s r)
    (h : readValue constants (depth + 1) ('[' :: s) = .ok (v, rest)) : Passes s (']' :: rest) := by
  rcases Json.exists_of_readValue_array h with ⟨hclose, -⟩ | ⟨fuel, items, hitems, -⟩
  · rw [← hclose]
    exact passes_skipSpace s
  · exact (passes_skipSpace s).trans (passes_readItems hitem hitems)

/-- A value passes no bracket that closes the array around it. -/
theorem passes_readValue {constants : Bool} {depth : Nat} {s rest : List Char} {v : Json}
    (h : readValue constants depth s = .ok (v, rest)) : Passes s rest := by
  induction depth generalizing s rest v with
  | zero =>
    cases s with
    | nil => exact @passes_readPlain constants [] rest v h
    | cons c s =>
      by_cases harray : c = '['
      · subst harray
        cases h
      by_cases hobject : c = '\x7b'
      · subst hobject
        cases h
      · rw [Json.readValue_of_plain constants 0 harray hobject] at h
        exact passes_readPlain h
  | succ depth ih =>
    have hitem : ∀ s v r, readValue constants depth s = .ok (v, r) → Passes s r :=
      fun s v r hread => ih hread
    cases s with
    | nil => exact @passes_readPlain constants [] rest v h
    | cons c s =>
      by_cases harray : c = '['
      · -- The brackets of the array within count one up and one down.
        subst harray
        have hpassed := passes_of_readValue_array hitem h
        intro d t ht
        rw [behindArray_open] at ht
        rw [← behindArray_close]
        exact hpassed (d + 1) t ht
      by_cases hobject : c = '\x7b'
      · subst hobject
        refine (passes_cons (by decide) s).trans ((passes_skipSpace s).trans ?_)
        rcases Json.exists_of_readValue_object h with ⟨hclose, -⟩ | ⟨fuel, members, hmembers, -⟩
        · rw [hclose]
          exact passes_cons (by decide) rest
        · exact passes_readMembers hitem hmembers
      · rw [Json.readValue_of_plain constants _ harray hobject] at h
        exact passes_readPlain h

/-- Behind an array that is decoded there is only space. -/
theorem skipSpace_behindArray_of_decode {constants : Bool} {s rest : List Char} {v : Json}
    (h : Json.decode constants ('[' :: s) = .ok v) (hend : behindArray 0 false s = some rest) :
    skipSpace rest = [] := by
  obtain ⟨rest', hread, hspace⟩ := Json.exists_of_decode h
  rw [Json.skipSpace_cons (by decide)] at hread
  have hpassed := passes_of_readValue_array (fun s v r => passes_readValue) hread 0 rest hend
  rw [behindArray_end, Option.some.injEq] at hpassed
  rwa [← hpassed]

end Chartdown.Chart
