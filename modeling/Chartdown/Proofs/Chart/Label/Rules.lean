import Chartdown.Proofs.Chart.Label.Writing

/-!
# The rules around a quoted label

No rule of the dialect looks past a quote. So what is in front of a quoted text is rewritten without
regard to it, the quoted label is left alone, and what is behind it is rewritten as if it stood
behind a quote.

## Key results

- `StopsAt.exists_replaceFrom`: what is in front of a quote is rewritten alike whatever follows
- `exists_rewrapBrackets_around`: the outer brackets are put around a quoted text alike
- `exists_normalize_around`: data with a quoted label in it is normalized around the label
-/

namespace Chartdown.Chart.Label

open Text DataText
open Dialect (ShowsIdleComma HoldsBareName Quote)
open Json (slot)

/-! ### In front of a quote -/

/-- A rule that never looks past a character to tell what to do before it. -/
def StopsAt (rule : Rule) (q : Char) : Prop :=
  ∀ before c u, ∃ r, (∀ rest, rule before (c :: (u ++ q :: rest)) = r) ∧ ∀ x ∈ r, x.extra ≤ u.length

/-- What is in front of the character is replaced alike whatever follows. -/
theorem StopsAt.exists_replaceFrom {rule : Rule} {q : Char} (h : StopsAt rule q)
    (before : Option Char) {skip : Nat} {u : List Char} (hskip : skip ≤ u.length) :
    ∃ u', ∀ rest, replaceFrom rule before skip (u ++ q :: rest) =
      u' ++ replaceFrom rule (behind before u) 0 (q :: rest) := by
  -- A part that is replaced ends before the quote, so what is skipped never reaches it.
  induction u generalizing before skip with
  | nil =>
    obtain rfl := Nat.le_zero.mp hskip
    exact ⟨[], fun rest => rfl⟩
  | cons c u ih =>
    cases skip with
    | succ skip =>
      obtain ⟨u', hu'⟩ := ih (some c) (Nat.le_of_succ_le_succ hskip)
      refine ⟨u', fun rest => ?_⟩
      rw [List.cons_append, replaceFrom, hu', behind_cons]
    | zero =>
      obtain ⟨r, hrule, hextra⟩ := h before c u
      cases r with
      | none =>
        obtain ⟨u', hu'⟩ := ih (some c) (Nat.zero_le _)
        refine ⟨c :: u', fun rest => ?_⟩
        rw [List.cons_append, replaceFrom, hrule, behind_cons]
        simp only [hu', List.cons_append]
      | some x =>
        obtain ⟨u', hu'⟩ := ih (some c) (hextra x rfl)
        refine ⟨x.written ++ u', fun rest => ?_⟩
        rw [List.cons_append, replaceFrom, hrule, behind_cons]
        simp only [hu', List.append_assoc]

/-- It is enough to look at the places where the rule applies. -/
theorem StopsAt.of_applies {rule : Rule} {q : Char}
    (h : ∀ before c u rest r, rule before (c :: (u ++ q :: rest)) = some r →
      (∀ rest', rule before (c :: (u ++ q :: rest')) = some r) ∧ r.extra ≤ u.length) :
    StopsAt rule q := by
  intro before c u
  by_cases happlies : ∃ rest r, rule before (c :: (u ++ q :: rest)) = some r
  · obtain ⟨rest, r, hr⟩ := happlies
    obtain ⟨hall, hextra⟩ := h before c u rest r hr
    exact ⟨some r, hall, fun x hx => Option.some.inj hx ▸ hextra⟩
  · refine ⟨none, fun rest => ?_, fun x hx => nomatch hx⟩
    by_contra hne
    obtain ⟨r, hr⟩ := Option.ne_none_iff_exists'.mp hne
    exact happlies ⟨rest, r, hr⟩

/-- A name and its colon stand in front of a quote, or they do not count. -/
theorem stopsAt_bareFieldName (q : Quote) : StopsAt bareFieldName q.char := by
  refine .of_applies fun before c u rest r hr => ?_
  obtain ⟨hstart, name, blanks, back, heq, hname, hblanks⟩ :=
    Dialect.exists_of_bareFieldName_eq_some hr
  have hmeet : (c :: u) ++ q.char :: rest = (name ++ (blanks ++ [':'])) ++ back := by
    simpa using heq
  -- The name holds no quote, so it ends in front of this one.
  obtain ⟨z, hz⟩ := exists_eq_append_of_not_mem hmeet (q.not_mem_name hname hblanks)
  obtain ⟨role, rfl⟩ := Dialect.exists_role_of_mem hname
  have hsome : ∀ rest', bareFieldName before (c :: (u ++ q.char :: rest')) =
      some ⟨'"' :: (role.chars ++ ['"', ':']), role.chars.length + blanks.length⟩ := by
    intro rest'
    rw [← List.cons_append, hz]
    simpa using Dialect.bareFieldName_of_name hstart role hblanks (z ++ q.char :: rest')
  obtain rfl := Option.some.inj ((hsome rest).symm.trans hr)
  have hlength := congrArg List.length hz
  simp only [List.length_cons, List.length_append, List.length_nil] at hlength
  exact ⟨hsome, by dsimp only; omega⟩

/-- A comma, blanks and a closing mark stand in front of a quote, or they do not count. -/
theorem stopsAt_idleComma (q : Quote) : StopsAt idleComma q.char := by
  refine .of_applies fun before c u rest r hr => ?_
  obtain ⟨rfl, blanks, d, back, heq, hblanks, hd⟩ := Dialect.exists_of_idleComma_eq_some hr
  have hmeet : u ++ q.char :: rest = (blanks ++ [d]) ++ back := by simpa using heq
  obtain ⟨z, rfl⟩ := exists_eq_append_of_not_mem hmeet (q.not_mem_closing hblanks hd)
  have hsome : ∀ rest', idleComma before (',' :: ((blanks ++ [d] ++ z) ++ q.char :: rest')) =
      some ⟨[], blanks.length⟩ := by
    intro rest'
    simpa using Dialect.idleComma_of_closing before hblanks hd (z ++ q.char :: rest')
  obtain rfl := Option.some.inj ((hsome rest).symm.trans hr)
  exact ⟨hsome, by simp⟩

/-! ### Around a quoted text -/

theorem startsSolid_write (q : Quote) (s : List Char) : StartsSolid (q.write s) :=
  ⟨q.char, s ++ [q.char], rfl, by cases q <;> decide⟩

theorem endsSolid_write (q : Quote) (s : List Char) : EndsSolid (q.write s) :=
  ⟨q.char :: s, q.char, rfl, by cases q <;> decide⟩

/-- A closing bracket at the end is behind the quoted text. -/
theorem exists_dropLast_around (q : Quote) (x y : List Char) :
    ∃ y', ∀ s, (if (x ++ (q.write s ++ y)).getLast? = some ']' then
      (x ++ (q.write s ++ y)).dropLast else x ++ (q.write s ++ y)) = x ++ (q.write s ++ y') := by
  rcases List.eq_nil_or_concat y with rfl | ⟨y, c, rfl⟩
  · refine ⟨[], fun s => if_neg ?_⟩
    have hsplit : x ++ (q.write s ++ []) = (x ++ q.char :: s) ++ [q.char] := by simp [Quote.write]
    rw [hsplit, List.getLast?_concat]
    cases q <;> decide
  · have hsplit : ∀ s, x ++ (q.write s ++ (y ++ [c])) = (x ++ (q.write s ++ y)) ++ [c] := by simp
    by_cases hc : c = ']'
    · refine ⟨y, fun s => ?_⟩
      rw [List.concat_eq_append, hsplit, List.getLast?_concat, if_pos (by rw [hc]), List.dropLast_concat]
    · refine ⟨y ++ [c], fun s => ?_⟩
      rw [List.concat_eq_append, hsplit, List.getLast?_concat, if_neg (by simpa using hc)]

/-- An opening bracket at the start is in front of the quoted text. -/
theorem exists_cons_around (q : Quote) (x y : List Char) :
    ∃ x', ∀ s, (if (x ++ (q.write s ++ y)).head? = some '[' then
      x ++ (q.write s ++ y) else '[' :: (x ++ (q.write s ++ y))) = x' ++ (q.write s ++ y) := by
  cases x with
  | nil =>
    refine ⟨['['], fun s => if_neg ?_⟩
    show ¬ some q.char = some '['
    cases q <;> decide
  | cons c x =>
    by_cases hc : c = '['
    · exact ⟨c :: x, fun s => if_pos (by simp [hc])⟩
    · exact ⟨'[' :: c :: x, fun s => if_neg (by simpa using hc)⟩

/-- The outer brackets are put around a quoted text alike. -/
theorem exists_rewrapBrackets_around (q : Quote) (x y : List Char) :
    ∃ x' y', ∀ s, rewrapBrackets (x ++ (q.write s ++ y)) = x' ++ (q.write s ++ y') := by
  -- Blanks are trimmed twice, before a closing bracket is dropped and after.
  have htrim : ∀ x y s, trim (x ++ (q.write s ++ y)) =
      x.dropWhile isBlank ++ (q.write s ++ dropEndWhile isBlank y) := fun x y s =>
    trim_around (startsSolid_write q s) (endsSolid_write q s) x y
  obtain ⟨y₁, hy₁⟩ := exists_dropLast_around q (x.dropWhile isBlank) (dropEndWhile isBlank y)
  obtain ⟨x₁, hx₁⟩ :=
    exists_cons_around q ((x.dropWhile isBlank).dropWhile isBlank) (dropEndWhile isBlank y₁)
  refine ⟨x₁, dropEndWhile isBlank y₁ ++ [']'], fun s => ?_⟩
  simp only [rewrapBrackets, htrim, hy₁, hx₁, List.append_assoc]

/-- What is in front of a quoted text and what is behind it is replaced whatever the quoted text is,
if the rule passes that. -/
theorem StopsAt.exists_replace_around {rule : Rule} {q : Quote} (h : StopsAt rule q.char)
    (x y : List Char) :
    ∃ x' y', ∀ s, (∀ before, Rewrites rule before (q.write s) (q.write s)) →
      replace rule (x ++ (q.write s ++ y)) = x' ++ (q.write s ++ y') := by
  obtain ⟨x', hx⟩ := h.exists_replaceFrom none (Nat.zero_le x.length)
  refine ⟨x', replaceFrom rule (some q.char) 0 y, fun s hs => ?_⟩
  have hbehind : behind (behind none x) (q.write s) = some q.char := by
    simp [Quote.write, behind_append]
  have hfront := hx (s ++ [q.char] ++ y)
  rw [replace, show x ++ (q.write s ++ y) = x ++ q.char :: (s ++ [q.char] ++ y) from rfl, hfront,
    show q.char :: (s ++ [q.char] ++ y) = q.write s ++ y from rfl, hs, hbehind]

/-- Data with a quoted label in it is normalized around the label, in which the single quotes are
converted. -/
theorem exists_normalize_around (x y : List Char) :
    ∃ x' y', ∀ label written, LabelForm label written → ¬ ShowsName label → ¬ ShowsIdleComma label →
      DataText.normalize (x ++ (Quote.single.write written ++ y)) =
        x' ++ slot (convertSingleQuotes written) y' := by
  -- The commas are looked at last, when the label stands between double quotes.
  obtain ⟨x₁, y₁, hwrap⟩ := exists_rewrapBrackets_around .single x y
  obtain ⟨x₂, y₂, hnames⟩ := (stopsAt_bareFieldName .single).exists_replace_around x₁ y₁
  obtain ⟨x₃, y₃, hcommas⟩ := (stopsAt_idleComma .double).exists_replace_around
    (convertSingleQuotes x₂) (convertSingleQuotes y₂)
  refine ⟨x₃, y₃, fun label written hform hname hcomma => ?_⟩
  have hnames' := hnames written fun before => Quote.rewrites_of_not_holdsBareName .single
    fun hholds => hname (hform.showsName (showsName_of_holdsBareName hholds))
  have hcommas' := hcommas (convertSingleQuotes written) fun before => Quote.rewrites_idleComma .double
    fun hshows => hcomma (hform.showsIdleComma (showsIdleComma_of_convertSingleQuotes hshows))
  have hquotes : convertSingleQuotes (x₂ ++ (Quote.single.write written ++ y₂)) =
      convertSingleQuotes x₂ ++ (Quote.double.write (convertSingleQuotes written) ++
        convertSingleQuotes y₂) := by
    simp [Quote.write, Quote.char]
  rw [DataText.normalize, hwrap, quoteBareNames, hnames', hquotes, dropIdleCommas, hcommas']
  simp [Quote.write, Quote.char, slot]

end Chartdown.Chart.Label
