import Chartdown.Proofs.Text.Trim

/-!
# Line feeds in a row

Where line feeds only part what is read, it makes no difference how many of them stand in a row.
`squeeze` leaves one of each row, and two texts are spread alike if that makes them the same.

## Key results

- `squeeze_append_cons`: a text can be squeezed part by part, at any other character
- `Spread.exists_of_cons`: texts that are spread alike start alike
- `Spread.dropWhile`, `Spread.trim`: what is skipped at their ends is skipped in both
-/

namespace Chartdown.Text

/-- The text with one line feed for each row of them. -/
def squeeze : List Char → List Char
  | [] => []
  | c :: s => if c = '\n' ∧ s.head? = some '\n' then squeeze s else c :: squeeze s

variable {c : Char} {s t u v : List Char}

theorem squeeze_cons (hc : c ≠ '\n') (s : List Char) : squeeze (c :: s) = c :: squeeze s := by
  rw [squeeze, if_neg fun h => hc h.1]

@[simp] theorem head?_squeeze (s : List Char) : (squeeze s).head? = s.head? := by
  induction s with
  | nil => rfl
  | cons c s ih =>
    rw [squeeze]
    split
    case isTrue h => rw [ih, h.2, h.1, List.head?_cons]
    case isFalse => rfl

/-- A text can be squeezed part by part, if no row of line feeds goes across. -/
theorem squeeze_append_cons (hc : c ≠ '\n') (u v : List Char) :
    squeeze (u ++ c :: v) = squeeze u ++ c :: squeeze v := by
  induction u with
  | nil => exact squeeze_cons hc v
  | cons d u ih =>
    have hhead : (u ++ c :: v).head? = some '\n' ↔ u.head? = some '\n' := by
      cases u with
      | nil => simp [hc]
      | cons e u => rfl
    rw [List.cons_append, squeeze, squeeze]
    simp only [hhead, ih]
    split
    all_goals rfl

/-- A text is squeezed to nothing else than characters of it, and to all of them. -/
@[simp] theorem mem_squeeze : c ∈ squeeze s ↔ c ∈ s := by
  induction s with
  | nil => rfl
  | cons d s ih =>
    rw [squeeze]
    split
    case isTrue h =>
      have hfeed : d ∈ s := h.1 ▸ List.mem_of_mem_head? h.2
      rw [ih, List.mem_cons]
      exact ⟨.inr, fun hc => hc.elim (fun heq => heq ▸ hfeed) id⟩
    case isFalse => rw [List.mem_cons, List.mem_cons, ih]

@[simp] theorem getLast?_squeeze (s : List Char) : (squeeze s).getLast? = s.getLast? := by
  induction s with
  | nil => rfl
  | cons d s ih =>
    rw [squeeze]
    split
    case isTrue h =>
      obtain ⟨r, rfl⟩ := List.head?_eq_some_iff.mp h.2
      rw [ih, List.getLast?_cons_cons]
    case isFalse => rw [List.getLast?_cons, List.getLast?_cons, ih]

/-- Characters can be changed before or after squeezing, if line feeds are kept and no other
character becomes one. -/
theorem squeeze_map {f : Char → Char} (hf : ∀ c, f c = '\n' ↔ c = '\n') (s : List Char) :
    squeeze (s.map f) = (squeeze s).map f := by
  induction s with
  | nil => rfl
  | cons c s ih =>
    have hhead : (s.map f).head? = some '\n' ↔ s.head? = some '\n' := by
      cases s with
      | nil => simp
      | cons d s => simp [hf]
    rw [List.map_cons, squeeze, squeeze]
    simp only [hf, hhead, ih]
    split
    · rfl
    · rw [List.map_cons]

/-- Where a squeezed text has another character than a line feed, so has the text. -/
theorem exists_of_squeeze_eq (hc : c ≠ '\n') (h : squeeze t = u ++ c :: v) :
    ∃ u' v', t = u' ++ c :: v' ∧ squeeze u' = u ∧ squeeze v' = v := by
  induction t generalizing u with
  | nil => simp [squeeze] at h
  | cons d t ih =>
    rw [squeeze] at h
    split at h
    case isTrue hrow =>
      obtain ⟨u', v', rfl, rfl, rfl⟩ := ih h
      -- The row goes on in the part before the character.
      have hhead : u'.head? = some '\n' := by
        cases u' with
        | nil => exact absurd (Option.some.inj hrow.2) hc
        | cons e u' => exact hrow.2
      exact ⟨d :: u', v', rfl, by rw [squeeze, if_pos ⟨hrow.1, hhead⟩], rfl⟩
    case isFalse hrow =>
      cases u with
      | nil =>
        obtain ⟨rfl, rfl⟩ := List.cons.inj h
        exact ⟨[], t, rfl, rfl, rfl⟩
      | cons e u =>
        obtain ⟨rfl, htail⟩ := List.cons.inj h
        obtain ⟨u', v', rfl, rfl, rfl⟩ := ih htail
        have hhead : ¬ (d = '\n' ∧ u'.head? = some '\n') := by
          rintro ⟨hd, hu⟩
          obtain ⟨r, rfl⟩ := List.head?_eq_some_iff.mp hu
          exact hrow ⟨hd, rfl⟩
        exact ⟨d :: u', v', rfl, by rw [squeeze, if_neg hhead], rfl⟩

/-- What is dropped at the start is dropped before or after squeezing. -/
theorem squeeze_dropWhile (p : Char → Bool) (s : List Char) :
    squeeze (s.dropWhile p) = (squeeze s).dropWhile p := by
  induction s with
  | nil => rfl
  | cons c s ih =>
    by_cases hp : p c = true
    · rw [List.dropWhile_cons_of_pos hp, ih, squeeze]
      split
      · rfl
      · rw [List.dropWhile_cons_of_pos hp]
    · -- The first character stays, and it is the first of the squeezed text too.
      rw [List.dropWhile_cons_of_neg hp]
      have hhead : (squeeze (c :: s)).head? = some c := head?_squeeze _
      obtain ⟨r, hr⟩ := List.head?_eq_some_iff.mp hhead
      rw [hr, List.dropWhile_cons_of_neg hp]

theorem squeeze_dropEndWhile {p : Char → Bool} (hp : p '\n' = true) (s : List Char) :
    squeeze (dropEndWhile p s) = dropEndWhile p (squeeze s) := by
  obtain ⟨back, hsplit, hback⟩ := exists_dropEndWhile_append p s
  have hdrop : ∀ {b : List Char}, (∀ c ∈ b, p c = true) → dropEndWhile p b = [] := fun h =>
    dropEndWhile_eq_nil_iff.mpr h
  -- What is kept is empty, or it ends with another character than a line feed.
  rcases List.eq_nil_or_concat (dropEndWhile p s) with hkept | ⟨u, c, hkept⟩
  · rw [hkept, List.nil_append] at hsplit
    rw [hkept, hdrop fun c hc => hback c (hsplit ▸ mem_squeeze.mp hc)]
    rfl
  · rw [List.concat_eq_append] at hkept
    have hc : p c = false := by
      have hlast := List.head?_dropWhile_not p s.reverse
      have hhead : (s.reverse.dropWhile p).head? = some c := by
        rw [← List.getLast?_reverse, show (s.reverse.dropWhile p).reverse = u ++ [c] from hkept,
          List.getLast?_concat]
      rw [hhead] at hlast
      exact hlast
    have hfeed : c ≠ '\n' := by
      rintro rfl
      rw [hp] at hc
      exact nomatch hc
    rw [hkept] at hsplit
    rw [hkept, hsplit, List.append_assoc, List.singleton_append, squeeze_append_cons hfeed,
      squeeze_append_cons hfeed, dropEndWhile_append_of_mem List.mem_cons_self hc,
      dropEndWhile_cons_of_neg hc, hdrop fun d hd => hback d (mem_squeeze.mp hd)]
    rfl

theorem squeeze_trim (s : List Char) : squeeze (trim s) = trim (squeeze s) := by
  rw [trim, trim, trimWith, trimWith, squeeze_dropEndWhile (by decide), squeeze_dropWhile]

/-! ### Texts that are spread alike -/

/-- The texts differ in no more than the number of line feeds in a row. -/
def Spread (s t : List Char) : Prop := squeeze s = squeeze t

namespace Spread

theorem refl (s : List Char) : Spread s s := rfl

theorem symm (h : Spread s t) : Spread t s := Eq.symm h

theorem trans (h : Spread s t) (h' : Spread t u) : Spread s u := Eq.trans h h'

theorem head?_eq (h : Spread s t) : s.head? = t.head? := by
  rw [← head?_squeeze s, h, head?_squeeze]

theorem getLast?_eq (h : Spread s t) : s.getLast? = t.getLast? := by
  rw [← getLast?_squeeze s, h, getLast?_squeeze]

theorem mem_iff (h : Spread s t) : c ∈ s ↔ c ∈ t := by
  rw [← mem_squeeze, h, mem_squeeze]

theorem eq_nil (h : Spread [] t) : t = [] := List.head?_eq_none_iff.mp h.head?_eq.symm

/-- A line feed more in a row. -/
theorem feed (s : List Char) : Spread ('\n' :: '\n' :: s) ('\n' :: s) := by
  rw [Spread, squeeze, if_pos ⟨rfl, rfl⟩]

/-- Where one text goes on with another character than a line feed, the other one does too. -/
theorem exists_of_cons (hc : c ≠ '\n') (h : Spread (c :: s) t) : ∃ r, t = c :: r ∧ Spread s r := by
  obtain ⟨r, rfl⟩ := List.head?_eq_some_iff.mp (h.head?_eq.symm.trans List.head?_cons)
  refine ⟨r, rfl, ?_⟩
  rw [Spread, squeeze_cons hc, squeeze_cons hc] at h
  exact (List.cons.inj h).2

theorem exists_of_append (hu : '\n' ∉ u) (h : Spread (u ++ s) t) : ∃ r, t = u ++ r ∧ Spread s r := by
  induction u generalizing t with
  | nil => exact ⟨t, rfl, h⟩
  | cons c u ih =>
    rw [List.mem_cons, not_or] at hu
    obtain ⟨r, rfl, hr⟩ := exists_of_cons (Ne.symm hu.1) h
    obtain ⟨r', rfl, hr'⟩ := ih hu.2 hr
    exact ⟨r', rfl, hr'⟩

/-- Around another character than a line feed, the texts can be taken part by part. -/
theorem exists_of_append_cons (hc : c ≠ '\n') (h : Spread (u ++ c :: s) t) :
    ∃ u' r, t = u' ++ c :: r ∧ Spread u u' ∧ Spread s r := by
  rw [Spread, squeeze_append_cons hc] at h
  obtain ⟨u', r, ht, hu, hr⟩ := exists_of_squeeze_eq hc h.symm
  exact ⟨u', r, ht, hu.symm, hr.symm⟩

/-- Texts that are spread alike go on alike, or one of them has another line feed in a row. -/
theorem cases_cons (h : Spread (c :: s) t) : (∃ r, t = c :: r ∧ Spread s r) ∨
    (∃ r, c = '\n' ∧ s = '\n' :: r ∧ Spread s t) ∨
    ∃ r, t = '\n' :: '\n' :: r ∧ Spread (c :: s) ('\n' :: r) := by
  obtain ⟨r, rfl⟩ := List.head?_eq_some_iff.mp (h.head?_eq.symm.trans List.head?_cons)
  by_cases hs : c = '\n' ∧ s.head? = some '\n'
  · obtain ⟨r', rfl⟩ := List.head?_eq_some_iff.mp hs.2
    rw [Spread, squeeze, if_pos hs] at h
    exact .inr (.inl ⟨r', hs.1, rfl, h⟩)
  by_cases hr : c = '\n' ∧ r.head? = some '\n'
  · obtain ⟨r', rfl⟩ := List.head?_eq_some_iff.mp hr.2
    obtain rfl := hr.1
    exact .inr (.inr ⟨r', rfl, h.trans (feed r')⟩)
  · rw [Spread, squeeze, squeeze, if_neg hs, if_neg hr] at h
    exact .inl ⟨r, rfl, (List.cons.inj h).2⟩

theorem cons (c : Char) (h : Spread s t) : Spread (c :: s) (c :: t) := by
  rw [Spread, squeeze, squeeze, h.head?_eq, h]

theorem append (u : List Char) (h : Spread s t) : Spread (u ++ s) (u ++ t) := by
  induction u with
  | nil => exact h
  | cons c u ih => exact ih.cons c

theorem append_cons (hc : c ≠ '\n') (h : Spread s t) (h' : Spread u v) :
    Spread (s ++ c :: u) (t ++ c :: v) := by
  rw [Spread, squeeze_append_cons hc, squeeze_append_cons hc, h, h']

theorem dropWhile (p : Char → Bool) (h : Spread s t) : Spread (s.dropWhile p) (t.dropWhile p) := by
  rw [Spread, squeeze_dropWhile, squeeze_dropWhile, h]

theorem map {f : Char → Char} (hf : ∀ c, f c = '\n' ↔ c = '\n') (h : Spread s t) :
    Spread (s.map f) (t.map f) := by
  rw [Spread, squeeze_map hf, squeeze_map hf, h]

theorem trim (h : Spread s t) : Spread (Text.trim s) (Text.trim t) := by
  rw [Spread, squeeze_trim, squeeze_trim, h]

end Spread

end Chartdown.Text
