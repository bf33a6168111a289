import Chartdown.Text.Lines
import Mathlib.Data.List.Basic

/-!
# Parts of a text

Where a text is cut into parts, and where parts are put together, the characters stay the same but
for the separators.

## Key results

- `forall_mem_intercalate`: the characters of parts that are put together
- `isInfix_of_mem_cutAt`: a part stands in the whole
- `exists_cutAt_append`: where two texts meet, the last part of one is joined with the first of the
  other
-/

namespace Chartdown.Text

/-- What holds of a separator and of all parts holds of the parts put together. -/
theorem forall_mem_intercalate {α : Type*} {p : α → Prop} {sep : α} (hsep : p sep)
    (parts : List (List α)) :
    (∀ a ∈ [sep].intercalate parts, p a) ↔ ∀ part ∈ parts, ∀ a ∈ part, p a := by
  induction parts with
  | nil => simp
  | cons part parts ih =>
    cases parts with
    | nil => simp
    | cons part' parts' =>
      rw [List.intercalate_cons_cons, List.forall_mem_cons, ← ih]
      simp only [List.mem_append, List.mem_singleton, or_imp, forall_and, forall_eq, hsep]
      rw [and_true]

/-- What starts with an element that a text does not hold does not start in that text. -/
theorem isInfix_of_append_of_not_mem {α : Type*} {a : α} {part s t : List α} (hs : a ∉ s)
    (h : a :: part <:+: s ++ t) : a :: part <:+: t := by
  induction s with
  | nil => exact h
  | cons b s ih =>
    rw [List.mem_cons, not_or] at hs
    rw [List.cons_append, List.infix_cons_iff, List.cons_prefix_cons] at h
    exact ih hs.2 (h.resolve_left fun hb => hs.1 hb.1)

/-- A part stands in the whole. -/
theorem isInfix_intercalate {α : Type*} {sep : α} {part : List α} {parts : List (List α)}
    (h : part ∈ parts) : part <:+: [sep].intercalate parts := by
  induction parts with
  | nil => exact nomatch h
  | cons first parts ih =>
    cases parts with
    | nil =>
      obtain rfl := List.mem_singleton.mp h
      simp
    | cons second parts =>
      rw [List.intercalate_cons_cons]
      rcases List.mem_cons.mp h with rfl | h
      · rw [List.append_assoc]
        exact (List.prefix_append _ _).isInfix
      · exact (ih h).trans (List.suffix_append _ _).isInfix

theorem isInfix_of_mem_cutAt {α : Type*} [DecidableEq α] {sep : α} {s part : List α}
    (h : part ∈ cutAt sep s) : part <:+: s := by
  have hinfix : part <:+: [sep].intercalate (cutAt sep s) := isInfix_intercalate h
  rwa [intercalate_cutAt] at hinfix

/-- What is found in no part of a text is not found in what the text is cut into. -/
theorem filterMap_cutAt_eq_nil {α β : Type*} [DecidableEq α] {sep : α} {s : List α}
    {f : List α → Option β} (h : ∀ part b, f part = some b → ¬ part <:+: s) :
    (cutAt sep s).filterMap f = [] := by
  rw [List.filterMap_eq_nil_iff]
  intro part hpart
  by_contra hsome
  obtain ⟨b, hb⟩ := Option.ne_none_iff_exists'.mp hsome
  exact h part b hb (isInfix_of_mem_cutAt hpart)

/-- The elements of a part are those of the whole. -/
theorem mem_of_mem_cutAt {α : Type*} [DecidableEq α] {sep : α} {s part : List α}
    (hpart : part ∈ cutAt sep s) {a : α} (ha : a ∈ part) : a ∈ s :=
  (isInfix_of_mem_cutAt hpart).subset ha

/-! ### Putting parts together -/

section Intercalate

variable {α : Type*} (sep : List α)

theorem intercalate_append {parts others : List (List α)} (hparts : parts ≠ [])
    (hothers : others ≠ []) :
    sep.intercalate (parts ++ others) =
      sep.intercalate parts ++ (sep ++ sep.intercalate others) := by
  induction parts with
  | nil => exact absurd rfl hparts
  | cons part parts ih =>
    cases parts with
    | nil =>
      rw [List.singleton_append, List.intercalate_cons_of_ne_nil hothers,
        List.intercalate_singleton, List.append_assoc]
    | cons part' parts =>
      rw [List.cons_append, List.intercalate_cons_of_ne_nil (by simp), ih (by simp),
        List.intercalate_cons_cons]
      simp only [List.append_assoc]

/-- Parts that are each followed by a separator. -/
theorem flatMap_append_eq {parts : List (List α)} (hparts : parts ≠ []) :
    parts.flatMap (· ++ sep) = sep.intercalate parts ++ sep := by
  induction parts with
  | nil => exact absurd rfl hparts
  | cons part parts ih =>
    cases parts with
    | nil => simp
    | cons part' parts =>
      rw [List.flatMap_cons, ih (by simp), List.intercalate_cons_cons]
      simp only [List.append_assoc]

/-- Parts put together by nothing. -/
theorem intercalate_nil_left (parts : List (List α)) :
    ([] : List α).intercalate parts = parts.flatten := by
  induction parts with
  | nil => rfl
  | cons part parts ih =>
    cases parts with
    | nil => simp
    | cons part' parts => rw [List.intercalate_cons_cons, ih]; simp

/-- Empty parts in front leave their separators. -/
theorem intercalate_replicate_append (n : Nat) {parts : List (List α)} (hparts : parts ≠ []) :
    sep.intercalate (List.replicate n [] ++ parts) =
      (List.replicate n sep).flatten ++ sep.intercalate parts := by
  induction n with
  | zero => rfl
  | succ n ih =>
    rw [List.replicate_succ, List.cons_append, List.intercalate_cons_of_ne_nil (by simp [hparts]), ih,
      List.replicate_succ, List.flatten_cons, List.nil_append, List.append_assoc]

/-- A part that goes on can be put together in two steps. -/
theorem intercalate_join (parts others : List (List α)) (last middle first : List α) :
    sep.intercalate (parts ++ (last ++ (middle ++ first)) :: others) =
      sep.intercalate (parts ++ [last]) ++ (middle ++ sep.intercalate (first :: others)) := by
  have hmiddle : sep.intercalate ((last ++ (middle ++ first)) :: others) =
      last ++ (middle ++ sep.intercalate (first :: others)) := by
    cases others with
    | nil => simp
    | cons other others => simp only [List.intercalate_cons_cons, List.append_assoc]
  cases parts with
  | nil => simpa using hmiddle
  | cons part parts =>
    rw [intercalate_append sep (by simp) (by simp), intercalate_append sep (by simp) (by simp),
      hmiddle, List.intercalate_singleton]
    simp only [List.append_assoc]

end Intercalate

/-! ### Cutting texts that meet -/

variable {α : Type*} [DecidableEq α] {sep : α}

theorem cutAt_of_not_mem {s : List α} (h : sep ∉ s) : cutAt sep s = [s] := by
  induction s with
  | nil => rfl
  | cons c s ih =>
    rw [List.mem_cons, not_or] at h
    rw [cutAt, if_neg (Ne.symm h.1), ih h.2, consFirst]

/-- The first part of a text goes on to the left up to an element that cuts. -/
theorem cutAt_append_of_not_mem {u v part : List α} {others : List (List α)} (hu : sep ∉ u)
    (hv : cutAt sep v = part :: others) : cutAt sep (u ++ v) = (u ++ part) :: others := by
  induction u with
  | nil => exact hv
  | cons c u ih =>
    rw [List.mem_cons, not_or] at hu
    rw [List.cons_append, cutAt, if_neg (Ne.symm hu.1), ih hu.2]
    rfl

theorem cutAt_append_cons (u v : List α) :
    cutAt sep (u ++ sep :: v) = cutAt sep u ++ cutAt sep v := by
  induction u with
  | nil => simp [cutAt]
  | cons c u ih =>
    by_cases hc : c = sep
    · simp [cutAt, hc, ih]
    · obtain ⟨part, parts, hparts⟩ := List.exists_cons_of_ne_nil (cutAt_ne_nil sep u)
      simp [cutAt, hc, ih, hparts, consFirst]

/-- Where a text meets another one, its last part goes on with the first of the other. -/
theorem exists_cutAt_append (sep : α) (u : List α) :
    ∃ parts last, ∀ v part others, cutAt sep v = part :: others →
      cutAt sep (u ++ v) = parts ++ (last ++ part) :: others := by
  induction u with
  | nil => exact ⟨[], [], fun v part others h => by simpa using h⟩
  | cons c u ih =>
    obtain ⟨parts, last, hcut⟩ := ih
    by_cases hc : c = sep
    · refine ⟨[] :: parts, last, fun v part others h => ?_⟩
      simp [cutAt, hc, hcut v part others h]
    · cases parts with
      | nil =>
        refine ⟨[], c :: last, fun v part others h => ?_⟩
        simp [cutAt, hc, hcut v part others h, consFirst]
      | cons first parts =>
        refine ⟨(c :: first) :: parts, last, fun v part others h => ?_⟩
        simp [cutAt, hc, hcut v part others h, consFirst]

end Chartdown.Text
