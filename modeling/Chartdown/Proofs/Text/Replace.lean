import Chartdown.Text.Replace
import Mathlib.Data.List.Basic

/-!
# Replacing part by part

A replacement goes through a text from left to right, so a text can be taken part by part as long
as no place of one part is told by what stands behind the part. `Rewrites rule before u u'` says so
of a part `u`: behind `before` it becomes `u'`, whatever follows.

## Key results

- `Rewrites.append`: parts are rewritten one after the other
- `Rewrites.of_never`: a part in which the rule never applies stays as it is
- `Rewrites.replace_eq`: a whole text is rewritten
- `run_induction`: induction along a run of a rule
- `Exchanges.exchanged`: what holds of all parts that a rule replaces holds along a whole text
- `LeavesItsWork.untouched`: a rule that finds nothing to do in its own work is done in one go
- `Respects.replaceFrom_map`: characters may be exchanged before a rule or after it
-/

namespace Chartdown.Text

variable {rule : Rule} {before : Option Char} {u u' v v' : List Char}

/-- The character before what follows a part. -/
def behind (before : Option Char) (u : List Char) : Option Char := u.getLast?.or before

@[simp] theorem behind_nil : behind before [] = before := rfl

@[simp] theorem behind_cons (c : Char) (s : List Char) :
    behind before (c :: s) = behind (some c) s := by
  cases s <;> simp [behind, List.getLast?_cons]

theorem behind_append (before : Option Char) (u v : List Char) :
    behind before (u ++ v) = behind (behind before u) v := by
  rw [behind, behind, behind, List.getLast?_append, Option.or_assoc]

/-- A part becomes another one whatever follows. -/
def Rewrites (rule : Rule) (before : Option Char) (u u' : List Char) : Prop :=
  ∀ rest, replaceFrom rule before 0 (u ++ rest) = u' ++ replaceFrom rule (behind before u) 0 rest

theorem Rewrites.append (hu : Rewrites rule before u u')
    (hv : Rewrites rule (behind before u) v v') : Rewrites rule before (u ++ v) (u' ++ v') := by
  intro rest
  rw [List.append_assoc, hu, hv, behind_append, List.append_assoc]

/-- A part stays as it is when the rule applies at none of its places. -/
theorem replaceFrom_append_of_none {rest : List Char}
    (h : ∀ p c s, u = p ++ c :: s → rule (behind before p) (c :: s ++ rest) = none) :
    replaceFrom rule before 0 (u ++ rest) = u ++ replaceFrom rule (behind before u) 0 rest := by
  -- The character before the rest changes with each step, so the induction is for all of them.
  induction u generalizing before with
  | nil => rfl
  | cons c s ih =>
    have hhead : rule before (c :: (s ++ rest)) = none := h [] c s rfl
    have htail := @ih (some c) fun p d t heq => by
      have := h (c :: p) d t (by rw [heq]; rfl)
      rwa [behind_cons] at this
    rw [List.cons_append, replaceFrom, hhead]
    simp only [htail, behind_cons, List.cons_append]

/-- A part stays as it is when the rule never applies at its places, whatever follows. -/
theorem Rewrites.of_never
    (h : ∀ p c s rest, u = p ++ c :: s → rule (behind before p) (c :: s ++ rest) = none) :
    Rewrites rule before u u :=
  fun rest => replaceFrom_append_of_none fun p c s heq => h p c s rest heq

theorem replaceFrom_skip (rule : Rule) (before : Option Char) (u rest : List Char) :
    replaceFrom rule before u.length (u ++ rest) = replaceFrom rule (behind before u) 0 rest := by
  induction u generalizing before with
  | nil => rfl
  | cons c s ih => rw [List.cons_append, List.length_cons, replaceFrom, ih, behind_cons]

/-- Where the rule applies, the search goes on behind the part that it replaces. -/
theorem replaceFrom_append_of_some {r : Replacement} {rest : List Char}
    (hlength : u.length = r.extra + 1) (h : rule before (u ++ rest) = some r) :
    replaceFrom rule before 0 (u ++ rest) = r.written ++ replaceFrom rule (behind before u) 0 rest := by
  cases u with
  | nil => exact nomatch hlength
  | cons c s =>
    rw [List.cons_append] at h ⊢
    rw [replaceFrom, h]
    simp only [← Nat.succ.inj hlength, replaceFrom_skip, behind_cons]

/-- Induction along a run of a rule: a character that the rule passes over stands in front of a run,
and so does a part that it replaces, which is left behind as a whole. -/
theorem run_induction (rule : Rule) {motive : Option Char → List Char → Prop}
    (nil : ∀ before, motive before [])
    (passed : ∀ before c s, rule before (c :: s) = none → motive (some c) s →
      motive before (c :: s))
    (replaced : ∀ before c s r, rule before (c :: s) = some r →
      (∀ u v, c :: s = u ++ v → u.length = r.extra + 1 → motive (behind before u) v) →
      motive before (c :: s))
    (before : Option Char) (s : List Char) : motive before s := by
  induction hn : s.length using Nat.strongRecOn generalizing s before with
  | ind n ih =>
    cases s with
    | nil => exact nil before
    | cons c s =>
      cases hr : rule before (c :: s) with
      | none =>
        have hlt : s.length < n := by
          rw [← hn, List.length_cons]
          omega
        exact passed before c s hr (ih s.length hlt (some c) s rfl)
      | some r =>
        refine replaced before c s r hr fun u v hsplit hlength => ?_
        have hlt : v.length < n := by
          rw [← hn, hsplit, List.length_append]
          omega
        exact ih v.length hlt _ v rfl

/-- A part that the rule replaces as a whole. -/
theorem Rewrites.of_applies {written : List Char} (hu : u ≠ [])
    (h : ∀ rest, rule before (u ++ rest) = some ⟨written, u.length - 1⟩) :
    Rewrites rule before u written := by
  have hpos : 0 < u.length := List.length_pos_iff.mpr hu
  exact fun rest => replaceFrom_append_of_some (by dsimp only; omega) (h rest)

theorem Rewrites.replace_eq (h : Rewrites rule none u u') : replace rule u = u' := by
  have hwhole := h []
  simp only [List.append_nil, replaceFrom] at hwhole
  exact hwhole

/-! ### Parts that are exchanged -/

/-- A rule that replaces parts only by what they may be exchanged for. -/
def Exchanges (rule : Rule) (p : List Char → List Char → Prop) : Prop :=
  ∀ before s r, rule before s = some r → ∃ u v, s = u ++ v ∧ u.length = r.extra + 1 ∧ p u r.written

/-- A text of which each character is kept or lies in a part that is exchanged. -/
inductive Exchanged (p : List Char → List Char → Prop) : List Char → List Char → Prop
  | nil : Exchanged p [] []
  | keep (c : Char) {s t : List Char} (h : Exchanged p s t) : Exchanged p (c :: s) (c :: t)
  | part {u u' s t : List Char} (hne : u ≠ []) (hu : p u u') (h : Exchanged p s t) :
      Exchanged p (u ++ s) (u' ++ t)

section Exchanged
variable {p : List Char → List Char → Prop} {s t : List Char}

/-- What a rule makes of a whole text is put together of what it does at single places. -/
theorem Exchanges.exchanged (hrule : Exchanges rule p) (before : Option Char) (s : List Char) :
    Exchanged p s (replaceFrom rule before 0 s) := by
  induction before, s using run_induction rule with
  | nil => exact .nil
  | passed before c s hr ih =>
    rw [replaceFrom, hr]
    exact .keep c ih
  | replaced before c s r hr ih =>
    obtain ⟨u, v, hsplit, hlength, hu⟩ := hrule before (c :: s) r hr
    have hne : u ≠ [] := by
      rintro rfl
      cases hlength
    have hrest := ih u v hsplit hlength
    rw [hsplit] at hr ⊢
    rw [replaceFrom_append_of_some hlength hr]
    exact .part hne hu hrest

theorem Exchanged.eq_nil (h : Exchanged p [] t) : t = [] := by
  generalize hs : ([] : List Char) = s at h
  cases h with
  | nil => rfl
  | keep => cases hs
  | part hne => exact absurd (List.append_eq_nil_iff.mp hs.symm).1 hne

/-- A character that is in no part that may be exchanged is not lost. -/
theorem Exchanged.mem {c : Char} (hp : ∀ u u', p u u' → c ∉ u) (h : Exchanged p s t)
    (hmem : c ∈ s) : c ∈ t := by
  induction h with
  | nil => exact hmem
  | keep d h ih =>
    rw [List.mem_cons] at hmem ⊢
    exact hmem.imp_right ih
  | part hne hu h ih =>
    rw [List.mem_append] at hmem ⊢
    exact .inr (ih (hmem.resolve_left (hp _ _ hu)))

/-- Nor is it moved away from the end. -/
theorem Exchanged.getLast? {c : Char} (hp : ∀ u u', p u u' → c ∉ u) (h : Exchanged p s t)
    (hlast : s.getLast? = some c) : t.getLast? = some c := by
  induction h with
  | nil => exact hlast
  | @keep d s t h ih =>
    cases s with
    | nil => rwa [h.eq_nil]
    | cons e s =>
      rw [List.getLast?_cons_cons] at hlast
      rw [List.getLast?_cons, ih hlast]
      rfl
  | @part u u' s t hne hu h ih =>
    -- The part does not end with the character, so there is something behind it.
    have hs : s.getLast? = some c := by
      rw [List.getLast?_append, Option.or_eq_some_iff] at hlast
      rcases hlast with hlast | ⟨-, hlast⟩
      · exact hlast
      · exact absurd (List.mem_of_getLast? hlast) (hp u u' hu)
    rw [List.getLast?_append, ih hs]
    rfl

/-- What parts and what they may be exchanged for have in common, whole texts have in common. -/
theorem Exchanged.filter_eq {q : Char → Bool} (hp : ∀ u u', p u u' → u'.filter q = u.filter q)
    (h : Exchanged p s t) : t.filter q = s.filter q := by
  induction h with
  | nil => rfl
  | keep c h ih => rw [List.filter_cons, List.filter_cons, ih]
  | part hne hu h ih => rw [List.filter_append, List.filter_append, hp _ _ hu, ih]

end Exchanged

/-! ### Parts that are copied -/

/-- Where a rule starts all it writes with one character, what is written in front of that character
is copied. -/
theorem exists_append_of_replaceFrom_eq {q : Char} {s : List Char}
    (hwritten : ∀ before s r, rule before s = some r → r.written.head? = some q) (hu : q ∉ u)
    (h : replaceFrom rule before 0 s = u ++ v) : ∃ v', s = u ++ v' := by
  induction u generalizing before s with
  | nil => exact ⟨s, rfl⟩
  | cons c u ih =>
    rw [List.mem_cons, not_or] at hu
    cases s with
    | nil => exact nomatch h
    | cons d s =>
      cases hr : rule before (d :: s) with
      | none =>
        rw [replaceFrom, hr] at h
        obtain ⟨rfl, htail⟩ := List.cons.inj h
        obtain ⟨v', rfl⟩ := ih hu.2 htail
        exact ⟨v', rfl⟩
      | some r =>
        obtain ⟨w, hw⟩ := List.head?_eq_some_iff.mp (hwritten before (d :: s) r hr)
        rw [replaceFrom, hr] at h
        simp only [hw, List.cons_append] at h
        exact absurd (List.cons.inj h).1 hu.1

/-! ### Texts that a rule leaves alone -/

/-- The rule applies at no place of a text. -/
def Untouched (rule : Rule) (before : Option Char) (s : List Char) : Prop :=
  ∀ p c t, s = p ++ c :: t → rule (behind before p) (c :: t) = none

theorem untouched_nil : Untouched rule before [] := by
  intro p c t h
  exact absurd h (by simp)

theorem untouched_cons_iff {c : Char} {s : List Char} : Untouched rule before (c :: s) ↔
    rule before (c :: s) = none ∧ Untouched rule (some c) s := by
  constructor
  · intro h
    refine ⟨h [] c s rfl, fun p d t heq => ?_⟩
    rw [← behind_cons]
    exact h (c :: p) d t (by rw [heq]; rfl)
  · rintro ⟨hhead, htail⟩ p d t heq
    cases p with
    | nil =>
      obtain ⟨rfl, rfl⟩ := List.cons.inj heq
      exact hhead
    | cons e p =>
      obtain ⟨rfl, rfl⟩ := List.cons.inj heq
      rw [behind_cons]
      exact htail p d t rfl

theorem Untouched.replaceFrom_eq {s : List Char} (h : Untouched rule before s) :
    replaceFrom rule before 0 s = s := by
  have hwhole : replaceFrom rule before 0 (s ++ []) =
      s ++ replaceFrom rule (behind before s) 0 [] := by
    refine replaceFrom_append_of_none fun p c t heq => ?_
    rw [List.append_nil]
    exact h p c t heq
  rwa [replaceFrom, List.append_nil] at hwhole

/-- A rule that finds nothing to do in its own work: not at a place that it passed, and not in what
it wrote. -/
structure LeavesItsWork (rule : Rule) : Prop where
  passed : ∀ before s, rule before s = none → rule before (replaceFrom rule before 0 s) = none
  written : ∀ before s r, rule before s = some r → ∃ u v, s = u ++ v ∧ u.length = r.extra + 1 ∧
    ∀ t, Untouched rule (behind before u) t → Untouched rule before (r.written ++ t)

/-- Such a rule goes through a text once and for all. -/
theorem LeavesItsWork.untouched (hrule : LeavesItsWork rule) (before : Option Char)
    (s : List Char) : Untouched rule before (replaceFrom rule before 0 s) := by
  induction before, s using run_induction rule with
  | nil => exact untouched_nil
  | passed before c s hr ih =>
    have hpassed := hrule.passed before (c :: s) hr
    rw [replaceFrom, hr] at hpassed ⊢
    exact untouched_cons_iff.mpr ⟨hpassed, ih⟩
  | replaced before c s r hr ih =>
    obtain ⟨u, v, hsplit, hlength, hwritten⟩ := hrule.written before (c :: s) r hr
    have hrest := ih u v hsplit hlength
    rw [hsplit] at hr ⊢
    rw [replaceFrom_append_of_some hlength hr]
    exact hwritten _ hrest

/-! ### Characters that are exchanged throughout -/

/-- A rule does the same before and after each character of a text is exchanged. -/
def Respects (rule : Rule) (f : Char → Char) : Prop := ∀ before s,
  rule (before.map f) (s.map f) = (rule before s).map fun r => ⟨r.written.map f, r.extra⟩

theorem Respects.replaceFrom_map {f : Char → Char} (h : Respects rule f) (before : Option Char)
    (skip : Nat) (s : List Char) :
    replaceFrom rule (before.map f) skip (s.map f) = (replaceFrom rule before skip s).map f := by
  induction s generalizing before skip with
  | nil => rfl
  | cons c s ih =>
    cases skip with
    | succ skip => exact ih (some c) skip
    | zero =>
      have hrule : rule (before.map f) (f c :: s.map f) =
          (rule before (c :: s)).map fun r => ⟨r.written.map f, r.extra⟩ := h before (c :: s)
      rw [List.map_cons, replaceFrom, hrule, replaceFrom]
      cases rule before (c :: s) with
      | none => exact congrArg (f c :: ·) (ih (some c) 0)
      | some r =>
        rw [List.map_append]
        exact congrArg (r.written.map f ++ ·) (ih (some c) r.extra)

/-! ### Places in quoted texts -/

/-- A place of a quoted text is at a quote or inside. -/
theorem quoted_eq_append {q c : Char} {s p t : List Char} (h : q :: (s ++ [q]) = p ++ c :: t) :
    c = q ∨ ∃ p' t', p = q :: p' ∧ t = t' ++ [q] ∧ s = p' ++ c :: t' := by
  cases p with
  | nil => exact .inl (List.cons.inj h).1.symm
  | cons d p =>
    obtain ⟨rfl, htail⟩ := List.cons.inj h
    rcases List.eq_nil_or_concat t with rfl | ⟨t', e, rfl⟩
    · have hend : s ++ [q] = p ++ [c] := htail
      exact .inl (List.cons.inj (List.append_inj' hend rfl).2).1.symm
    · have hend : s ++ [q] = (p ++ c :: t') ++ [e] := by simpa using htail
      obtain ⟨hs, he⟩ := List.append_inj' hend rfl
      rw [(List.cons.inj he).1]
      exact .inr ⟨p, t', rfl, by simp, hs⟩

/-- What stands before a character and does not hold it ends before it. -/
theorem exists_eq_append_of_not_mem {q : Char} {x rest y back : List Char}
    (h : x ++ q :: rest = y ++ back) (hq : q ∉ y) : ∃ z, x = y ++ z := by
  rcases List.append_eq_append_iff.mp h with ⟨z, hy, hz⟩ | ⟨z, hx, -⟩
  · cases z with
    | nil => exact ⟨[], by simpa using hy.symm⟩
    | cons d z =>
      rw [← (List.cons.inj hz).1] at hy
      exact absurd (by rw [hy]; simp) hq
  · exact ⟨z, hx⟩

end Chartdown.Text
