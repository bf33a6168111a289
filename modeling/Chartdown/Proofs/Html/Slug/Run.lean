import Chartdown.Proofs.Html.Slug
import Mathlib.Order.Bounds.Defs

/-!
# Slugs handed out one after the other

A slug that is taken is told apart by counting up from 2 to a number that is free. Nothing bounds
the count from outside: it comes to an end since only finitely many slugs are taken and each number
makes another slug. What the texts are like does not matter, even where one of them looks like a
slug with a number.

## Key results

- `exists_counts`: counting comes to an end, at the number that the bounded search finds
- `Counts.isLeast`: where it ends is the least number that is free
- `claimAll_told_apart`: the slugs of texts that share a set
-/

namespace Chartdown.Html.Slug

/-- Counting up from a number comes to an end at another one: the numbers before it are taken, and
it is not. -/
inductive Counts (slug : String) (taken : List String) : Nat → Nat → Prop
  | free {n : Nat} : numbered slug n ∉ taken → Counts slug taken n n
  | next {n m : Nat} : numbered slug n ∈ taken → Counts slug taken (n + 1) m → Counts slug taken n m

variable {slug : String} {taken : List String} {n m : Nat}

theorem Counts.le (h : Counts slug taken n m) : n ≤ m := by
  induction h with
  | free => exact le_rfl
  | next _ _ ih => omega

theorem Counts.not_mem (h : Counts slug taken n m) : numbered slug m ∉ taken := by
  induction h with
  | free hfree => exact hfree
  | next _ _ ih => exact ih

/-- Where counting ends is the least number that is free. -/
theorem Counts.isLeast (h : Counts slug taken n m) :
    IsLeast {k | n ≤ k ∧ numbered slug k ∉ taken} m := by
  refine ⟨⟨h.le, h.not_mem⟩, ?_⟩
  induction h with
  | free => exact fun k hk => hk.1
  | next htaken _ ih =>
    rintro k ⟨hle, hfree⟩
    -- The number that is passed over is taken, so the free one lies behind it.
    have hne : k ≠ _ := fun heq => hfree (heq ▸ htaken)
    exact ih ⟨by omega, hfree⟩

/-- The bounded search counts up, if it finds a number that is free. -/
theorem exists_counts_of_not_mem {fuel : Nat} (h : firstFree slug taken fuel n ∉ taken) :
    ∃ m, Counts slug taken n m ∧ firstFree slug taken fuel n = numbered slug m := by
  induction fuel generalizing n with
  | zero => exact ⟨n, .free h, rfl⟩
  | succ fuel ih =>
    rw [firstFree] at h ⊢
    split at h
    case isTrue htaken =>
      obtain ⟨m, hcounts, hfound⟩ := ih h
      exact ⟨m, .next htaken hcounts, by rw [if_pos htaken, hfound]⟩
    case isFalse hfree => exact ⟨n, .free hfree, by rw [if_neg hfree]⟩

/-- Counting comes to an end from every number, and the bounded search finds where. -/
theorem exists_counts (slug : String) (taken : List String) (n : Nat) :
    ∃ m, Counts slug taken n m ∧ firstFree slug taken taken.length n = numbered slug m :=
  exists_counts_of_not_mem (firstFree_not_mem slug taken n)

/-- A slug is what a plain one becomes where some are taken: itself if it is free, and else itself
with the least number from 2 on that is free, to which counting comes. -/
def ToldApart (taken : List String) (plain slug : String) : Prop :=
  if plain ∈ taken then
    ∃ n, Counts plain taken 2 n ∧ IsLeast {k | 2 ≤ k ∧ numbered plain k ∉ taken} n ∧
      slug = numbered plain n
  else slug = plain

theorem choose_toldApart (maxLength : Int) (text : String) (taken : List String) :
    ToldApart taken (ofText maxLength text) (choose maxLength text taken) := by
  rw [ToldApart, choose]
  split
  · obtain ⟨n, hcounts, hfound⟩ := exists_counts (ofText maxLength text) taken 2
    exact ⟨n, hcounts, hcounts.isLeast, hfound⟩
  · rfl

/-- Each slug is told apart from those that were taken at first and those of the texts before. -/
theorem claimAll_getElem?_toldApart (maxLength : Int) {texts : List String} (taken : List String)
    {i : Nat} {text : String} (h : texts[i]? = some text) :
    ∃ slug, (claimAll maxLength texts taken).1[i]? = some slug ∧
      ToldApart (((claimAll maxLength texts taken).1.take i).reverse ++ taken)
        (ofText maxLength text) slug := by
  induction texts generalizing taken i with
  | nil => exact nomatch h
  | cons first texts ih =>
    rw [claimAll]
    cases i with
    | zero =>
      obtain rfl : first = text := by simpa using h
      exact ⟨_, rfl, choose_toldApart maxLength first taken⟩
    | succ i =>
      -- The slug of the first text is the last one that is taken for the others.
      obtain ⟨slug, hslug, htold⟩ := ih (claim maxLength first taken).2 (by simpa using h)
      refine ⟨slug, by simpa using hslug, ?_⟩
      rw [List.take_succ_cons, List.reverse_cons, List.append_assoc]
      exact htold

/-- No slug that is handed out was taken, by those before it or at first. -/
theorem nodup_claimAll_fst (maxLength : Int) (texts taken : List String) :
    (claimAll maxLength texts taken).1.Nodup ∧
      ∀ slug ∈ (claimAll maxLength texts taken).1, slug ∉ taken := by
  induction texts generalizing taken with
  | nil => exact ⟨List.nodup_nil, nofun⟩
  | cons text texts ih =>
    obtain ⟨hnodup, hfree⟩ := ih (claim maxLength text taken).2
    rw [claimAll]
    refine ⟨List.nodup_cons.mpr ⟨fun hmem => hfree _ hmem List.mem_cons_self, hnodup⟩, ?_⟩
    rw [List.forall_mem_cons]
    exact ⟨choose_not_mem maxLength text taken,
      fun slug hslug htaken => hfree slug hslug (List.mem_cons_of_mem _ htaken)⟩

/-- Texts that share a set of taken slugs each have a slug. The slugs are distinct, none of them was
taken, and they are what is taken besides afterwards. Each is the plain slug of its text or, where
that one is taken when its turn comes, the plain slug with the least number from 2 on that is free,
to which counting comes. -/
theorem claimAll_told_apart (maxLength : Int) (texts taken : List String) :
    let run := claimAll maxLength texts taken
    run.1.length = texts.length ∧ run.1.Nodup ∧ (∀ slug ∈ run.1, slug ∉ taken) ∧
      (∀ slug, slug ∈ run.2 ↔ slug ∈ taken ∨ slug ∈ run.1) ∧
      ∀ (i : Nat) (text : String), texts[i]? = some text → ∃ slug, run.1[i]? = some slug ∧
        ToldApart ((run.1.take i).reverse ++ taken) (ofText maxLength text) slug := by
  intro run
  obtain ⟨hnodup, hfree⟩ := nodup_claimAll_fst maxLength texts taken
  refine ⟨length_claimAll maxLength texts taken, hnodup, hfree, fun slug => ?_,
    fun i text h => claimAll_getElem?_toldApart maxLength taken h⟩
  rw [show run.2 = _ from claimAll_snd maxLength texts taken, List.mem_append, List.mem_reverse]
  exact or_comm

/-- A text that looks like a slug with a number takes that number away from another one. -/
theorem claimAll_told_apart_imitating :
    (claimAll 100 ["Intro", "Intro-2", "Intro"] ["intro-3"]).1 = ["intro", "intro-2", "intro-4"] ∧
      ofText 100 "Intro" = "intro" ∧
      Counts "intro" ["intro-2", "intro", "intro-3"] 2 4 := by
  have hrun : (claimAll 100 ["Intro", "Intro-2", "Intro"] ["intro-3"]).1 =
      ["intro", "intro-2", "intro-4"] := by decide +kernel
  have hplain : ofText 100 "Intro" = "intro" := by decide +kernel
  obtain ⟨slug, hslug, htold⟩ :=
    (claimAll_told_apart 100 ["Intro", "Intro-2", "Intro"] ["intro-3"]).2.2.2.2 2 "Intro" rfl
  rw [hrun] at hslug htold
  rw [hplain, ToldApart, if_pos (by decide)] at htold
  obtain ⟨n, hcounts, -, hn⟩ := htold
  have hfour : numbered "intro" 4 = numbered "intro" n := by
    rw [← hn, ← Option.some.inj hslug]
    decide
  obtain rfl := numbered_injective "intro" hfour
  exact ⟨hrun, hplain, hcounts⟩

end Chartdown.Html.Slug
