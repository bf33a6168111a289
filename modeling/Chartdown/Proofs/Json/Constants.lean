import Chartdown.Proofs.Json.Spaced

/-!
# Refusing constants

A text is read with the constants that stand for no finite number or without them. Whether they are
read changes nothing else: a text is read to the same end, or the reading without them stops at the
first of them.

## Key results

- `refusesOnly_readValue`: values
- `decode_false_eq_ok_iff`: whole texts
-/

namespace Chartdown.Json

open Text (Utf16)

variable {α : Type}

/-- A strict reading is the lax one, unless it refused a constant. -/
def RefusesOnly (strict lax : Reading α) : Prop :=
  strict = lax ∨ ∃ name, strict = .error (.constant name)

theorem RefusesOnly.refl (r : Reading α) : RefusesOnly r r := .inl rfl

/-- Values that hold no others are strings, words and numbers, and of these only three words are
refused. -/
theorem refusesOnly_readPlain (s : List Char) :
    RefusesOnly (readPlain false s) (readPlain true s) := by
  by_cases hquote : s.head? = some '"'
  · obtain ⟨r, rfl⟩ := List.head?_eq_some_iff.mp hquote
    exact .refl _
  by_cases hnumber : ∀ w ∈ words, ¬ w <+: s
  · rw [readPlain_eq_readNumber false hquote hnumber, readPlain_eq_readNumber true hquote hnumber]
    exact .refl _
  · simp only [not_forall, not_not] at hnumber
    obtain ⟨w, hw, r, rfl⟩ := hnumber
    -- The last three words are the constants, which only the strict reading refuses.
    simp only [words, List.mem_cons, List.not_mem_nil, or_false] at hw
    rcases hw with rfl | rfl | rfl | rfl | rfl | rfl
    iterate 3 exact .refl _
    all_goals exact .inr ⟨_, rfl⟩

/-! ### Values that hold others -/

section
variable {strict lax : List Char → Reading Json} (h : ∀ s, RefusesOnly (strict s) (lax s))
include h

theorem refusesOnly_readItems (fuel : Nat) (s : List Char) :
    RefusesOnly (readItems strict fuel s) (readItems lax fuel s) := by
  induction fuel generalizing s with
  | zero => exact .refl _
  | succ fuel ih =>
    rw [readItems, readItems]
    rcases h s with hs | ⟨name, hs⟩
    · rw [hs]
      split
      · exact .refl _
      split
      · exact .refl _
      · -- Behind a comma the other items follow.
        rename_i rest _
        rcases ih (skipSpace rest) with hrest | ⟨name, hrest⟩
        · rw [hrest]
          exact .refl _
        · exact .inr ⟨name, by rw [hrest]⟩
      · exact .refl _
    · exact .inr ⟨name, by rw [hs]⟩

theorem refusesOnly_readMember (s : List Char) :
    RefusesOnly (readMember strict s) (readMember lax s) := by
  unfold readMember
  split
  · split
    · exact .refl _
    split
    · rename_i rest _
      rcases h (skipSpace rest) with hvalue | ⟨name, hvalue⟩
      · rw [hvalue]
        exact .refl _
      · exact .inr ⟨name, by rw [hvalue]⟩
    · exact .refl _
  · exact .refl _

theorem refusesOnly_readMembers (fuel : Nat) (s : List Char) :
    RefusesOnly (readMembers strict fuel s) (readMembers lax fuel s) := by
  induction fuel generalizing s with
  | zero => exact .refl _
  | succ fuel ih =>
    rw [readMembers, readMembers]
    rcases refusesOnly_readMember h s with hs | ⟨name, hs⟩
    · rw [hs]
      split
      · exact .refl _
      split
      · exact .refl _
      · rename_i rest _
        rcases ih (skipSpace rest) with hrest | ⟨name, hrest⟩
        · rw [hrest]
          exact .refl _
        · exact .inr ⟨name, by rw [hrest]⟩
      · exact .refl _
    · exact .inr ⟨name, by rw [hs]⟩

end

/-- A value is read strictly as it is read otherwise, unless it holds a constant. -/
theorem refusesOnly_readValue (depth : Nat) (s : List Char) :
    RefusesOnly (readValue false depth s) (readValue true depth s) := by
  induction depth generalizing s with
  | zero =>
    unfold readValue
    split
    iterate 2 exact .refl _
    exact refusesOnly_readPlain s
  | succ depth ih =>
    -- What stands behind a bracket is read one level further down.
    unfold readValue
    split
    · split
      · exact .refl _
      · rename_i rest _
        rcases refusesOnly_readItems ih _ _ with hitems | ⟨name, hitems⟩
        · rw [hitems]
          exact .refl _
        · exact .inr ⟨name, by rw [hitems]⟩
    · split
      · exact .refl _
      · rcases refusesOnly_readMembers ih _ _ with hmembers | ⟨name, hmembers⟩
        · rw [hmembers]
          exact .refl _
        · exact .inr ⟨name, by rw [hmembers]⟩
    · exact refusesOnly_readPlain s

/-! ### Whole texts -/

theorem decode_false_eq_or (s : List Char) :
    decode false s = decode true s ∨ ∃ name, decode false s = .error (.constant name) := by
  unfold decode readDocument
  split
  · exact .inl rfl
  · rcases refusesOnly_readValue depthLimit (skipSpace s) with hvalue | ⟨name, hvalue⟩
    · rw [hvalue]
      exact .inl rfl
    · exact .inr ⟨name, by rw [hvalue]; rfl⟩

/-- A text is decoded without constants exactly if it is decoded with them and none is found. -/
theorem decode_false_eq_ok_iff {s : List Char} {v : Json} :
    decode false s = .ok v ↔
      decode true s = .ok v ∧ ∀ name, decode false s ≠ .error (.constant name) := by
  rcases decode_false_eq_or s with hs | ⟨name, hs⟩
  · rw [hs, iff_self_and]
    intro hv name
    rw [hv]
    nofun
  · rw [hs]
    exact iff_of_false nofun fun h => h.2 name rfl

end Chartdown.Json
