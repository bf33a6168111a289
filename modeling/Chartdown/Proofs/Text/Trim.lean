import Chartdown.Text.Blank
import Mathlib.Data.List.TakeWhile

/-!
# Trimmed texts

What is left when the blanks at the ends of a text are dropped.

## Key results

- `trim_eq_nil_iff`: nothing is left of a blank text and of no other
- `exists_dropEndWhile_append`: what is dropped at the end is all of one kind
- `trim_append_gap`, `trim_gap_append`: blanks at an end make no difference
- `trim_append_append`: trimming does not reach behind a character that is not blank
-/

namespace Chartdown.Text

/-- What is said of all characters of a text is decided along the text, and not by a search of all
characters there are. -/
instance (priority := high) decidableForallMem (p : Char → Prop) [DecidablePred p]
    (s : List Char) : Decidable (∀ c ∈ s, p c) := List.decidableBAll p s

/-- No printable character of ASCII but the space is blank. -/
theorem isBlank_eq_false {c : Char} (hge : 0x21 ≤ c.toNat) (hlt : c.toNat < 0x7f) :
    isBlank c = false := by
  simp only [isBlank, blanks, CharClass.contains, List.any_cons, List.any_nil, Bool.or_false,
    Bool.or_eq_false_iff, Bool.and_eq_false_iff, decide_eq_false_iff_not]
  omega

/-- Letters and digits of ASCII are printable. -/
theorem range_of_isAlphanum {c : Char} (h : c.isAlphanum = true) :
    0x21 ≤ c.toNat ∧ c.toNat < 0x7f := by
  have hletter : (c.isAlpha || c.isDigit) = true := h
  rcases Bool.or_eq_true_iff.mp hletter with halpha | hdigit
  · have hcase : (c.isUpper || c.isLower) = true := halpha
    rcases Bool.or_eq_true_iff.mp hcase with hupper | hlower
    · obtain ⟨hge, hle⟩ : 'A'.val ≤ c.val ∧ c.val ≤ 'Z'.val := of_decide_eq_true hupper
      exact ⟨le_trans (by decide) hge, lt_of_le_of_lt hle (by decide)⟩
    · obtain ⟨hge, hle⟩ := Bool.and_eq_true_iff.mp hlower
      exact ⟨le_trans (by decide) (of_decide_eq_true hge),
        lt_of_le_of_lt (of_decide_eq_true hle) (by decide)⟩
  · obtain ⟨hge, hle⟩ := Bool.and_eq_true_iff.mp hdigit
    exact ⟨le_trans (by decide) (of_decide_eq_true hge),
      lt_of_le_of_lt (of_decide_eq_true hle) (by decide)⟩

variable {α : Type*} {p : α → Bool} {s : List α}

theorem takeWhile_append_drop (p : α → Bool) (s : List α) :
    s.takeWhile p ++ s.drop (s.takeWhile p).length = s := by
  have hdrop : s.drop (s.takeWhile p).length = s.dropWhile p := by
    induction s with
    | nil => rfl
    | cons a s ih => by_cases ha : p a <;> simp [ha, ih]
  rw [hdrop, List.takeWhile_append_dropWhile]

theorem mem_of_mem_dropEndWhile {a : α} (h : a ∈ dropEndWhile p s) : a ∈ s := by
  rw [dropEndWhile, List.mem_reverse] at h
  exact List.mem_reverse.mp ((List.dropWhile_sublist p).subset h)

/-- What is dropped at the end is all of the kind that is dropped. -/
theorem exists_dropEndWhile_append (p : α → Bool) (s : List α) :
    ∃ t, s = dropEndWhile p s ++ t ∧ ∀ a ∈ t, p a = true := by
  refine ⟨(s.reverse.takeWhile p).reverse, ?_, fun a ha => ?_⟩
  · rw [dropEndWhile, ← List.reverse_append, List.takeWhile_append_dropWhile, List.reverse_reverse]
  · exact List.mem_takeWhile_imp (List.mem_reverse.mp ha)

theorem dropEndWhile_isPrefix (p : α → Bool) (s : List α) : dropEndWhile p s <+: s := by
  obtain ⟨t, ht, -⟩ := exists_dropEndWhile_append p s
  exact ⟨t, ht.symm⟩

/-- What is left is not of the kind that is dropped at the end. -/
theorem getLast?_dropEndWhile (p : α → Bool) (s : List α) :
    ∀ a, (dropEndWhile p s).getLast? = some a → p a = false := by
  intro a ha
  have hhead := List.head?_dropWhile_not p s.reverse
  rw [dropEndWhile, List.getLast?_reverse] at ha
  simpa [ha] using hhead

theorem dropEndWhile_eq_nil_iff : dropEndWhile p s = [] ↔ ∀ a ∈ s, p a = true := by
  simp [dropEndWhile]

theorem mem_of_mem_trim {s : List Char} {c : Char} (h : c ∈ trim s) : c ∈ s :=
  (List.dropWhile_sublist _).subset (mem_of_mem_dropEndWhile h)

/-- Nothing is left of a text without anything but blanks, and of no other. -/
theorem trim_eq_nil_iff {s : List Char} : trim s = [] ↔ ∀ c ∈ s, isBlank c = true := by
  constructor
  · intro h
    have hdrop := dropEndWhile_eq_nil_iff.mp h
    refine List.dropWhile_eq_nil_iff.mp ?_
    -- The first character that is left at the start is not blank.
    cases hs : s.dropWhile isBlank with
    | nil => rfl
    | cons c t =>
      have hc := List.head?_dropWhile_not isBlank s
      rw [hs] at hc hdrop
      simp [hdrop c List.mem_cons_self] at hc
  · intro h
    rw [trim, trimWith, List.dropWhile_eq_nil_iff.mpr h]
    rfl

/-- What is trimmed is blank. -/
theorem exists_trim_eq (s : List Char) :
    ∃ front back, s = front ++ (trim s ++ back) ∧ (∀ c ∈ front, isBlank c = true) ∧
      ∀ c ∈ back, isBlank c = true := by
  obtain ⟨back, hback, hblank⟩ := exists_dropEndWhile_append isBlank (s.dropWhile isBlank)
  refine ⟨s.takeWhile isBlank, back, ?_, fun c hc => List.mem_takeWhile_imp hc, hblank⟩
  rw [trim, trimWith, ← hback, List.takeWhile_append_dropWhile]

/-- What is not blank is not trimmed. -/
theorem mem_trim_of_mem {s : List Char} {c : Char} (h : c ∈ s) (hc : isBlank c = false) :
    c ∈ trim s := by
  obtain ⟨front, back, hs, hfront, hback⟩ := exists_trim_eq s
  rw [hs, List.mem_append, List.mem_append] at h
  rcases h with h | h | h
  · rw [hfront c h] at hc
    exact nomatch hc
  · exact h
  · rw [hback c h] at hc
    exact nomatch hc

/-- What is not blank is left as often as it was there. -/
theorem count_trim {c : Char} (hc : isBlank c = false) (s : List Char) :
    (trim s).count c = s.count c := by
  obtain ⟨front, back, hs, hfront, hback⟩ := exists_trim_eq s
  have hgap {g : List Char} (hg : ∀ d ∈ g, isBlank d = true) : g.count c = 0 := by
    refine List.count_eq_zero.mpr fun hmem => ?_
    rw [hg c hmem] at hc
    exact nomatch hc
  have hcount := congrArg (List.count c) hs
  rw [List.count_append, List.count_append, hgap hfront, hgap hback, Nat.zero_add] at hcount
  exact hcount.symm

/-! ### Solid ends -/

/-- A text that starts with a character that is not blank. -/
def StartsSolid (s : List Char) : Prop := ∃ c t, s = c :: t ∧ isBlank c = false

/-- A text that ends with a character that is not blank. -/
def EndsSolid (s : List Char) : Prop := ∃ t c, s = t ++ [c] ∧ isBlank c = false

theorem StartsSolid.append {s : List Char} (h : StartsSolid s) (t : List Char) :
    StartsSolid (s ++ t) := by
  obtain ⟨c, r, rfl, hc⟩ := h
  exact ⟨c, r ++ t, rfl, hc⟩

theorem EndsSolid.append (s : List Char) {t : List Char} (h : EndsSolid t) : EndsSolid (s ++ t) := by
  obtain ⟨r, c, rfl, hc⟩ := h
  exact ⟨s ++ r, c, by rw [List.append_assoc], hc⟩

theorem startsSolid_of_head? {s : List Char} (hs : s ≠ []) (h : ∀ c ∈ s.head?, isBlank c = false) :
    StartsSolid s := by
  obtain ⟨c, t, rfl⟩ := List.exists_cons_of_ne_nil hs
  exact ⟨c, t, rfl, h c rfl⟩

theorem endsSolid_of_getLast? {s : List Char} (hs : s ≠ [])
    (h : ∀ c ∈ s.getLast?, isBlank c = false) : EndsSolid s :=
  ⟨s.dropLast, s.getLast hs, (List.dropLast_concat_getLast hs).symm,
    h _ (List.getLast?_eq_some_getLast hs)⟩

/-- What is left at the start is not blank. -/
theorem startsSolid_dropWhile {s : List Char} (h : s.dropWhile isBlank ≠ []) :
    StartsSolid (s.dropWhile isBlank) := by
  refine startsSolid_of_head? h fun c hc => ?_
  have hhead := List.head?_dropWhile_not isBlank s
  rw [Option.mem_def.mp hc] at hhead
  simpa using hhead

theorem startsSolid_trim {s : List Char} (h : trim s ≠ []) : StartsSolid (trim s) := by
  rw [trim, trimWith, ← dropWhile_dropEndWhile] at h ⊢
  exact startsSolid_dropWhile h

theorem endsSolid_trim {s : List Char} (h : trim s ≠ []) : EndsSolid (trim s) :=
  endsSolid_of_getLast? h (getLast?_dropEndWhile isBlank _)

/-- A text ends as its parts at the end do. -/
theorem EndsSolid.of_append {s t : List Char} (h : EndsSolid (s ++ t)) (ht : t ≠ []) :
    EndsSolid t := by
  obtain ⟨r, c, heq, hc⟩ := h
  refine endsSolid_of_getLast? ht fun d hd => ?_
  have hlast := congrArg List.getLast? heq
  rw [List.getLast?_append, Option.mem_def.mp hd, List.getLast?_concat] at hlast
  exact (Option.some.inj hlast) ▸ hc

/-- Dropping at the start does not reach behind an element that is kept. -/
theorem dropWhile_append_of_mem {a : α} (ha : a ∈ s) (hp : p a = false) (t : List α) :
    (s ++ t).dropWhile p = s.dropWhile p ++ t := by
  have hne : s.dropWhile p ≠ [] := fun h => by
    rw [List.dropWhile_eq_nil_iff.mp h a ha] at hp
    exact nomatch hp
  rw [List.dropWhile_append, if_neg (by simpa using hne)]

/-- Dropping at the end does not reach before an element that is kept. -/
theorem dropEndWhile_append_of_mem {a : α} (ha : a ∈ s) (hp : p a = false) (t : List α) :
    dropEndWhile p (t ++ s) = t ++ dropEndWhile p s := by
  rw [dropEndWhile, List.reverse_append, dropWhile_append_of_mem (List.mem_reverse.mpr ha) hp,
    List.reverse_append, List.reverse_reverse, dropEndWhile]

theorem dropEndWhile_cons_of_neg {a : α} (hp : p a = false) (s : List α) :
    dropEndWhile p (a :: s) = a :: dropEndWhile p s := by
  rw [dropEndWhile, List.reverse_cons, List.dropWhile_append]
  split
  case isTrue hempty =>
    have hnil : s.reverse.dropWhile p = [] := List.isEmpty_iff.mp hempty
    simp [dropEndWhile, hnil, hp]
  case isFalse => simp [dropEndWhile]

theorem dropWhile_of_startsSolid {s : List Char} (h : StartsSolid s) : s.dropWhile isBlank = s := by
  obtain ⟨c, t, rfl, hc⟩ := h
  rw [List.dropWhile_cons_of_neg (by simp [hc])]

theorem dropEndWhile_of_endsSolid {s : List Char} (h : EndsSolid s) :
    dropEndWhile isBlank s = s := by
  obtain ⟨t, c, rfl, hc⟩ := h
  simp [dropEndWhile, hc]

theorem trim_of_startsSolid {s : List Char} (h : StartsSolid s) :
    trim s = dropEndWhile isBlank s := by
  rw [trim, trimWith, dropWhile_of_startsSolid h]

/-- Of a text that ends solid, only the start is trimmed. -/
theorem trim_of_endsSolid {s : List Char} (h : EndsSolid s) : trim s = s.dropWhile isBlank := by
  rw [trim, trimWith, ← dropWhile_dropEndWhile, dropEndWhile_of_endsSolid h]

theorem trim_of_solid {s : List Char} (hs : StartsSolid s) (he : EndsSolid s) : trim s = s := by
  rw [trim_of_startsSolid hs, dropEndWhile_of_endsSolid he]

/-- Blanks in front make no difference. -/
theorem trim_gap_append {g : List Char} (hg : ∀ c ∈ g, isBlank c = true) (s : List Char) :
    trim (g ++ s) = trim s := by
  rw [trim, trimWith, List.dropWhile_append_of_pos hg]
  rfl

/-- Blanks behind make no difference. -/
theorem trim_append_gap (s : List Char) {g : List Char} (hg : ∀ c ∈ g, isBlank c = true) :
    trim (s ++ g) = trim s := by
  have hdrop : dropEndWhile isBlank (s ++ g) = dropEndWhile isBlank s := by
    rw [dropEndWhile, List.reverse_append,
      List.dropWhile_append_of_pos fun c hc => hg c (List.mem_reverse.mp hc), dropEndWhile]
  rw [trim, trim, trimWith, trimWith, ← dropWhile_dropEndWhile, hdrop, dropWhile_dropEndWhile]

/-- What is dropped at the end alone would be trimmed as well. -/
theorem trim_dropEndWhile (s : List Char) : trim (dropEndWhile isBlank s) = trim s := by
  obtain ⟨back, hs, hback⟩ := exists_dropEndWhile_append isBlank s
  exact (trim_append_gap _ hback).symm.trans (congrArg trim hs.symm)

/-- What stands between two solid ends is not trimmed. -/
theorem trim_append_append {u v : List Char} (hu : EndsSolid u) (g : List Char)
    (hv : StartsSolid v) : trim (u ++ (g ++ v)) = trim u ++ (g ++ trim v) := by
  rw [trim_of_endsSolid hu, trim_of_startsSolid hv, trim, trimWith]
  obtain ⟨t, c, rfl, hc⟩ := hu
  obtain ⟨d, r, rfl, hd⟩ := hv
  rw [dropWhile_append_of_mem (a := c) (by simp) hc, ← List.append_assoc, ← List.append_assoc,
    dropEndWhile_append_of_mem List.mem_cons_self hd]

/-- Around a solid part, only the two ends are trimmed. -/
theorem trim_around {s : List Char} (hs : StartsSolid s) (he : EndsSolid s) (u v : List Char) :
    trim (u ++ (s ++ v)) = u.dropWhile isBlank ++ (s ++ dropEndWhile isBlank v) := by
  have hfront : (u ++ (s ++ v)).dropWhile isBlank = u.dropWhile isBlank ++ (s ++ v) := by
    rw [List.dropWhile_append, dropWhile_of_startsSolid (hs.append v)]
    split
    case isTrue hempty => rw [List.isEmpty_iff.mp hempty, List.nil_append]
    case isFalse => rfl
  obtain ⟨t, d, rfl, hd⟩ := he
  rw [trim, trimWith, hfront, List.append_assoc, List.singleton_append, ← List.append_assoc,
    dropEndWhile_append_of_mem List.mem_cons_self hd, dropEndWhile_cons_of_neg hd]
  simp

end Chartdown.Text
