import Chartdown.Proofs.Text.Lines
import Chartdown.Proofs.Text.Trim

/-!
# Tidy lines

A text is read line by line, each line without the blanks at its ends. Put together again, the
lines are the text in which the gaps between its solid parts have been tidied: a gap that holds a
line feed keeps nothing else.

## Key results

- `tidy_append`: solid parts are tidied one by one, and so is the gap between them
-/

namespace Chartdown.Text

/-- The lines of a text, each without the blanks at its ends. -/
def tidyLines (s : List Char) : List (List Char) := (cutAt '\n' s).map trim

theorem tidyLines_ne_nil (s : List Char) : tidyLines s ≠ [] := by
  simpa [tidyLines] using cutAt_ne_nil '\n' s

theorem tidyLines_of_not_mem {s : List Char} (h : '\n' ∉ s) : tidyLines s = [trim s] := by
  rw [tidyLines, cutAt_of_not_mem h]
  rfl

theorem tidyLines_append_cons (u v : List Char) :
    tidyLines (u ++ '\n' :: v) = tidyLines u ++ tidyLines v := by
  rw [tidyLines, cutAt_append_cons, List.map_append]
  rfl

/-! ### Whole lines -/

/-- Lines that are put together are read one by one. -/
theorem tidyLines_intercalate {lines : List (List Char)} (hne : lines ≠ [])
    (h : ∀ line ∈ lines, '\n' ∉ line) : tidyLines (['\n'].intercalate lines) = lines.map trim := by
  induction lines with
  | nil => exact absurd rfl hne
  | cons line lines ih =>
    rw [List.forall_mem_cons] at h
    cases lines with
    | nil => rw [List.intercalate_singleton, tidyLines_of_not_mem h.1, List.map_singleton]
    | cons next lines =>
      rw [List.intercalate_cons_cons, List.append_assoc, List.singleton_append,
        tidyLines_append_cons, tidyLines_of_not_mem h.1, ih (by simp) h.2]
      rfl

/-- Lines in front of a text. -/
theorem tidyLines_lines_append {lines : List (List Char)} (h : ∀ line ∈ lines, '\n' ∉ line)
    (s : List Char) :
    tidyLines (lines.flatMap (· ++ ['\n']) ++ s) = lines.map trim ++ tidyLines s := by
  induction lines with
  | nil => rfl
  | cons line lines ih =>
    rw [List.forall_mem_cons] at h
    rw [List.flatMap_cons, List.append_assoc, List.append_assoc, List.singleton_append,
      tidyLines_append_cons, tidyLines_of_not_mem h.1, ih h.2]
    rfl

/-- Lines behind a text. -/
theorem tidyLines_append_lines (s : List Char) {lines : List (List Char)}
    (h : ∀ line ∈ lines, '\n' ∉ line) :
    tidyLines (s ++ lines.flatMap ('\n' :: ·)) = tidyLines s ++ lines.map trim := by
  induction lines generalizing s with
  | nil => simp
  | cons line lines ih =>
    rw [List.forall_mem_cons] at h
    rw [List.flatMap_cons, ← List.append_assoc, ih _ h.2, tidyLines_append_cons,
      tidyLines_of_not_mem h.1]
    simp

/-! ### Gaps at an end -/

/-- A gap without a line feed makes no difference at the end. -/
theorem tidyLines_append_of_not_mem (s : List Char) {g : List Char}
    (hg : ∀ c ∈ g, isBlank c = true) (hfeed : '\n' ∉ g) : tidyLines (s ++ g) = tidyLines s := by
  -- Both texts are cut alike, and their last lines differ in the blanks at the end.
  obtain ⟨parts, last, hcut⟩ := exists_cutAt_append '\n' s
  have hs := hcut [] [] [] rfl
  have hsg := hcut g g [] (cutAt_of_not_mem hfeed)
  rw [List.append_nil] at hs
  simp only [tidyLines, hs, hsg, List.map_append, List.map_cons, List.append_nil, trim_append_gap _ hg]

/-- A gap in front becomes an empty line for each of its line feeds. -/
theorem tidyLines_gap_append {g : List Char} (hg : ∀ c ∈ g, isBlank c = true) (s : List Char) :
    tidyLines (g ++ s) = List.replicate (g.count '\n') [] ++ tidyLines s := by
  induction g with
  | nil => rfl
  | cons c g ih =>
    rw [List.forall_mem_cons] at hg
    rw [List.cons_append]
    by_cases hc : c = '\n'
    · subst hc
      have := tidyLines_append_cons [] (g ++ s)
      rw [List.nil_append, ih hg.2] at this
      rw [this, List.count_cons_self, List.replicate_succ]
      rfl
    · -- A blank that ends no line is trimmed off the line that it starts.
      obtain ⟨part, others, hcut⟩ := List.exists_cons_of_ne_nil (cutAt_ne_nil '\n' (g ++ s))
      have hblank : ∀ d ∈ [c], isBlank d = true := by simpa using hg.1
      have hcons : tidyLines (c :: (g ++ s)) = tidyLines (g ++ s) := by
        simp only [tidyLines, cutAt, hc, if_false, hcut, consFirst, List.map_cons]
        rw [← trim_gap_append hblank part]
        rfl
      rw [hcons, ih hg.2, List.count_cons_of_ne hc]

/-- A gap with line feeds becomes empty lines, one less than there are line feeds. -/
theorem tidyLines_append_gap_append (u v : List Char) {g : List Char}
    (hg : ∀ c ∈ g, isBlank c = true) (hfeed : '\n' ∈ g) :
    tidyLines (u ++ (g ++ v)) =
      tidyLines u ++ (List.replicate (g.count '\n' - 1) [] ++ tidyLines v) := by
  -- The gap is cut at its first line feed: what is before ends a line, the rest starts another.
  obtain ⟨front, back, rfl, hfront⟩ := List.eq_append_cons_of_mem hfeed
  rw [List.forall_mem_append, List.forall_mem_cons] at hg
  have hcount : (front ++ '\n' :: back).count '\n' - 1 = back.count '\n' := by
    rw [List.count_append, List.count_eq_zero.mpr hfront, List.count_cons_self]
    omega
  rw [hcount, List.append_assoc, List.cons_append, ← List.append_assoc, tidyLines_append_cons,
    tidyLines_append_of_not_mem u hg.1 hfront, tidyLines_gap_append hg.2.2]

/-- Of the line feeds of a gap, all but one can stand between two texts. -/
theorem count_feed_eq {g : List Char} (hfeed : '\n' ∈ g) :
    g.count '\n' = g.count '\n' - 1 + 1 := by
  have hpos : 0 < g.count '\n' := List.count_pos_iff.mpr hfeed
  omega

/-- A gap at the end becomes an empty line for each of its line feeds. -/
theorem tidyLines_append_gap (s : List Char) {g : List Char} (hg : ∀ c ∈ g, isBlank c = true) :
    tidyLines (s ++ g) = tidyLines s ++ List.replicate (g.count '\n') [] := by
  by_cases hfeed : '\n' ∈ g
  · have hcount := count_feed_eq hfeed
    have hlines := tidyLines_append_gap_append s [] hg hfeed
    rw [List.append_nil] at hlines
    rw [hlines, hcount, List.replicate_succ']
    rfl
  · rw [tidyLines_append_of_not_mem s hg hfeed, List.count_eq_zero.mpr hfeed]
    simp

/-! ### Gaps between solid parts -/

theorem feed_not_mem_of_solid {c : Char} (hc : isBlank c = false) : '\n' ∉ [c] := by
  rw [List.mem_singleton]
  rintro rfl
  exact absurd hc (by decide)

/-- Two solid parts meet on one line. -/
theorem exists_tidyLines_append {u v g : List Char} (hu : EndsSolid u) (hv : StartsSolid v)
    (hfeed : '\n' ∉ g) :
    ∃ lines last first others, tidyLines u = lines ++ [last] ∧ tidyLines v = first :: others ∧
      tidyLines (u ++ (g ++ v)) = lines ++ (last ++ (g ++ first)) :: others := by
  obtain ⟨t, c, rfl, hc⟩ := hu
  obtain ⟨d, r, rfl, hd⟩ := hv
  -- The last line of the front ends in `c`, and the first line of the back starts with `d`.
  have hcfeed := feed_not_mem_of_solid hc
  have hdfeed := feed_not_mem_of_solid hd
  obtain ⟨first, others, hr⟩ := List.exists_cons_of_ne_nil (cutAt_ne_nil '\n' r)
  obtain ⟨lines, last, hcut⟩ := exists_cutAt_append '\n' t
  have hfirst := cutAt_append_of_not_mem hdfeed hr
  have hlast := hcut [c] [c] [] (cutAt_of_not_mem hcfeed)
  have hmeet := hcut ([c] ++ (g ++ ([d] ++ r))) _ _
    (cutAt_append_of_not_mem hcfeed (cutAt_append_of_not_mem hfeed hfirst))
  refine ⟨lines.map trim, trim (last ++ [c]), trim ([d] ++ first), others.map trim, ?_, ?_, ?_⟩
  · rw [tidyLines, hlast, List.map_append]
    rfl
  · exact congrArg (List.map trim) hfirst
  · have hends : EndsSolid (last ++ [c]) := ⟨last, c, rfl, hc⟩
    have hstarts : StartsSolid ([d] ++ first) := ⟨d, first, rfl, hd⟩
    have htrim := trim_append_append hends g hstarts
    rw [tidyLines, List.append_assoc, show d :: r = [d] ++ r from rfl, hmeet, List.map_append,
      List.map_cons, ← htrim, List.append_assoc]

/-- A solid part of a line goes on with what is on both sides of it. What is on its left is the last
line there, and a gap. -/
theorem exists_tidyLines_around (u v : List Char) :
    ∃ lines last g first others, tidyLines u = lines ++ [last] ∧ (∀ c ∈ g, isBlank c = true) ∧
      ∀ s, StartsSolid s → EndsSolid s → '\n' ∉ s →
        tidyLines (u ++ (s ++ v)) = lines ++ (last ++ (g ++ (s ++ first))) :: others := by
  obtain ⟨lines, last, hcut⟩ := exists_cutAt_append '\n' u
  obtain ⟨first, others, hv⟩ := List.exists_cons_of_ne_nil (cutAt_ne_nil '\n' v)
  obtain ⟨g, hlast, hg⟩ := exists_dropEndWhile_append isBlank (last.dropWhile isBlank)
  refine ⟨lines.map trim, trim last, g, dropEndWhile isBlank first, others.map trim, ?_, hg, ?_⟩
  · have hu := hcut [] [] [] rfl
    rw [List.append_nil, List.append_nil] at hu
    rw [tidyLines, hu, List.map_append, List.map_singleton]
  · intro s hstarts hends hfeed
    rw [tidyLines, hcut _ _ _ (cutAt_append_of_not_mem hfeed hv), List.map_append, List.map_cons,
      trim_around hstarts hends, hlast, List.append_assoc]
    rfl

/-- The first line of a text that starts solid starts alike. -/
theorem exists_tidyLines_eq_cons {c : Char} (hc : isBlank c = false) (s : List Char) :
    ∃ line others, tidyLines (c :: s) = (c :: line) :: others := by
  have hfeed := feed_not_mem_of_solid hc
  obtain ⟨part, others, hcut⟩ := List.exists_cons_of_ne_nil (cutAt_ne_nil '\n' s)
  have htrim : ∃ line, trim (c :: part) = c :: line := by
    rw [trim_of_startsSolid ⟨c, part, rfl, hc⟩]
    obtain ⟨back, heq, hback⟩ := exists_dropEndWhile_append isBlank (c :: part)
    cases hdrop : dropEndWhile isBlank (c :: part) with
    | nil =>
      rw [dropEndWhile_eq_nil_iff.mp hdrop c List.mem_cons_self] at hc
      exact nomatch hc
    | cons d line =>
      rw [hdrop] at heq
      exact ⟨line, by rw [(List.cons.inj heq).1]⟩
  obtain ⟨line, hline⟩ := htrim
  refine ⟨line, others.map trim, ?_⟩
  have hwhole := cutAt_append_of_not_mem hfeed hcut
  rw [List.singleton_append] at hwhole
  rw [tidyLines, hwhole, ← hline]
  rfl

/-- The last line of a text that ends solid is not empty. -/
theorem exists_tidyLines_eq_concat {s : List Char} (h : EndsSolid s) :
    ∃ lines last, tidyLines s = lines ++ [last] ∧ last ≠ [] := by
  obtain ⟨t, c, rfl, hc⟩ := h
  have hfeed := feed_not_mem_of_solid hc
  obtain ⟨lines, last, hcut⟩ := exists_cutAt_append '\n' t
  refine ⟨lines.map trim, trim (last ++ [c]), ?_, fun hnil => ?_⟩
  · rw [tidyLines, hcut [c] [c] [] (cutAt_of_not_mem hfeed), List.map_append]
    rfl
  · rw [trim_eq_nil_iff.mp hnil c (by simp)] at hc
    exact nomatch hc

/-- The lines of a text put together by a separator. -/
def tidy (sep s : List Char) : List Char := sep.intercalate (tidyLines s)

/-- What is left of a gap. -/
def tidyGap (sep g : List Char) : List Char :=
  if '\n' ∈ g then (List.replicate (g.count '\n') sep).flatten else g

theorem tidy_of_solid (sep : List Char) {s : List Char} (hs : StartsSolid s) (he : EndsSolid s)
    (hfeed : '\n' ∉ s) : tidy sep s = s := by
  rw [tidy, tidyLines_of_not_mem hfeed, List.intercalate_singleton, trim_of_solid hs he]

/-- Solid parts are tidied one by one, and so is the gap between them. -/
theorem tidy_append (sep : List Char) {u v g : List Char} (hu : EndsSolid u) (hv : StartsSolid v)
    (hg : ∀ c ∈ g, isBlank c = true) :
    tidy sep (u ++ (g ++ v)) = tidy sep u ++ (tidyGap sep g ++ tidy sep v) := by
  by_cases hfeed : '\n' ∈ g
  · -- The parts stand on lines of their own, with empty lines between them.
    have hcount := count_feed_eq hfeed
    rw [tidy, tidyLines_append_gap_append u v hg hfeed,
      intercalate_append sep (tidyLines_ne_nil u) (by simp [tidyLines_ne_nil]),
      intercalate_replicate_append sep _ (tidyLines_ne_nil v), tidyGap, if_pos hfeed, hcount,
      List.replicate_succ, List.flatten_cons]
    simp only [tidy, Nat.add_sub_cancel, List.append_assoc]
  · -- The last line of the one goes on with the first of the other.
    obtain ⟨lines, last, first, others, hlu, hlv, hmeet⟩ := exists_tidyLines_append hu hv hfeed
    rw [tidy, hmeet, intercalate_join, tidyGap, if_neg hfeed, tidy, tidy, hlu, hlv]

end Chartdown.Text
