import Chartdown.Proofs.Chart.Outline

/-!
# A piece of the data

A piece is put at a place of a chart where the data is open: a solid text on one line, that the
reader of brackets comes out of as it went in. The outline takes the piece in as it is. What else it
records does not depend on the piece.

## Key results

- `foldl_addLine_onto`: the lines behind some data are read whatever that data is
- `exists_addLine_of_isOpen`: how a line opens the data or goes on with it
- `exists_outline_around`: the outline of a text with a piece in it
-/

namespace Chartdown.Chart

open Text

/-- A text that can be put into open data. -/
structure IsPiece (s : List Char) : Prop where
  starts : StartsSolid s
  ends : EndsSolid s
  feed_not_mem : '\n' ∉ s
  read : ∀ n : Nesting, n.inside = none → n.read s = n

/-- Where lines leave the reader of a text that goes on behind them. -/
def Outline.upTo (s : List Char) : Outline := (tidyLines s).foldl addLine {}

/-- A place behind a text at which a string of the data may start. -/
structure IsOpenPlace (front : List Char) : Prop where
  isOpen : (Outline.upTo front).isOpen = true
  inside : (Outline.upTo front).nesting.inside = none

namespace Outline

/-- An outline with lines of data in front of its own. -/
def onto (o : Outline) (lines : List (List Char)) : Outline :=
  { o with dataLines := o.dataLines ++ lines }

theorem addLine_onto (o : Outline) (lines : List (List Char)) (line : List Char) :
    (o.onto lines).addLine line = (o.addLine line).onto lines := by
  show (if o.isOpen = true then (o.onto lines).addData line else _) = _
  by_cases hopen : o.isOpen = true
  · rw [if_pos hopen, addLine_of_isOpen hopen]
    rfl
  · rw [if_neg hopen, addLine, if_neg hopen]
    cases LineKind.of line with
    | scalar f value => rfl
    | data start =>
      dsimp only
      split <;> rfl
    | other =>
      show (if (o.inData && !line.isEmpty) = true then _ else _) = _
      dsimp only
      split <;> rfl

/-- Lines are read whatever data is in front of them. -/
theorem foldl_addLine_onto (o : Outline) (lines more : List (List Char)) :
    more.foldl addLine (o.onto lines) = (more.foldl addLine o).onto lines := by
  induction more generalizing o with
  | nil => rfl
  | cons line more ih => rw [List.foldl_cons, addLine_onto, ih, List.foldl_cons]

/-- Data that starts with no lines is put in front of a line. -/
theorem dataText_onto (o : Outline) (lines : List (List Char)) (x s y : List Char) :
    (o.onto ((x ++ (s ++ y)) :: lines)).dataText =
      trim (['\n'].intercalate (lines.reverse ++ [x]) ++
        (s ++ ['\n'].intercalate (y :: o.dataLines.reverse))) := by
  rw [dataText, onto, List.reverse_append, List.reverse_cons, List.append_assoc,
    List.singleton_append, intercalate_join]

/-- The line that starts the data adds what it holds from its first bracket on. -/
theorem addLine_dataMark_append {o : Outline} (h : o.isOpen = false) (s : List Char) :
    o.addLine (dataMark ++ s) =
      if (s.dropWhile (· != '[')).isEmpty then { o with inData := true }
      else addData { o with inData := true } (s.dropWhile (· != '[')) := by
  rw [addLine, if_neg (by simp [h]), LineKind.of_dataMark_append]

theorem dropWhile_bracket_append {s : List Char} (h : '[' ∉ s) (rest : List Char) :
    (s ++ rest).dropWhile (· != '[') = rest.dropWhile (· != '[') :=
  List.dropWhile_append_of_pos fun c hc => by
    rw [bne_iff_ne]
    rintro rfl
    exact h hc

/-- A line behind which the data is open goes on with the data, or starts it. If no bracket is on the
line that starts the data, what follows on the line is dropped up to one. -/
theorem exists_addLine_of_isOpen {o : Outline} {line : List Char}
    (h : (o.addLine line).isOpen = true) :
    (∃ o' start, ∀ rest, o.addLine (line ++ rest) = addData o' (start ++ rest)) ∨
      ∃ o', ∀ passed rest, '[' ∉ passed →
        o.addLine (line ++ (passed ++ rest)) = addLine o' (dataMark ++ rest) := by
  by_cases hopen : o.isOpen = true
  · exact .inl ⟨o, line, fun rest => addLine_of_isOpen hopen _⟩
  rw [Bool.not_eq_true] at hopen
  -- Of all other lines, only one that starts the data opens it.
  have hmark : dataMark.isPrefixOf line = true := by
    by_contra hmark
    rw [Bool.not_eq_true] at hmark
    rw [addLine, if_neg (by simp [hopen]), LineKind.of] at h
    cases hline : scalarLine? line with
    | some r =>
      simp only [hline] at h
      exact absurd (h.symm.trans hopen) (by decide)
    | none =>
      simp only [hline, hmark, Bool.false_eq_true, if_false] at h
      split at h <;> exact absurd (h.symm.trans hopen) (by decide)
  obtain ⟨s, rfl⟩ := List.isPrefixOf_iff_prefix.mp hmark
  by_cases hbracket : '[' ∈ s
  · refine .inl ⟨{ o with inData := true }, s.dropWhile (· != '['), fun rest => ?_⟩
    have hdrop := dropWhile_append_of_mem (p := (· != '[')) hbracket (by decide) rest
    have hne : s.dropWhile (· != '[') ≠ [] := by
      rw [Ne, List.dropWhile_eq_nil_iff]
      exact fun hall => absurd (hall '[' hbracket) (by decide)
    rw [List.append_assoc, addLine_dataMark_append hopen, hdrop, if_neg (by simp [hne])]
  · refine .inr ⟨o, fun passed rest hpassed => ?_⟩
    rw [List.append_assoc, addLine_dataMark_append hopen, addLine_dataMark_append hopen,
      dropWhile_bracket_append hbracket, dropWhile_bracket_append hpassed]

end Outline

theorem isPassed_of_isBlank {c : Char} (hc : isBlank c = true) : Nesting.IsPassed c := by
  refine ⟨?_, ?_, ?_, ?_⟩ <;> rintro rfl <;> exact absurd hc (by decide)

/-- The outline of a text with a piece in it: a line of the data that goes around the piece. If there
is no bracket in front of the piece on the line that starts the data, the piece is passed over
instead. -/
theorem exists_outline_around {front : List Char} (hplace : IsOpenPlace front) (back : List Char) :
    (∃ o lines x y, ∀ s, IsPiece s →
      Outline.upTo (front ++ (s ++ back)) = Outline.onto o ((x ++ (s ++ y)) :: lines)) ∨
    ∃ o, ∀ s, IsPiece s → '[' ∉ s → Outline.upTo (front ++ (s ++ back)) = o := by
  obtain ⟨hopen, hinside⟩ := hplace
  obtain ⟨lines, last, g, first, others, hfront, hg, haround⟩ := exists_tidyLines_around front back
  rw [Outline.upTo, hfront, List.foldl_append, List.foldl_cons, List.foldl_nil] at hopen hinside
  have hread : ∀ s, IsPiece s → Outline.upTo (front ++ (s ++ back)) =
      others.foldl Outline.addLine ((lines.foldl Outline.addLine {}).addLine
        (last ++ (g ++ (s ++ first)))) := by
    intro s hs
    rw [Outline.upTo, haround s hs.starts hs.ends hs.feed_not_mem, List.foldl_append, List.foldl_cons]
  rcases Outline.exists_addLine_of_isOpen hopen with ⟨o, start, hline⟩ | ⟨o, hline⟩
  · -- The reader comes out of the piece as it went in, so it reads on alike.
    have hlast : (lines.foldl Outline.addLine {}).addLine last = o.addData start := by
      simpa using hline []
    have hstart : (o.nesting.read start).inside = none := by
      rw [hlast] at hinside
      exact hinside
    have hgap : (o.nesting.read start).read g = o.nesting.read start :=
      (Nesting.Steady.of_forall (fun c hc => isPassed_of_isBlank (hg c hc)) _ hstart).1
    have hnesting : ∀ s, IsPiece s →
        o.nesting.read (start ++ (g ++ (s ++ first))) = (o.nesting.read start).read first := by
      intro s hs
      rw [Nesting.read_append, Nesting.read_append, hgap, Nesting.read_append, hs.read _ hstart]
    refine .inl ⟨others.foldl Outline.addLine
        { o with dataLines := [], nesting := (o.nesting.read start).read first },
      o.dataLines, start ++ g, first, fun s hs => ?_⟩
    rw [hread s hs, hline, ← Outline.foldl_addLine_onto, Outline.addData, hnesting s hs,
      List.append_assoc]
    rfl
  · refine .inr ⟨others.foldl Outline.addLine (o.addLine (dataMark ++ first)), fun s hs hbracket => ?_⟩
    have hpassed : '[' ∉ g ++ s := by
      rw [List.mem_append, not_or]
      exact ⟨fun hmem => (isPassed_of_isBlank (hg _ hmem)).2.2.1 rfl, hbracket⟩
    rw [hread s hs, ← List.append_assoc g, hline _ _ hpassed]

end Chartdown.Chart
