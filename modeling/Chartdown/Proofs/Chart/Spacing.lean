import Chartdown.Proofs.Chart.Outline
import Chartdown.Proofs.Chart.Points
import Chartdown.Proofs.Chart.Dialect.Rules
import Chartdown.Proofs.Json.Spaced
import Mathlib.Logic.Relation

/-!
# The layout of lines

What is around the lines of a chart is no part of it. Blanks at the ends of a line make no
difference at all, and neither do blank lines above the first line and below the last. A blank line
between two others can stand in the data, where it makes one line feed more: there the rules of the
dialect and the reader of JSON go by whether there is a line feed and not by how many there are, so
the same points are read. Only the place that an error names moves.

## Key results

- `spread_replaceFrom`: a rule that does not count line feeds keeps texts spread alike
- `spread_normalize`: so does the dialect as a whole
- `Outline.dense_foldl_addLine`: empty lines change nothing but the lines of the data
- `Outline.describe_dense_eq_ok_iff`: and those not what is described
- `parse_of_respaced`: a chart may be laid out in all these ways
-/

namespace Chartdown.Chart

open Text DataText

variable {s t : List Char}

/-! ### Rules that do not count line feeds -/

/-- A rule that does not apply at a line feed, and applies alike to texts that are spread alike. -/
structure IgnoresRows (rule : Rule) : Prop where
  feed : ∀ before s, rule before ('\n' :: s) = none
  applies : ∀ {before s t r}, Spread s t → rule before s = some r →
    ∃ u v u' v' r', s = u ++ v ∧ t = u' ++ v' ∧ u.getLast? = u'.getLast? ∧ Spread v v' ∧
      u.length = r.extra + 1 ∧ u'.length = r'.extra + 1 ∧
      rule before t = some r' ∧ r'.written = r.written

section
variable {rule : Rule} (hrule : IgnoresRows rule)
include hrule

theorem IgnoresRows.replaceFrom_feed (before : Option Char) (s : List Char) :
    replaceFrom rule before 0 ('\n' :: s) = '\n' :: replaceFrom rule (some '\n') 0 s := by
  rw [replaceFrom, hrule.feed]

theorem IgnoresRows.eq_none {before : Option Char} (h : Spread s t) (hs : rule before s = none) :
    rule before t = none := by
  cases ht : rule before t with
  | none => rfl
  | some r =>
    obtain ⟨-, -, -, -, r', -, -, -, -, -, -, hs', -⟩ := hrule.applies h.symm ht
    rw [hs] at hs'
    exact nomatch hs'

theorem IgnoresRows.spread_replaceFrom_feed (before : Option Char) (s : List Char) :
    Spread (replaceFrom rule before 0 ('\n' :: '\n' :: s))
      (replaceFrom rule before 0 ('\n' :: s)) := by
  rw [hrule.replaceFrom_feed, hrule.replaceFrom_feed, hrule.replaceFrom_feed]
  exact .feed _

/-- Texts that are spread alike still are when such a rule went through them. -/
theorem spread_replaceFrom (before : Option Char) (h : Spread s t) :
    Spread (replaceFrom rule before 0 s) (replaceFrom rule before 0 t) := by
  -- By induction on both lengths: a row is shortened on either side, and where the rule applies,
  -- the part that it replaces is left behind on both.
  induction hn : s.length + t.length using Nat.strong_induction_on generalizing s t before with
  | _ n ih =>
    cases s with
    | nil => rw [h.eq_nil]; exact .refl _
    | cons c s =>
      rcases h.cases_cons with ⟨r, rfl, hr⟩ | ⟨r, rfl, rfl, hr⟩ | ⟨r, rfl, hr⟩
      · cases happlies : rule before (c :: s) with
        | none =>
          rw [replaceFrom, happlies, replaceFrom, hrule.eq_none h happlies]
          exact (ih _ (by simp only [← hn, List.length_cons]; omega) (some c) hr rfl).cons c
        | some written =>
          obtain ⟨u, v, u', v', r', hs, ht, hlast, hv, hlength, hlength', happlies', hwritten⟩ :=
            hrule.applies h happlies
          rw [hs] at happlies ⊢
          rw [ht] at happlies' ⊢
          rw [replaceFrom_append_of_some hlength happlies,
            replaceFrom_append_of_some hlength' happlies', hwritten, behind, behind, hlast]
          refine (ih _ ?_ _ hv rfl).append _
          rw [← hn, hs, ht, List.length_append, List.length_append]
          omega
      · have hrest := ih _ (by simp only [← hn, List.length_cons]; omega) before hr rfl
        exact (hrule.spread_replaceFrom_feed before r).trans hrest
      · have hrest := ih _ (by simp only [← hn, List.length_cons]; omega) before hr rfl
        exact hrest.trans (hrule.spread_replaceFrom_feed before r).symm

end

/-! ### The rules of the dialect -/

theorem isBlank_of_spread {g g' : List Char} (h : Spread g g') (hg : ∀ c ∈ g, isBlank c = true) :
    ∀ c ∈ g', isBlank c = true := fun c hc => hg c (h.mem_iff.mpr hc)

theorem ignoresRows_bareFieldName : IgnoresRows bareFieldName where
  feed before s := Dialect.bareFieldName_eq_none_of_head (by decide) (by decide)
  applies := by
    intro before s t r h happlies
    obtain ⟨hstart, role, blanks, back, rfl, hblanks, rfl⟩ := Dialect.bareFieldName_cases happlies
    have hfeed : '\n' ∉ role.chars := by cases role <;> decide
    obtain ⟨r₁, rfl, hr₁⟩ := h.exists_of_append hfeed
    obtain ⟨blanks', back', rfl, hspread, hback⟩ := hr₁.exists_of_append_cons (by decide)
    have happlies' := Dialect.bareFieldName_of_name hstart role (isBlank_of_spread hspread hblanks) back'
    refine ⟨role.chars ++ (blanks ++ [':']), back, role.chars ++ (blanks' ++ [':']), back', _,
      by simp, by simp, by simp, hback, ?_, ?_, happlies', rfl⟩
    all_goals simp [Nat.add_assoc]

theorem ignoresRows_idleComma : IgnoresRows idleComma where
  feed before s := Dialect.idleComma_eq_none_of_head (by decide)
  applies := by
    intro before s t r h happlies
    obtain ⟨blanks, d, back, rfl, hblanks, hd, rfl⟩ := Dialect.idleComma_cases happlies
    have hfeed : d ≠ '\n' := by rcases hd with rfl | rfl <;> decide
    obtain ⟨r₁, rfl, hr₁⟩ := h.exists_of_cons (by decide)
    obtain ⟨blanks', back', rfl, hspread, hback⟩ := hr₁.exists_of_append_cons hfeed
    exact ⟨',' :: blanks, d :: back, ',' :: blanks', d :: back', _, rfl, rfl,
      (hspread.cons ',').getLast?_eq, hback.cons d, rfl, rfl,
      Dialect.idleComma_of_closing before (isBlank_of_spread hspread hblanks) hd back', rfl⟩

theorem spread_convertSingleQuotes (h : Spread s t) :
    Spread (convertSingleQuotes s) (convertSingleQuotes t) := by
  refine h.map fun c => ?_
  split
  case isTrue hc =>
    rw [hc]
    decide
  case isFalse => exact .rfl

theorem spread_rewrapBrackets (h : Spread s t) : Spread (rewrapBrackets s) (rewrapBrackets t) := by
  have hdropped : ∀ {s t : List Char}, Spread s t →
      Spread (if s.getLast? = some ']' then s.dropLast else s)
        (if t.getLast? = some ']' then t.dropLast else t) := by
    intro s t h
    rw [h.getLast?_eq]
    split
    case isTrue hlast =>
      obtain ⟨u, rfl⟩ := List.getLast?_eq_some_iff.mp hlast
      obtain ⟨u', rfl⟩ := List.getLast?_eq_some_iff.mp (h.getLast?_eq.trans hlast)
      rw [List.dropLast_concat, List.dropLast_concat]
      rw [Spread, squeeze_append_cons (by decide), squeeze_append_cons (by decide)] at h
      exact List.append_cancel_right h
    case isFalse => exact h
  have hopened : ∀ {s t : List Char}, Spread s t →
      Spread (if s.head? = some '[' then s else '[' :: s)
        (if t.head? = some '[' then t else '[' :: t) := by
    intro s t h
    rw [h.head?_eq]
    split
    · exact h
    · exact h.cons '['
  exact .append_cons (by decide) (hopened (hdropped h.trim).trim) (.refl [])

/-- The dialect does not go by the number of line feeds in a row. -/
theorem spread_normalize (h : Spread s t) : Spread (normalize s) (normalize t) :=
  spread_replaceFrom ignoresRows_idleComma none <| spread_convertSingleQuotes <|
    spread_replaceFrom ignoresRows_bareFieldName none <| spread_rewrapBrackets h

theorem decodePoints_normalize_of_spread {points : List Point} (h : Spread s t)
    (hpoints : decodePoints (normalize s) = .ok points) :
    decodePoints (normalize t) = .ok points := by
  rw [decodePoints_eq_ok_iff] at hpoints ⊢
  obtain ⟨items, hdecode, hitems⟩ := hpoints
  exact ⟨items, Json.decode_of_spread (spread_normalize h) hdecode, hitems⟩

/-! ### Empty lines -/

namespace Outline

/-- The outline without the empty lines of its data. -/
def dense (o : Outline) : Outline := { o with dataLines := o.dataLines.filter (!·.isEmpty) }

theorem dense_addLine_nil (o : Outline) : (o.addLine []).dense = o.dense := by
  by_cases hopen : o.isOpen = true
  · rw [addLine_of_isOpen hopen]
    rfl
  · rw [addLine_of_isAside (by simpa using hopen) (.inr (.inl rfl))]
    rfl

theorem dense_dense (o : Outline) : o.dense.dense = o.dense := by
  simp [dense, List.filter_filter]

theorem dense_addData (o : Outline) (line : List Char) :
    (o.addData line).dense = (o.dense.addData line).dense := by
  simp [dense, addData, List.filter_cons, List.filter_filter]

theorem dense_addLine (o : Outline) (line : List Char) :
    (o.addLine line).dense = (o.dense.addLine line).dense := by
  have hopen : o.dense.isOpen = o.isOpen := rfl
  rw [addLine, addLine, hopen]
  split
  · exact dense_addData o line
  · cases LineKind.of line with
    | scalar f v => simp [dense, List.filter_filter]
    | data start =>
      dsimp only
      split
      · simp [dense, List.filter_filter]
      · exact dense_addData { o with inData := true } start
    | other =>
      show Outline.dense (if (o.inData && !line.isEmpty) = true then _ else o) =
        Outline.dense (if (o.inData && !line.isEmpty) = true then _ else o.dense)
      split
      · simp [dense, List.filter_cons, List.filter_filter]
      · exact o.dense_dense.symm

theorem dense_foldl_dense (o : Outline) (lines : List (List Char)) :
    (lines.foldl addLine o).dense = (lines.foldl addLine o.dense).dense := by
  induction lines generalizing o with
  | nil => exact o.dense_dense.symm
  | cons line lines ih =>
    rw [List.foldl_cons, List.foldl_cons, ih, dense_addLine, ← ih]

/-- Empty lines change nothing but the lines of the data. -/
theorem dense_foldl_addLine (o : Outline) (lines : List (List Char)) :
    (lines.foldl addLine o).dense = ((lines.filter (!·.isEmpty)).foldl addLine o).dense := by
  induction lines generalizing o with
  | nil => rfl
  | cons line lines ih =>
    cases line with
    | nil =>
      rw [List.foldl_cons, dense_foldl_dense, dense_addLine_nil, ← dense_foldl_dense, ih]
      rfl
    | cons c line =>
      rw [List.foldl_cons, ih]
      rfl

theorem trim_flatMap_feed (lines : List (List Char)) :
    trim ('\n' :: lines.flatMap (· ++ ['\n'])) = trim (['\n'].intercalate lines) := by
  have hfeed : ∀ c ∈ ['\n'], isBlank c = true := by decide
  rw [← List.singleton_append, trim_gap_append hfeed]
  by_cases hlines : lines = []
  · rw [hlines]
    rfl
  · rw [flatMap_append_eq _ hlines, trim_append_gap _ hfeed]

theorem spread_flatMap_feed (lines : List (List Char)) :
    Spread ('\n' :: lines.flatMap (· ++ ['\n']))
      ('\n' :: (lines.filter (!·.isEmpty)).flatMap (· ++ ['\n'])) := by
  induction lines with
  | nil => exact .refl _
  | cons line lines ih =>
    rw [List.flatMap_cons]
    cases line with
    | nil => exact (Spread.feed _).trans ih
    | cons c line =>
      rw [List.filter_cons_of_pos (by rfl), List.flatMap_cons, List.append_assoc, List.append_assoc]
      exact (ih.append _).cons _

/-- The data is the same but for the line feeds in a row. -/
theorem spread_dataText_dense (o : Outline) : Spread o.dataText o.dense.dataText := by
  have hlines : o.dense.dataLines.reverse = o.dataLines.reverse.filter (!·.isEmpty) :=
    List.filter_reverse.symm
  rw [dataText, dataText, hlines, ← trim_flatMap_feed, ← trim_flatMap_feed]
  exact (spread_flatMap_feed _).trim

theorem describe_of_spread {o o' : Outline} (hfields : o.fields = o'.fields)
    (hdata : Spread o.dataText o'.dataText) {d : Description} (h : o.describe = .ok d) :
    o'.describe = .ok d := by
  obtain ⟨hlayout, hfilled, points, hpoints, rfl⟩ := describe_eq_ok_iff.mp h
  refine describe_eq_ok_iff.mpr ⟨hfields ▸ hlayout, fun hnil => hfilled ?_, points,
    decodePoints_normalize_of_spread hdata hpoints, by rw [hfields]⟩
  rw [hnil] at hdata
  exact hdata.symm.eq_nil

/-- The empty lines of the data make no difference to what is described. -/
theorem describe_dense_eq_ok_iff (o : Outline) {d : Description} :
    o.dense.describe = .ok d ↔ o.describe = .ok d :=
  ⟨describe_of_spread (show o.dense.fields = o.fields from rfl) o.spread_dataText_dense.symm,
    describe_of_spread (show o.fields = o.dense.fields from rfl) o.spread_dataText_dense⟩

end Outline

/-! ### Texts laid out differently -/

/-- Blanks are put where they are no part of a line: line feeds only above the first line or below
the last. -/
inductive Padded : List Char → List Char → Prop
  /-- At the start of a line. -/
  | lineStart {u v g : List Char} (hstart : u = [] ∨ u.getLast? = some '\n')
      (hg : ∀ c ∈ g, isBlank c = true ∧ c ≠ '\n') : Padded (u ++ v) (u ++ (g ++ v))
  /-- At the end of a line. -/
  | lineEnd {u v g : List Char} (hend : v = [] ∨ v.head? = some '\n')
      (hg : ∀ c ∈ g, isBlank c = true ∧ c ≠ '\n') : Padded (u ++ v) (u ++ (g ++ v))
  /-- Somewhere before the first line that is not blank. -/
  | above {u v g : List Char} (hu : ∀ c ∈ u, isBlank c = true) (hg : ∀ c ∈ g, isBlank c = true) :
      Padded (u ++ v) (u ++ (g ++ v))
  /-- Somewhere behind the last line that is not blank. -/
  | below {u v g : List Char} (hv : ∀ c ∈ v, isBlank c = true) (hg : ∀ c ∈ g, isBlank c = true) :
      Padded (u ++ v) (u ++ (g ++ v))

/-- Blanks are put where they are no part of a line, or blank lines are put between two lines. -/
inductive Respaced : List Char → List Char → Prop
  | padded {s t : List Char} (h : Padded s t) : Respaced s t
  /-- Between two lines. -/
  | between {u v g : List Char} (hg : ∀ c ∈ g, isBlank c = true) :
      Respaced (u ++ '\n' :: v) (u ++ '\n' :: (g ++ '\n' :: v))

section
variable {u v g : List Char}

theorem tidyLines_lineStart (hstart : u = [] ∨ u.getLast? = some '\n')
    (hg : ∀ c ∈ g, isBlank c = true ∧ c ≠ '\n') : tidyLines (u ++ (g ++ v)) = tidyLines (u ++ v) := by
  have hgap : tidyLines (g ++ v) = tidyLines v := by
    have hfeed : g.count '\n' = 0 := List.count_eq_zero.mpr fun h => (hg _ h).2 rfl
    rw [tidyLines_gap_append fun c hc => (hg c hc).1, hfeed]
    rfl
  rcases hstart with rfl | hlast
  · exact hgap
  · obtain ⟨r, rfl⟩ := List.getLast?_eq_some_iff.mp hlast
    rw [List.append_assoc, List.append_assoc, List.singleton_append, List.singleton_append,
      tidyLines_append_cons, tidyLines_append_cons, hgap]

theorem tidyLines_lineEnd (hend : v = [] ∨ v.head? = some '\n')
    (hg : ∀ c ∈ g, isBlank c = true ∧ c ≠ '\n') : tidyLines (u ++ (g ++ v)) = tidyLines (u ++ v) := by
  have hgap : tidyLines (u ++ g) = tidyLines u :=
    tidyLines_append_of_not_mem u (fun c hc => (hg c hc).1) fun h => (hg _ h).2 rfl
  rcases hend with rfl | hhead
  · rw [List.append_nil, List.append_nil, hgap]
  · obtain ⟨r, rfl⟩ := List.head?_eq_some_iff.mp hhead
    rw [← List.append_assoc, tidyLines_append_cons, tidyLines_append_cons, hgap]

/-- Blanks in front make no difference, line feeds among them or not. -/
theorem foldl_addLine_gap (hg : ∀ c ∈ g, isBlank c = true) (s : List Char) :
    (tidyLines (g ++ s)).foldl Outline.addLine {} = (tidyLines s).foldl Outline.addLine {} := by
  rw [tidyLines_gap_append hg, List.foldl_append, Outline.foldl_nil_eq]

/-- Blanks behind make no difference, line feeds among them or not. -/
theorem describe_foldl_gap (hg : ∀ c ∈ g, isBlank c = true) (s : List Char) :
    ((tidyLines (s ++ g)).foldl Outline.addLine {}).describe =
      ((tidyLines s).foldl Outline.addLine {}).describe := by
  rw [tidyLines_append_gap s hg, List.foldl_append, Outline.describe_foldl_nil]

end

theorem parse_of_padded (h : Padded s t) : Description.parse s = Description.parse t := by
  rw [parse_eq_describe s, parse_eq_describe t]
  cases h with
  | lineStart hstart hg => rw [tidyLines_lineStart hstart hg]
  | lineEnd hend hg => rw [tidyLines_lineEnd hend hg]
  | above hu hg => rw [foldl_addLine_gap hu, foldl_addLine_gap hu, foldl_addLine_gap hg]
  | below hv hg =>
    rw [describe_foldl_gap hv, describe_foldl_gap (List.forall_mem_append.mpr ⟨hg, hv⟩)]

/-- The lines that are not empty, each without the blanks at its ends. -/
def solidLines (s : List Char) : List (List Char) := (tidyLines s).filter (!·.isEmpty)

/-- What is described depends on no other lines. -/
theorem parse_eq_ok_iff (s : List Char) {d : Description} : Description.parse s = .ok d ↔
    ((solidLines s).foldl Outline.addLine {}).dense.describe = .ok d := by
  rw [parse_eq_describe, ← Outline.describe_dense_eq_ok_iff, Outline.dense_foldl_addLine]
  rfl

theorem solidLines_append_cons (u v : List Char) :
    solidLines (u ++ '\n' :: v) = solidLines u ++ solidLines v := by
  rw [solidLines, tidyLines_append_cons, List.filter_append]
  rfl

theorem solidLines_gap_append {g : List Char} (hg : ∀ c ∈ g, isBlank c = true) (s : List Char) :
    solidLines (g ++ s) = solidLines s := by
  rw [solidLines, tidyLines_gap_append hg, List.filter_append, List.filter_replicate]
  rfl

theorem parse_eq_ok_iff_of_respaced (h : Respaced s t) {d : Description} :
    Description.parse s = .ok d ↔ Description.parse t = .ok d := by
  cases h with
  | padded h => rw [parse_of_padded h]
  | @between u v g hg =>
    have hfeed : solidLines ('\n' :: v) = solidLines v :=
      solidLines_gap_append (g := ['\n']) (by decide) v
    rw [parse_eq_ok_iff, parse_eq_ok_iff, solidLines_append_cons, solidLines_append_cons,
      solidLines_gap_append hg, hfeed]

/-- Blanks that are put around lines or taken away there, any number of times, make no difference,
not to errors either. With blank lines between two others a text describes what it described, and
still nothing if it described nothing. -/
theorem parse_of_respaced :
    (∀ s t, Relation.EqvGen Padded s t → Description.parse s = Description.parse t) ∧
      ∀ s t, Relation.EqvGen Respaced s t →
        ∀ d, Description.parse s = .ok d ↔ Description.parse t = .ok d := by
  constructor
  · intro s t h
    induction h with
    | rel _ _ h => exact parse_of_padded h
    | refl _ => rfl
    | symm _ _ _ ih => exact ih.symm
    | trans _ _ _ _ _ ih₁ ih₂ => exact ih₁.trans ih₂
  · intro s t h d
    induction h with
    | rel _ _ h => exact parse_eq_ok_iff_of_respaced h
    | refl _ => rfl
    | symm _ _ _ ih => exact ih.symm
    | trans _ _ _ _ _ ih₁ ih₂ => exact ih₁.trans ih₂

/-- A chart of three lines, with blanks behind the first one and a gap inside the data. -/
def laidOut (blanks gap : List Char) : List Char :=
  "layout: bar".toList ++ (blanks ++ ("\ndata: [\x7b'key': 1,".toList ++
    '\n' :: (gap ++ "value: 2\x7d]".toList)))

/-- A carriage return in front of a line feed, and a blank line inside the data: the same chart. -/
theorem parse_of_respaced_laidOut :
    Relation.EqvGen Padded (laidOut [] []) (laidOut ['\r'] []) ∧
      Description.parse (laidOut [] []) = Description.parse (laidOut ['\r'] []) ∧
      Relation.EqvGen Respaced (laidOut [] []) (laidOut [] [' ', '\n']) ∧
      ∃ d, Description.parse (laidOut [] []) = .ok d ∧
        Description.parse (laidOut [] [' ', '\n']) = .ok d := by
  have hpadded : Relation.EqvGen Padded (laidOut [] []) (laidOut ['\r'] []) :=
    .rel _ _ (.lineEnd (.inr (by decide)) (by decide))
  have hrespaced : Relation.EqvGen Respaced (laidOut [] []) (laidOut [] [' ', '\n']) := by
    have h := Respaced.between (u := "layout: bar\ndata: [\x7b'key': 1,".toList)
      (v := "value: 2\x7d]".toList) (g := [' ']) (by decide)
    exact .rel _ _ h
  have hdescribed : (Description.parse (laidOut [] [])).isOk = true := by decide +kernel
  cases hd : Description.parse (laidOut [] []) with
  | error e =>
    rw [hd] at hdescribed
    exact nomatch hdescribed
  | ok d =>
    exact ⟨hpadded, hd ▸ parse_of_respaced.1 _ _ hpadded, hrespaced, d, rfl,
      (parse_of_respaced.2 _ _ hrespaced d).mp hd⟩

end Chartdown.Chart
