import Chartdown.Proofs.Chart.Outline
import Chartdown.Proofs.Chart.Stray.Rules

/-!
# Lines behind the data

The lines of a description are those before the data, the lines of an array up to the one on which
it is closed, and later lines. A later line is blank, it sets a field, it names data without a
bracket, or the text is no chart.

## Key results

- `IsSection`: the lines of a description, told by its array
- `foldl_addLine_later`: later lines leave the data alone, or something is added to it
- `parse_of_isSection`: stray text behind the array fails
-/

namespace Chartdown.Chart

open Text DataText

/-- The lines of a text, where the first line of data has a bracket and the array is closed on a
line: those before it, the first one and what counts of it, those on which the array is open, and
those behind. No line of the array holds an apostrophe or a backslash. -/
structure IsSection (s : List Char) (before : List (List Char)) (first start : List Char)
    (body later : List (List Char)) : Prop where
  lines : trimmedLines s = before ++ first :: (body ++ later)
  not_data : ∀ line ∈ before, ∀ t, LineKind.of line ≠ .data t
  first_data : LineKind.of first = .data start
  bracket : start ≠ []
  stays_open : ∀ front line back, body = front ++ line :: back →
    (({} : Nesting).read (start ++ front.flatten)).closed = false
  closes : (({} : Nesting).read (start ++ body.flatten)).closed = true
  plain : ∀ line ∈ start :: body, ∀ c ∈ line, c ≠ '\'' ∧ c ≠ '\\'

/-- A line that adds nothing to the data: it is blank, sets a field, or names data without a
bracket. -/
def IsSilent (line : List Char) : Prop :=
  line = [] ∨ (scalarLine? line).isSome = true ∨ LineKind.of line = .data []

/-- A text is one array: it starts with a bracket and is closed at its end and no earlier. -/
structure IsBalanced (s : List Char) : Prop where
  opens : s.head? = some '['
  closes : (({} : Nesting).read s).closed = true
  stays_open : ∀ u, u <+: s → u ≠ s → (({} : Nesting).read u).closed = false

/-! ### Kinds of lines -/

/-- What counts of a line of data starts with a bracket. -/
theorem LineKind.exists_eq_cons_of_data {line start : List Char} (h : LineKind.of line = .data start)
    (hne : start ≠ []) : ∃ r, start = '[' :: r := by
  unfold LineKind.of at h
  split at h
  · cases h
  · split at h
    · obtain ⟨c, r, rfl⟩ := List.exists_cons_of_ne_nil hne
      have hstart := LineKind.data.inj h
      have hhead := List.head?_dropWhile_not (· != '[') (line.drop dataMark.length)
      rw [hstart] at hhead
      exact ⟨r, by simpa using hhead⟩
    · cases h

theorem LineKind.scalarLine?_of_scalar {line : List Char} {f : Field} {v : List Char}
    (h : LineKind.of line = .scalar f v) : scalarLine? line = some (f, v) := by
  unfold LineKind.of at h
  split at h
  · rename_i hline
    cases h
    exact hline
  · split at h
    all_goals cases h

theorem LineKind.not_isPrefixOf {line : List Char} (h : ∀ t, LineKind.of line ≠ .data t)
    (hscalar : scalarLine? line = none) : dataMark.isPrefixOf line = false := by
  by_contra hmark
  rw [Bool.not_eq_false] at hmark
  refine h ((line.drop dataMark.length).dropWhile (· != '[')) ?_
  rw [LineKind.of, hscalar]
  exact if_pos hmark

/-! ### Later lines -/

namespace Outline

variable {o : Outline} {line : List Char}

/-- Data is only added to. -/
theorem exists_dataLines_addLine (o : Outline) (line : List Char) :
    ∃ added, (o.addLine line).dataLines = added ++ o.dataLines := by
  unfold addLine
  split
  · exact ⟨[line], rfl⟩
  · split
    · exact ⟨[], rfl⟩
    · rename_i start _
      dsimp only
      split
      · exact ⟨[], rfl⟩
      · exact ⟨[start], rfl⟩
    · split
      · exact ⟨[line], rfl⟩
      · exact ⟨[], rfl⟩

theorem exists_dataLines_foldl (o : Outline) (lines : List (List Char)) :
    ∃ added, (lines.foldl addLine o).dataLines = added ++ o.dataLines := by
  induction lines generalizing o with
  | nil => exact ⟨[], rfl⟩
  | cons line lines ih =>
    obtain ⟨added, hadded⟩ := exists_dataLines_addLine o line
    obtain ⟨more, hmore⟩ := ih (o.addLine line)
    exact ⟨more ++ added, by rw [List.foldl_cons, hmore, hadded, List.append_assoc]⟩

/-- Behind a closed array a silent line leaves the data alone. -/
theorem addLine_of_isSilent (hdata : o.inData = true) (hopen : o.isOpen = false)
    (h : IsSilent line) : ∃ fields, o.addLine line = { o with fields := fields } := by
  rcases h with rfl | h | h
  · exact ⟨_, addLine_of_isAside hopen (.inr (.inl rfl))⟩
  · exact ⟨_, addLine_of_isAside hopen (.inl h)⟩
  · refine ⟨o.fields, ?_⟩
    rw [addLine, if_neg (by simp [hopen]), h]
    simp [hdata]

/-- Behind a closed array any other line adds something to the data. -/
theorem exists_addLine_of_not_isSilent (hdata : o.inData = true) (hopen : o.isOpen = false)
    (htrim : trim line = line) (h : ¬ IsSilent line) :
    ∃ added, (o.addLine line).dataLines = added :: o.dataLines ∧ ∃ c ∈ added, isBlank c = false := by
  rw [IsSilent, not_or, not_or] at h
  obtain ⟨hne, hscalar, hbracket⟩ := h
  cases hkind : LineKind.of line with
  | scalar f v =>
    rw [LineKind.scalarLine?_of_scalar hkind] at hscalar
    exact absurd rfl hscalar
  | data start =>
    have hstart : start ≠ [] := by
      rintro rfl
      exact hbracket hkind
    obtain ⟨r, rfl⟩ := LineKind.exists_eq_cons_of_data hkind hstart
    refine ⟨'[' :: r, ?_, '[', List.mem_cons_self, by decide⟩
    rw [addLine, if_neg (by simp [hopen]), hkind]
    rfl
  | other =>
    refine ⟨line, ?_, ?_⟩
    · rw [addLine, if_neg (by simp [hopen]), hkind]
      show (if (o.inData && !line.isEmpty) = true then _ else o).dataLines = _
      rw [if_pos (by simpa [hdata] using hne)]
    · -- A trimmed line of blanks is empty, and such a line is silent.
      by_contra hblank
      refine hne ?_
      rw [← htrim, trim_eq_nil_iff]
      intro c hc
      by_contra hsolid
      exact hblank ⟨c, hc, by simpa using hsolid⟩

/-- Behind a closed array, lines leave the data alone if all are silent, and else add something to
it. -/
theorem foldl_addLine_later (hdata : o.inData = true) (hopen : o.isOpen = false)
    {lines : List (List Char)} (htrim : ∀ line ∈ lines, trim line = line) :
    ((∀ line ∈ lines, IsSilent line) ∧ (lines.foldl addLine o).dataLines = o.dataLines) ∨
    ∃ more added, (lines.foldl addLine o).dataLines = more ++ added :: o.dataLines ∧
      ∃ c ∈ added, isBlank c = false := by
  induction lines generalizing o with
  | nil => exact .inl ⟨by simp, rfl⟩
  | cons line lines ih =>
    rw [List.forall_mem_cons] at htrim
    rw [List.foldl_cons]
    by_cases hsilent : IsSilent line
    · obtain ⟨fields, hfields⟩ := addLine_of_isSilent hdata hopen hsilent
      rw [hfields]
      rcases @ih { o with fields := fields } hdata hopen htrim.2 with ⟨hall, hlines⟩ | hadded
      · exact .inl ⟨List.forall_mem_cons.mpr ⟨hsilent, hall⟩, hlines⟩
      · exact .inr hadded
    · obtain ⟨added, hadded, hsolid⟩ := exists_addLine_of_not_isSilent hdata hopen htrim.1 hsilent
      obtain ⟨more, hmore⟩ := exists_dataLines_foldl (o.addLine line) lines
      exact .inr ⟨more, added, by rw [hmore, hadded], hsolid⟩

end Outline

/-! ### Sections -/

namespace IsSection

variable {s : List Char} {before : List (List Char)} {first start : List Char}
  {body later : List (List Char)}

/-- Up to the line that closes the array, its lines are the data. -/
theorem exists_foldl_addLine (h : IsSection s before first start body later) :
    ∃ fields, (before ++ first :: body).foldl Outline.addLine {} =
      ⟨fields, true, body.reverse ++ [start], ({} : Nesting).read (start ++ body.flatten)⟩ := by
  -- The lines before the data may set fields, so what the others add holds for any fields.
  have hbefore := @Outline.foldl_addLine_of_asides {} rfl before fun line hline => by
    cases hscalar : scalarLine? line with
    | some r => exact .inl (by simp [hscalar])
    | none => exact .inr (.inr ⟨rfl, LineKind.not_isPrefixOf (h.not_data line hline) hscalar⟩)
  have hfirst : ∀ fields, Outline.addLine { fields } first =
      ⟨fields, true, [start], ({} : Nesting).read start⟩ := by
    intro fields
    have hne : start.isEmpty = false := by simpa using h.bracket
    rw [Outline.addLine, if_neg (by simp [Outline.isOpen]), h.first_data]
    simp [hne, Outline.addData]
  have hbody := fun fields =>
    @Outline.foldl_addLine_of_open ⟨fields, true, [start], ({} : Nesting).read start⟩ rfl body
      fun front line back heq => by
        have hopen := h.stays_open front line back heq
        rwa [Nesting.read_append] at hopen
  rw [List.foldl_append, hbefore, List.foldl_cons, hfirst, hbody, Nesting.read_append]
  exact ⟨_, rfl⟩

/-- The array has an end among its lines. -/
theorem exists_behindArray (h : IsSection s before first start body later) :
    ∃ t rest, ['\n'].intercalate (start :: body) = '[' :: t ∧ behindArray 0 false t = some rest := by
  obtain ⟨r, rfl⟩ := LineKind.exists_eq_cons_of_data h.first_data h.bracket
  have hclosed : ((Nesting.within 0 false).read (r :: body).flatten).closed = true := h.closes
  have hplain : ∀ line ∈ r :: body, ∀ c ∈ line, c ≠ '\'' ∧ c ≠ '\\' := by
    have hall := h.plain
    rw [List.forall_mem_cons, List.forall_mem_cons] at hall
    exact List.forall_mem_cons.mpr ⟨hall.1.2, hall.2⟩
  obtain ⟨rest, hrest⟩ := exists_behindArray_intercalate (List.cons_ne_nil r body) hplain hclosed
  refine ⟨_, rest, ?_, hrest⟩
  cases body with
  | nil => simp
  | cons line body => simp [List.intercalate_cons_cons]

end IsSection

/-- An array with nothing behind it is balanced. -/
theorem isBalanced_of_behindArray {u : List Char}
    (hread : (Nesting.within 0 false).read u = .within 0 false)
    (hopen : ∀ v, v <+: u → ∃ depth quoted, (Nesting.within 0 false).read v = .within depth quoted) :
    IsBalanced ('[' :: (u ++ [']'])) where
  opens := rfl
  closes := by
    have hstep : ({} : Nesting).step '[' = .within 0 false := by decide
    rw [Nesting.read_cons, hstep, Nesting.read_append, hread]
    decide
  stays_open v hv hne := by
    have hstep : ({} : Nesting).step '[' = .within 0 false := by decide
    cases v with
    | nil => rfl
    | cons c v =>
      rw [List.cons_prefix_cons, List.prefix_concat_iff] at hv
      obtain ⟨rfl, hv⟩ := hv
      obtain ⟨depth, quoted, hwithin⟩ := hopen v (hv.resolve_left fun h => hne (by rw [h]))
      rw [Nesting.read_cons, hstep, hwithin, Nesting.closed_within]

namespace IsSection

variable {s : List Char} {before : List (List Char)} {first start : List Char}
  {body later : List (List Char)}

/-- The data of a text: the lines of its array alone, if all later lines are silent, or with
something behind the array. -/
theorem dataText_cases (h : IsSection s before first start body later) :
    ((∀ line ∈ later, IsSilent line) ∧
      (Outline.of s).dataText = trim (['\n'].intercalate (start :: body))) ∨
    ∃ stray, (∃ c ∈ stray, isBlank c = false) ∧
      (Outline.of s).dataText = trim (['\n'].intercalate (start :: body) ++ stray) := by
  obtain ⟨fields, hfold⟩ := h.exists_foldl_addLine
  -- The state of the reader once the array is closed is where the later lines start from.
  have hof : Outline.of s = later.foldl Outline.addLine
      ⟨fields, true, body.reverse ++ [start], ({} : Nesting).read (start ++ body.flatten)⟩ := by
    rw [Outline.of, h.lines, ← List.cons_append, ← List.append_assoc, List.foldl_append, hfold]
  have hopen : Outline.isOpen
      ⟨fields, true, body.reverse ++ [start], ({} : Nesting).read (start ++ body.flatten)⟩ = false := by
    simp [Outline.isOpen, h.closes]
  have htrim : ∀ line ∈ later, trim line = line := by
    intro line hline
    have hmem : line ∈ trimmedLines s := by simp [h.lines, hline]
    obtain ⟨part, -, rfl⟩ := List.mem_map.mp hmem
    exact trim_trim part
  rw [hof, Outline.dataText]
  rcases Outline.foldl_addLine_later rfl hopen htrim with ⟨hsilent, hlines⟩ |
    ⟨more, added, hlines, c, hc, hsolid⟩
  · exact .inl ⟨hsilent, by rw [hlines]; simp⟩
  · refine .inr ⟨['\n'] ++ ['\n'].intercalate (added :: more.reverse), ⟨c, ?_, hsolid⟩, ?_⟩
    · obtain ⟨t, ht⟩ : ∃ t, ['\n'].intercalate (added :: more.reverse) = added ++ t := by
        cases more.reverse with
        | nil => exact ⟨[], by simp⟩
        | cons line lines => exact ⟨_, by rw [List.intercalate_cons_cons, List.append_assoc]⟩
      simp [ht, hc]
    · have hreverse : (more ++ added :: (body.reverse ++ [start])).reverse =
          (start :: body) ++ (added :: more.reverse) := by simp
      rw [hlines, hreverse, intercalate_append _ (List.cons_ne_nil _ _) (List.cons_ne_nil _ _)]

/-- The later lines of a chart are silent, and its points are those of a balanced array behind which
there are only blanks. -/
theorem of_parse (h : IsSection s before first start body later) {d : Description}
    (hparse : Description.parse s = .ok d) :
    (∀ line ∈ later, IsSilent line) ∧
      ∃ array gap, ['\n'].intercalate (start :: body) = array ++ gap ∧ IsBalanced array ∧
        (∀ c ∈ gap, isBlank c = true) ∧ decodePoints (normalize array) = .ok d.points := by
  have hpoints := Outline.decodePoints_of_describe hparse
  obtain ⟨t, rest, htext, hend⟩ := h.exists_behindArray
  -- Anything but blanks behind the bracket that closes the array would be left over for the reader
  -- of JSON, be it on the same line or on a later one.
  rcases h.dataText_cases with ⟨hsilent, hdata⟩ | ⟨stray, ⟨c, hc, hsolid⟩, hdata⟩
  · rw [hdata, htext] at hpoints
    have hblank : ∀ c ∈ rest, isBlank c = true := by
      intro c hc
      by_contra hsolid
      exact decodePoints_normalize_ne hend ⟨c, hc, by simpa using hsolid⟩ _ hpoints
    obtain ⟨u, rfl, hread, hopen, -⟩ := exists_of_behindArray hend
    have hsplit : '[' :: (u ++ ']' :: rest) = '[' :: (u ++ [']']) ++ rest := by simp
    have htrim : trim ('[' :: (u ++ ']' :: rest)) = '[' :: (u ++ [']']) := by
      rw [hsplit, trim_append_gap _ hblank]
      exact trim_of_solid ⟨'[', _, rfl, by decide⟩ ⟨'[' :: u, ']', rfl, by decide⟩
    rw [htrim] at hpoints
    exact ⟨hsilent, _, rest, by rw [htext, hsplit], isBalanced_of_behindArray hread hopen, hblank,
      hpoints⟩
  · rw [hdata, htext, List.cons_append] at hpoints
    exact absurd hpoints (decodePoints_normalize_ne (behindArray_append hend stray)
      ⟨c, List.mem_append_right rest hc, hsolid⟩ _)

end IsSection

/-- Stray text behind the array fails: a later line that is not blank and neither sets a field nor
names data makes the text no chart. Of a chart all later lines are silent, and its points are those
of a balanced array behind which there are only blanks on its last line. -/
theorem parse_of_isSection {s : List Char} {before : List (List Char)} {first start : List Char}
    {body later : List (List Char)} (h : IsSection s before first start body later) :
    ((∃ line ∈ later, line ≠ [] ∧ LineKind.of line = .other) →
      ∃ e, Description.parse s = .error e) ∧
    ∀ d, Description.parse s = .ok d → (∀ line ∈ later, IsSilent line) ∧
      ∃ array gap, ['\n'].intercalate (start :: body) = array ++ gap ∧ IsBalanced array ∧
        (∀ c ∈ gap, isBlank c = true) ∧ decodePoints (normalize array) = .ok d.points := by
  refine ⟨?_, fun d => h.of_parse⟩
  rintro ⟨line, hline, hne, hkind⟩
  cases hparse : Description.parse s with
  | error e => exact ⟨e, rfl⟩
  | ok d =>
    rcases (h.of_parse hparse).1 line hline with rfl | hscalar | hdata
    · exact absurd rfl hne
    · obtain ⟨⟨f, v⟩, hline⟩ := Option.isSome_iff_exists.mp hscalar
      rw [LineKind.of, hline] at hkind
      cases hkind
    · rw [hkind] at hdata
      cases hdata

/-- A chart of one point, on two lines, with a title and some text behind it. -/
def withText (text : String) : List Char :=
  "layout: bar\ndata: [\x7b\"key\": \"a]\",\n\"value\": 1\x7d]\ntitle: T\n".toList ++ text.toList

/-- The lines of such a chart. -/
theorem isSection_withText (text : String) (h : trimmedLines (withText text) =
      ["layout: bar".toList, "data: [\x7b\"key\": \"a]\",".toList, "\"value\": 1\x7d]".toList,
        "title: T".toList, text.toList]) :
    IsSection (withText text) ["layout: bar".toList] "data: [\x7b\"key\": \"a]\",".toList
      "[\x7b\"key\": \"a]\",".toList ["\"value\": 1\x7d]".toList] ["title: T".toList, text.toList] where
  lines := h
  not_data := by
    have hkind : LineKind.of "layout: bar".toList = .scalar .layout "bar".toList := by decide +kernel
    rw [List.forall_mem_singleton, hkind]
    exact fun t => LineKind.noConfusion
  first_data := by decide +kernel
  bracket := by decide
  stays_open front line back heq := by
    cases front with
    | nil => decide +kernel
    | cons l front => simp at heq
  closes := by decide +kernel
  plain := by decide +kernel

theorem exists_parse_withText (text : String)
    (h : (Description.parse (withText text)).toBool = true) :
    ∃ d, Description.parse (withText text) = .ok d := by
  cases hparse : Description.parse (withText text) with
  | error e =>
    rw [hparse] at h
    cases h
  | ok d => exact ⟨d, rfl⟩

/-- Stray text behind the array fails, and another title does not. -/
theorem parse_of_isSection_withText :
    (∃ e, Description.parse (withText "stray") = .error e) ∧
    ∃ d, Description.parse (withText "title: U") = .ok d ∧
      ∀ line ∈ ["title: T".toList, "title: U".toList], IsSilent line := by
  have hstray := parse_of_isSection (isSection_withText "stray" (by decide +kernel))
  have htitle := parse_of_isSection (isSection_withText "title: U" (by decide +kernel))
  obtain ⟨d, hparse⟩ := exists_parse_withText "title: U" (by decide +kernel)
  exact ⟨hstray.1 ⟨"stray".toList, by simp, by decide, by decide +kernel⟩, d, hparse,
    (htitle.2 d hparse).1⟩

/-- Some text behind the array is ignored: the text of a line of data without a bracket. -/
theorem parse_of_isSection_ne :
    (∃ before first start body later,
      IsSection (withText "data: junk") before first start body later ∧ "data: junk".toList ∈ later) ∧
    (∃ d, Description.parse (withText "data: junk") = .ok d) ∧
      Description.parse (withText "data: junk") = Description.parse (withText "") :=
  ⟨⟨_, _, _, _, _, isSection_withText _ (by decide +kernel), by simp⟩,
    exists_parse_withText _ (by decide +kernel), by decide +kernel⟩

end Chartdown.Chart
