import Chartdown.Proofs.Chart.Nesting
import Chartdown.Proofs.Text.Tidy

/-!
# What an outline records

The reader of a description goes through its lines and keeps a state. Here the outcome is told by
the lines themselves: which of them set a field (`Outline.recorded`), what the last one of a field
says (`lastValue?`), and what is kept as data.

## Key results

- `fields_foldl_addLine`: a field has the value of the last line that sets it
- `recorded_clean`: recorded values are trimmed and hold no line feed
- `dataText_eq_nil_iff`: the data is empty when every line of it is blank
- `foldl_addLine_of_open`: lines are data as long as the array stays open
- `foldl_addLine_of_asides`: lines outside an open array set fields and do nothing else
- `parse_eq_describe`: blank lines at the ends of a text make no difference
-/

namespace Chartdown.Chart

open Text

/-! ### Scalar lines -/

theorem scalarLine?_eq_some {line : List Char} {f : Field} {value : List Char}
    (h : scalarLine? line = some (f, value)) : value = trim (line.drop (f.name.length + 1)) := by
  obtain ⟨g, -, hg⟩ := List.exists_of_findSome?_eq_some h
  split at hg
  · simp only [Option.some.injEq, Prod.mk.injEq] at hg
    obtain ⟨rfl, hvalue⟩ := hg
    exact hvalue.symm
  · exact nomatch hg

/-- The name of a field and a colon make a line that sets the field. -/
theorem scalarLine?_name_append (f : Field) (s : List Char) :
    scalarLine? (f.name ++ ':' :: s) = some (f, trim s) := by
  cases f <;> rfl

/-- The line that starts the data sets no field. -/
theorem scalarLine?_dataMark_append (s : List Char) : scalarLine? (dataMark ++ s) = none := by
  rw [scalarLine?, List.findSome?_eq_none_iff]
  intro f _
  have hstart : (f.name ++ [':']).isPrefixOf (dataMark ++ s) = false := by cases f <;> rfl
  rw [if_neg (by simp [hstart])]

/-- It starts the data from its first bracket on. -/
theorem LineKind.of_dataMark_append (s : List Char) :
    LineKind.of (dataMark ++ s) = .data (s.dropWhile (· != '[')) := by
  have hmark : dataMark.isPrefixOf (dataMark ++ s) = true :=
    List.isPrefixOf_iff_prefix.mpr (List.prefix_append _ _)
  rw [LineKind.of, scalarLine?_dataMark_append]
  simp only [hmark, if_true, List.drop_left]

theorem Fields.set_apply (fields : Fields) (f g : Field) (value : List Char) :
    fields.set f value g = if g = f then value else fields g := rfl

namespace Outline

/-! ### One line -/

theorem addLine_of_isOpen {o : Outline} (h : o.isOpen = true) (line : List Char) :
    o.addLine line = o.addData line := by
  simp [addLine, h]

/-- Outside an open array a line sets the field that it names. -/
theorem addLine_of_scalarLine? {o : Outline} (h : o.isOpen = false) {line : List Char} {f : Field}
    {value : List Char} (hline : scalarLine? line = some (f, value)) :
    o.addLine line = { o with fields := o.fields.set f value } := by
  simp [addLine, h, LineKind.of, hline]

/-- A line that names no field leaves the fields alone. -/
theorem fields_addLine_of_none {o : Outline} {line : List Char} (hline : scalarLine? line = none) :
    (o.addLine line).fields = o.fields := by
  unfold addLine LineKind.of
  rw [hline]
  split
  · rfl
  · by_cases hdata : dataMark.isPrefixOf line = true
    · simp only [hdata, if_true]
      split <;> rfl
    · simp only [hdata, Bool.false_eq_true, if_false]
      split <;> rfl

/-- The field that a line sets where the reader stands, and its value. -/
def record? (o : Outline) (line : List Char) : Option (Field × List Char) :=
  if o.isOpen then none else scalarLine? line

theorem fields_addLine (o : Outline) (line : List Char) (f : Field) :
    (o.addLine line).fields f = match o.record? line with
      | some (g, value) => if f = g then value else o.fields f
      | none => o.fields f := by
  by_cases h : o.isOpen = true
  · simp [addLine_of_isOpen h, record?, h, addData]
  · rw [Bool.not_eq_true] at h
    cases hline : scalarLine? line with
    | none => simp [record?, h, hline, fields_addLine_of_none hline]
    | some r =>
      obtain ⟨g, value⟩ := r
      rw [addLine_of_scalarLine? h hline]
      simp [record?, h, hline, Fields.set_apply]

/-! ### All lines -/

/-- The fields that lines set from where the reader stands, in order. -/
def recorded (o : Outline) : List (List Char) → List (Field × List Char)
  | [] => []
  | line :: lines => (o.record? line).toList ++ (o.addLine line).recorded lines

end Outline

/-- The value of the last line that sets a field. -/
def lastValue? (f : Field) : List (Field × List Char) → Option (List Char)
  | [] => none
  | (g, value) :: rest => (lastValue? f rest).or (if f = g then some value else none)

theorem lastValue?_eq_getLast? (f : Field) (recorded : List (Field × List Char)) :
    lastValue? f recorded = (recorded.filter (·.1 = f)).getLast?.map (·.2) := by
  induction recorded with
  | nil => rfl
  | cons r rest ih =>
    obtain ⟨g, value⟩ := r
    rw [lastValue?, ih]
    by_cases hf : f = g
    · rw [List.filter_cons_of_pos (by simp [hf]), List.getLast?_cons]
      cases (rest.filter (·.1 = f)).getLast? <;> simp [hf]
    · rw [List.filter_cons_of_neg (by simpa using Ne.symm hf)]
      simp [hf]

namespace Outline

/-- A field has the value of the last line that sets it. -/
theorem fields_foldl_addLine (o : Outline) (lines : List (List Char)) (f : Field) :
    (lines.foldl addLine o).fields f = (lastValue? f (o.recorded lines)).getD (o.fields f) := by
  -- The lines behind the first are read from where it leaves the reader, and they have precedence.
  induction lines generalizing o with
  | nil => rfl
  | cons line lines ih =>
    rw [List.foldl_cons, ih, recorded, fields_addLine]
    cases hrecord : o.record? line with
    | none => simp
    | some r =>
      obtain ⟨g, value⟩ := r
      by_cases hf : f = g
      · subst hf
        cases hlast : lastValue? f ((o.addLine line).recorded lines) <;> simp [lastValue?, hlast]
      · simp [lastValue?, hf]

/-- What lines record is trimmed and stands on one line. -/
theorem recorded_clean (o : Outline) {lines : List (List Char)} (hlines : ∀ line ∈ lines, '\n' ∉ line)
    {f : Field} {value : List Char} (h : (f, value) ∈ o.recorded lines) :
    trim value = value ∧ '\n' ∉ value := by
  induction lines generalizing o with
  | nil => exact nomatch h
  | cons line lines ih =>
    rw [List.forall_mem_cons] at hlines
    rw [recorded, List.mem_append, Option.mem_toList] at h
    rcases h with h | h
    · have hline : scalarLine? line = some (f, value) := by
        rw [record?] at h
        split at h
        · exact nomatch h
        · exact h
      rw [scalarLine?_eq_some hline]
      refine ⟨trim_trim _, fun hmem => hlines.1 ?_⟩
      exact List.mem_of_mem_drop (mem_of_mem_trim hmem)
    · exact ih _ hlines.2 h

/-! ### Whole texts -/

theorem not_mem_of_mem_trimmedLines {s line : List Char} (h : line ∈ trimmedLines s) :
    '\n' ∉ line := by
  obtain ⟨part, hpart, rfl⟩ := List.mem_map.mp h
  exact fun hmem => not_mem_of_mem_cutAt hpart (mem_of_mem_trim hmem)

/-- The fields that the lines of a text set, in order. -/
def recordedIn (s : List Char) : List (Field × List Char) :=
  ({} : Outline).recorded (trimmedLines s)

theorem fields_of (s : List Char) (f : Field) :
    (Outline.of s).fields f = (lastValue? f (recordedIn s)).getD [] :=
  fields_foldl_addLine {} (trimmedLines s) f

theorem mem_of_lastValue? {f : Field} {value : List Char} {recorded : List (Field × List Char)}
    (h : lastValue? f recorded = some value) : (f, value) ∈ recorded := by
  induction recorded with
  | nil => exact nomatch h
  | cons r rest ih =>
    obtain ⟨g, v⟩ := r
    rw [lastValue?, Option.or_eq_some_iff] at h
    rcases h with h | ⟨-, h⟩
    · exact List.mem_cons_of_mem _ (ih h)
    · split at h
      · simp_all
      · exact nomatch h

/-- A field of a text is trimmed and stands on one line. -/
theorem fields_of_clean (s : List Char) (f : Field) :
    trim ((Outline.of s).fields f) = (Outline.of s).fields f ∧ '\n' ∉ (Outline.of s).fields f := by
  rw [fields_of]
  cases h : lastValue? f (recordedIn s) with
  | none => exact ⟨rfl, List.not_mem_nil⟩
  | some value =>
    exact recorded_clean {} (fun line hline => not_mem_of_mem_trimmedLines hline)
      (mem_of_lastValue? h)

theorem fields_of_eq_nil_iff {s : List Char} {f : Field} :
    (Outline.of s).fields f = [] ↔
      lastValue? f (recordedIn s) = none ∨ lastValue? f (recordedIn s) = some [] := by
  rw [fields_of]
  cases lastValue? f (recordedIn s) <;> simp

/-! ### Data -/

/-- The data is empty when all its lines are blank. -/
theorem dataText_eq_nil_iff (o : Outline) :
    o.dataText = [] ↔ ∀ line ∈ o.dataLines, isBlankText line = true := by
  rw [dataText, trim_eq_nil_iff,
    forall_mem_intercalate (p := fun c => isBlank c = true) (by decide)]
  simp [isBlankText]

/-! ### Lines of data -/

/-- Lines are data as long as the array stays open before each of them. -/
theorem foldl_addLine_of_open {o : Outline} (hdata : o.inData = true) {lines : List (List Char)}
    (hopen : ∀ front line back, lines = front ++ line :: back →
      (o.nesting.read front.flatten).closed = false) :
    lines.foldl addLine o =
      { o with
        dataLines := lines.reverse ++ o.dataLines
        nesting := o.nesting.read lines.flatten } := by
  induction lines generalizing o with
  | nil => rfl
  | cons line lines ih =>
    -- Nothing was read before the first line, so the assumption says that the reader starts open.
    have hclosed : o.nesting.closed = false := hopen [] line lines rfl
    have hisOpen : o.isOpen = true := by simp [isOpen, hdata, hclosed]
    rw [List.foldl_cons, addLine_of_isOpen hisOpen, ih (by exact hdata)]
    · simp [addData, Nesting.read_append]
    · intro front next back heq
      have := hopen (line :: front) next back (by rw [heq]; rfl)
      rwa [List.flatten_cons, Nesting.read_append] at this

/-! ### Lines beside the data -/

/-- A line that does nothing but set a field where the reader stands: it sets one, it is empty, or
it stands before the data and does not start it. -/
def IsAside (o : Outline) (line : List Char) : Prop :=
  (scalarLine? line).isSome = true ∨ line = [] ∨
    (o.inData = false ∧ dataMark.isPrefixOf line = false)

/-- Set fields one after the other. -/
def setAll (fields : Fields) (recorded : List (Field × List Char)) : Fields :=
  recorded.foldl (fun fields r => fields.set r.1 r.2) fields

theorem setAll_append (fields : Fields) (recorded more : List (Field × List Char)) :
    setAll fields (recorded ++ more) = setAll (setAll fields recorded) more :=
  List.foldl_append

theorem setAll_apply (fields : Fields) (recorded : List (Field × List Char)) (f : Field) :
    setAll fields recorded f = (lastValue? f recorded).getD (fields f) := by
  induction recorded generalizing fields with
  | nil => rfl
  | cons r rest ih =>
    obtain ⟨g, value⟩ := r
    rw [setAll, List.foldl_cons, ← setAll, ih, lastValue?, Fields.set_apply]
    cases lastValue? f rest <;> by_cases h : f = g <;> simp [h]

theorem addLine_of_isAside {o : Outline} (hopen : o.isOpen = false) {line : List Char}
    (h : o.IsAside line) :
    o.addLine line = { o with fields := setAll o.fields (scalarLine? line).toList } := by
  cases hline : scalarLine? line with
  | some r =>
    obtain ⟨f, value⟩ := r
    rw [addLine_of_scalarLine? hopen hline]
    rfl
  | none =>
    rcases h with h | rfl | ⟨hdata, hmark⟩
    · rw [hline] at h
      exact nomatch h
    · have hkind : LineKind.of [] = .other := by decide
      simp [addLine, hopen, hkind, setAll]
    · have hkind : LineKind.of line = .other := by simp [LineKind.of, hline, hmark]
      rw [addLine, if_neg (by simp [hopen]), hkind]
      show (if (o.inData && !line.isEmpty) = true then _ else o) = _
      rw [if_neg (by simp [hdata])]
      rfl

/-- Lines outside an open array that do nothing but set fields. -/
theorem foldl_addLine_of_asides {o : Outline} (hopen : o.isOpen = false) {lines : List (List Char)}
    (h : ∀ line ∈ lines, o.IsAside line) :
    lines.foldl addLine o = { o with fields := setAll o.fields (lines.filterMap scalarLine?) } := by
  induction lines generalizing o with
  | nil => rfl
  | cons line lines ih =>
    rw [List.forall_mem_cons] at h
    have hrest := @ih { o with fields := setAll o.fields (scalarLine? line).toList } hopen h.2
    rw [List.foldl_cons, addLine_of_isAside hopen h.1, hrest, List.filterMap_cons]
    cases scalarLine? line <;> rfl

/-- Empty lines set no fields. -/
theorem filterMap_scalarLine?_replicate (n : Nat) :
    (List.replicate n []).filterMap scalarLine? = [] := by
  have hnil : scalarLine? [] = none := by decide
  rw [List.filterMap_eq_nil_iff]
  intro line hline
  rw [List.eq_of_mem_replicate hline, hnil]

/-! ### Blank lines at the ends -/

theorem dataText_addLine_nil (o : Outline) : (o.addLine []).dataText = o.dataText := by
  by_cases hopen : o.isOpen = true
  · -- The empty line is data, and the line feed in front of it is trimmed off again.
    rw [addLine_of_isOpen hopen]
    show trim (['\n'].intercalate ([] :: o.dataLines).reverse) = _
    rw [List.reverse_cons, dataText]
    by_cases hlines : o.dataLines = []
    · rw [hlines]
      rfl
    · rw [intercalate_append _ (by simpa using hlines) (by simp)]
      exact trim_append_gap _ (by decide)
  · rw [Bool.not_eq_true] at hopen
    rw [addLine_of_isAside hopen (.inr (.inl rfl))]
    rfl

/-- Empty lines at the end make no difference to the description. -/
theorem describe_foldl_nil (o : Outline) (n : Nat) :
    ((List.replicate n []).foldl addLine o).describe = o.describe := by
  induction n generalizing o with
  | zero => rfl
  | succ n ih =>
    have hfields : (o.addLine []).fields = o.fields := fields_addLine_of_none (by decide)
    rw [List.replicate_succ, List.foldl_cons, ih, describe, describe, dataText_addLine_nil, hfields]

/-- Empty lines at the start make no difference. -/
theorem foldl_nil_eq (n : Nat) :
    (List.replicate n []).foldl addLine ({} : Outline) = {} := by
  rw [foldl_addLine_of_asides rfl fun line hline => .inr (.inl (List.eq_of_mem_replicate hline))]
  induction n with
  | zero => rfl
  | succ n ih => exact ih

end Outline

/-- What an outline describes: its data, and what its fields say. -/
theorem Outline.describe_eq_ok_iff {o : Outline} {d : Description} :
    o.describe = .ok d ↔ o.fields .layout ≠ [] ∧ o.dataText ≠ [] ∧ ∃ points,
      decodePoints (DataText.normalize o.dataText) = .ok points ∧ d = {
        kind := String.ofList (o.fields .layout)
        points
        keysAreNumeric := points.all (·.key.isNumeric)
        sizeHint := String.ofList (o.fields .height)
        label := String.ofList (o.fields .label)
        title := String.ofList (o.fields .title)
        colorHint := String.ofList (o.fields .color) } := by
  by_cases hlayout : o.fields .layout = []
  · simp [describe, hlayout]
  by_cases hdata : o.dataText = []
  · simp [describe, hlayout, hdata]
  · rw [describe, if_neg hlayout, if_neg hdata]
    cases decodePoints (DataText.normalize o.dataText) with
    | error cause => simp
    | ok points => simp [hlayout, hdata, eq_comm]

/-- The points of a description are those of its data. -/
theorem Outline.decodePoints_of_describe {o : Outline} {d : Description} (h : o.describe = .ok d) :
    decodePoints (DataText.normalize o.dataText) = .ok d.points := by
  obtain ⟨-, -, points, hpoints, rfl⟩ := describe_eq_ok_iff.mp h
  exact hpoints

/-- A text is described by its lines: the blank ones at its ends make no difference. -/
theorem parse_eq_describe (s : List Char) :
    Description.parse s = ((tidyLines s).foldl Outline.addLine {}).describe := by
  obtain ⟨front, back, hs, hfront, hback⟩ := exists_trim_eq s
  -- What is trimmed off the text makes empty lines on both sides.
  have hlines : tidyLines s = List.replicate (front.count '\n') [] ++
      (trimmedLines s ++ List.replicate (back.count '\n') []) := by
    conv_lhs => rw [hs, tidyLines_gap_append hfront, tidyLines_append_gap _ hback]
    rfl
  rw [hlines, List.foldl_append, Outline.foldl_nil_eq, List.foldl_append,
    Outline.describe_foldl_nil]
  rfl

end Chartdown.Chart
