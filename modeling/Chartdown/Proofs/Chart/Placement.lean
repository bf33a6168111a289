import Chartdown.Proofs.Chart.Outline

/-!
# Where the data stands among the fields

A description consists of field lines and of one block of data lines. The block ends on the line on
which its array is closed, so the lines in front of it and those behind it are read alike, and its
own lines are data whatever they look like.

## Key results

- `foldl_addLine_block`: a block is taken in as its data and leaves the fields alone
- `foldl_addLine_fieldLines`: field lines outside an open array set their fields
- `parse_placed`: a block may stand anywhere among the field lines
-/

namespace Chartdown.Chart

open Text

/-- A line that sets a field: its name, a colon and a value, indented or not. -/
structure FieldLine where
  indent : List Char := []
  field : Field
  value : List Char
  indent_blank : ∀ c ∈ indent, isBlank c = true := by decide
  feed_not_mem : '\n' ∉ indent ++ value := by decide

/-- The line. -/
def FieldLine.text (l : FieldLine) : List Char := l.indent ++ (l.field.name ++ ':' :: l.value)

/-- What a line sets. -/
def FieldLine.record (l : FieldLine) : Field × List Char := (l.field, trim l.value)

/-- The value of the last of some lines for a field, without the blanks at its ends. It is empty
where no line sets the field. -/
def valueIn (ls : List FieldLine) (f : Field) : List Char :=
  ((ls.filter (·.field = f)).getLast?.map (trim ·.value)).getD []

/-- What is kept of the lines of a block: the first one from its first bracket on, and all of them
without the blanks at their ends. -/
def keptLines (first : List Char) (rest : List (List Char)) : List (List Char) :=
  (trim first).dropWhile (· != '[') :: rest.map trim

/-- Lines of which the first starts the data and has a bracket. The array is closed behind the last
line and behind no earlier one. -/
structure DataBlock where
  first : List Char
  rest : List (List Char)
  feed_not_mem : ∀ line ∈ first :: rest, '\n' ∉ line
  marked : dataMark <+: trim first
  bracket : '[' ∈ first
  closed : (({} : Nesting).read (keptLines first rest).flatten).closed = true
  open_before : ∀ n < (keptLines first rest).length,
    (({} : Nesting).read ((keptLines first rest).take n).flatten).closed = false

namespace DataBlock

/-- The lines of a block. -/
def lines (b : DataBlock) : List (List Char) := b.first :: b.rest

/-- The data that is kept of a block. -/
def data (b : DataBlock) : List Char := ['\n'].intercalate (keptLines b.first b.rest)

end DataBlock

/-- The text in which a block stands behind some field lines and in front of others. -/
def placed (front : List FieldLine) (b : DataBlock) (back : List FieldLine) : List Char :=
  ['\n'].intercalate (front.map FieldLine.text ++ (b.lines ++ back.map FieldLine.text))

/-- The chart of some fields and of the text of its data. -/
def chartOf (fields : Fields) (data : List Char) : Except Error Description :=
  if fields .layout = [] then .error .missingLayout
  else match decodePoints (DataText.normalize data) with
    | .error cause => .error (.malformedData cause)
    | .ok points => .ok {
        kind := String.ofList (fields .layout)
        points
        keysAreNumeric := points.all (·.key.isNumeric)
        sizeHint := String.ofList (fields .height)
        label := String.ofList (fields .label)
        title := String.ofList (fields .title)
        colorHint := String.ofList (fields .color) }

theorem Outline.describe_eq_chartOf {o : Outline} (h : o.dataText ≠ []) :
    o.describe = chartOf o.fields o.dataText := by
  cases hpoints : decodePoints (DataText.normalize o.dataText) <;>
    simp [describe, chartOf, h, hpoints]

/-! ### Field lines -/

namespace FieldLine

theorem feed_not_mem_text (l : FieldLine) : '\n' ∉ l.text := by
  have hline := l.feed_not_mem
  have hname : '\n' ∉ l.field.name := by cases l.field <;> decide
  rw [List.mem_append, not_or] at hline
  simp only [text, List.mem_append, List.mem_cons, not_or]
  exact ⟨hline.1, hname, by decide, hline.2⟩

/-- Without the blanks at its ends, a field line sets its field to the trimmed value. -/
theorem scalarLine?_trim_text (l : FieldLine) :
    scalarLine? (trim l.text) = some l.record := by
  have hsolid : StartsSolid (l.field.name ++ ':' :: l.value) := by
    cases l.field <;> exact ⟨_, _, rfl, by decide⟩
  have hcolon : isBlank ':' = false := by decide
  -- The blanks at the end are those of the value, since the colon in front of it is solid.
  rw [text, trim_gap_append l.indent_blank, trim_of_startsSolid hsolid,
    dropEndWhile_append_of_mem List.mem_cons_self hcolon, dropEndWhile_cons_of_neg hcolon,
    scalarLine?_name_append, trim_dropEndWhile, record]

theorem filterMap_scalarLine?_text (ls : List FieldLine) :
    ((ls.map text).map trim).filterMap scalarLine? = ls.map record := by
  simp [List.filterMap_map, Function.comp_def, scalarLine?_trim_text]

end FieldLine

/-- What field lines set is the value of the last line of each field. -/
theorem setAll_fieldLines (ls : List FieldLine) :
    Outline.setAll (fun _ => []) (ls.map FieldLine.record) = valueIn ls := by
  funext f
  rw [Outline.setAll_apply, lastValue?_eq_getLast?, List.filter_map, List.getLast?_map,
    Option.map_map]
  rfl

/-- Field lines outside an open array set their fields. -/
theorem foldl_addLine_fieldLines {o : Outline} (hopen : o.isOpen = false) (ls : List FieldLine) :
    ((ls.map FieldLine.text).map trim).foldl Outline.addLine o =
      { o with fields := Outline.setAll o.fields (ls.map FieldLine.record) } := by
  rw [Outline.foldl_addLine_of_asides hopen, FieldLine.filterMap_scalarLine?_text]
  simp only [List.map_map, List.forall_mem_map]
  intro l _
  exact .inl (by simp [l.scalarLine?_trim_text])

/-! ### Blocks -/

namespace DataBlock
variable (b : DataBlock)

/-- The first line of a block starts the data with a bracket. -/
theorem exists_trim_first : ∃ r, keptLines b.first b.rest = ('[' :: r) :: b.rest.map trim ∧
    LineKind.of (trim b.first) = .data ('[' :: r) := by
  obtain ⟨t, ht⟩ := b.marked
  -- The bracket is trimmed off neither with the blanks nor with the mark.
  have hmem : '[' ∈ t := by
    have hfirst := mem_trim_of_mem b.bracket (by decide)
    rw [← ht, List.mem_append] at hfirst
    exact hfirst.resolve_left (by decide)
  have hdrop : (dataMark ++ t).dropWhile (· != '[') = t.dropWhile (· != '[') :=
    List.dropWhile_append_of_pos (by decide)
  obtain ⟨r, hr⟩ : ∃ r, t.dropWhile (· != '[') = '[' :: r := by
    cases hr : t.dropWhile (· != '[') with
    | nil => simpa using List.dropWhile_eq_nil_iff.mp hr '[' hmem
    | cons c r =>
      have hc := List.head?_dropWhile_not (· != '[') t
      rw [hr] at hc
      exact ⟨r, by simpa using hc⟩
  refine ⟨r, ?_, ?_⟩
  · rw [keptLines, ← ht, hdrop, hr]
  · rw [← ht, LineKind.of_dataMark_append, hr]

/-- A block is taken in as its data, whatever its lines look like, and leaves the fields alone. -/
theorem foldl_addLine_block {o : Outline} (hdata : o.inData = false) (hlines : o.dataLines = [])
    (hnesting : o.nesting = {}) :
    (b.lines.map trim).foldl Outline.addLine o =
      { o with
        inData := true
        dataLines := (keptLines b.first b.rest).reverse
        nesting := ({} : Nesting).read (keptLines b.first b.rest).flatten } := by
  obtain ⟨r, hkept, hkind⟩ := b.exists_trim_first
  have hopen : o.isOpen = false := by simp [Outline.isOpen, hdata]
  have hfirst : o.addLine (trim b.first) =
      ({ o with inData := true } : Outline).addData ('[' :: r) := by
    rw [Outline.addLine, if_neg (by simp [hopen]), hkind]
    rfl
  rw [lines, List.map_cons, List.foldl_cons, hfirst, Outline.foldl_addLine_of_open rfl]
  · rw [hkept, List.flatten_cons, Nesting.read_append, List.reverse_cons]
    simp only [Outline.addData, hlines, hnesting]
  · intro front line back heq
    -- The lines before this one are the first of the block and `front`.
    have hbefore := b.open_before (front.length + 1) (by simp [hkept, heq])
    rw [hkept, heq, List.take_succ_cons, List.take_left, List.flatten_cons,
      Nesting.read_append] at hbefore
    simpa only [Outline.addData, hnesting] using hbefore

/-- The data of a block is not blank. -/
theorem trim_data_ne_nil : trim b.data ≠ [] := by
  obtain ⟨r, hkept, -⟩ := b.exists_trim_first
  have hline : ('[' :: r) <:+: b.data :=
    isInfix_intercalate (by rw [hkept]; exact List.mem_cons_self)
  exact List.ne_nil_of_mem (mem_trim_of_mem (hline.subset List.mem_cons_self) (by decide))

end DataBlock

/-! ### Descriptions -/

/-- The lines in front of a block and those behind it are read alike. -/
theorem parse_placed_eq (front back : List FieldLine) (b : DataBlock) :
    Description.parse (placed front b back) = chartOf (valueIn (front ++ back)) b.data := by
  have hfeed : ∀ line ∈ front.map FieldLine.text ++ (b.lines ++ back.map FieldLine.text),
      '\n' ∉ line := by
    simp only [List.forall_mem_append, List.forall_mem_map]
    exact ⟨fun l _ => l.feed_not_mem_text, b.feed_not_mem, fun l _ => l.feed_not_mem_text⟩
  have hne : front.map FieldLine.text ++ (b.lines ++ back.map FieldLine.text) ≠ [] := by
    simp [DataBlock.lines]
  have hlines : tidyLines (placed front b back) = (front.map FieldLine.text).map trim ++
      (b.lines.map trim ++ (back.map FieldLine.text).map trim) := by
    rw [placed, tidyLines_intercalate hne hfeed, List.map_append, List.map_append]
  -- The block leaves an array that is closed, so the lines behind it are field lines again.
  rw [parse_eq_describe, hlines, List.foldl_append, List.foldl_append,
    foldl_addLine_fieldLines (o := {}) rfl, b.foldl_addLine_block rfl rfl rfl,
    foldl_addLine_fieldLines (by simp [Outline.isOpen, b.closed]), Outline.describe_eq_chartOf]
  · have hfields : Outline.setAll (Outline.setAll (fun _ => [])
        (front.map FieldLine.record)) (back.map FieldLine.record) = valueIn (front ++ back) := by
      rw [← Outline.setAll_append, ← List.map_append, setAll_fieldLines]
    simp only [hfields, Outline.dataText, List.reverse_reverse, chartOf, DataText.normalize_trim,
      DataBlock.data]
  · simpa only [Outline.dataText, List.reverse_reverse, DataBlock.data] using b.trim_data_ne_nil

/-- A description has the fields of its lines, and its points are those of the block alone: the
block may stand anywhere among the field lines, and of these the lines of one field may stand
anywhere among those of the others. -/
theorem parse_placed (b : DataBlock) (front back : List FieldLine) :
    Description.parse (placed front b back) = chartOf (valueIn (front ++ back)) b.data ∧
      ∀ front' back' : List FieldLine,
        (∀ f, (front' ++ back').filter (·.field = f) = (front ++ back).filter (·.field = f)) →
          Description.parse (placed front' b back') = Description.parse (placed front b back) := by
  refine ⟨parse_placed_eq front back b, fun front' back' h => ?_⟩
  have hvalues : valueIn (front' ++ back') = valueIn (front ++ back) := by
    funext f
    rw [valueIn, valueIn, h f]
  rw [parse_placed_eq, parse_placed_eq, hvalues]

/-- A block with a bracket and the look of a field in a key. -/
def sampleBlock : DataBlock where
  first := " data: [\x7bkey: 'title: ]',".toList
  rest := ["value: 1\x7d,".toList, "  ]\r".toList]
  feed_not_mem := by decide
  marked := by decide
  bracket := by decide
  closed := by decide
  open_before := by decide

theorem parse_placed_between :
    let pie : FieldLine := { field := .layout, value := " pie".toList }
    let label : FieldLine := { field := .label, value := " a".toList }
    let bar : FieldLine := { field := .layout, value := " bar".toList }
    let chart : Description :=
      { kind := "bar", label := "a"
        points := [⟨.text (Utf16.ofString "title: ]"), .double (.ofInt 1)⟩] }
    Description.parse (placed [pie, label] sampleBlock [bar]) = .ok chart ∧
      Description.parse (placed [] sampleBlock [pie, bar, label]) = .ok chart := by
  intro pie label bar chart
  obtain ⟨hparse, hmoved⟩ := parse_placed sampleBlock [pie, label] [bar]
  have hchart : chartOf (valueIn [pie, label, bar]) sampleBlock.data = .ok chart := by
    decide +kernel
  refine ⟨hparse.trans hchart, (hmoved [] [pie, bar, label] fun f => ?_).trans
    (hparse.trans hchart)⟩
  cases f <;> rfl

end Chartdown.Chart
