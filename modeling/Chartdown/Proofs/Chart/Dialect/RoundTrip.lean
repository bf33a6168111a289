import Chartdown.Proofs.Chart.Dialect.Reading

/-!
# A chart is read back whatever way it is written

However a chart is written, its text is read as the points that are written, in order. What is
needed for it is that the layout is given, that the numbers have finite doubles and that the keys
are inert: the rules of the dialect see no strings, and a key in which one of them shows is changed
or makes the data unreadable.

## Key results

- `Writing.parse_text`: the description that is read
- `Writing.points_parse_text`: the points that are read
- `Writing.points_parse_text_ne`: none of the conditions can be left out
-/

namespace Chartdown.Chart.Dialect

open Json (NumberText)

namespace Writing

/-- The value of a field: what the last line of it says. -/
def field (w : Writing) (f : Field) : List Char := (lastValue? f w.recorded).getD []

/-- The description that is meant. -/
def description (w : Writing) : Description where
  kind := String.ofList (w.field .layout)
  points := w.points
  keysAreNumeric := w.points.all (·.key.isNumeric)
  sizeHint := String.ofList (w.field .height)
  label := String.ofList (w.field .label)
  title := String.ofList (w.field .title)
  colorHint := String.ofList (w.field .color)

/-- A chart is read as the description that is meant. -/
theorem parse_text (w : Writing) (hinert : w.array.items.IsInert) (hfinite : w.array.items.IsFinite)
    (hlayout : w.field .layout ≠ []) : Description.parse w.text = .ok w.description := by
  obtain ⟨o, hparse, hfields, hdata⟩ := w.parse_text_eq
  have hne : o.dataText ≠ [] := by
    obtain ⟨c, s, hcons, -⟩ := ((w.array.change (tidied .feed)).tidies_core .none).starts
    rw [hdata, hcons]
    exact List.cons_ne_nil c s
  -- Tidying the lines makes other gaps, so the array that is decoded is written another way.
  have hdecode : decodePoints (DataText.normalize o.dataText) = .ok w.points := by
    have hitems : (w.array.change (tidied .feed)).items = w.array.items.change (tidied .feed) := rfl
    rw [hdata, ArrayText.decodePoints_normalize, hitems, ItemsText.points_change, points]
    · exact ItemsText.isInert_change _ hinert
    · exact ItemsText.isFinite_change _ hfinite
  have hfield : ∀ f, o.fields f = w.field f := hfields
  have hkind : ¬ o.fields .layout = [] := by
    rw [hfield]
    exact hlayout
  rw [hparse, Outline.describe, if_neg hkind, if_neg hne, hdecode]
  simp only [hfield]
  rfl

/-- However points are written, they are read, and no others. -/
theorem points_parse_text (w : Writing) (hinert : w.array.items.IsInert)
    (hfinite : w.array.items.IsFinite) (hlayout : w.field .layout ≠ []) :
    ∃ d, Description.parse w.text = .ok d ∧ d.points = w.points :=
  ⟨w.description, w.parse_text hinert hfinite hlayout, rfl⟩

/-- Two points that are written with all sorts of choices, and a layout behind them. -/
def sample : Writing where
  before := ["title: Week".toList, []]
  indent := ⟨[' ', ' '], by decide⟩
  afterMark := .blank
  array := {
    opening := some ⟨['\n', '\t'], by decide⟩
    items := .next {
        keyName := { style := .bare }
        key := .string .single ⟨"a]b [key".toList, by decide⟩
        valueName := { style := .quoted .double, afterColon := .blank }
        value := { whole := ['1', '2'] }
        beforeComma := ⟨['\r', '\n'], by decide⟩
        ending := { beforeComma := some .none, gap := .blank } }
      .none ⟨['\n', '\n'], by decide⟩ (.last {
        keyFirst := false
        keyName := { style := .quoted .single, beforeColon := .blank }
        key := .number { whole := ['7'] }
        valueName := { style := .bare }
        value := { negative := true, whole := ['0'], fraction := ['5'] } }
      { beforeComma := some .feed })
    closed := true }
  after := ["layout: pie".toList]
  before_ok := by decide
  after_ok := by decide
  below_of_opening h := nomatch h
  closed_of_after _ := ⟨Option.some_ne_none _, rfl⟩

theorem points_parse_text_sample :
    (sample.array.items.IsInert ∧ sample.array.items.IsFinite ∧ sample.field .layout ≠ []) ∧
      ∃ d, Description.parse sample.text = .ok d ∧ d.points = sample.points := by
  have hinert : sample.array.items.IsInert := by
    simp only [sample, ItemsText.IsInert, ItemsText.toList, List.forall_mem_cons]
    exact ⟨ScalarText.isInert_of_forall .single (by decide), trivial, List.forall_mem_nil _⟩
  have hfinite : sample.array.items.IsFinite := by decide +kernel
  have hlayout : sample.field .layout ≠ [] := by decide +kernel
  exact ⟨⟨hinert, hfinite, hlayout⟩, sample.points_parse_text hinert hfinite hlayout⟩

/-- A layout is given, and yet the points are not read. -/
def IsLost (w : Writing) : Prop :=
  (∃ layout, (Field.layout, layout) ∈ w.recorded ∧ layout ≠ []) ∧
    ¬ ∃ d, Description.parse w.text = .ok d ∧ d.points = w.points

theorem isLost_of_ne {w : Writing} (hlayout : (Field.layout, "bar".toList) ∈ w.recorded)
    (hne : (Description.parse w.text).map Description.points ≠ .ok w.points) : w.IsLost := by
  refine ⟨⟨_, hlayout, by decide⟩, ?_⟩
  rintro ⟨d, hparse, hpoints⟩
  rw [hparse] at hne
  exact hne (congrArg Except.ok hpoints)

/-- A chart of one point with no choice but its key. -/
def ofKey (key : ScalarText) : Writing where
  before := ["layout: bar".toList]
  afterMark := .none
  array := {
    opening := some .none
    items := .last {
      keyName := { style := .bare }
      key
      valueName := { style := .bare }
      value := { whole := ['1'] } } {}
    closed := true }
  before_ok := by decide
  after_ok := by decide
  below_of_opening h := nomatch h
  closed_of_after h := absurd rfl h

/-- A key that shows an idle comma. -/
def withIdleComma : Writing := ofKey (.string .single ⟨"a,]b".toList, by decide⟩)

/-- A key that shows a bare name. -/
def withBareName : Writing := ofKey (.string .single ⟨"a key: b".toList, by decide⟩)

/-- A key that no double is next to. -/
def withHugeKey : Writing :=
  ofKey (.number { whole := ['1'], exponent := some { mark := 'e', sign := [], digits := "999".toList } })

/-- A layout that a later line takes back. -/
def withoutLayout : Writing :=
  { ofKey (.number { whole := ['1'] }) with
    before := ["layout: bar".toList, "layout:".toList]
    before_ok := by decide }

/-- None of the conditions can be left out: of the keys that are not inert, of the numbers that are
not finite and of the layouts that are taken back there are charts that are not read. -/
theorem points_parse_text_ne :
    withIdleComma.IsLost ∧ withBareName.IsLost ∧ withHugeKey.IsLost ∧ withoutLayout.IsLost := by
  refine ⟨isLost_of_ne ?_ ?_, isLost_of_ne ?_ ?_, isLost_of_ne ?_ ?_, isLost_of_ne ?_ ?_⟩
  all_goals decide +kernel

end Writing

end Chartdown.Chart.Dialect
