import Chartdown.Failure
import Chartdown.Proofs.Chart.Outline
import Chartdown.Proofs.Chart.Points
import Chartdown.Proofs.Json.Members

/-!
# Drawing fails only at descriptions

A text is drawn unless its description cannot be read. What is read is sound (`Description.Sound`),
so that its configuration can be written and read back, and a description is refused for one of three
reasons that the recorded lines and the data tell.

## Key results

- `parse_sound`: what a description that is read is like
- `isPortable_configuration`: its configuration can be written and read back
- `draw_classified`: every text is drawn or refused, and why
-/

namespace Chartdown.Chart

open Text
open Json (depthLimit isPortable isPortable_array_iff isPortable_number isPortable_number_iff
  isPortable_ofMembers_iff isPortable_ofString obstacle? obstacle?_number_eq_none_iff)

/-- What is known of a description that was read. -/
structure Description.Sound (d : Description) : Prop where
  kind_ne : d.kind ≠ ""
  points_ne : d.points ≠ []
  value_finite : ∀ p ∈ d.points, ∃ v, p.value = .double (.finite v)
  key_finite : ∀ p ∈ d.points,
    (∃ s, p.key = .text s) ∨ ∃ n, p.key = .number n ∧ n.toDouble.isFinite = true
  keysAreNumeric_iff : d.keysAreNumeric = true ↔ ∀ p ∈ d.points, p.key.isNumeric = true
  field_clean : ∀ s ∈ [d.kind, d.sizeHint, d.label, d.title, d.colorHint],
    trimmed s = s ∧ '\n' ∉ s.toList

/-! ### Descriptions -/

theorem Point.Describes.key_finite {item : Json} {p : Point} (h : Point.Describes item p) :
    (∃ s, p.key = .text s) ∨ ∃ n, p.key = .number n ∧ n.toDouble.isFinite = true := by
  obtain ⟨-, -, -, -, hkey, -⟩ := h
  cases hp : p.key with
  | text s => exact .inl ⟨s, rfl⟩
  | number n => exact .inr ⟨n, rfl, by simpa [hp, Key.IsFinite] using hkey⟩

theorem Point.Describes.value_finite {item : Json} {p : Point} (h : Point.Describes item p) :
    ∃ v, p.value = .double (.finite v) := by
  obtain ⟨-, n, -, -, -, -, hfinite, hvalue⟩ := h
  cases hn : n.toDouble with
  | finite v => exact ⟨v, by rw [hvalue, hn]⟩
  | infinite negative => simp [hn, Double.isFinite] at hfinite
  | nan => simp [hn, Double.isFinite] at hfinite

/-- Every point of a data array is one that an item describes. -/
theorem exists_describes_of_mem {items : List Json} {points : List Point}
    (h : List.Forall₂ Point.Describes items points) {p : Point} (hp : p ∈ points) :
    ∃ item ∈ items, Point.Describes item p := by
  induction h with
  | nil => exact nomatch hp
  | cons hitem _ ih =>
    rcases List.mem_cons.mp hp with rfl | hp
    · exact ⟨_, List.mem_cons_self, hitem⟩
    · obtain ⟨item, hmem, hdescribes⟩ := ih hp
      exact ⟨item, List.mem_cons_of_mem _ hmem, hdescribes⟩

theorem trimmed_ofList {s : List Char} (h : trim s = s) :
    trimmed (String.ofList s) = String.ofList s := by
  rw [trimmed, String.toList_ofList, h]

/-- A description that is read names its kind, has points, and its numbers are finite. -/
theorem parse_sound {s : List Char} {d : Description} (h : Description.parse s = .ok d) :
    d.Sound := by
  simp only [Description.parse, Outline.describe] at h
  split at h
  · cases h
  rename_i hlayout
  split at h
  · cases h
  split at h
  · cases h
  -- There is a layout, there is data, and the data describes points.
  rename_i points hpoints
  obtain ⟨items, -, hne, hdescribes⟩ := decodePoints_eq_ok_iff.mp hpoints
  simp only [Except.ok.injEq] at h
  subst h
  refine ⟨?_, ?_, ?_, ?_, ?_, ?_⟩
  · simpa using hlayout
  · -- No points are described by no items only, and an empty array is refused.
    rintro rfl
    cases hdescribes
    exact hne rfl
  · intro p hp
    obtain ⟨item, -, hitem⟩ := exists_describes_of_mem hdescribes hp
    exact hitem.value_finite
  · intro p hp
    obtain ⟨item, -, hitem⟩ := exists_describes_of_mem hdescribes hp
    exact hitem.key_finite
  · exact List.all_eq_true
  · -- Every text of a description is the value of a field.
    have hclean : ∀ f, trimmed (String.ofList ((Outline.of s).fields f)) =
          String.ofList ((Outline.of s).fields f) ∧
        '\n' ∉ (String.ofList ((Outline.of s).fields f)).toList := fun f => by
      obtain ⟨htrim, hfeed⟩ := Outline.fields_of_clean s f
      exact ⟨trimmed_ofList htrim, by rwa [String.toList_ofList]⟩
    simp only [List.mem_cons, List.not_mem_nil, or_false]
    rintro t (rfl | rfl | rfl | rfl | rfl) <;> exact hclean _

/-! ### Errors of descriptions -/

/-- A text names no layout: no line of it sets one, or the last such line says nothing. -/
def LacksLayout (s : List Char) : Prop :=
  lastValue? .layout (Outline.recordedIn s) = none ∨
    lastValue? .layout (Outline.recordedIn s) = some []

/-- A text has no data: all that was taken for data is blank. -/
def LacksData (s : List Char) : Prop :=
  ∀ line ∈ (Outline.of s).dataLines, isBlankText line = true

theorem parse_of_lacksLayout {s : List Char} (h : LacksLayout s) :
    Description.parse s = .error .missingLayout := by
  simp [Description.parse, Outline.describe, Outline.fields_of_eq_nil_iff.mpr h]

theorem parse_of_lacksData {s : List Char} (hlayout : ¬ LacksLayout s) (h : LacksData s) :
    Description.parse s = .error .missingData := by
  rw [LacksLayout, ← Outline.fields_of_eq_nil_iff] at hlayout
  simp [Description.parse, Outline.describe, hlayout, (Outline.dataText_eq_nil_iff _).mpr h]

/-- With a layout and data, the text is refused for what its data is refused for. -/
theorem parse_of_decodePoints {s : List Char} (hlayout : ¬ LacksLayout s) (hdata : ¬ LacksData s) :
    (∀ cause, decodePoints (DataText.normalize (Outline.of s).dataText) = .error cause →
        Description.parse s = .error (.malformedData cause)) ∧
      ∀ points, decodePoints (DataText.normalize (Outline.of s).dataText) = .ok points →
        ∃ d, Description.parse s = .ok d ∧ d.points = points := by
  rw [LacksLayout, ← Outline.fields_of_eq_nil_iff] at hlayout
  rw [LacksData, ← Outline.dataText_eq_nil_iff] at hdata
  constructor
  · intro cause hcause
    simp [Description.parse, Outline.describe, hlayout, hdata, hcause]
  · intro points hpoints
    simp [Description.parse, Outline.describe, hlayout, hdata, hpoints]

/-- The reasons to refuse a text, in the order in which they are looked for. -/
theorem parse_eq_error_iff (s : List Char) :
    (Description.parse s = .error .missingLayout ↔ LacksLayout s) ∧
      (Description.parse s = .error .missingData ↔ ¬ LacksLayout s ∧ LacksData s) ∧
      ∀ cause, Description.parse s = .error (.malformedData cause) ↔
        ¬ LacksLayout s ∧ ¬ LacksData s ∧
          decodePoints (DataText.normalize (Outline.of s).dataText) = .error cause := by
  -- The three conditions exclude each other, and each settles all three equations.
  by_cases hlayout : LacksLayout s
  · simp [parse_of_lacksLayout hlayout, hlayout]
  by_cases hdata : LacksData s
  · simp [parse_of_lacksData hlayout hdata, hlayout, hdata]
  obtain ⟨herror, hok⟩ := parse_of_decodePoints hlayout hdata
  cases hpoints : decodePoints (DataText.normalize (Outline.of s).dataText) with
  | error cause => simp [herror cause hpoints, hlayout, hdata]
  | ok points =>
    obtain ⟨d, hd, -⟩ := hok points hpoints
    simp [hd, hlayout, hdata]

/-! ### Configurations -/

theorem isPortable_axis (color : String) (fromZero : Bool) (depth : Nat) :
    isPortable (depth + 2) (axis color fromZero) = true := by
  cases fromZero <;> simp [axis, isPortable_ofMembers_iff]

/-- A point whose key and value can be written. -/
def Point.IsWritable (p : Point) : Prop :=
  obstacle? false p.key.toJson = none ∧ obstacle? false (.number p.value) = none

theorem Description.Sound.isWritable {d : Description} (h : d.Sound) :
    ∀ p ∈ d.points, p.IsWritable := by
  intro p hp
  constructor
  · rcases h.key_finite p hp with ⟨s, hs⟩ | ⟨n, hn, hfinite⟩
    · rw [hs]
      rfl
    · rw [hn]
      exact Json.obstacle?_of_isPortable 0 _ (isPortable_number hfinite 0)
  · obtain ⟨v, hv⟩ := h.value_finite p hp
    rw [hv]
    rfl

theorem isPortable_number_of_obstacle? {n : Number} (h : obstacle? false (.number n) = none)
    (depth : Nat) : isPortable depth (.number n) = true :=
  isPortable_number_iff.mpr (obstacle?_number_eq_none_iff.mp h)

theorem isPortable_key {k : Key} (h : obstacle? false k.toJson = none) (depth : Nat) :
    isPortable depth k.toJson = true := by
  cases k with
  | text s => rw [Key.toJson, isPortable]
  | number n => exact isPortable_number_of_obstacle? h depth

theorem isPortable_dataset {d : Description} (h : ∀ p ∈ d.points, p.IsWritable) (kind : Kind)
    (depth : Nat) : isPortable (depth + 2) (dataset d kind) = true := by
  have hvalues : isPortable (depth + 1) (.array (d.points.map fun p => .number p.value)) = true := by
    rw [isPortable_array_iff, List.forall_mem_map]
    exact fun p hp => isPortable_number_of_obstacle? (h p hp).2 depth
  have hcolors : isPortable (depth + 1)
      (.array ((sliceColors d.points.length).map .ofString)) = true := by
    rw [isPortable_array_iff, List.forall_mem_map]
    exact fun color _ => isPortable_ofString depth color
  have hwidth : isPortable (depth + 1) (.ofInt 1) = true := by
    rw [Json.ofInt, isPortable]
    decide
  rw [dataset, isPortable_ofMembers_iff]
  cases kind <;> simp [hvalues, hcolors, hwidth]

theorem isPortable_chartOptions (d : Description) (kind : Kind) (color : String) (depth : Nat) :
    isPortable (depth + 4) (chartOptions d kind color) = true := by
  rw [chartOptions, isPortable_ofMembers_iff]
  -- The members that are always there, the one for a given height, and the axes of the kinds with any.
  by_cases hheight : d.height = ""
  all_goals cases kind <;> simp [hheight, isPortable_ofMembers_iff, isPortable_axis]

/-- The configuration of a description can be written and read back if its points can be written. -/
theorem isPortable_configuration_of_isWritable {d : Description}
    (h : ∀ p ∈ d.points, p.IsWritable) (o : Options) :
    isPortable depthLimit (configuration d o) = true := by
  have hlabels (depth : Nat) :
      isPortable (depth + 1) (.array (d.points.map fun p => p.key.toJson)) = true := by
    rw [isPortable_array_iff, List.forall_mem_map]
    exact fun p hp => isPortable_key (h p hp).1 depth
  -- The options nest deepest, with the colours of the axes five objects down.
  show isPortable (995 + 5) (configuration d o) = true
  simp [configuration, isPortable_ofMembers_iff, isPortable_array_iff, hlabels,
    isPortable_dataset h, isPortable_chartOptions]

/-- The configuration of a description that was read can be written and read back. -/
theorem isPortable_configuration {d : Description} (h : d.Sound) (o : Options) :
    isPortable depthLimit (configuration d o) = true :=
  isPortable_configuration_of_isWritable h.isWritable o

/-- A value has a literal unless something in it cannot be written. -/
theorem scriptLiteral_eq (v : Json) :
    scriptLiteral v = match Json.obstacle? false v with
      | some e => .error e
      | none => .ok ((Json.text v).flatMap scriptChar) := by
  rw [scriptLiteral, Json.encode]
  cases Json.obstacle? false v <;> rfl

/-- A chart has markup unless something in its configuration cannot be written. -/
theorem result_markup_eq (id : String) (d : Description) (o : Options) :
    (markup id d o).result = match Json.obstacle? false (configuration d o) with
      | some e => .error e
      | none => .ok (container id d o ++
          scriptAround ((Json.text (.ofString id)).flatMap scriptChar)
            ((Json.text (configuration d o)).flatMap scriptChar)) := by
  simp only [markup, script, scriptLiteral_eq, Json.obstacle?_ofString]
  cases Json.obstacle? false (configuration d o) <;> rfl

/-- The markup of a description whose points can be written. -/
theorem result_markup_of_isWritable {d : Description} (h : ∀ p ∈ d.points, p.IsWritable)
    (id : String) (o : Options) :
    (markup id d o).result = .ok (container id d o ++
      scriptAround ((Json.text (.ofString id)).flatMap scriptChar)
        ((Json.text (configuration d o)).flatMap scriptChar)) := by
  rw [result_markup_eq, Json.obstacle?_of_isPortable depthLimit _
    (isPortable_configuration_of_isWritable h o)]

/-- The markup of a description that was read. -/
theorem result_markup {d : Description} (h : d.Sound) (id : String) (o : Options) :
    (markup id d o).result = .ok (container id d o ++
      scriptAround ((Json.text (.ofString id)).flatMap scriptChar)
        ((Json.text (configuration d o)).flatMap scriptChar)) :=
  result_markup_of_isWritable h.isWritable id o

theorem exists_markup {d : Description} (h : d.Sound) (id : String) (o : Options) :
    ∃ html, (markup id d o).result = .ok html :=
  ⟨_, result_markup h id o⟩

/-! ### Drawing -/

/-- Every text is drawn, or it is refused as the description of a chart and for nothing else. What
is read is sound, and a text is refused for want of a layout, else for want of data, else for what
the normalized data is refused for. -/
theorem draw_classified (text : String) (o : Options) :
    (∀ d, Description.parse text.toList = .ok d →
      d.Sound ∧ ∃ html, (draw text o).result = .ok html) ∧
    (∀ e, Description.parse text.toList = .error e →
      text = "" ∧ (draw text o).result = .ok "" ∨
        text ≠ "" ∧ (draw text o).result = .error (.description e) ∧
          (DrawError.description e).failure.family? = some .chart) ∧
    (Description.parse text.toList = .error .missingLayout ↔ LacksLayout text.toList) ∧
    (Description.parse text.toList = .error .missingData ↔
      ¬ LacksLayout text.toList ∧ LacksData text.toList) ∧
    ∀ cause, Description.parse text.toList = .error (.malformedData cause) ↔
      ¬ LacksLayout text.toList ∧ ¬ LacksData text.toList ∧
        decodePoints (DataText.normalize (Outline.of text.toList).dataText) = .error cause := by
  refine ⟨fun d hd => ⟨parse_sound hd, ?_⟩, fun e he => ?_, parse_eq_error_iff text.toList⟩
  -- The empty text is drawn as nothing without being read.
  · by_cases htext : text = ""
    · exact ⟨"", by simp [draw, htext]; rfl⟩
    · obtain ⟨html, hhtml⟩ := exists_markup (parse_sound hd) (canvasId o.idPrefix text) o
      exact ⟨html, by simp [draw, htext, hd, Noted.mapError, hhtml, Except.mapError]⟩
  · by_cases htext : text = ""
    · exact .inl ⟨htext, by simp [draw, htext]; rfl⟩
    · exact .inr ⟨htext, by simp [draw, htext, he, Noted.fail], rfl⟩

/-- A number beyond the range of doubles is refused with the data. -/
theorem draw_classified_overflow :
    ¬ LacksLayout "layout: bar\ndata: [\x7bkey: 'a', value: 1e999\x7d]".toList ∧
      ∃ cause, (draw "layout: bar\ndata: [\x7bkey: 'a', value: 1e999\x7d]" {}).result =
        .error (.description (.malformedData cause)) := by
  obtain ⟨-, herror, -, -, hcause⟩ :=
    draw_classified "layout: bar\ndata: [\x7bkey: 'a', value: 1e999\x7d]" {}
  have hparse : Description.parse "layout: bar\ndata: [\x7bkey: 'a', value: 1e999\x7d]".toList =
      .error (.malformedData (.point 0 .valueNotFinite)) := by decide +kernel
  rcases herror _ hparse with ⟨h, -⟩ | ⟨-, h, -⟩
  · exact absurd h (by decide)
  · exact ⟨((hcause _).mp hparse).1, _, h⟩

end Chartdown.Chart
