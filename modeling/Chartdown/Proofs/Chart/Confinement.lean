import Chartdown.Proofs.Chart.Drawing
import Chartdown.Proofs.Chart.Literal
import Chartdown.Proofs.Html.Charts

/-!
# Chart markup cannot be broken out of

The texts of a chart come into its markup in two ways, as attributes and as literals of the script.
Neither way lets a text add a tag, end an attribute or end the script. There is markup unless a
number of the points cannot be written as JSON.

## Key results

- `confined_of_scriptText`: a container with a harmless script keeps to its tags
- `obstacle?_configuration_eq_none_iff`: what can be in the way of a configuration
- `markup_confined`: the markup keeps to its tags, whatever the texts are, and when there is none
-/

namespace Chartdown.Chart

open Html
open Json (IsWritable obstacle? obstacle?_array_eq_none_iff obstacle?_number_eq_none_iff
  obstacle?_ofMembers_eq_none_iff obstacle?_of_isPortable)

/-- The tags of the container, in their order. -/
def containerTags (id : String) (d : Description) (o : Options) : List Tag :=
  [.opening "div" [("class", escape o.cssClass), ("style", escape (containerStyle d))],
    .opening "canvas" [("id", escape id)], .closing "canvas", .closing "div"]

/-- The tags of the script. -/
def scriptTags : List Tag := [.opening "script" [], .closing "script"]

/-- Markup of a chart that keeps to its tags: there are six, in front of the script no quotes but
those around the three attributes, and nothing that is markup in the script. -/
structure Confined (id : String) (d : Description) (o : Options) (html : String) : Prop where
  count_opening : html.toList.count '<' = 6
  count_closing : html.toList.count '>' = 6
  tags : tagsOf html = some ((containerTags id d o ++ scriptTags).map (·.inside.toList))
  parts : ∃ front body, html = front ++ "<script>" ++ body ++ "</script>" ∧
    tagsOf front = some ((containerTags id d o).map (·.inside.toList)) ∧
    front.toList.count '"' = 6 ∧ '\'' ∉ front.toList ∧ ScriptText body

/-- The numbers of a point. -/
def Point.numbers (p : Point) : List Number :=
  match p.key with
  | .text _ => [p.value]
  | .number n => [n, p.value]

/-! ### Containers -/

theorem count_quote_escape (s : String) : (escape s).toList.count '"' = 0 :=
  List.count_eq_zero.mpr (quote_not_mem_escape s)

/-- The quotes of a container are those around its three attributes. -/
theorem count_quote_container (id : String) (d : Description) (o : Options) :
    (container id d o).toList.count '"' = 6 := by
  unfold container
  simp only [String.toList_append, List.count_append, count_quote_escape]
  decide

theorem apostrophe_not_mem_container (id : String) (d : Description) (o : Options) :
    '\'' ∉ (container id d o).toList := by
  unfold container
  simp only [String.toList_append, List.mem_append, apostrophe_not_mem_escape, or_false]
  decide

theorem tagsOf_container (id : String) (d : Description) (o : Options) :
    tagsOf (container id d o) = some ((containerTags id d o).map (·.inside.toList)) := by
  have hopen := tagsOf_text (fits_div d o).plainText_inside
  have hopenCanvas := tagsOf_text (fits_canvas id).plainText_inside
  have hcloseCanvas := tagsOf_text (t := .closing "canvas") (by decide)
  have hclose := tagsOf_text (t := .closing "div") (by decide)
  have hempty : tagsOf "" = some [] := tagsOf_of_plain (by decide)
  rw [container_eq, tagsOf_append (tagsOf_append hopen
    (tagsOf_append (tagsOf_append hopenCanvas hempty) hcloseCanvas)) hclose]
  rfl

/-! ### Scripts -/

theorem ScriptText.literal (v : Json) :
    ScriptText (String.ofList ((Json.text v).flatMap scriptChar)) := by
  intro c hc
  rw [String.toList_ofList, List.mem_flatMap] at hc
  obtain ⟨d, hd, hc⟩ := hc
  obtain ⟨hprints, hmarkup⟩ := prints_of_mem_scriptChar (Json.prints_text v d hd) hc
  have hlt := hprints.2
  exact ⟨by omega, hmarkup⟩

/-- Literals leave the text of a script as harmless as it is. -/
theorem scriptText_scriptBody (v w : Json) :
    ScriptText (scriptBody ((Json.text v).flatMap scriptChar) ((Json.text w).flatMap scriptChar)) :=
  (((scriptText_scriptFront.append (.literal v)).append scriptText_scriptMiddle).append
    (.literal w)).append scriptText_scriptBack

/-- A script holds a text between its tags that cannot end it. -/
theorem exists_scriptAround_eq (v w : Json) :
    ∃ body, scriptAround ((Json.text v).flatMap scriptChar) ((Json.text w).flatMap scriptChar) =
      "<script>" ++ body ++ "</script>" ∧ ScriptText body :=
  ⟨_, scriptAround_eq _ _, scriptText_scriptBody v w⟩

/-- Markup is confined if it is the container with a script that nothing ends. -/
theorem confined_of_scriptText (id : String) (d : Description) (o : Options) {body : String}
    (h : ScriptText body) :
    Confined id d o (container id d o ++ "<script>" ++ body ++ "</script>") := by
  have hopen : tagsOf "<script>" = some [(Tag.opening "script" []).inside.toList] := by decide
  have hclose : tagsOf "</script>" = some [(Tag.closing "script").inside.toList] := by decide
  -- The body of the script has no brackets, so it adds no tags.
  have htags : tagsOf (container id d o ++ "<script>" ++ body ++ "</script>") =
      some ((containerTags id d o ++ scriptTags).map (·.inside.toList)) := by
    rw [tagsOf_append (tagsOf_append (tagsOf_append (tagsOf_container id d o) hopen)
      (tagsOf_of_plain h.plainText)) hclose, List.map_append, List.append_nil, List.append_assoc]
    rfl
  have hlength : ((containerTags id d o ++ scriptTags).map (·.inside.toList)).length = 6 := by
    rw [List.length_map]
    rfl
  obtain ⟨hcountOpening, hcountClosing⟩ := count_of_tagsOf htags
  exact {
    count_opening := hcountOpening.trans hlength
    count_closing := hcountClosing.trans hlength
    tags := htags
    parts := ⟨_, body, rfl, tagsOf_container id d o, count_quote_container id d o,
      apostrophe_not_mem_container id d o, h⟩ }

/-! ### Obstacles -/

theorem forall_mem_numbers_iff {p : Point} :
    (∀ n ∈ p.numbers, IsWritable n) ↔
      obstacle? false p.key.toJson = none ∧ obstacle? false (.number p.value) = none := by
  obtain ⟨key, value⟩ := p
  cases key with
  | text s =>
    have hkey : obstacle? false (Key.text s).toJson = none := rfl
    simp [Point.numbers, hkey, obstacle?_number_eq_none_iff]
  | number n => simp [Point.numbers, Key.toJson, obstacle?_number_eq_none_iff]

theorem obstacle?_dataset_eq_none_iff (d : Description) (kind : Kind) :
    obstacle? false (dataset d kind) = none ↔
      ∀ p ∈ d.points, obstacle? false (.number p.value) = none := by
  have hcolors : obstacle? false (.array ((sliceColors d.points.length).map .ofString)) = none := by
    rw [obstacle?_array_eq_none_iff, List.forall_mem_map]
    exact fun color _ => rfl
  have hwidth : obstacle? false (.ofInt 1) = none := by decide
  rw [dataset, obstacle?_ofMembers_eq_none_iff]
  cases kind <;> simp [obstacle?_array_eq_none_iff, hcolors, hwidth]

/-- Nothing but a number of a point keeps the configuration of a chart from being written. -/
theorem obstacle?_configuration_eq_none_iff (d : Description) (o : Options) :
    obstacle? false (configuration d o) = none ↔
      ∀ p ∈ d.points, ∀ n ∈ p.numbers, IsWritable n := by
  have hoptions (color : String) :
      obstacle? false (chartOptions d (Kind.of d.kind) color) = none :=
    obstacle?_of_isPortable 4 _ (isPortable_chartOptions d _ color 0)
  simp [configuration, obstacle?_ofMembers_eq_none_iff, obstacle?_array_eq_none_iff,
    obstacle?_dataset_eq_none_iff, hoptions, forall_mem_numbers_iff, forall_and]

/-! ### Markup -/

/-- Whatever the texts and options of a chart are, its markup keeps to its tags. There is none only
where a number of a point cannot be written as JSON. -/
theorem markup_confined (id : String) (d : Description) (o : Options) :
    (∀ html, (markup id d o).result = .ok html → Confined id d o html) ∧
      ((∃ e, (markup id d o).result = .error e) ↔
        ∃ p ∈ d.points, ∃ n ∈ p.numbers, ¬ IsWritable n) := by
  have hwritable := obstacle?_configuration_eq_none_iff d o
  rw [result_markup_eq]
  cases hobstacle : obstacle? false (configuration d o) with
  | some e =>
    rw [hobstacle] at hwritable
    refine ⟨fun html h => (nomatch h), fun _ => ?_, fun _ => ⟨e, rfl⟩⟩
    simpa using mt hwritable.mpr (by simp)
  | none =>
    refine ⟨fun html h => ?_, fun ⟨e, h⟩ => (nomatch h), fun ⟨p, hp, n, hn, hnot⟩ => ?_⟩
    · obtain ⟨body, hscript, hbody⟩ :=
        exists_scriptAround_eq (.ofString id) (configuration d o)
      obtain rfl := Except.ok.inj h
      rw [hscript, ← String.append_assoc, ← String.append_assoc]
      exact confined_of_scriptText id d o hbody
    · exact absurd (hwritable.mp hobstacle p hp n hn) hnot

/-- A description whose texts look like markup. -/
def intrudingDescription : Description where
  kind := "</script><script>"
  points := [⟨.text (Text.Utf16.ofString "--></script>&lt;\u2028"), .integer 1⟩]
  sizeHint := "1em\"><script>"
  label := "'>"
  title := "</canvas>"
  colorHint := "\"</div>"

/-- Its markup is confined, and there is none for a number without a value. -/
theorem markup_confined_intruding :
    (∃ html, (markup "\"'><script>" intrudingDescription { cssClass := "\" onload='" }).result =
        .ok html ∧
      Confined "\"'><script>" intrudingDescription { cssClass := "\" onload='" } html) ∧
    ∃ e, (markup "a" { kind := "pie", points := [⟨.text [], .double .nan⟩] } {}).result =
      .error e := by
  obtain ⟨hconfined, herror⟩ :=
    markup_confined "\"'><script>" intrudingDescription { cssClass := "\" onload='" }
  refine ⟨?_, (markup_confined _ _ _).2.mpr (by decide)⟩
  cases h : (markup "\"'><script>" intrudingDescription { cssClass := "\" onload='" }).result with
  | error e => exact absurd (herror.mp ⟨e, h⟩) (by decide)
  | ok html => exact ⟨html, rfl, hconfined html h⟩

end Chartdown.Chart
