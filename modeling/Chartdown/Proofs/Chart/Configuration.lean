import Chartdown.Proofs.Chart.Drawing
import Chartdown.Proofs.Chart.Literal
import Chartdown.Proofs.Html.Charts
import Chartdown.Proofs.Text.Lines
import Mathlib.Data.List.Infix

/-!
# The chart that is drawn is the author's

The script of a chart calls the library on one line, and the argument of that call is a literal of
JSON. Whatever the text says, the call is found, its argument is decoded as the configuration of the
description, and the configuration shows the keys and values of the data with the texts of the
description.

## Key results

- `shows_configuration`: what the configuration of a description shows
- `callArguments_draw`: what is drawn calls the library once
- `draw_shows`: what is drawn for a text shows what the text describes
-/

namespace Chartdown.Chart

open Text
open Json (at?)

/-! ### What a configuration shows -/

/-- The type of chart that a description asks for. -/
def Description.type (d : Description) : String := (Kind.of d.kind).name

/-- The colour of the texts and lines of a chart. -/
def Description.color (d : Description) (o : Options) : String :=
  if d.colorHint = "" then o.defaultColor else d.colorHint

/-- Where a configuration of any type holds the colour. -/
def colorPaths : List (List String) :=
  [["options", "color"], ["options", "plugins", "title", "color"],
    ["options", "plugins", "legend", "labels", "color"]]

/-- Where a configuration with axes holds the colour as well. -/
def axisColorPaths : List (List String) :=
  [["options", "scales", "x", "ticks", "color"], ["options", "scales", "x", "grid", "color"],
    ["options", "scales", "y", "ticks", "color"], ["options", "scales", "y", "grid", "color"]]

/-- What a configuration and its data set show of a description: the keys and values in their order,
the type, and the texts, each with what is shown where the author gave none. -/
structure Shows (d : Description) (o : Options) (config set : Json) : Prop where
  type_eq : at? ["type"] config = some (.ofString d.type)
  type_mem : d.type ∈ ["bar", "line", "pie"]
  datasets : at? ["data", "datasets"] config = some (.array [set])
  points : ∃ labels values, at? ["data", "labels"] config = some (.array labels) ∧
    at? ["data"] set = some (.array values) ∧ labels = d.points.map (fun p => p.key.toJson) ∧
    values = d.points.map (fun p => .number p.value) ∧ labels.length = values.length
  scales : (at? ["options", "scales"] config).isSome ↔ d.type ≠ "pie"
  backgrounds : (at? ["backgroundColor"] set).isSome ↔ d.type = "pie"
  background : d.type = "pie" → ∃ colors : List String, colors.length = d.points.length ∧
    at? ["backgroundColor"] set = some (.array (colors.map .ofString))
  title : at? ["options", "plugins", "title", "text"] config =
    some (.ofString (if d.title = "" then d.label else d.title))
  label : at? ["label"] set = some (.ofString (if d.label = "" then d.type.capitalize else d.label))
  color : ∀ path ∈ colorPaths, at? path config = some (.ofString (d.color o))
  axisColor : d.type ≠ "pie" → ∀ path ∈ axisColorPaths,
    at? path config = some (.ofString (d.color o))

theorem Kind.title_eq (kind : Kind) : kind.title = kind.name.capitalize := by
  cases kind <;> decide

theorem Kind.name_mem (kind : Kind) : kind.name ∈ ["bar", "line", "pie"] := by
  cases kind <;> decide

theorem Kind.name_eq_pie_iff {kind : Kind} : kind.name = "pie" ↔ kind = .pie := by
  cases kind <;> decide

/-- The axes are options of the types that have any. -/
theorem at?_scales (d : Description) (kind : Kind) (color : String) (path : List String) :
    at? ("scales" :: path) (chartOptions d kind color) =
      if kind = .pie then none
      else at? path (.ofMembers [("x", axis color false), ("y", axis color true)]) := by
  by_cases hheight : d.height = ""
  all_goals by_cases hpie : kind = .pie <;> simp [chartOptions, hheight, hpie]

theorem shows_configuration (d : Description) (o : Options) :
    Shows d o (configuration d o) (dataset d (Kind.of d.kind)) where
  type_eq := by simp [configuration, Description.type]
  type_mem := Kind.name_mem _
  datasets := by simp [configuration]
  points := ⟨_, _, by simp [configuration], by simp [dataset], rfl, rfl, by simp⟩
  scales := by
    rw [Description.type, Ne, Kind.name_eq_pie_iff]
    by_cases hpie : Kind.of d.kind = .pie <;> simp [configuration, at?_scales, hpie]
  backgrounds := by
    rw [Description.type, Kind.name_eq_pie_iff]
    by_cases hpie : Kind.of d.kind = .pie <;> simp [dataset, hpie]
  background hpie := by
    rw [Description.type, Kind.name_eq_pie_iff] at hpie
    exact ⟨sliceColors d.points.length, by simp [sliceColors], by simp [dataset, hpie]⟩
  title := by simp [configuration, chartOptions, firstNonEmpty]
  label := by simp [dataset, firstNonEmpty, Description.type, Kind.title_eq]
  color := by simp [configuration, chartOptions, colorPaths, firstNonEmpty, Description.color]
  axisColor hpie := by
    rw [Description.type, Ne, Kind.name_eq_pie_iff] at hpie
    simp [configuration, at?_scales, axisColorPaths, axis, firstNonEmpty, Description.color, hpie]

/-! ### Calls of the library -/

/-- How a line starts that calls the library. -/
def callStart : List Char := "    new Chart(canvas.getContext(\"2d\"), ".toList

/-- How a line ends that calls the library. -/
def callEnd : List Char := ");".toList

/-- The argument behind the canvas on a line that calls the library. -/
def callArgument? (line : List Char) : Option (List Char) :=
  (line.dropPrefix? callStart).bind (·.dropSuffix? callEnd)

/-- The arguments on all lines that call the library. -/
def callArguments (html : String) : List (List Char) :=
  (cutAt '\n' html.toList).filterMap callArgument?

/-- What stands in every line that calls the library, and in no escaped text. -/
def callMark : List Char := ['(', '"', '2']

/-- The argument of a call stands between the start of its line and the end. -/
theorem dropPrefix?_bind_dropSuffix?_append (start argument : List Char) :
    ((start ++ (argument ++ callEnd)).dropPrefix? start).bind (·.dropSuffix? callEnd) =
      some argument := by
  rw [List.dropPrefix?_append_of_beq _ (beq_self_eq_true start), Option.bind_some,
    List.dropSuffix?_eq_some_iff]
  exact ⟨callEnd, rfl, beq_self_eq_true callEnd⟩

theorem callArgument?_call (argument : List Char) :
    callArgument? (callStart ++ (argument ++ callEnd)) = some argument :=
  dropPrefix?_bind_dropSuffix?_append callStart argument

theorem isPrefix_of_dropPrefix?_bind {start line argument : List Char}
    (h : (line.dropPrefix? start).bind (·.dropSuffix? callEnd) = some argument) :
    start <+: line := by
  obtain ⟨rest, hrest, -⟩ := Option.bind_eq_some_iff.mp h
  obtain ⟨found, rfl, hfound⟩ := List.dropPrefix?_eq_some_iff.mp hrest
  rw [eq_of_beq hfound]
  exact List.prefix_append start rest

/-- A text without the mark has no line that calls the library. -/
theorem filterMap_callArgument?_cutAt {s : List Char} (h : ¬ callMark <:+: s) :
    (cutAt '\n' s).filterMap callArgument? = [] := by
  refine filterMap_cutAt_eq_nil fun line argument hcall hline => h ?_
  have hmark : callMark <:+: callStart := by decide
  exact (hmark.trans (isPrefix_of_dropPrefix?_bind hcall).isInfix).trans hline

/-! ### Containers -/

/-- A text without a quote can start the mark only if the mark goes on behind the text's quote. -/
theorem callMark_isInfix_of_append_quote {s t : List Char} {c : Char} (hs : '"' ∉ s)
    (ht : t.head? = some c) (hc : c ≠ '2') (h : callMark <:+: s ++ '"' :: t) : callMark <:+: t := by
  induction s with
  | nil =>
    rw [List.nil_append, callMark, List.infix_cons_iff, List.cons_prefix_cons] at h
    exact h.resolve_left fun hquote => absurd hquote.1 (by decide)
  | cons d s ih =>
    rw [List.mem_cons, not_or] at hs
    rw [List.cons_append, callMark, List.infix_cons_iff, List.cons_prefix_cons] at h
    apply ih hs.2
    apply h.resolve_left
    -- Behind a bracket there is a character of the text, or the quote and the wrong character.
    rintro ⟨-, hrest⟩
    cases s with
    | nil =>
      obtain ⟨t, rfl⟩ := List.head?_eq_some_iff.mp ht
      rw [List.nil_append, List.cons_prefix_cons, List.cons_prefix_cons] at hrest
      exact hc hrest.2.1.symm
    | cons e s => exact hs.2 ((List.cons_prefix_cons.mp hrest).1 ▸ List.mem_cons_self)

/-- The mark does not stand in an attribute. -/
theorem callMark_isInfix_of_attribute {front : List Char} (value : String) {t : List Char} {c : Char}
    (hfront : '(' ∉ front) (ht : t.head? = some c) (hc : c ≠ '2')
    (h : callMark <:+: front ++ ((Html.escape value).toList ++ '"' :: t)) : callMark <:+: t :=
  callMark_isInfix_of_append_quote (quote_not_mem_escape value) ht hc
    (isInfix_of_append_of_not_mem hfront h)

/-- No line up to the script calls the library, whatever the attributes of the container say. -/
theorem not_isInfix_container (id : String) (d : Description) (o : Options) :
    ¬ callMark <:+: (container id d o).toList ++ "<script>".toList := by
  have htext : (container id d o).toList ++ "<script>".toList =
      "<div class=\"".toList ++ ((Html.escape o.cssClass).toList ++ '"' ::
        (" style=\"".toList ++ ((Html.escape (containerStyle d)).toList ++ '"' ::
          ("><canvas id=\"".toList ++ ((Html.escape id).toList ++ '"' ::
            "></canvas></div><script>".toList))))) := by
    unfold container
    simp only [String.toList_append, List.append_assoc]
    rfl
  rw [htext]
  intro h
  -- The three attributes, one after the other, leave a text without the mark.
  have hstyle := callMark_isInfix_of_attribute _ (by decide) rfl (by decide) h
  have hid := callMark_isInfix_of_attribute _ (by decide) rfl (by decide) hstyle
  have hrest := callMark_isInfix_of_attribute _ (by decide) rfl (by decide) hid
  exact absurd hrest (by decide)

theorem container_append_ne (id : String) (d : Description) (o : Options) (s : String) :
    container id d o ++ s ≠ "" := by
  unfold container
  simp

/-! ### Scripts -/

/-- How the line of a script starts that looks the canvas up. -/
def lookupStart : List Char := "    var canvas = document.getElementById(".toList

/-- A text on whose lines no script looks the canvas up or calls the library. -/
def IsQuiet (s : List Char) : Prop := 'B' ∉ s ∧ '2' ∉ s

instance (s : List Char) : Decidable (IsQuiet s) := inferInstanceAs (Decidable (_ ∧ _))

theorem IsQuiet.append {s t : List Char} (hs : IsQuiet s) (ht : IsQuiet t) : IsQuiet (s ++ t) := by
  simp only [IsQuiet, List.mem_append, not_or]
  exact ⟨⟨hs.1, ht.1⟩, hs.2, ht.2⟩

theorem exists_scriptFront : ∃ above : List Char, IsQuiet above ∧
    scriptFront.toList = '\n' :: (above ++ '\n' :: lookupStart) := by
  have hfeed : "\n".toList = ['\n'] := by decide
  have hlast : "  function draw() \x7b\n".toList = "  function draw() \x7b".toList ++ ['\n'] := by
    decide
  refine ⟨"(function () \x7b\n".toList ++ "  function draw() \x7b".toList, by decide, ?_⟩
  unfold scriptFront
  simp only [String.toList_append, hfeed, hlast, List.append_assoc, List.singleton_append]
  rfl

theorem exists_scriptMiddle : ∃ between : List Char, IsQuiet between ∧
    scriptMiddle.toList = callEnd ++ '\n' :: (between ++ '\n' :: callStart) := by
  have hend : ");\n".toList = callEnd ++ ['\n'] := by decide
  have hlast : "    \x7d\n".toList = "    \x7d".toList ++ ['\n'] := by decide
  refine ⟨"    if (!canvas) \x7b\n".toList ++ ("      return;\n".toList ++ "    \x7d".toList),
    by decide, ?_⟩
  unfold scriptMiddle
  simp only [String.toList_append, hend, hlast, List.append_assoc, List.singleton_append]
  rfl

theorem exists_scriptBack : ∃ below : List Char, IsQuiet below ∧
    scriptBack.toList = callEnd ++ '\n' :: below := by
  have hend : ");\n".toList = callEnd ++ ['\n'] := by decide
  unfold scriptBack
  simp only [String.toList_append, hend, List.append_assoc, List.singleton_append]
  refine ⟨_, ?_, rfl⟩
  simp only [IsQuiet, List.mem_append, not_or]
  decide

/-- What stands in a script, cut at the ends of the two lines with literals. -/
theorem exists_toList_scriptBody : ∃ above between below : List Char,
    IsQuiet above ∧ IsQuiet between ∧ IsQuiet below ∧ ∀ id config,
      (scriptBody id config).toList =
        '\n' :: (above ++ '\n' :: (lookupStart ++ (id ++ callEnd) ++ '\n' ::
          (between ++ '\n' :: (callStart ++ (config ++ callEnd) ++ '\n' :: below)))) := by
  obtain ⟨above, habove, hfront⟩ := exists_scriptFront
  obtain ⟨between, hbetween, hmiddle⟩ := exists_scriptMiddle
  obtain ⟨below, hbelow, hback⟩ := exists_scriptBack
  refine ⟨above, between, below, habove, hbetween, hbelow, fun id config => ?_⟩
  rw [scriptBody]
  simp only [String.toList_append, String.toList_ofList, hfront, hmiddle, hback, List.append_assoc,
    List.cons_append]

/-- A script, cut in the same places. -/
theorem exists_toList_scriptAround : ∃ above between below : List Char,
    IsQuiet above ∧ IsQuiet between ∧ IsQuiet below ∧ ∀ id config,
      (scriptAround id config).toList =
        "<script>".toList ++ '\n' :: (above ++ '\n' :: (lookupStart ++ (id ++ callEnd) ++ '\n' ::
          (between ++ '\n' :: (callStart ++ (config ++ callEnd) ++ '\n' :: below)))) := by
  obtain ⟨above, between, below, habove, hbetween, hbelow, hbody⟩ := exists_toList_scriptBody
  have hopen : (Html.Tag.opening "script" []).text.toList = "<script>".toList := by decide
  refine ⟨above, between, below ++ "</script>".toList, habove, hbetween,
    hbelow.append (by decide), fun id config => ?_⟩
  rw [scriptAround_eq]
  simp only [String.toList_append, hbody, hopen, List.append_assoc, List.cons_append]
  rfl

/-- A literal that stands on one line makes one line with what is around it. -/
theorem cutAt_line {start s : List Char} (hstart : '\n' ∉ start) (hs : '\n' ∉ s) :
    cutAt '\n' (start ++ (s ++ callEnd)) = [start ++ (s ++ callEnd)] := by
  apply cutAt_of_not_mem
  rw [List.mem_append, List.mem_append, not_or, not_or]
  exact ⟨hstart, hs, by decide⟩

/-- Around literals that stand on one line, the script calls the library once. -/
theorem callArguments_script {front : String} {id config : List Char}
    (hfront : ¬ callMark <:+: front.toList ++ "<script>".toList) (hid : '\n' ∉ id)
    (hconfig : '\n' ∉ config) :
    callArguments (front ++ scriptAround id config) = [config] := by
  -- The call stands on a line by itself. No other line holds the mark, but the one that looks the
  -- canvas up may, and that one starts in another way.
  have hlookup : [lookupStart ++ (id ++ callEnd)].filterMap callArgument? = [] := rfl
  have hcall : [callStart ++ (config ++ callEnd)].filterMap callArgument? = [config] := by
    rw [List.filterMap_cons_some (callArgument?_call config), List.filterMap_nil]
  have hplain {s : List Char} (hs : IsQuiet s) : (cutAt '\n' s).filterMap callArgument? = [] :=
    filterMap_callArgument?_cutAt fun h => hs.2 (List.IsInfix.mem (by decide) h)
  obtain ⟨above, between, below, habove, hbetween, hbelow, hscript⟩ := exists_toList_scriptAround
  rw [callArguments, String.toList_append, hscript, ← List.append_assoc]
  simp only [cutAt_append_cons, List.filterMap_append, filterMap_callArgument?_cutAt hfront,
    hplain habove, cutAt_line (by decide : '\n' ∉ lookupStart) hid, hlookup, hplain hbetween,
    cutAt_line (by decide : '\n' ∉ callStart) hconfig, hcall, hplain hbelow, List.nil_append,
    List.append_nil]

/-- The literal of a value stands on one line. -/
theorem feed_not_mem_literal (v : Json) : '\n' ∉ (Json.text v).flatMap scriptChar := by
  intro h
  obtain ⟨c, hc, hfeed⟩ := List.mem_flatMap.mp h
  exact absurd (prints_of_mem_scriptChar (Json.prints_text v c hc) hfeed).1 (by decide)

/-- What is drawn for a text that describes a chart. -/
theorem result_draw {text : String} (hne : text ≠ "") {d : Description}
    (h : Description.parse text.toList = .ok d) (o : Options) :
    (draw text o).result = .ok (container (canvasId o.idPrefix text) d o ++
      scriptAround ((Json.text (.ofString (canvasId o.idPrefix text))).flatMap scriptChar)
        ((Json.text (configuration d o)).flatMap scriptChar)) := by
  rw [draw, if_neg hne, h]
  simp only [Noted.mapError, result_markup (parse_sound h)]
  rfl

/-- What is drawn calls the library once, with the configuration of what was read. -/
theorem callArguments_draw {text : String} {o : Options} {html : String}
    (h : (draw text o).result = .ok html) (hne : html ≠ "") :
    ∃ d, Description.parse text.toList = .ok d ∧
      callArguments html = [(Json.text (configuration d o)).flatMap scriptChar] := by
  have htext : text ≠ "" := by
    rintro rfl
    exact hne (Except.ok.inj h).symm
  cases hparse : Description.parse text.toList with
  | error e => simp [draw, htext, hparse, Noted.fail] at h
  | ok d =>
    rw [result_draw htext hparse] at h
    obtain rfl := Except.ok.inj h
    exact ⟨d, rfl, callArguments_script (not_isInfix_container _ d o) (feed_not_mem_literal _)
      (feed_not_mem_literal _)⟩

/-! ### What is drawn -/

/-- Whatever is drawn for a text hands the library one literal. The literal is JSON for a
configuration that shows what the text describes, and the points are those that the items of the
data describe, in their order. -/
theorem draw_shows {text : String} {o : Options} {html : String}
    (h : (draw text o).result = .ok html) (hne : html ≠ "") :
    ∃ d items literal config set, Description.parse text.toList = .ok d ∧
      Json.decode false (DataText.normalize (Outline.of text.toList).dataText) =
        .ok (.array items) ∧
      List.Forall₂ Point.Describes items d.points ∧
      callArguments html = [literal] ∧ (∀ constants, Json.decode constants literal = .ok config) ∧
      Shows d o config set := by
  obtain ⟨d, hparse, hcall⟩ := callArguments_draw h hne
  obtain ⟨items, hitems, -, hdescribes⟩ :=
    decodePoints_eq_ok_iff.mp (Outline.decodePoints_of_describe hparse)
  have hdecode (constants : Bool) :
      Json.decode constants ((Json.text (configuration d o)).flatMap scriptChar) =
        .ok (configuration d o) :=
    Json.decode_text escaping_scriptChar constants (isPortable_configuration (parse_sound hparse) o)
  exact ⟨d, items, _, _, _, hparse, hitems, hdescribes, hcall, hdecode, shows_configuration d o⟩

/-- A pie whose texts look like a tag and a call. -/
def hostilePie : String := "layout:Pie\nlabel:(\"2d\")\ndata:[\x7bkey:'</a>',value:1\x7d]"

/-- What it describes. -/
def hostileDescription : Description where
  kind := "Pie"
  points := [⟨.text (Utf16.ofString "</a>"), .double (.ofInt 1)⟩]
  label := "(\"2d\")"

/-- Options whose texts look like calls. -/
def hostileOptions : Options where
  idPrefix := "2d"
  cssClass := "\n    new Chart(canvas.getContext(\"2d\"), 1);"

theorem draw_shows_hostile : ∃ html, (draw hostilePie hostileOptions).result = .ok html ∧
    html ≠ "" ∧ ∃ items literal config set,
      Json.decode false (DataText.normalize (Outline.of hostilePie.toList).dataText) =
        .ok (.array items) ∧
      List.Forall₂ Point.Describes items hostileDescription.points ∧
      callArguments html = [literal] ∧ (∀ constants, Json.decode constants literal = .ok config) ∧
      Shows hostileDescription hostileOptions config set := by
  have hparse : Description.parse hostilePie.toList = .ok hostileDescription := by decide +kernel
  have hdraw := result_draw (by decide : hostilePie ≠ "") hparse hostileOptions
  have hne := container_append_ne (canvasId hostileOptions.idPrefix hostilePie) hostileDescription
    hostileOptions
  obtain ⟨d, items, literal, config, set, hd, hshows⟩ := draw_shows hdraw (hne _)
  obtain rfl : hostileDescription = d := Except.ok.inj (hparse.symm.trans hd)
  exact ⟨_, hdraw, hne _, items, literal, config, set, hshows⟩

end Chartdown.Chart
