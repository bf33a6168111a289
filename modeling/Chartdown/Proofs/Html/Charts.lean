import Chartdown.Chart.Markup
import Chartdown.Proofs.Html.Tags

/-!
# The markup of charts nests

A chart is a container with a canvas, and a script. The author's texts come into it in two ways: as
escaped attributes and as literals of the script, in which no angle bracket is left.

## Key results

- `nested_draw`: the markup of a chart is nested
-/

namespace Chartdown.Chart

open Html

/-! ### Scripts -/

theorem isPlain_of_mem_scriptChar {c d : Char} (h : d ∈ scriptChar c) : IsPlain d := by
  simp only [scriptChar] at h
  split at h
  · exact (by decide : ∀ d ∈ "\\u003c".toList, IsPlain d) d h
  split at h
  · exact (by decide : ∀ d ∈ "\\u003e".toList, IsPlain d) d h
  split at h
  · exact (by decide : ∀ d ∈ "\\u0026".toList, IsPlain d) d h
  · obtain rfl := List.mem_singleton.mp h
    exact ⟨‹_›, ‹_›⟩

/-- A literal of a script holds no angle brackets. -/
theorem plainText_of_scriptLiteral {v : Json} {s : List Char} (h : scriptLiteral v = .ok s) :
    PlainText (String.ofList s) := by
  simp only [scriptLiteral] at h
  cases hencode : Json.encode false v with
  | error e => simp [hencode, Except.map] at h
  | ok encoded =>
    simp only [hencode, Except.map, Except.ok.injEq] at h
    intro c hc
    rw [String.toList_ofList, ← h] at hc
    obtain ⟨d, -, hd⟩ := List.mem_flatMap.mp hc
    exact isPlain_of_mem_scriptChar hd

/-- What stands in a script before the identifier. -/
def scriptFront : String :=
  "\n" ++ ("(function () \x7b\n" ++ ("  function draw() \x7b\n" ++
    "    var canvas = document.getElementById("))

/-- What stands in a script between the identifier and the configuration. -/
def scriptMiddle : String :=
  ");\n" ++ ("    if (!canvas) \x7b\n" ++ ("      return;\n" ++ ("    \x7d\n" ++
    "    new Chart(canvas.getContext(\"2d\"), ")))

/-- What stands in a script behind the configuration. -/
def scriptBack : String :=
  ");\n" ++ ("  \x7d\n" ++ ("  if (document.readyState === \"loading\") \x7b\n" ++
    ("    document.addEventListener(\"DOMContentLoaded\", draw);\n" ++ ("  \x7d else \x7b\n" ++
      ("    draw();\n" ++ ("  \x7d\n" ++ "\x7d)();\n"))))))

/-- A text that can neither end a script nor start an entity in it. -/
def ScriptText (s : String) : Prop := ∀ c ∈ s.toList, c.toNat < 0x80 ∧ c ∉ ['<', '>', '&']

namespace ScriptText

theorem append {s t : String} (hs : ScriptText s) (ht : ScriptText t) : ScriptText (s ++ t) := by
  simp only [ScriptText, String.toList_append, List.forall_mem_append]
  exact ⟨hs, ht⟩

theorem plainText {s : String} (h : ScriptText s) : PlainText s := by
  intro c hc
  have hmarkup := (h c hc).2
  simp only [List.mem_cons, not_or] at hmarkup
  exact ⟨hmarkup.1, hmarkup.2.1⟩

end ScriptText

theorem scriptText_scriptFront : ScriptText scriptFront := by
  unfold ScriptText scriptFront
  simp only [String.toList_append, List.forall_mem_append]
  decide

theorem scriptText_scriptMiddle : ScriptText scriptMiddle := by
  unfold ScriptText scriptMiddle
  simp only [String.toList_append, List.forall_mem_append]
  decide

theorem scriptText_scriptBack : ScriptText scriptBack := by
  unfold ScriptText scriptBack
  simp only [String.toList_append, List.forall_mem_append]
  decide

/-- What stands in a script between its tags. -/
def scriptBody (id config : List Char) : String :=
  scriptFront ++ String.ofList id ++ scriptMiddle ++ String.ofList config ++ scriptBack

/-- A script is one element, and its literals are all that varies in it. -/
theorem scriptAround_eq (id config : List Char) :
    scriptAround id config =
      (Tag.opening "script" []).text ++ scriptBody id config ++ (Tag.closing "script").text := by
  -- The line feed behind the opening tag belongs to what stands inside.
  have hopen : "<script>\n" = (Tag.opening "script" []).text ++ "\n" := by decide
  have hclose : "</script>" = (Tag.closing "script").text := by decide
  unfold scriptAround scriptBody scriptFront scriptMiddle scriptBack
  rw [hopen, hclose]
  simp only [String.append_assoc]

theorem nested_script {id : String} {d : Description} {o : Options} {html : String}
    (h : script id d o = .ok html) : Nested html := by
  simp only [script] at h
  cases hid : scriptLiteral (.ofString id) with
  | error e => simp [hid] at h
  | ok idLiteral =>
    cases hconfig : scriptLiteral (configuration d o) with
    | error e => simp [hid, hconfig] at h
    | ok configLiteral =>
      simp only [hid, hconfig, Except.ok.injEq] at h
      rw [← h, scriptAround_eq]
      refine Nested.element (.of_names [] (by decide) rfl (by simp)) (by decide) (.of_plain ?_)
      exact (((scriptText_scriptFront.plainText.append (plainText_of_scriptLiteral hid)).append
        scriptText_scriptMiddle.plainText).append (plainText_of_scriptLiteral hconfig)).append
        scriptText_scriptBack.plainText

/-! ### Charts -/

theorem quote_not_mem_escape (s : String) : '"' ∉ (escape s).toList := by
  rw [escape, String.toList_ofList]
  exact fun h => (forall_mem_escape s.toList _ h).2.2.1 rfl

theorem apostrophe_not_mem_escape (s : String) : '\'' ∉ (escape s).toList := by
  rw [escape, String.toList_ofList]
  exact fun h => (forall_mem_escape s.toList _ h).2.2.2 rfl

theorem fits_div (d : Description) (o : Options) :
    Fits "div" [("class", escape o.cssClass), ("style", escape (containerStyle d))] :=
  .of_names ["class", "style"] (by decide) rfl (by simp [attributeText_escape])

theorem fits_canvas (id : String) : Fits "canvas" [("id", escape id)] :=
  .of_names ["id"] (by decide) rfl (by simpa using attributeText_escape id)

/-- A container is an element in an element, and the attributes are all that varies in it. -/
theorem container_eq (id : String) (d : Description) (o : Options) :
    container id d o = (Tag.opening "div" [("class", escape o.cssClass),
        ("style", escape (containerStyle d))]).text ++
      ((Tag.opening "canvas" [("id", escape id)]).text ++ "" ++ (Tag.closing "canvas").text) ++
      (Tag.closing "div").text := by
  rw [← String.toList_inj]
  unfold container
  simp [Tag.text, Tag.inside, quotedAttribute]

theorem nested_container (id : String) (d : Description) (o : Options) :
    Nested (container id d o) := by
  rw [container_eq]
  exact .element (fits_div d o) (by decide) (.element (fits_canvas id) (by decide) .empty)

/-- The markup of a chart is nested. -/
theorem nested_draw {text : String} {o : Options} {html : String}
    (h : (draw text o).result = .ok html) : Nested html := by
  simp only [draw] at h
  -- The empty text is drawn as nothing, and a text that describes no chart is not drawn.
  split at h
  · obtain rfl : "" = html := by simpa [pure] using h
    exact .empty
  split at h
  · exact nomatch h
  rename_i d _
  simp only [Noted.mapError, markup] at h
  cases hscript : script (canvasId o.idPrefix text) d o with
  | error e => simp [hscript, Except.map, Except.mapError] at h
  | ok s =>
    obtain rfl : container (canvasId o.idPrefix text) d o ++ s = html := by
      simpa [hscript, Except.map, Except.mapError] using h
    exact (nested_container _ d o).append (nested_script hscript)

end Chartdown.Chart
