import Chartdown.Proofs.Chart.Configuration
import Chartdown.Proofs.Chart.Confinement
import Chartdown.Proofs.Html.Elements

/-!
# The container and the script of a chart agree

The identifier of a chart is written twice, as an attribute of the canvas and as a literal of the
script that looks the canvas up. A reader of the markup and a reader of the script come to the same
text. The size hint, too, counts twice: it is a declaration of the container's style, and it makes
the configuration give up its own shape. Either both happen or neither.

## Key results

- `showsContainer_of_tags`: what the container of a chart shows
- `showsScript_of_isWritable`: what its script looks up and calls
- `at?_keptAspect_eq_iff`: when its configuration gives up its own shape
- `markup_agrees`: container, script and configuration agree
-/

namespace Chartdown.Chart

open Text Html
open Json (IsWritable at? obstacle?)

/-! ### Size hints -/

/-- The size hint can be the height of a container: there is one, and it ends neither its
declaration nor a block of them. -/
def Description.HasHeight (d : Description) : Prop :=
  d.sizeHint ≠ "" ∧ ∀ c ∈ d.sizeHint.toList, c ≠ ';' ∧ c ≠ '\x7b' ∧ c ≠ '\x7d'

theorem breaksDeclaration_eq_false_iff {s : String} :
    breaksDeclaration s = false ↔ ∀ c ∈ s.toList, c ≠ ';' ∧ c ≠ '\x7b' ∧ c ≠ '\x7d' := by
  simp [breaksDeclaration, List.any_eq_false, and_assoc]

theorem Description.height_eq_of_hasHeight {d : Description} (h : d.HasHeight) :
    d.height = d.sizeHint := by
  rw [height, breaksDeclaration_eq_false_iff.mpr h.2]
  rfl

theorem Description.height_eq_empty_iff {d : Description} : d.height = "" ↔ ¬ d.HasHeight := by
  rw [height, HasHeight, ← breaksDeclaration_eq_false_iff]
  cases breaksDeclaration d.sizeHint <;> simp

/-- Where a configuration says whether a chart keeps its own shape. -/
def keptAspectPath : List String := ["options", "maintainAspectRatio"]

/-- The configuration gives up the chart's own shape where the size hint can be used. -/
theorem at?_keptAspect_eq_iff (d : Description) (o : Options) :
    at? keptAspectPath (configuration d o) = some (.bool false) ↔ d.HasHeight := by
  rw [← not_iff_not, ← Description.height_eq_empty_iff]
  by_cases hheight : d.height = ""
  all_goals by_cases hpie : Kind.of d.kind = .pie <;>
    simp [keptAspectPath, configuration, chartOptions, hheight, hpie]

/-! ### Containers -/

theorem containerStyle_of_not_hasHeight {d : Description} (h : ¬ d.HasHeight) :
    containerStyle d = "position: relative;" := by
  unfold containerStyle
  rw [if_pos (Description.height_eq_empty_iff.mpr h), String.append_empty]

theorem containerStyle_of_hasHeight {d : Description} (h : d.HasHeight) :
    containerStyle d = "position: relative;" ++ " height: " ++ d.sizeHint ++ ";" := by
  have hne : d.height ≠ "" := mt Description.height_eq_empty_iff.mp (not_not_intro h)
  unfold containerStyle
  rw [if_neg hne, Description.height_eq_of_hasHeight h]
  simp only [String.append_assoc]

/-- The declarations of a style, which stand between its semicolons. -/
def declarations (style : List Char) : List (List Char) :=
  (cutAt ';' style).filter fun part => !isBlankText part

/-- The style of a markup's container is a text, and that text is made of some declarations. -/
def StyleIs (html style : String) (parts : List String) : Prop :=
  attributeValues? "div" "style" html.toList = some [style.toList] ∧
    declarations style.toList = parts.map String.toList

/-- What the container of a chart shows in a markup: the identifier, and a style with a height if
the size hint can be used. -/
structure ShowsContainer (id : String) (d : Description) (html : String) : Prop where
  canvas : attributeValues? "canvas" "id" html.toList = some [id.toList]
  plain : ¬ d.HasHeight → StyleIs html "position: relative;" ["position: relative"]
  sized : d.HasHeight → StyleIs html ("position: relative;" ++ " height: " ++ d.sizeHint ++ ";")
    ["position: relative", " height: " ++ d.sizeHint]

theorem isReadable_of_mem_containerTags {id : String} {d : Description} {o : Options} {t : Tag}
    (h : t ∈ containerTags id d o) : t.IsReadable := by
  have hquote (s : String) := quote_not_mem_escape s
  simp only [containerTags, List.mem_cons, List.not_mem_nil, or_false] at h
  rcases h with rfl | rfl | rfl | rfl
  · simp only [Tag.IsReadable, List.forall_mem_cons, hquote]
    decide
  · simp only [Tag.IsReadable, List.forall_mem_cons, hquote]
    decide
  all_goals decide

theorem declarations_plain :
    declarations "position: relative;".toList = ["position: relative"].map String.toList := by
  decide

/-- What is left of a style between its semicolons if the size hint can be used. -/
theorem declarations_of_hasHeight {d : Description} (h : d.HasHeight) :
    declarations ("position: relative;" ++ " height: " ++ d.sizeHint ++ ";").toList =
      ["position: relative", " height: " ++ d.sizeHint].map String.toList := by
  have hsplit : ("position: relative;" ++ " height: " ++ d.sizeHint ++ ";").toList =
      "position: relative".toList ++ ';' ::
        ((" height: ".toList ++ d.sizeHint.toList) ++ ';' :: []) := by
    simp
  have hheight : ';' ∉ " height: ".toList ++ d.sizeHint.toList := by
    rw [List.mem_append, not_or]
    exact ⟨by decide, fun hmem => (h.2 _ hmem).1 rfl⟩
  have hblank : isBlankText (" height: ".toList ++ d.sizeHint.toList) = false := by
    rw [isBlankText, List.all_append, (by decide : " height: ".toList.all isBlank = false)]
    rfl
  have hrelative : isBlankText "position: relative".toList = false := by decide
  rw [declarations, hsplit, cutAt_append_cons, cutAt_append_cons, cutAt_of_not_mem hheight,
    cutAt_of_not_mem (by decide : ';' ∉ "position: relative".toList), List.filter_append,
    List.filter_append, List.filter_cons_of_pos (by rw [hrelative]; rfl),
    List.filter_cons_of_pos (by rw [hblank]; rfl)]
  rw [List.map_cons, List.map_cons, String.toList_append]
  rfl

/-- A markup whose tags are those of the container and others of other elements shows the
container. -/
theorem showsContainer_of_tags {id : String} {d : Description} {o : Options} {html : String}
    {others : List Tag}
    (htags : tagsOf html = some ((containerTags id d o ++ others).map (·.inside.toList)))
    (hreadable : ∀ t ∈ others, t.IsReadable)
    (hothers : ∀ element ∈ ["canvas", "div"], ∀ name,
      others.flatMap (Tag.valuesOf element name) = []) : ShowsContainer id d html := by
  have hvalues (element name : String) := attributeValues?_of_tags htags
    (List.forall_mem_append.mpr ⟨fun _ => isReadable_of_mem_containerTags, hreadable⟩) element name
  have hstyle : attributeValues? "div" "style" html.toList = some [(containerStyle d).toList] := by
    rw [hvalues, List.flatMap_append, hothers "div" (by simp)]
    simp [containerTags, Tag.valuesOf, unescapeChars_escape]
  refine ⟨?_, fun h => ?_, fun h => ?_⟩
  · rw [hvalues, List.flatMap_append, hothers "canvas" (by simp)]
    simp [containerTags, Tag.valuesOf, unescapeChars_escape]
  · exact ⟨containerStyle_of_not_hasHeight h ▸ hstyle, declarations_plain⟩
  · exact ⟨containerStyle_of_hasHeight h ▸ hstyle, declarations_of_hasHeight h⟩

/-! ### Scripts -/

/-- The argument on a line that looks the canvas up. -/
def lookupArgument? (line : List Char) : Option (List Char) :=
  (line.dropPrefix? lookupStart).bind (·.dropSuffix? callEnd)

/-- The arguments on all lines of a markup's script that look a canvas up. -/
def lookupArguments? (html : String) : Option (List (List Char)) :=
  (elementContent? "script" html.toList).map fun body =>
    (cutAt '\n' body).filterMap lookupArgument?

/-- What the script of a chart shows in a markup: it looks up the canvas with the identifier, and it
hands the library a configuration. -/
structure ShowsScript (id : String) (config : Json) (html : String) : Prop where
  lookup : ∃ literal, lookupArguments? html = some [literal] ∧
    ∀ constants, Json.decode constants literal = .ok (.ofString id)
  call : ∃ literal, callArguments html = [literal] ∧
    ∀ constants, Json.decode constants literal = .ok config

theorem lookupArgument?_lookup (argument : List Char) :
    lookupArgument? (lookupStart ++ (argument ++ callEnd)) = some argument :=
  dropPrefix?_bind_dropSuffix?_append lookupStart argument

/-- A text that is quiet has no line that looks a canvas up. -/
theorem IsQuiet.filterMap_lookupArgument? {s : List Char} (h : IsQuiet s) :
    (cutAt '\n' s).filterMap lookupArgument? = [] := by
  refine filterMap_cutAt_eq_nil fun line argument hlookup hline => h.1 ?_
  have hmem : 'B' ∈ lookupStart := by decide
  exact hline.subset ((isPrefix_of_dropPrefix?_bind hlookup).subset hmem)

/-- Around literals that stand on one line, the script looks one canvas up. -/
theorem filterMap_lookupArgument?_scriptBody {id config : List Char} (hid : '\n' ∉ id)
    (hconfig : '\n' ∉ config) :
    (cutAt '\n' (scriptBody id config).toList).filterMap lookupArgument? = [id] := by
  -- The call of the library stands on a line by itself, which starts in another way.
  have hcall : [callStart ++ (config ++ callEnd)].filterMap lookupArgument? = [] := rfl
  have hlookup : [lookupStart ++ (id ++ callEnd)].filterMap lookupArgument? = [id] := by
    rw [List.filterMap_cons_some (lookupArgument?_lookup id), List.filterMap_nil]
  have hempty : (cutAt '\n' ([] : List Char)).filterMap lookupArgument? = [] := rfl
  obtain ⟨above, between, below, habove, hbetween, hbelow, hbody⟩ := exists_toList_scriptBody
  rw [hbody, ← List.nil_append ('\n' :: _), cutAt_append_cons, List.filterMap_append, hempty]
  simp only [cutAt_append_cons, List.filterMap_append, habove.filterMap_lookupArgument?,
    cutAt_line (by decide : '\n' ∉ lookupStart) hid, hlookup, hbetween.filterMap_lookupArgument?,
    cutAt_line (by decide : '\n' ∉ callStart) hconfig, hcall, hbelow.filterMap_lookupArgument?,
    List.nil_append, List.append_nil]

/-- What stands between the tags of a script, whatever the container in front of it is. -/
theorem elementContent?_script (id : String) (d : Description) (o : Options) (v w : Json) :
    elementContent? "script" (container id d o ++
        scriptAround ((Json.text v).flatMap scriptChar) ((Json.text w).flatMap scriptChar)).toList =
      some (scriptBody ((Json.text v).flatMap scriptChar)
        ((Json.text w).flatMap scriptChar)).toList := by
  have hcontainer : (Tag.opening "script" []).inside.toList ∉
      (containerTags id d o).map (·.inside.toList) := by
    simp [containerTags, Tag.inside]
  have hbody := tagsOf_of_plain (scriptText_scriptBody v w).plainText
  have hcontent := elementContent?_of_tagsOf "" (by decide : PlainText "script")
    (tagsOf_container id d o) hcontainer hbody List.not_mem_nil
  rw [scriptAround_eq]
  simpa only [String.append_empty, String.append_assoc] using hcontent

/-- What is written for a description whose numbers can be written. -/
theorem showsScript_of_isWritable {d : Description} (h : ∀ p ∈ d.points, p.IsWritable)
    (id : String) (o : Options) :
    ShowsScript id (configuration d o) (container id d o ++
      scriptAround ((Json.text (.ofString id)).flatMap scriptChar)
        ((Json.text (configuration d o)).flatMap scriptChar)) where
  lookup := by
    refine ⟨_, ?_, fun constants =>
      Json.decode_text escaping_scriptChar constants (Json.isPortable_ofString _ id)⟩
    rw [lookupArguments?, elementContent?_script, Option.map_some,
      filterMap_lookupArgument?_scriptBody (feed_not_mem_literal _) (feed_not_mem_literal _)]
  call := ⟨_, callArguments_script (not_isInfix_container id d o) (feed_not_mem_literal _)
    (feed_not_mem_literal _), fun constants =>
      Json.decode_text escaping_scriptChar constants (isPortable_configuration_of_isWritable h o)⟩

/-! ### Agreement -/

theorem showsContainer_container (id : String) (d : Description) (o : Options) :
    ShowsContainer id d (container id d o) := by
  have htags := tagsOf_container id d o
  rw [← List.append_nil (containerTags id d o)] at htags
  exact showsContainer_of_tags htags (by simp) (by simp)

theorem showsContainer_markup (id : String) (d : Description) (o : Options) (v w : Json) :
    ShowsContainer id d (container id d o ++
      scriptAround ((Json.text v).flatMap scriptChar) ((Json.text w).flatMap scriptChar)) := by
  obtain ⟨body, hscript, hbody⟩ := exists_scriptAround_eq v w
  rw [hscript, ← String.append_assoc, ← String.append_assoc]
  apply showsContainer_of_tags (confined_of_scriptText id d o hbody).tags
  · decide
  · simp [scriptTags, Tag.valuesOf]

/-- The canvas bears the identifier that the script looks up, and the container has a height just
if the configuration gives up the chart's own shape, which is just if the size hint can be used. All
this is in the markup of every description whose numbers can be written. -/
theorem markup_agrees (id : String) (d : Description) (o : Options) :
    ShowsContainer id d (container id d o) ∧
      (at? keptAspectPath (configuration d o) = some (.bool false) ↔ d.HasHeight) ∧
      (∀ html, (markup id d o).result = .ok html →
        ShowsContainer id d html ∧ ShowsScript id (configuration d o) html) ∧
      ((∀ p ∈ d.points, ∀ n ∈ p.numbers, IsWritable n) →
        ∃ html, (markup id d o).result = .ok html) := by
  have hwritable := obstacle?_configuration_eq_none_iff d o
  refine ⟨showsContainer_container id d o, at?_keptAspect_eq_iff d o, fun html h => ?_, fun h => ?_⟩
  · rw [result_markup_eq] at h
    cases hobstacle : obstacle? false (configuration d o) with
    | some e => rw [hobstacle] at h; cases h
    | none =>
      rw [hobstacle] at h
      obtain rfl := Except.ok.inj h
      exact ⟨showsContainer_markup id d o _ _, showsScript_of_isWritable (fun p hp =>
        forall_mem_numbers_iff.mp (hwritable.mp hobstacle p hp)) id o⟩
  · rw [result_markup_eq, hwritable.mpr h]
    exact ⟨_, rfl⟩

/-- An identifier that looks like the end of an attribute and of a literal, and like entities. -/
def disguisedId : String := "\"&quot;\\u0022');\n<é\u2028"

/-- A description whose texts look like the end of a line with a literal. -/
def disguisedDescription (sizeHint : String) : Description where
  kind := "pie"
  points := [⟨.text (Utf16.ofString "\");"), .integer 1⟩, ⟨.number (.integer 2), .integer 3⟩]
  sizeHint := sizeHint
  label := ");"

/-- A size hint with quotes and an ampersand is a height, and one with a semicolon is none. -/
theorem markup_agrees_disguised :
    ∃ html html', (markup disguisedId (disguisedDescription "1em\"&#59") {}).result = .ok html ∧
      (markup disguisedId (disguisedDescription "1em;") {}).result = .ok html' ∧
      StyleIs html ("position: relative;" ++ " height: " ++ "1em\"&#59" ++ ";")
        ["position: relative", " height: " ++ "1em\"&#59"] ∧
      StyleIs html' "position: relative;" ["position: relative"] ∧
      ShowsScript disguisedId (configuration (disguisedDescription "1em\"&#59") {}) html ∧
      ShowsScript disguisedId (configuration (disguisedDescription "1em;") {}) html' := by
  obtain ⟨-, -, hshows, hok⟩ := markup_agrees disguisedId (disguisedDescription "1em\"&#59") {}
  obtain ⟨-, -, hshows', hok'⟩ := markup_agrees disguisedId (disguisedDescription "1em;") {}
  obtain ⟨html, hhtml⟩ := hok (by decide)
  obtain ⟨html', hhtml'⟩ := hok' (by decide)
  have hheight : (disguisedDescription "1em\"&#59").HasHeight := ⟨by decide, by decide⟩
  have hplain : ¬ (disguisedDescription "1em;").HasHeight := fun hheight =>
    absurd rfl (hheight.2 ';' (by decide)).1
  exact ⟨html, html', hhtml, hhtml', (hshows html hhtml).1.sized hheight,
    (hshows' html' hhtml').1.plain hplain, (hshows html hhtml).2, (hshows' html' hhtml').2⟩

end Chartdown.Chart
