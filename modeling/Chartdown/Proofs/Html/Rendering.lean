import Chartdown.Html.Page
import Chartdown.Proofs.Html.Charts
import Chartdown.Proofs.Html.Slug
import Chartdown.Proofs.Html.Steps

/-!
# Documents are written as safe markup

Every node without raw HTML is written as markup that nests, whatever its texts are: each text goes
through an escape, an anchor is made of harmless characters, and every other part is fixed.

## Key results

- `Rendering.Yields`: what holds of the result of a step of writing, whatever was written before
- `render_nested`: a node is written as nested markup
- `renderDocument_safeMarkup`: a document is written as safe markup, as a part or as a page
-/

namespace Chartdown.Html

open Chartdown

/-! ### Steps of writing -/

/-- Whatever is known before a step, its result satisfies a property if there is one. -/
def Rendering.Yields {α : Type} (P : α → Prop) (r : Rendering α) : Prop :=
  ∀ p a p', (r p).result = .ok (a, p') → P a

namespace Rendering

variable {α β : Type} {P : α → Prop} {Q : β → Prop}

theorem yields_pure {a : α} (h : P a) : Yields P (pure a) := by
  intro p b p' hb
  have hvalue : a = b := congrArg Prod.fst (Except.ok.inj hb)
  exact hvalue ▸ h

theorem yields_bind {r : Rendering α} {f : α → Rendering β} (hr : Yields P r)
    (hf : ∀ a, P a → Yields Q (f a)) : Yields Q (r >>= f) := by
  intro p b p' hb
  obtain ⟨a, q, hresult, hrest⟩ := result_bind_eq_ok_iff.mp hb
  exact hf a (hr p a q hresult) q b p' hrest

theorem yields_fail (e : RenderError) : Yields P (fun _ => Noted.fail e) :=
  fun _ _ _ h => nomatch h

end Rendering

open Rendering

/-! ### Nodes that are safe to write -/

/-- An alignment that columns can have. -/
def IsAlignment (a : Option String) : Prop := ∀ s, a = some s → s ∈ ["left", "center", "right"]

/-- A node holds no raw HTML, and its columns are aligned in one of the known ways. -/
def IsTame : Node → Prop
  | .leaf (.htmlBlock _) _ => False
  | .leaf (.htmlInline _) _ => False
  | .branch (.table _ alignments) _ _ => ∀ a ∈ alignments, IsAlignment a
  | _ => True

/-- All nodes of a tree are tame. -/
def Tame (n : Node) : Prop := ∀ m ∈ n.nodes, IsTame m

theorem Tame.self {n : Node} (h : Tame n) : IsTame n := h n n.mem_nodes_self

theorem Tame.children {b : Branch} {cs : List Node} {i : Info} (h : Tame (.branch b cs i)) :
    ∀ c ∈ cs, Tame c :=
  fun _ hc m hm => h m (Node.mem_nodes_branch hc hm)

/-! ### Parts of markup -/

/-- Markup between two tags without attributes. -/
theorem nested_tagged {tag inner : String} (hform : (tag, []) ∈ forms) (hvoid : tag ∉ voids)
    (hinner : Nested inner) : Nested (tagged tag inner) := by
  have hfits : Fits tag [] := .of_names [] hform rfl (by simp)
  refine (Nested.element hfits hvoid hinner).of_toList_eq ?_
  simp [tagged, Tag.text, Tag.inside]

theorem nested_feed : Nested "\n" := .of_plain (by decide)

theorem nested_content {o : Options} (ho : o.escapeHtml = true) (s : String) :
    Nested (content o s) := by
  rw [content, if_pos ho]
  exact .of_plain (attributeText_escape s).plainText

/-- An attribute that is left out where its value is missing or empty. -/
theorem attributeText_eq (name : String) (value : Option String) :
    attributeText name value = "" ∨
      ∃ v, value = some v ∧ attributeText name value = quotedAttribute (name, v) := by
  cases value with
  | none => exact .inl rfl
  | some v =>
    by_cases hv : v = ""
    · exact .inl (by simp [attributeText, hv])
    · exact .inr ⟨v, rfl, by simp [attributeText, hv, quotedAttribute]⟩

theorem attributeText_of_isSlugChar {s : String} (h : ∀ c ∈ s.toList, Slug.IsSlugChar c) :
    AttributeText s := by
  intro c hc
  refine ⟨⟨?_, ?_⟩, ?_⟩ <;> rintro rfl <;> exact absurd (h _ hc) (by decide)

theorem attributeText_integerText (n : Int) : AttributeText (String.ofList (integerText n)) := by
  have hdigits : ∀ c ∈ digitsOf n.natAbs, c.isDigit = true := fun c hc =>
    Nat.isDigit_of_mem_toDigits (by decide) (by decide) hc
  refine attributeText_of_isSlugChar fun c hc => ?_
  rw [String.toList_ofList, integerText] at hc
  split at hc
  · rcases List.mem_cons.mp hc with rfl | hc
    · decide
    · exact .inr (.inr (hdigits c hc))
  · exact .inr (.inr (hdigits c hc))

/-- The style of a cell is left out or one attribute with a known value. -/
theorem cellStyle_eq {alignments : List (Option String)} (h : ∀ a ∈ alignments, IsAlignment a) :
    cellStyle alignments = "" ∨
      ∃ v, AttributeText v ∧ cellStyle alignments = quotedAttribute ("style", v) := by
  match alignments with
  | [] => exact .inl rfl
  | none :: _ => exact .inl rfl
  | some align :: rest =>
    have halign : align ∈ ["left", "center", "right"] := h _ List.mem_cons_self align rfl
    have hvalue : AttributeText ("text-align: " ++ align) := by
      rw [AttributeText, String.toList_append, List.forall_mem_append]
      simp only [List.mem_cons, List.not_mem_nil, or_false] at halign
      rcases halign with rfl | rfl | rfl <;> decide
    by_cases hempty : align = ""
    · exact .inl (by simp [cellStyle, hempty])
    · refine .inr ⟨_, hvalue, ?_⟩
      rw [← String.toList_inj]
      simp [cellStyle, hempty, quotedAttribute]

/-- A cell between its tags. -/
theorem nested_cell {tag style inner : String} (htag : tag = "td" ∨ tag = "th")
    (hstyle : style = "" ∨ ∃ v, AttributeText v ∧ style = quotedAttribute ("style", v))
    (hinner : Nested inner) : Nested ("<" ++ tag ++ style ++ ">" ++ inner ++ "</" ++ tag ++ ">") := by
  have hplain : (tag, []) ∈ forms := by rcases htag with rfl | rfl <;> decide
  have hstyled : (tag, ["style"]) ∈ forms := by rcases htag with rfl | rfl <;> decide
  have hvoid : tag ∉ voids := by rcases htag with rfl | rfl <;> decide
  rcases hstyle with rfl | ⟨v, hv, rfl⟩
  · refine (nested_tagged hplain hvoid hinner).of_toList_eq ?_
    simp [tagged]
  · have hfits : Fits tag [("style", v)] := .of_names ["style"] hstyled rfl (by simpa using hv)
    refine (Nested.element hfits hvoid hinner).of_toList_eq ?_
    simp [Tag.text, Tag.inside, quotedAttribute]

/-! ### Leaves -/

theorem chartBlock_nested (o : Options) (text : String) : Yields Nested (chartBlock o text) := by
  intro p html p' h
  rcases chartBlock_cases o text with ⟨_, drawn, -, hdrawn, hblock⟩ | ⟨_, -, hblock⟩ | ⟨_, _, -, hblock⟩
  · rw [hblock] at h
    obtain ⟨rfl, -⟩ := Prod.mk.inj (Except.ok.inj h)
    exact (Chart.nested_draw hdrawn).append nested_feed
  · rw [hblock] at h
    obtain ⟨rfl, -⟩ := Prod.mk.inj (Except.ok.inj h)
    exact .empty
  · rw [hblock] at h
    exact nomatch h

theorem nested_codeBlock {o : Options} (ho : o.escapeHtml = true) (s : String)
    (language : Option String) :
    Nested ("<pre><code" ++ languageClass o language ++ ">" ++ content o s ++
      "</code></pre>\n") := by
  have hclass : languageClass o language = "" ∨
      ∃ v, AttributeText v ∧ languageClass o language = quotedAttribute ("class", v) := by
    -- The class is never an empty attribute, as its value starts with a word of its own.
    cases language with
    | none => exact .inl rfl
    | some l =>
      simp only [languageClass]
      split
      · refine .inr ⟨"language-" ++ escape l, ?_, ?_⟩
        · rw [AttributeText, String.toList_append, List.forall_mem_append]
          exact ⟨by decide, attributeText_escape l⟩
        · rcases attributeText_eq "class" (some ("language-" ++ escape l)) with h | ⟨v, hv, h⟩
          · simp [attributeText] at h
          · rw [h, Option.some.inj hv]
      · exact .inl rfl
  have hcode : Nested ("<code" ++ languageClass o language ++ ">" ++ content o s ++ "</code>") := by
    rcases hclass with hclass | ⟨v, hv, hclass⟩
    · refine (@nested_tagged "code" _ (by decide) (by decide) (nested_content ho s)).of_toList_eq ?_
      simp [tagged, hclass]
    · have hfits : Fits "code" [("class", v)] :=
        .of_names ["class"] (by decide) rfl (by simpa using hv)
      refine (Nested.element hfits (by decide) (nested_content ho s)).of_toList_eq ?_
      simp [Tag.text, Tag.inside, quotedAttribute, hclass]
  have hpre := (@nested_tagged "pre" _ (by decide) (by decide) hcode).append nested_feed
  refine hpre.of_toList_eq ?_
  simp [tagged]

theorem nested_image (url alt : String) (title : Option String) :
    Nested ("<img src=\"" ++ escape url ++ "\" alt=\"" ++ escape alt ++ "\"" ++
      attributeText "title" (title.map escape) ++ ">") := by
  rcases attributeText_eq "title" (title.map escape) with h | ⟨v, hv, h⟩
  · have hfits : Fits "img" [("src", escape url), ("alt", escape alt)] :=
      .of_names ["src", "alt"] (by decide) rfl (by simp [attributeText_escape])
    refine (Nested.void hfits (by decide)).of_toList_eq ?_
    simp [Tag.text, Tag.inside, quotedAttribute, h]
  · obtain ⟨t, -, rfl⟩ := Option.map_eq_some_iff.mp hv
    have hfits : Fits "img" [("src", escape url), ("alt", escape alt), ("title", escape t)] :=
      .of_names ["src", "alt", "title"] (by decide) rfl (by simp [attributeText_escape])
    refine (Nested.void hfits (by decide)).of_toList_eq ?_
    simp [Tag.text, Tag.inside, quotedAttribute, h]

theorem nested_void {name : String} (hform : (name, []) ∈ forms) (hvoid : name ∈ voids) :
    Nested ("<" ++ name ++ ">\n") := by
  have hfits : Fits name [] := .of_names [] hform rfl (by simp)
  refine ((Nested.void hfits hvoid).append nested_feed).of_toList_eq ?_
  simp [Tag.text, Tag.inside]

theorem renderLeaf_nested {o : Options} (ho : o.escapeHtml = true) {l : Leaf} {i : Info}
    (h : IsTame (.leaf l i)) : Yields Nested (renderLeaf o l) := by
  cases l with
  | codeBlock text language _ _ => exact yields_pure (nested_codeBlock ho text language)
  | chartBlock lines => exact chartBlock_nested o _
  | thematicBreak => exact yields_pure (@nested_void "hr" (by decide) (by decide))
  | htmlBlock html => exact absurd h (by simp [IsTame])
  | text s => exact yields_pure (nested_content ho s)
  | code s =>
    exact yields_pure (nested_tagged (by decide) (by decide) (nested_content ho s))
  | image url alt title => exact yields_pure (nested_image url alt title)
  | lineBreak soft =>
    cases soft with
    | true => exact yields_pure nested_feed
    | false => exact yields_pure (@nested_void "br" (by decide) (by decide))
  | htmlInline html => exact absurd h (by simp [IsTame])

/-! ### Branches -/

theorem nested_heading (level : HeadingLevel) {anchor inner : String}
    (hanchor : AttributeText anchor) (hinner : Nested inner) :
    Nested ("<h" ++ level.val.repr ++ " id=\"" ++ anchor ++ "\">" ++ inner ++ "</h" ++
      level.val.repr ++ ">\n") := by
  obtain ⟨val, hone, hsix⟩ := level
  -- The name of the element is made of the level, so it is one of six.
  have hname : ("h" ++ val.repr, ["id"]) ∈ forms ∧ "h" ++ val.repr ∉ voids := by
    have hval : val = 1 ∨ val = 2 ∨ val = 3 ∨ val = 4 ∨ val = 5 ∨ val = 6 := by omega
    rcases hval with rfl | rfl | rfl | rfl | rfl | rfl <;> decide
  have hfits : Fits ("h" ++ val.repr) [("id", anchor)] :=
    .of_names ["id"] hname.1 rfl (by simpa using hanchor)
  refine ((Nested.element hfits hname.2 hinner).append nested_feed).of_toList_eq ?_
  simp [Tag.text, Tag.inside, quotedAttribute]

theorem nested_list (ordered : Bool) (start : Int) {inner : String} (hinner : Nested inner) :
    Nested ("<" ++ (if ordered then "ol" else "ul") ++
      (if ordered && start != 1 then
        attributeText "start" (some (String.ofList (integerText start))) else "") ++ ">\n" ++
      inner ++ "</" ++ (if ordered then "ol" else "ul") ++ ">\n") := by
  have hbody := nested_feed.append hinner
  have hplain : ∀ tag, (tag, []) ∈ forms → tag ∉ voids →
      Nested ("<" ++ tag ++ "" ++ ">\n" ++ inner ++ "</" ++ tag ++ ">\n") := fun tag hform hvoid => by
    refine ((nested_tagged hform hvoid hbody).append nested_feed).of_toList_eq ?_
    simp [tagged]
  cases ordered with
  | false => exact hplain "ul" (by decide) (by decide)
  | true =>
    -- A list that starts at one has no attribute.
    by_cases hstart : start = 1
    · simpa [hstart] using hplain "ol" (by decide) (by decide)
    · have hfits : Fits "ol" [("start", String.ofList (integerText start))] :=
        .of_names ["start"] (by decide) rfl (by simpa using attributeText_integerText start)
      have hnumber : String.ofList (integerText start) ≠ "" := by
        simp [integerText, digitsOf]
        split <;> simp
      refine ((Nested.element hfits (by decide) hbody).append nested_feed).of_toList_eq ?_
      simp [Tag.text, Tag.inside, quotedAttribute, attributeText, hstart, hnumber]

theorem nested_link (url : String) (title : Option String) {inner : String}
    (hinner : Nested inner) :
    Nested ("<a href=\"" ++ escape url ++ "\"" ++ attributeText "title" (title.map escape) ++ ">" ++
      inner ++ "</a>") := by
  rcases attributeText_eq "title" (title.map escape) with h | ⟨v, hv, h⟩
  · have hfits : Fits "a" [("href", escape url)] :=
      .of_names ["href"] (by decide) rfl (by simp [attributeText_escape])
    refine (Nested.element hfits (by decide) hinner).of_toList_eq ?_
    simp [Tag.text, Tag.inside, quotedAttribute, h]
  · obtain ⟨t, -, rfl⟩ := Option.map_eq_some_iff.mp hv
    have hfits : Fits "a" [("href", escape url), ("title", escape t)] :=
      .of_names ["href", "title"] (by decide) rfl (by simp [attributeText_escape])
    refine (Nested.element hfits (by decide) hinner).of_toList_eq ?_
    simp [Tag.text, Tag.inside, quotedAttribute, h]

/-- An element whose tags stand on lines of their own. -/
theorem nested_block (tag : String) {opening closing inner : String} (hform : (tag, []) ∈ forms)
    (hvoid : tag ∉ voids) (hopening : opening = "<" ++ tag ++ ">\n")
    (hclosing : closing = "</" ++ tag ++ ">\n") (hinner : Nested inner) :
    Nested (opening ++ inner ++ closing) := by
  refine ((nested_tagged hform hvoid (nested_feed.append hinner)).append nested_feed).of_toList_eq ?_
  simp [tagged, hopening, hclosing]

theorem openHeading_yields (text : String) : Yields AttributeText (openHeading text) := by
  intro p anchor p' h
  simp only [openHeading, pure, Except.ok.injEq, Prod.mk.injEq] at h
  rw [← h.1]
  exact attributeText_of_isSlugChar (Slug.isSlugChar_of_mem_choose anchorLength text p.anchors)

theorem taskBox_yields (status : String) : Yields PlainText (taskBox status) := by
  rw [taskBox]
  split
  · exact yields_pure (by decide)
  split
  · exact yields_pure (by decide)
  · exact yields_fail _

/-! ### Trees -/

variable {o : Options}

mutual
/-- A tame node is written as nested markup. -/
theorem render_nested (ho : o.escapeHtml = true) (n : Node) (h : Tame n) :
    Yields Nested (render o n) := by
  match n with
  | .leaf l i =>
    rw [render]
    exact renderLeaf_nested ho h.self
  | .branch b cs i =>
    -- What the children are written as is nested; each branch puts its own tags around it.
    have hall := renderAll_nested ho cs h.children
    cases b with
    | document => rw [render]; exact hall
    | heading level =>
      rw [render]
      refine yields_bind (openHeading_yields _) fun anchor hanchor => ?_
      exact yields_bind hall fun inner hinner => yields_pure (nested_heading level hanchor hinner)
    | paragraph =>
      rw [render]
      refine yields_bind hall fun inner hinner => yields_pure ?_
      exact (@nested_tagged "p" inner (by decide) (by decide) hinner).append nested_feed
    | blockQuote =>
      rw [render]
      refine yields_bind hall fun inner hinner => yields_pure ?_
      exact nested_block "blockquote" (by decide) (by decide) rfl rfl hinner
    | list ordered start tight =>
      rw [render]
      refine yields_bind hall fun inner hinner => yields_pure ?_
      exact nested_list ordered start hinner
    | listItem task =>
      have hitem : ∀ inner, Nested inner → Nested ("<li>" ++ inner ++ "</li>\n") := fun inner hinner =>
        ((@nested_tagged "li" _ (by decide) (by decide) hinner).append nested_feed).of_toList_eq
          (by simp [tagged])
      cases task with
      | none =>
        rw [render]
        exact yields_bind hall fun inner hinner => yields_pure (hitem inner hinner)
      | some status =>
        rw [render]
        split
        · exact yields_bind hall fun inner hinner => yields_pure (hitem inner hinner)
        · refine yields_bind (taskBox_yields status) fun box hbox => ?_
          exact yields_bind (renderTask_nested ho hbox cs h.children) fun inner hinner =>
            yields_pure (hitem inner hinner)
    | table headed alignments =>
      rw [render]
      refine yields_bind (renderTable_nested ho headed h.self cs h.children) fun inner hinner => ?_
      exact yields_pure (nested_block "table" (by decide) (by decide) rfl rfl hinner)
    | tableRow isHeader => rw [render]; exact yields_pure .empty
    | tableCell alignment => rw [render]; exact yields_pure .empty
    | emphasis =>
      rw [render]
      refine yields_bind hall fun inner hinner => yields_pure ?_
      exact @nested_tagged "em" inner (by decide) (by decide) hinner
    | strong =>
      rw [render]
      refine yields_bind hall fun inner hinner => yields_pure ?_
      exact @nested_tagged "strong" inner (by decide) (by decide) hinner
    | link url title =>
      rw [render]
      exact yields_bind hall fun inner hinner => yields_pure (nested_link url title hinner)
    | strikethrough =>
      rw [render]
      refine yields_bind hall fun inner hinner => yields_pure ?_
      exact @nested_tagged "del" inner (by decide) (by decide) hinner

theorem renderAll_nested (ho : o.escapeHtml = true) (ns : List Node) (h : ∀ n ∈ ns, Tame n) :
    Yields Nested (renderAll o ns) := by
  match ns with
  | [] => rw [renderAll]; exact yields_pure .empty
  | n :: rest =>
    rw [List.forall_mem_cons] at h
    rw [renderAll]
    refine yields_bind (render_nested ho n h.1) fun first hfirst => ?_
    exact yields_bind (renderAll_nested ho rest h.2) fun others hothers =>
      yields_pure (hfirst.append hothers)

theorem renderTask_nested (ho : o.escapeHtml = true) {box : String} (hbox : PlainText box)
    (ns : List Node) (h : ∀ n ∈ ns, Tame n) : Yields Nested (renderTask o box ns) := by
  have yields_boxed : ∀ {first others : Rendering String}, Yields Nested first →
      Yields Nested others →
      Yields Nested (do let a ← first; let b ← others; return box ++ a ++ b) :=
    fun hfirst hothers => yields_bind hfirst fun _ ha => yields_bind hothers fun _ hb =>
      yields_pure (((Nested.of_plain hbox).append ha).append hb)
  match ns with
  | [] => rw [renderTask]; exact yields_pure (.of_plain hbox)
  | .leaf l i :: rest =>
    rw [List.forall_mem_cons] at h
    have hleaf := render_nested ho (.leaf l i) h.1
    rw [renderTask_leaf]
    exact yields_boxed hleaf (renderAll_nested ho rest h.2)
  | .branch b cs i :: rest =>
    rw [List.forall_mem_cons] at h
    have hbranch := render_nested ho (.branch b cs i) h.1
    have hall := renderAll_nested ho cs h.1.children
    have hrest := renderAll_nested ho rest h.2
    by_cases hb : b = .paragraph
    · -- A paragraph takes the box inside its tags; anything else stands behind the box.
      subst hb
      rw [renderTask]
      refine yields_bind hall fun inner hinner => yields_bind hrest fun others hothers => ?_
      have hboxed : Nested (box ++ inner) := (Nested.of_plain hbox).append hinner
      have hfirst := (@nested_tagged "p" _ (by decide) (by decide) hboxed).append nested_feed
      exact yields_pure (hfirst.append hothers)
    · rw [renderTask_branch hb]
      exact yields_boxed hbranch hrest

theorem renderTable_nested (ho : o.escapeHtml = true) (headed : Bool)
    {alignments : List (Option String)} (ha : ∀ a ∈ alignments, IsAlignment a) (ns : List Node)
    (h : ∀ n ∈ ns, Tame n) : Yields Nested (renderTable o headed alignments ns) := by
  match ns with
  | [] => rw [renderTable]; exact yields_pure .empty
  | row :: rows =>
    rw [List.forall_mem_cons] at h
    have hrows := renderRows_nested ho ha rows h.2
    rw [renderTable]
    split
    · -- The first row makes the head, and the body is left out where no other row follows.
      refine yields_bind (renderRow_nested ho (.inr rfl) ha row h.1) fun head hhead => ?_
      refine yields_bind hrows fun body hbody => ?_
      have hhead := nested_block "thead" (by decide) (by decide) rfl rfl hhead
      have hbody := nested_block "tbody" (by decide) (by decide) rfl rfl hbody
      refine yields_pure ?_
      split
      · exact hhead.append .empty
      · exact hhead.append hbody
    · refine yields_bind (renderRow_nested ho (.inl rfl) ha row h.1) fun first hfirst => ?_
      refine yields_bind hrows fun others hothers => yields_pure ?_
      exact nested_block "tbody" (by decide) (by decide) rfl rfl (hfirst.append hothers)

theorem renderRows_nested (ho : o.escapeHtml = true) {alignments : List (Option String)}
    (ha : ∀ a ∈ alignments, IsAlignment a) (ns : List Node) (h : ∀ n ∈ ns, Tame n) :
    Yields Nested (renderRows o alignments ns) := by
  match ns with
  | [] => rw [renderRows]; exact yields_pure .empty
  | row :: rows =>
    rw [List.forall_mem_cons] at h
    rw [renderRows]
    refine yields_bind (renderRow_nested ho (.inl rfl) ha row h.1) fun first hfirst => ?_
    exact yields_bind (renderRows_nested ho ha rows h.2) fun others hothers =>
      yields_pure (hfirst.append hothers)

theorem renderRow_nested (ho : o.escapeHtml = true) {tag : String} (htag : tag = "td" ∨ tag = "th")
    {alignments : List (Option String)} (ha : ∀ a ∈ alignments, IsAlignment a) (n : Node)
    (h : Tame n) : Yields Nested (renderRow o tag alignments n) := by
  match n with
  | .leaf l i => rw [renderRow]; exact yields_fail _
  | .branch b cells i =>
    have hcells := renderCells_nested ho htag ha cells h.children
    cases b with
    | tableRow isHeader =>
      rw [renderRow]
      refine yields_bind hcells fun inner hinner => yields_pure ?_
      exact (@nested_tagged "tr" inner (by decide) (by decide) hinner).append nested_feed
    | _ => exact yields_fail _

theorem renderCells_nested (ho : o.escapeHtml = true) {tag : String}
    (htag : tag = "td" ∨ tag = "th") {alignments : List (Option String)}
    (ha : ∀ a ∈ alignments, IsAlignment a) (ns : List Node) (h : ∀ n ∈ ns, Tame n) :
    Yields Nested (renderCells o tag alignments ns) := by
  match ns with
  | [] => rw [renderCells]; exact yields_pure .empty
  | cell :: cells =>
    rw [List.forall_mem_cons] at h
    rw [renderCells]
    refine yields_bind (renderCell_nested ho htag (cellStyle_eq ha) cell h.1) fun first hfirst => ?_
    -- Each cell takes one alignment off the list.
    have htail : ∀ a ∈ alignments.tail, IsAlignment a := fun a hmem => ha a (List.mem_of_mem_tail hmem)
    exact yields_bind (renderCells_nested ho htag htail cells h.2) fun others hothers =>
      yields_pure (hfirst.append hothers)

theorem renderCell_nested (ho : o.escapeHtml = true) {tag style : String}
    (htag : tag = "td" ∨ tag = "th")
    (hstyle : style = "" ∨ ∃ v, AttributeText v ∧ style = quotedAttribute ("style", v)) (n : Node)
    (h : Tame n) : Yields Nested (renderCell o tag style n) := by
  match n with
  | .leaf l i =>
    rcases renderCell_leaf o tag style l i with ⟨-, hcell⟩ | ⟨k, -, hcell⟩
    · rw [hcell]
      exact yields_pure ((nested_cell htag hstyle .empty).of_toList_eq (by simp))
    · rw [hcell]
      exact yields_fail _
  | .branch b cs i =>
    have hall := renderAll_nested ho cs h.children
    cases hinline : holdsInline b with
    | true =>
      rw [renderCell_of_holdsInline o tag style hinline]
      exact yields_bind hall fun inner hinner => yields_pure (nested_cell htag hstyle hinner)
    | false =>
      rw [renderCell_of_not_holdsInline o tag style hinline]
      exact yields_fail _
end

/-! ### Pages -/

theorem nested_charset : Nested "<meta charset=\"UTF-8\">\n" := by
  have hfits : Fits "meta" [("charset", "UTF-8")] :=
    .of_names ["charset"] (by decide) rfl (by simp; decide)
  exact ((Nested.void hfits (by decide)).append nested_feed).of_toList_eq (by decide)

theorem nested_viewport :
    Nested "<meta name=\"viewport\" content=\"width=device-width, initial-scale=1.0\">\n" := by
  have hfits : Fits "meta"
      [("name", "viewport"), ("content", "width=device-width, initial-scale=1.0")] :=
    .of_names ["name", "content"] (by decide) rfl (by simp; decide +kernel)
  exact ((Nested.void hfits (by decide)).append nested_feed).of_toList_eq (by decide +kernel)

theorem nested_libraryLine (o : Options) : Nested (libraryLine o) := by
  have hfits : Fits "script" [("src", escape o.chartLibraryUrl)] :=
    .of_names ["src"] (by decide) rfl (by simp [attributeText_escape])
  refine ((Nested.element hfits (by decide) .empty).append nested_feed).of_toList_eq ?_
  simp [libraryLine, Tag.text, Tag.inside, quotedAttribute]

/-- The head of a page, with the library where it is wanted. -/
theorem nested_head (o : Options) (title : String) (library : Prop) [Decidable library] :
    Nested ("<head>\n" ++ ("<meta charset=\"UTF-8\">\n" ++
      "<meta name=\"viewport\" content=\"width=device-width, initial-scale=1.0\">\n" ++
      ("<title>" ++ escape title ++ "</title>\n") ++
      (if library then libraryLine o else "")) ++ "</head>\n") := by
  have htitle : Nested (tagged "title" (escape title) ++ "\n") :=
    (@nested_tagged "title" _ (by decide) (by decide)
      (.of_plain (attributeText_escape title).plainText)).append nested_feed
  have hlibrary : Nested (if library then libraryLine o else "") := by
    split
    · exact nested_libraryLine o
    · exact .empty
  refine nested_block "head" (by decide) (by decide) rfl rfl ?_
  refine ((nested_charset.append nested_viewport).append ?_).append hlibrary
  exact htitle.of_toList_eq (by simp [tagged])

/-- A page is nested if its body is. -/
theorem page_nested {o : Options} {i : Info} {p : Progress} {body html : String}
    (hbody : Nested body) (h : (page o i p body).result = .ok html) : Nested html := by
  have hdoctype : Nested "<!DOCTYPE html>\n" :=
    (@nested_void "!DOCTYPE html" (by decide) (by decide)).of_toList_eq (by decide)
  have hfits : Fits "html" [("lang", escape (pageLanguage o i))] :=
    .of_names ["lang"] (by decide) rfl (by simp [attributeText_escape])
  have hhead := nested_head o (pageTitle i p) (p.charts ≠ 0 ∧ o.allowRemoteScripts)
  have hbody := nested_block "body" (by decide) (by decide) rfl rfl (hbody.append nested_feed)
  have hroot := Nested.element hfits (by decide) ((nested_feed.append hhead).append hbody)
  -- The page is one text, whose lines have to be told apart as the elements that they open.
  have hopening : ∀ lang rest, "<html lang=\"" ++ (lang ++ ("\">\n" ++ rest)) =
      (Tag.opening "html" [("lang", lang)]).text ++ ("\n" ++ rest) := fun lang rest => by
    rw [← String.toList_inj]
    simp [Tag.text, Tag.inside, quotedAttribute]
  have hbodyEnd : "\n</body>\n" = "\n" ++ ("</" ++ "body" ++ ">\n") := by decide
  have hclosing : "</html>" = (Tag.closing "html").text := by decide
  obtain rfl := Except.ok.inj h
  have hpage := hdoctype.append hroot
  rw [hbodyEnd, hclosing]
  simp only [String.append_assoc, hopening] at hpage ⊢
  exact hpage

/-! ### Documents -/

theorem dropFinalFeeds_nested {s : String} (h : Nested s) : Nested (dropFinalFeeds s) := by
  obtain ⟨feeds, hs, hfeeds⟩ := Text.exists_dropEndWhile_append (· == '\n') s.toList
  have hplain : PlainText (String.ofList feeds) := by
    intro c hc
    rw [String.toList_ofList] at hc
    obtain rfl : c = '\n' := by simpa using hfeeds c hc
    decide
  refine Nested.of_append hplain (h.of_toList_eq ?_)
  rw [String.toList_append, dropFinalFeeds, String.toList_ofList, String.toList_ofList, ← hs]

/-- A document without raw HTML, its columns aligned in one of the known ways, is written as safe
markup whenever it is written with its texts escaped: as a part and as a page, whatever its texts
and charts are. -/
theorem renderDocument_safeMarkup {o : Options} (ho : o.escapeHtml = true) {doc : Node}
    (hdoc : Tame doc) {html : String} (h : (renderDocument o doc).result = .ok html) :
    SafeMarkup html := by
  obtain ⟨⟨body, p⟩, hbody, hrest⟩ := Noted.result_bind_eq_ok_iff.mp h
  have hbody := dropFinalFeeds_nested (render_nested ho doc hdoc _ _ _ hbody)
  simp only at hrest
  split at hrest
  · exact (page_nested hbody hrest).safeMarkup
  · obtain rfl := Except.ok.inj hrest
    exact hbody.safeMarkup

/-- A document whose texts and address try to leave their places. -/
def hostileDocument : Node :=
  .branch .document
    [.branch (.table true [some "right"])
      [.branch (.tableRow true) [.branch (.tableCell none) [.leaf (.text "\"<b>") {}] {}] {}] {},
     .branch .paragraph [.branch (.link "a\"><i>" none) [.leaf (.code "&<") {}] {}] {}] {}

/-- The hostile document as a part of a page. -/
def hostileMarkup : String :=
  "<table>\n<thead>\n<tr><th style=\"text-align: right\">&quot;&lt;b&gt;</th></tr>\n" ++
    "</thead>\n</table>\n<p><a href=\"a&quot;&gt;&lt;i&gt;\"><code>&amp;&lt;</code></a></p>"

theorem renderDocument_safeMarkup_hostile :
    Tame hostileDocument ∧ (renderDocument {} hostileDocument).result = .ok hostileMarkup ∧
      SafeMarkup hostileMarkup := by
  have htame : Tame hostileDocument := by
    simp [Tame, hostileDocument, Node.nodes, Node.nodesOfAll, IsTame, IsAlignment]
  have hresult : (renderDocument {} hostileDocument).result = .ok hostileMarkup := by
    decide +kernel
  exact ⟨htame, hresult, renderDocument_safeMarkup rfl htame hresult⟩

end Chartdown.Html
