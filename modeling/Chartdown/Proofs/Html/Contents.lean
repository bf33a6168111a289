import Chartdown.Proofs.Html.Rendering
import Chartdown.Proofs.Html.Skipping

/-!
# The text of a document is written in full

A reader who drops the tags of a markup and reads its entities sees the texts and the code of the
document, one after the other. What a renderer adds of its own is tags and line feeds.

The proof goes through `Carries`, which says what a part of markup shows. Parts that are put next to
each other show one text behind the other, and tags show nothing.

## Key results

- `visibleText?`: what a reader sees in a markup
- `render_carries`: a node is written as markup that carries its text
- `renderDocument_visibleText`: what is seen of a document is its text
-/

namespace Chartdown

/-! ### Texts of a tree -/

/-- The text of a node itself: texts, code and code blocks have one. -/
def Node.ownText : Node → List Char
  | .leaf (.text s) _ | .leaf (.code s) _ | .leaf (.codeBlock s _ _ _) _ => s.toList
  | _ => []

/-- The texts at and below a node, in document order. -/
def Node.texts (n : Node) : List Char := n.nodes.flatMap Node.ownText

/-- The texts of some trees, one tree after the other. -/
def Node.textsOfAll (ns : List Node) : List Char := (Node.nodesOfAll ns).flatMap Node.ownText

theorem Node.texts_branch (b : Branch) (cs : List Node) (i : Info) :
    (Node.branch b cs i).texts = Node.textsOfAll cs := by
  rw [texts, nodes, List.flatMap_cons]
  rfl

theorem Node.textsOfAll_cons (n : Node) (ns : List Node) :
    Node.textsOfAll (n :: ns) = n.texts ++ Node.textsOfAll ns := by
  rw [textsOfAll, nodesOfAll, List.flatMap_append]
  rfl

namespace Html

/-! ### What a reader sees -/

/-- What is left of a text when its tags are dropped, each from `<` to the next `>`. The flag tells
whether a tag is open; nothing is left where one is open at the end. -/
def dropTags : Bool → List Char → Option (List Char)
  | false, [] => some []
  | true, [] => none
  | false, c :: s => if c = '<' then dropTags true s else (dropTags false s).map (c :: ·)
  | true, c :: s => if c = '>' then dropTags false s else dropTags true s

/-- A text without its line feeds. -/
def withoutFeeds (s : List Char) : List Char := s.filter (· ≠ '\n')

/-- What a reader sees in a markup: its tags are dropped, its entities are read once, and line feeds
do not count. -/
def visibleText? (html : String) : Option (List Char) :=
  (dropTags false html.toList).map fun s => withoutFeeds (unescapeChars s)

theorem dropTags_append {inTag : Bool} {s t u : List Char} (h : dropTags inTag s = some u) :
    dropTags inTag (s ++ t) = (dropTags false t).map (u ++ ·) := by
  -- No tag is open at the end of the front, or nothing would be left of it.
  induction s generalizing inTag u with
  | nil =>
    cases inTag with
    | true => exact nomatch h
    | false =>
      obtain rfl := Option.some.inj h
      simp
  | cons c s ih =>
    cases inTag with
    | true =>
      rw [dropTags] at h
      rw [List.cons_append, dropTags]
      split at h
      · rename_i hc; rw [if_pos hc, ih h]
      · rename_i hc; rw [if_neg hc, ih h]
    | false =>
      rw [dropTags] at h
      rw [List.cons_append, dropTags]
      split at h
      · rename_i hc; rw [if_pos hc, ih h]
      · rename_i hc
        obtain ⟨v, hv, rfl⟩ := Option.map_eq_some_iff.mp h
        rw [if_neg hc, ih hv, Option.map_map]
        rfl

theorem dropTags_true {s : List Char} (h : '>' ∉ s) (t : List Char) :
    dropTags true (s ++ t) = dropTags true t := by
  induction s with
  | nil => rfl
  | cons c s ih =>
    rw [List.mem_cons, not_or] at h
    rw [List.cons_append, dropTags, if_neg (Ne.symm h.1), ih h.2]

theorem dropTags_false {s : List Char} (h : '<' ∉ s) : dropTags false s = some s := by
  induction s with
  | nil => rfl
  | cons c s ih =>
    rw [List.mem_cons, not_or] at h
    rw [dropTags, if_neg (Ne.symm h.1), ih h.2]
    rfl

/-- A line feed at the end is left, and what is in front of it is left without it. -/
theorem dropTags_feed {inTag : Bool} {s u : List Char} (h : dropTags inTag (s ++ ['\n']) = some u) :
    ∃ v, dropTags inTag s = some v ∧ u = v ++ ['\n'] := by
  induction s generalizing inTag u with
  | nil =>
    cases inTag with
    | true => simp [dropTags] at h
    | false => exact ⟨[], rfl, by simpa [dropTags, eq_comm] using h⟩
  | cons c s ih =>
    cases inTag with
    | true =>
      rw [List.cons_append, dropTags] at h
      rw [dropTags]
      split at h
      · rename_i hc; rw [if_pos hc]; exact ih h
      · rename_i hc; rw [if_neg hc]; exact ih h
    | false =>
      rw [List.cons_append, dropTags] at h
      rw [dropTags]
      split at h
      · rename_i hc; rw [if_pos hc]; exact ih h
      · rename_i hc
        obtain ⟨w, hw, rfl⟩ := Option.map_eq_some_iff.mp h
        obtain ⟨v, hv, rfl⟩ := ih hw
        exact ⟨c :: v, by rw [if_neg hc, hv]; rfl, rfl⟩

/-- A line feed is not written as an entity. -/
theorem exists_of_escapeChars_feed {s t : List Char} (h : escapeChars s = t ++ ['\n']) :
    ∃ r, s = r ++ ['\n'] ∧ escapeChars r = t := by
  rcases List.eq_nil_or_concat s with rfl | ⟨r, c, rfl⟩
  · simp [escapeChars] at h
  · rw [List.concat_eq_append, escapeChars, List.flatMap_append, List.flatMap_singleton] at h
    have hlast := congrArg List.getLast? h
    have hc : c = '\n' ∧ escapeChar c = ['\n'] := by
      rw [List.getLast?_append, List.getLast?_concat] at hlast
      simp only [escapeChar] at hlast ⊢
      repeat' split at hlast
      all_goals simp_all
    rw [hc.2] at h
    exact ⟨r, by rw [hc.1, List.concat_eq_append], List.append_cancel_right h⟩

/-! ### Markup that carries a text -/

/-- A markup shows a text, but for line feeds. -/
def Carries (s : List Char) (html : String) : Prop :=
  ∃ t, dropTags false html.toList = some (escapeChars t) ∧ withoutFeeds t = withoutFeeds s

theorem Carries.visibleText? {s : List Char} {html : String} (h : Carries s html) :
    visibleText? html = some (withoutFeeds s) := by
  obtain ⟨t, ht, hs⟩ := h
  rw [Html.visibleText?, ht, Option.map_some, unescape_escape, hs]

theorem Carries.of_toList_eq {s : List Char} {html html' : String} (h : Carries s html)
    (heq : html'.toList = html.toList) : Carries s html' := by
  rwa [String.toList_inj.mp heq]

theorem Carries.append {s t : List Char} {html html' : String} (hs : Carries s html)
    (ht : Carries t html') : Carries (s ++ t) (html ++ html') := by
  obtain ⟨u, hu, hsu⟩ := hs
  obtain ⟨v, hv, htv⟩ := ht
  refine ⟨u ++ v, ?_, ?_⟩
  · rw [String.toList_append, dropTags_append hu, hv, escapeChars, escapeChars, escapeChars,
      List.flatMap_append]
    rfl
  · simp only [withoutFeeds, List.filter_append] at hsu htv ⊢
    rw [hsu, htv]

theorem carries_escape (s : String) : Carries s.toList (escape s) := by
  refine ⟨s.toList, ?_, rfl⟩
  rw [escape, String.toList_ofList]
  exact dropTags_false fun hmem => (forall_mem_escape _ _ hmem).1 rfl

theorem carries_content {o : Options} (ho : o.escapeHtml = true) (s : String) :
    Carries s.toList (content o s) := by
  rw [content, if_pos ho]
  exact carries_escape s

theorem carries_empty : Carries [] "" := ⟨[], rfl, rfl⟩

theorem carries_feed : Carries [] "\n" := ⟨['\n'], by decide, rfl⟩

/-- A text that does not end a tag. -/
def StaysInTag (s : String) : Prop := '>' ∉ s.toList

instance (s : String) : Decidable (StaysInTag s) := inferInstanceAs (Decidable (¬ _))

theorem StaysInTag.append {s t : String} (hs : StaysInTag s) (ht : StaysInTag t) :
    StaysInTag (s ++ t) := by
  rw [StaysInTag, String.toList_append, List.mem_append, not_or]
  exact ⟨hs, ht⟩

theorem PlainText.staysInTag {s : String} (h : PlainText s) : StaysInTag s :=
  fun hmem => (h _ hmem).2 rfl

/-- A tag shows nothing. -/
theorem carries_tag {inside : String} (h : StaysInTag inside) : Carries [] ("<" ++ inside ++ ">") := by
  refine ⟨[], ?_, rfl⟩
  have hopen : ("<" ++ inside ++ ">").toList = '<' :: (inside.toList ++ ['>']) := by simp
  rw [hopen, dropTags, if_pos rfl, dropTags_true h]
  rfl

/-- What is put between two tags shows what it showed. -/
theorem Carries.between {s : List Char} {opening inner closing : String} (h : Carries s inner)
    (hopening : Carries [] opening) (hclosing : Carries [] closing) :
    Carries s (opening ++ inner ++ closing) := by
  simpa using (hopening.append h).append hclosing

theorem Carries.tagged {s : List Char} {tag inner : String} (h : Carries s inner)
    (htag : StaysInTag tag) : Carries s (tagged tag inner) := by
  have hclosing : Carries [] ("<" ++ ("/" ++ tag) ++ ">") :=
    carries_tag ((by decide : StaysInTag "/").append htag)
  refine (h.between (carries_tag htag) hclosing).of_toList_eq ?_
  simp [Html.tagged]

/-- Line feeds at the end of a markup show nothing. -/
theorem carries_dropFinalFeeds {s : List Char} {html : String} (h : Carries s html) :
    Carries s (dropFinalFeeds html) := by
  -- The feeds are dropped one by one, the last one first.
  have hdrop : ∀ feeds body : List Char, (∀ c ∈ feeds, c = '\n') →
      Carries s (String.ofList (body ++ feeds)) → Carries s (String.ofList body) := by
    intro feeds
    induction feeds with
    | nil => intro body _ h; rwa [List.append_nil] at h
    | cons c feeds ih =>
      intro body hfeeds h
      rw [List.forall_mem_cons] at hfeeds
      obtain ⟨rfl, hfeeds⟩ := hfeeds
      rw [List.append_cons] at h
      obtain ⟨t, ht, hs⟩ := ih (body ++ ['\n']) hfeeds h
      rw [String.toList_ofList] at ht
      obtain ⟨v, hv, heq⟩ := dropTags_feed ht
      obtain ⟨r, rfl, hr⟩ := exists_of_escapeChars_feed heq
      refine ⟨r, by rw [String.toList_ofList, hv, hr], ?_⟩
      simpa [withoutFeeds] using hs
  obtain ⟨feeds, hfeeds, hall⟩ := Text.exists_dropEndWhile_append (· == '\n') html.toList
  refine hdrop feeds _ (fun c hc => by simpa using hall c hc) ?_
  rw [← hfeeds]
  simpa using h

/-! ### Parts of markup -/

theorem staysInTag_escape (s : String) : StaysInTag (escape s) :=
  (attributeText_escape s).plainText.staysInTag

/-- An attribute stays in its tag if its value does. -/
theorem staysInTag_attributeText {name : String} {value : Option String} (hname : StaysInTag name)
    (hvalue : ∀ v, value = some v → StaysInTag v) : StaysInTag (attributeText name value) := by
  rcases attributeText_eq name value with h | ⟨v, hv, h⟩
  · rw [h]
    decide
  · rw [h, quotedAttribute]
    exact ((((by decide : StaysInTag " ").append hname).append (by decide)).append
      (hvalue v hv)).append (by decide)

theorem staysInTag_title (title : Option String) :
    StaysInTag (attributeText "title" (title.map escape)) := by
  refine staysInTag_attributeText (by decide) fun v hv => ?_
  obtain ⟨t, -, rfl⟩ := Option.map_eq_some_iff.mp hv
  exact staysInTag_escape t

theorem staysInTag_languageClass (o : Options) (language : Option String) :
    StaysInTag (languageClass o language) := by
  cases language with
  | none => exact (by decide : StaysInTag "")
  | some l =>
    rw [languageClass]
    split
    · refine staysInTag_attributeText (by decide) fun v hv => ?_
      obtain rfl := Option.some.inj hv
      exact (by decide : StaysInTag "language-").append (staysInTag_escape l)
    · decide

/-- The style of a cell stays in its tag if no alignment of a column leaves it. -/
theorem staysInTag_cellStyle {alignments : List (Option String)}
    (h : ∀ s, some s ∈ alignments → StaysInTag s) : StaysInTag (cellStyle alignments) := by
  match alignments with
  | [] => decide
  | none :: _ => exact (by decide : StaysInTag "")
  | some align :: rest =>
    simp only [cellStyle, List.head?_cons]
    split
    · decide
    · exact ((by decide : StaysInTag " style=\"text-align: ").append
        (h align List.mem_cons_self)).append (by decide)

/-! ### Leaves -/

theorem carries_codeBlock {o : Options} (ho : o.escapeHtml = true) (s : String)
    (language : Option String) :
    Carries s.toList ("<pre><code" ++ languageClass o language ++ ">" ++ content o s ++
      "</code></pre>\n") := by
  have hcode : Carries [] ("<" ++ ("code" ++ languageClass o language) ++ ">") :=
    carries_tag ((by decide : StaysInTag "code").append (staysInTag_languageClass o language))
  have hopening := (carries_tag (by decide : StaysInTag "pre")).append hcode
  have hclosing : Carries [] "</code></pre>\n" := ⟨['\n'], by decide, rfl⟩
  refine ((carries_content ho s).between hopening hclosing).of_toList_eq ?_
  simp

theorem carries_image (url alt : String) (title : Option String) :
    Carries [] ("<img src=\"" ++ escape url ++ "\" alt=\"" ++ escape alt ++ "\"" ++
      attributeText "title" (title.map escape) ++ ">") := by
  have hinside : StaysInTag ("img src=\"" ++ escape url ++ "\" alt=\"" ++ escape alt ++ "\"" ++
      attributeText "title" (title.map escape)) :=
    (((((by decide : StaysInTag "img src=\"").append (staysInTag_escape url)).append
      (by decide)).append (staysInTag_escape alt)).append (by decide)).append (staysInTag_title title)
  refine (carries_tag hinside).of_toList_eq ?_
  simp

/-- A leaf that is no raw HTML and no chart. -/
theorem renderLeaf_carries {o : Options} (ho : o.escapeHtml = true) {l : Leaf} (i : Info)
    (h : l.kind ∉ [.htmlBlock, .htmlInline, .chartBlock]) :
    Rendering.Yields (Carries (Node.leaf l i).texts) (renderLeaf o l) := by
  have htexts : (Node.leaf l i).texts = (Node.leaf l i).ownText := by
    simp [Node.texts, Node.nodes]
  rw [htexts]
  cases l with
  | codeBlock s language => exact Rendering.yields_pure (carries_codeBlock ho s language)
  | chartBlock | htmlBlock | htmlInline => exact absurd h (by simp [Leaf.kind])
  | thematicBreak => exact Rendering.yields_pure ⟨['\n'], by decide, rfl⟩
  | text s => exact Rendering.yields_pure (carries_content ho s)
  | code s => exact Rendering.yields_pure ((carries_content ho s).tagged (by decide))
  | image url alt title => exact Rendering.yields_pure (carries_image url alt title)
  | lineBreak soft =>
    cases soft with
    | true => exact Rendering.yields_pure carries_feed
    | false => exact Rendering.yields_pure ⟨['\n'], by decide, rfl⟩

/-! ### Branches -/

section Branches

variable {s : List Char} {inner : String}

/-- A tag with a line feed behind it shows nothing. -/
theorem carries_tag_feed {inside : String} (h : StaysInTag inside) :
    Carries [] ("<" ++ inside ++ ">\n") :=
  ((carries_tag h).append carries_feed).of_toList_eq (by simp)

theorem carries_heading (level : HeadingLevel) {anchor : String} (hanchor : AttributeText anchor)
    (h : Carries s inner) :
    Carries s ("<h" ++ level.val.repr ++ " id=\"" ++ anchor ++ "\">" ++ inner ++ "</h" ++
      level.val.repr ++ ">\n") := by
  obtain ⟨val, hone, hsix⟩ := level
  have hname : StaysInTag ("h" ++ val.repr) := by
    have hval : val = 1 ∨ val = 2 ∨ val = 3 ∨ val = 4 ∨ val = 5 ∨ val = 6 := by omega
    rcases hval with rfl | rfl | rfl | rfl | rfl | rfl <;> decide
  have hopening := carries_tag (((hname.append (by decide : StaysInTag " id=\"")).append
    hanchor.plainText.staysInTag).append (by decide : StaysInTag "\""))
  have hclosing := carries_tag_feed ((by decide : StaysInTag "/").append hname)
  refine (h.between hopening hclosing).of_toList_eq ?_
  simp

theorem carries_list (ordered : Bool) (start : Int) (h : Carries s inner) :
    Carries s ("<" ++ (if ordered then "ol" else "ul") ++
      (if ordered && start != 1 then
        attributeText "start" (some (String.ofList (integerText start))) else "") ++ ">\n" ++
      inner ++ "</" ++ (if ordered then "ol" else "ul") ++ ">\n") := by
  have htag : StaysInTag (if ordered then "ol" else "ul") := by cases ordered <;> decide
  have hfirst : StaysInTag (if ordered && start != 1 then
      attributeText "start" (some (String.ofList (integerText start))) else "") := by
    split
    · refine staysInTag_attributeText (by decide) fun v hv => ?_
      obtain rfl := Option.some.inj hv
      exact (attributeText_integerText start).plainText.staysInTag
    · decide
  have hopening := carries_tag_feed (htag.append hfirst)
  have hclosing := carries_tag_feed ((by decide : StaysInTag "/").append htag)
  refine (h.between hopening hclosing).of_toList_eq ?_
  simp

theorem carries_link (url : String) (title : Option String) (h : Carries s inner) :
    Carries s ("<a href=\"" ++ escape url ++ "\"" ++ attributeText "title" (title.map escape) ++
      ">" ++ inner ++ "</a>") := by
  have hopening := carries_tag ((((by decide : StaysInTag "a href=\"").append
    (staysInTag_escape url)).append (by decide : StaysInTag "\"")).append (staysInTag_title title))
  refine (h.between hopening (carries_tag (by decide : StaysInTag "/a"))).of_toList_eq ?_
  simp

theorem carries_cell {tag style : String} (htag : StaysInTag tag) (hstyle : StaysInTag style)
    (h : Carries s inner) :
    Carries s ("<" ++ tag ++ style ++ ">" ++ inner ++ "</" ++ tag ++ ">") := by
  have hopening := carries_tag (htag.append hstyle)
  have hclosing := carries_tag ((by decide : StaysInTag "/").append htag)
  refine (h.between hopening hclosing).of_toList_eq ?_
  simp

theorem Carries.block (name : String) (hname : StaysInTag name) {opening closing : String}
    (hopening : opening = "<" ++ name ++ ">\n") (hclosing : closing = "</" ++ name ++ ">\n")
    (h : Carries s inner) : Carries s (opening ++ inner ++ closing) := by
  have hend := carries_tag_feed ((by decide : StaysInTag "/").append hname)
  refine (h.between (carries_tag_feed hname) hend).of_toList_eq ?_
  simp [hopening, hclosing]

end Branches

/-! ### Prose -/

/-- A node is no raw HTML, no chart block and no task; a row among its children tells that it is a
table, and a cell that it is a row. The alignments of a table are words that do not end a tag. -/
structure IsProse (n : Node) : Prop where
  kind : n.kind ∉ [.htmlBlock, .htmlInline, .chartBlock]
  task : ∀ status cs i, n = .branch (.listItem (some status)) cs i → status = ""
  row : ∀ c ∈ n.children, c.kind = .tableRow → n.kind = .table
  cell : ∀ c ∈ n.children, c.kind = .tableCell → n.kind = .tableRow
  alignments : ∀ headed alignments cs i, n = .branch (.table headed alignments) cs i →
    ∀ s, some s ∈ alignments → StaysInTag s

/-- All nodes of a tree are prose. -/
def Prose (n : Node) : Prop := ∀ m ∈ n.nodes, IsProse m

theorem Prose.self {n : Node} (h : Prose n) : IsProse n := h n n.mem_nodes_self

theorem Prose.children {b : Branch} {cs : List Node} {i : Info} (h : Prose (.branch b cs i)) :
    ∀ c ∈ cs, Prose c :=
  fun _ hc m hm => h m (Node.mem_nodes_branch hc hm)

/-- Prose that is no row and no cell, so that it is written wherever it stands. -/
def Stands (n : Node) : Prop := Prose n ∧ n.kind ≠ .tableRow ∧ n.kind ≠ .tableCell

theorem Prose.stands {b : Branch} {cs : List Node} {i : Info} (h : Prose (.branch b cs i))
    (htable : b.kind ≠ .table) (hrow : b.kind ≠ .tableRow) : ∀ c ∈ cs, Stands c :=
  fun c hc => ⟨h.children c hc, fun heq => htable (h.self.row c hc heq),
    fun heq => hrow (h.self.cell c hc heq)⟩

/-- A leaf that is written as an empty cell has no text. -/
theorem texts_of_leafCellEvents {l : Leaf} (i : Info) (h : leafCellEvents l = []) :
    (Node.leaf l i).texts = [] := by
  have hown : (Node.leaf l i).ownText = [] := by
    cases l with
    | codeBlock s | text s | code s =>
      by_cases hs : s = ""
      · rw [hs]
        rfl
      · simp [leafCellEvents, hs] at h
    | _ => rfl
  simp [Node.texts, Node.nodes, hown]

open Rendering

variable {o : Options}

mutual
/-- Prose that stands anywhere is written as markup that carries its text. -/
theorem render_carries (ho : o.escapeHtml = true) (n : Node) (h : Stands n) :
    Yields (Carries n.texts) (render o n) := by
  obtain ⟨hprose, hrow, hcell⟩ := h
  match n with
  | .leaf l i =>
    rw [render]
    exact renderLeaf_carries ho i hprose.self.kind
  | .branch b cs i =>
    rw [Node.texts_branch]
    by_cases htable : b.kind = .table
    · cases b with
      | table headed alignments =>
        rw [render]
        have halign := hprose.self.alignments headed alignments cs i rfl
        exact yields_bind (renderTable_carries ho headed halign cs hprose.children) fun inner h =>
          yields_pure (h.block "table" (by decide) rfl rfl)
      | _ => exact nomatch htable
    -- The children are written in place, and each branch puts tags around what they are written as.
    have hall := renderAll_carries ho cs (hprose.stands htable hrow)
    cases b with
    | document => rw [render]; exact hall
    | heading level =>
      rw [render]
      refine yields_bind (openHeading_yields _) fun anchor hanchor => ?_
      exact yields_bind hall fun inner hinner => yields_pure (carries_heading level hanchor hinner)
    | paragraph =>
      rw [render]
      refine yields_bind hall fun inner hinner => yields_pure ?_
      simpa using (hinner.tagged (by decide)).append carries_feed
    | blockQuote =>
      rw [render]
      exact yields_bind hall fun inner hinner =>
        yields_pure (hinner.block "blockquote" (by decide) rfl rfl)
    | list ordered start tight =>
      rw [render]
      exact yields_bind hall fun inner hinner => yields_pure (carries_list ordered start hinner)
    | listItem task =>
      have hitem : Yields (Carries (Node.textsOfAll cs))
          (do return "<li>" ++ (← renderAll o cs) ++ "</li>\n") :=
        yields_bind hall fun inner hinner => yields_pure
          (hinner.between ⟨[], by decide, rfl⟩ ⟨['\n'], by decide, rfl⟩)
      cases task with
      | none => rw [render]; exact hitem
      | some status =>
        rw [render, if_pos (hprose.self.task status cs i rfl)]
        exact hitem
    | table => exact absurd rfl htable
    | tableRow => exact absurd rfl hrow
    | tableCell => exact absurd rfl hcell
    | emphasis =>
      rw [render]
      exact yields_bind hall fun inner hinner => yields_pure (hinner.tagged (by decide))
    | strong =>
      rw [render]
      exact yields_bind hall fun inner hinner => yields_pure (hinner.tagged (by decide))
    | link url title =>
      rw [render]
      exact yields_bind hall fun inner hinner => yields_pure (carries_link url title hinner)
    | strikethrough =>
      rw [render]
      exact yields_bind hall fun inner hinner => yields_pure (hinner.tagged (by decide))

theorem renderAll_carries (ho : o.escapeHtml = true) (ns : List Node) (h : ∀ n ∈ ns, Stands n) :
    Yields (Carries (Node.textsOfAll ns)) (renderAll o ns) := by
  match ns with
  | [] => rw [renderAll]; exact yields_pure carries_empty
  | n :: rest =>
    rw [List.forall_mem_cons] at h
    rw [renderAll, Node.textsOfAll_cons]
    refine yields_bind (render_carries ho n h.1) fun first hfirst => ?_
    exact yields_bind (renderAll_carries ho rest h.2) fun others hothers =>
      yields_pure (hfirst.append hothers)

theorem renderTable_carries (ho : o.escapeHtml = true) (headed : Bool)
    {alignments : List (Option String)} (ha : ∀ s, some s ∈ alignments → StaysInTag s)
    (ns : List Node) (h : ∀ n ∈ ns, Prose n) :
    Yields (Carries (Node.textsOfAll ns)) (renderTable o headed alignments ns) := by
  match ns with
  | [] => rw [renderTable]; exact yields_pure carries_empty
  | row :: rows =>
    rw [List.forall_mem_cons] at h
    have hrows := renderRows_carries ho ha rows h.2
    rw [renderTable, Node.textsOfAll_cons]
    split
    · refine yields_bind (renderRow_carries ho (by decide) ha row h.1) fun head hhead => ?_
      refine yields_bind hrows fun body hbody => yields_pure ?_
      have hhead := hhead.block "thead" (by decide) rfl rfl
      -- The body is left out where no other row follows, and there is no text in it then.
      cases rows with
      | nil => exact hhead.append carries_empty
      | cons next rows => exact hhead.append (hbody.block "tbody" (by decide) rfl rfl)
    · refine yields_bind (renderRow_carries ho (by decide) ha row h.1) fun first hfirst => ?_
      refine yields_bind hrows fun others hothers => yields_pure ?_
      exact (hfirst.append hothers).block "tbody" (by decide) rfl rfl

theorem renderRows_carries (ho : o.escapeHtml = true) {alignments : List (Option String)}
    (ha : ∀ s, some s ∈ alignments → StaysInTag s) (ns : List Node) (h : ∀ n ∈ ns, Prose n) :
    Yields (Carries (Node.textsOfAll ns)) (renderRows o alignments ns) := by
  match ns with
  | [] => rw [renderRows]; exact yields_pure carries_empty
  | row :: rows =>
    rw [List.forall_mem_cons] at h
    rw [renderRows, Node.textsOfAll_cons]
    refine yields_bind (renderRow_carries ho (by decide) ha row h.1) fun first hfirst => ?_
    exact yields_bind (renderRows_carries ho ha rows h.2) fun others hothers =>
      yields_pure (hfirst.append hothers)

theorem renderRow_carries (ho : o.escapeHtml = true) {tag : String} (htag : StaysInTag tag)
    {alignments : List (Option String)} (ha : ∀ s, some s ∈ alignments → StaysInTag s) (n : Node)
    (h : Prose n) : Yields (Carries n.texts) (renderRow o tag alignments n) := by
  match n with
  | .leaf l i => rw [renderRow]; exact yields_fail _
  | .branch b cells i =>
    have hcells := renderCells_carries ho htag ha cells h.children
    cases b with
    | tableRow isHeader =>
      rw [Node.texts_branch, renderRow]
      refine yields_bind hcells fun inner hinner => yields_pure ?_
      simpa using (hinner.tagged (by decide)).append carries_feed
    | _ => exact yields_fail _

theorem renderCells_carries (ho : o.escapeHtml = true) {tag : String} (htag : StaysInTag tag)
    {alignments : List (Option String)} (ha : ∀ s, some s ∈ alignments → StaysInTag s)
    (ns : List Node) (h : ∀ n ∈ ns, Prose n) :
    Yields (Carries (Node.textsOfAll ns)) (renderCells o tag alignments ns) := by
  match ns with
  | [] => rw [renderCells]; exact yields_pure carries_empty
  | cell :: cells =>
    rw [List.forall_mem_cons] at h
    rw [renderCells, Node.textsOfAll_cons]
    refine yields_bind (renderCell_carries ho htag (staysInTag_cellStyle ha) cell h.1) ?_
    intro first hfirst
    -- Each cell takes one alignment off the list.
    have htail : ∀ s, some s ∈ alignments.tail → StaysInTag s := fun s hmem =>
      ha s (List.mem_of_mem_tail hmem)
    exact yields_bind (renderCells_carries ho htag htail cells h.2) fun others hothers =>
      yields_pure (hfirst.append hothers)

theorem renderCell_carries (ho : o.escapeHtml = true) {tag style : String} (htag : StaysInTag tag)
    (hstyle : StaysInTag style) (n : Node) (h : Prose n) :
    Yields (Carries n.texts) (renderCell o tag style n) := by
  match n with
  | .leaf l i =>
    rcases renderCell_leaf o tag style l i with ⟨hevents, hcell⟩ | ⟨k, -, hcell⟩
    · rw [hcell, texts_of_leafCellEvents i hevents]
      exact yields_pure ((carries_cell htag hstyle carries_empty).of_toList_eq (by simp))
    · rw [hcell]
      exact yields_fail _
  | .branch b cs i =>
    rw [Node.texts_branch]
    cases hinline : holdsInline b with
    | true =>
      obtain ⟨htable, hrow⟩ := kind_ne_of_holdsInline hinline
      have hall := renderAll_carries ho cs (h.stands htable hrow)
      rw [renderCell_of_holdsInline o tag style hinline]
      exact yields_bind hall fun inner hinner => yields_pure (carries_cell htag hstyle hinner)
    | false =>
      rw [renderCell_of_not_holdsInline o tag style hinline]
      exact yields_fail _
end

/-! ### Prose is written -/

/-- A table holds rows alone, and a row cells alone. -/
structure IsGrid (n : Node) : Prop where
  rows : n.kind = .table → ∀ c ∈ n.children, c.kind = .tableRow
  cells : n.kind = .tableRow → ∀ c ∈ n.children, c.kind = .tableCell

/-- All nodes of a tree are prose, and its tables hold rows of cells. -/
def Regular (n : Node) : Prop := ∀ m ∈ n.nodes, IsProse m ∧ IsGrid m

theorem Regular.self {n : Node} (h : Regular n) : IsProse n ∧ IsGrid n := h n n.mem_nodes_self

theorem Regular.children {b : Branch} {cs : List Node} {i : Info} (h : Regular (.branch b cs i)) :
    ∀ c ∈ cs, Regular c :=
  fun _ hc m hm => h m (Node.mem_nodes_branch hc hm)

mutual
/-- A renderer comes to nothing in regular prose, neither charts nor obstacles. -/
theorem eventsOf_eq_nil (n : Node) (h : Regular n) : eventsOf n = [] := by
  match n with
  | .leaf l i =>
    have hkind := h.self.1.kind
    cases l with
    | chartBlock => exact absurd hkind (by simp [Node.kind, Leaf.kind])
    | _ => rfl
  | .branch b cs i =>
    have hall := eventsOfAll_eq_nil cs h.children
    cases b with
    | table headed alignments =>
      rw [eventsOf]
      exact eventsOfRows_eq_nil cs h.children (h.self.2.rows rfl)
    | listItem task =>
      rw [eventsOf, hall, List.append_nil]
      cases task with
      | none => rfl
      | some status => rw [taskEvents, if_pos (.inl (h.self.1.task status cs i rfl))]
    | tableRow | tableCell => rw [eventsOf]
    | _ => rw [eventsOf]; exact hall

theorem eventsOfAll_eq_nil (ns : List Node) (h : ∀ n ∈ ns, Regular n) : eventsOfAll ns = [] := by
  match ns with
  | [] => rfl
  | n :: rest =>
    rw [List.forall_mem_cons] at h
    rw [eventsOfAll, eventsOf_eq_nil n h.1, eventsOfAll_eq_nil rest h.2]
    rfl

theorem eventsOfRows_eq_nil (ns : List Node) (h : ∀ n ∈ ns, Regular n)
    (hkind : ∀ n ∈ ns, n.kind = .tableRow) : eventsOfRows ns = [] := by
  match ns with
  | [] => rfl
  | row :: rows =>
    rw [List.forall_mem_cons] at h hkind
    rw [eventsOfRows, eventsOfRow_eq_nil row h.1 hkind.1, eventsOfRows_eq_nil rows h.2 hkind.2]
    rfl

theorem eventsOfRow_eq_nil (n : Node) (h : Regular n) (hkind : n.kind = .tableRow) :
    eventsOfRow n = [] := by
  match n with
  | .leaf l i => cases l <;> exact nomatch hkind
  | .branch b cells i =>
    have hcells := eventsOfCells_eq_nil cells h.children (h.self.2.cells hkind)
    cases b with
    | tableRow => rw [eventsOfRow]; exact hcells
    | _ => exact nomatch hkind

theorem eventsOfCells_eq_nil (ns : List Node) (h : ∀ n ∈ ns, Regular n)
    (hkind : ∀ n ∈ ns, n.kind = .tableCell) : eventsOfCells ns = [] := by
  match ns with
  | [] => rfl
  | cell :: cells =>
    rw [List.forall_mem_cons] at h hkind
    rw [eventsOfCells, eventsOfCell_eq_nil cell h.1 hkind.1, eventsOfCells_eq_nil cells h.2 hkind.2]
    rfl

theorem eventsOfCell_eq_nil (n : Node) (h : Regular n) (hkind : n.kind = .tableCell) :
    eventsOfCell n = [] := by
  match n with
  | .leaf l i => cases l <;> exact nomatch hkind
  | .branch b cs i =>
    have hall := eventsOfAll_eq_nil cs h.children
    cases b with
    | tableCell => rw [eventsOfCell]; exact hall
    | _ => exact nomatch hkind
end

/-! ### Documents -/

/-- A part of a page is a body without the line feeds at its end. -/
theorem result_renderDocument_part {o : Options} (ho : o.standalone = false) (doc : Node)
    {html : String} : (renderDocument o doc).result = .ok html ↔
      ∃ body p, (render o doc {}).result = .ok (body, p) ∧ html = dropFinalFeeds body := by
  rw [renderDocument_eq, Noted.result_bind_eq_ok_iff]
  simp [finish, ho, pure, eq_comm]

/-- A document without raw HTML, charts and tasks, whose rows stand in tables and whose cells stand in
rows, is written with its texts escaped so that a reader sees them all, each once and in document
order, and nothing else. It is written at all if its tables hold rows of cells. -/
theorem renderDocument_visibleText {o : Options} (hescape : o.escapeHtml = true)
    (hpart : o.standalone = false) {cs : List Node} {i : Info}
    (h : Prose (.branch .document cs i)) :
    (∀ html, (renderDocument o (.branch .document cs i)).result = .ok html →
      visibleText? html = some (withoutFeeds (Node.branch .document cs i).texts)) ∧
    ((∀ m ∈ (Node.branch .document cs i).nodes, IsGrid m) →
      ∃ html, (renderDocument o (.branch .document cs i)).result = .ok html) := by
  have hstands : Stands (.branch .document cs i) := ⟨h, nofun, nofun⟩
  refine ⟨fun html hhtml => ?_, fun hgrid => ?_⟩
  · obtain ⟨body, p, hbody, rfl⟩ := (result_renderDocument_part hpart _).mp hhtml
    exact (carries_dropFinalFeeds (render_carries hescape _ hstands _ _ _ hbody)).visibleText?
  · have hevents := eventsOf_eq_nil _ fun m hm => ⟨h m hm, hgrid m hm⟩
    cases hbody : (render o (.branch .document cs i) {}).result with
    | ok x => exact ⟨_, (result_renderDocument_part hpart _).mpr ⟨x.1, x.2, hbody, rfl⟩⟩
    | error e =>
      -- An error would come of an event, and there is none.
      have herror := (result_render_eq_error_iff o _ _ e).mp hbody
      rw [hevents] at herror
      exact nomatch herror

/-- A document with a table and a code block. -/
def tableDocument : Node :=
  .branch .document
    [.branch (.table true [some "right"])
      [.branch (.tableRow true) [.branch (.tableCell none) [.leaf (.text "&lt;") {}] {}] {}] {},
     .leaf (.codeBlock "a > b\n" (some "c") "`" 3) {}] {}

/-- The text of a cell looks like an entity and is seen as it is. -/
theorem renderDocument_visibleText_table :
    Prose tableDocument ∧ (∀ m ∈ tableDocument.nodes, IsGrid m) ∧
      ∃ html, (renderDocument {} tableDocument).result = .ok html ∧
        visibleText? html = some "&lt;a > b".toList := by
  have hregular : Regular tableDocument := by
    intro m hm
    simp only [tableDocument, Node.nodes, Node.nodesOfAll, List.mem_cons, List.not_mem_nil,
      List.append_nil, List.cons_append, List.nil_append, or_false] at hm
    rcases hm with rfl | rfl | rfl | rfl | rfl | rfl
    all_goals
      refine ⟨?_, ?_⟩
      all_goals constructor <;> simp [Node.kind, Node.children, Leaf.kind, Branch.kind]
    decide
  have hprose : Prose tableDocument := fun m hm => (hregular m hm).1
  have hgrid : ∀ m ∈ tableDocument.nodes, IsGrid m := fun m hm => (hregular m hm).2
  obtain ⟨hvisible, hwritten⟩ := renderDocument_visibleText (o := {}) rfl rfl hprose
  obtain ⟨html, hhtml⟩ := hwritten hgrid
  exact ⟨hprose, hgrid, html, hhtml, (hvisible html hhtml).trans (by decide)⟩

end Html
end Chartdown
