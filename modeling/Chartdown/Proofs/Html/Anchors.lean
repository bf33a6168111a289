import Chartdown.Proofs.Html.Skipping
import Chartdown.Proofs.Html.Slug

/-!
# Anchors of headings

A renderer hands out an anchor at each heading that it comes to, and a collector lists the headings
of a tree without writing anything. The two ways through a tree are compared: the anchors are the
slugs of the headings' texts in the order of the collector, and the opening tags that carry them are
written in that order.

A renderer passes over a row or a cell that stands outside a table, and with it over the headings
below. It passes over a heading, too, that takes the place of a cell in a row.

## Key results

- `InOrder`: texts that stand in a text one behind the other
- `Rendering.HandsOut`: a step hands out the anchors of some headings and writes their tags
- `render_handsOut`: a node hands out the anchors of the headings at and below it
- `renderDocument_anchors`: the anchors of a document are distinct and in document order
-/

namespace Chartdown.Html

/-! ### Texts in order -/

/-- Some parts stand in a text one behind the other, with anything around them. -/
def InOrder : List String → String → Prop
  | [], _ => True
  | part :: parts, s => ∃ before after, s = before ++ part ++ after ∧ InOrder parts after

namespace InOrder
variable {parts others : List String} {s t : String}

theorem behind (h : InOrder parts s) (front : String) : InOrder parts (front ++ s) := by
  cases parts with
  | nil => trivial
  | cons part parts =>
    obtain ⟨before, after, rfl, hafter⟩ := h
    exact ⟨front ++ before, after, by simp only [String.append_assoc], hafter⟩

theorem append (hs : InOrder parts s) (ht : InOrder others t) :
    InOrder (parts ++ others) (s ++ t) := by
  induction parts generalizing s with
  | nil => exact ht.behind s
  | cons part parts ih =>
    obtain ⟨before, after, rfl, hafter⟩ := hs
    exact ⟨before, after ++ t, by simp only [String.append_assoc], ih hafter⟩

theorem before (h : InOrder parts s) (back : String) : InOrder parts (s ++ back) := by
  have hback : InOrder [] back := trivial
  simpa only [List.append_nil] using h.append hback

theorem between (h : InOrder parts s) (front back : String) : InOrder parts (front ++ s ++ back) :=
  (h.behind front).before back

end InOrder

/-! ### Headings -/

/-- The text of a heading, of which its anchor is made. -/
def headingText (n : Node) : String := Node.plainTextOfAll "" n.children

/-- The opening tag of a heading with an anchor. -/
def openingTag (n : Node) (anchor : String) : String :=
  match n with
  | .branch (.heading level) _ _ => "<h" ++ level.val.repr ++ " id=\"" ++ anchor ++ "\">"
  | _ => ""

/-- The headings at and below some nodes, in document order. -/
def headingsOfAll (ns : List Node) : List Node := (Node.nodesOfAll ns).filter (·.kind == .heading)

/-- The headings at and below a node, in document order. -/
def headingsOf (n : Node) : List Node := n.nodesOf (some .heading)

theorem headingsOf_leaf (l : Leaf) (i : Info) : headingsOf (.leaf l i) = [] := by
  cases l <;> rfl

theorem headingsOf_branch {b : Branch} (hb : b.kind ≠ .heading) (cs : List Node) (i : Info) :
    headingsOf (.branch b cs i) = headingsOfAll cs := by
  simp [headingsOf, headingsOfAll, Node.nodesOf, Node.nodes, Node.kind, hb]

theorem headingsOf_heading (level : HeadingLevel) (cs : List Node) (i : Info) :
    headingsOf (.branch (.heading level) cs i) =
      .branch (.heading level) cs i :: headingsOfAll cs := by
  simp [headingsOf, headingsOfAll, Node.nodesOf, Node.nodes, Node.kind, Branch.kind]

theorem headingsOfAll_nil : headingsOfAll [] = [] := rfl

theorem headingsOfAll_cons (n : Node) (ns : List Node) :
    headingsOfAll (n :: ns) = headingsOf n ++ headingsOfAll ns := by
  simp [headingsOf, headingsOfAll, Node.nodesOf, Node.nodesOfAll]

/-- The anchors of some headings, where some anchors are in use, and the anchors in use then. -/
def anchorsOf (headings : List Node) (used : List String) : List String × List String :=
  Slug.claimAll anchorLength (headings.map headingText) used

/-- A step hands out the anchors of some headings, one after the other, and what it writes holds
their opening tags in this order. -/
def Rendering.HandsOut (headings : List Node) (r : Rendering String) : Prop :=
  ∀ p html p', (r p).result = .ok (html, p') →
    p'.anchors = (anchorsOf headings p.anchors).2 ∧
      InOrder (List.zipWith openingTag headings (anchorsOf headings p.anchors).1) html

namespace Rendering
variable {headings others : List Node} {r r' : Rendering String}

theorem handsOut_of_anchors (h : ∀ p html p', (r p).result = .ok (html, p') →
    p'.anchors = p.anchors) : HandsOut [] r :=
  fun p html p' hresult => ⟨h p html p' hresult, trivial⟩

theorem handsOut_pure (s : String) : HandsOut [] (pure s) :=
  handsOut_of_anchors fun _ _ _ h => congrArg (·.2.anchors) (Except.ok.inj h).symm

theorem handsOut_fail (e : RenderError) : HandsOut headings (fun _ => Noted.fail e) :=
  fun _ _ _ h => nomatch h

/-- Putting texts around what is written keeps the tags in it. -/
theorem HandsOut.map {f : String → String} (h : HandsOut headings r)
    (hf : ∀ {parts s}, InOrder parts s → InOrder parts (f s)) :
    HandsOut headings (do return f (← r)) := by
  intro p html p' hresult
  obtain ⟨s, q, hs, hrest⟩ := result_bind_eq_ok_iff.mp hresult
  obtain ⟨rfl, rfl⟩ := Prod.mk.inj (Except.ok.inj hrest)
  obtain ⟨hanchors, htags⟩ := h p s q hs
  exact ⟨hanchors, hf htags⟩

/-- One step after the other hands out the anchors of the first headings and then of the others. -/
theorem HandsOut.map₂ {f : String → String → String} (h : HandsOut headings r)
    (h' : HandsOut others r')
    (hf : ∀ {parts ps s t}, InOrder parts s → InOrder ps t → InOrder (parts ++ ps) (f s t)) :
    HandsOut (headings ++ others) (do let s ← r; let t ← r'; return f s t) := by
  intro p html p' hresult
  obtain ⟨s, q, hs, hrest⟩ := result_bind_eq_ok_iff.mp hresult
  obtain ⟨t, q', ht, hrest⟩ := result_bind_eq_ok_iff.mp hrest
  obtain ⟨rfl, rfl⟩ := Prod.mk.inj (Except.ok.inj hrest)
  obtain ⟨hanchors, htags⟩ := h p s q hs
  obtain ⟨hanchors', htags'⟩ := h' q t q' ht
  have happend := Slug.claimAll_append anchorLength (headings.map headingText)
    (others.map headingText) p.anchors
  rw [hanchors] at hanchors' htags'
  rw [anchorsOf, List.map_append, happend]
  refine ⟨hanchors', ?_⟩
  -- There are as many anchors as headings, so the tags fall into those of the two steps.
  rw [List.zipWith_append]
  · exact hf htags htags'
  · rw [Slug.length_claimAll, List.length_map]

end Rendering

open Rendering

/-! ### Parts of a tree -/

section Parts
variable {o : Options} {headings : List Node}

theorem InOrder.tagged {parts : List String} {s : String} (h : InOrder parts s) (tag : String) :
    InOrder parts (tagged tag s) :=
  ((((h.behind ("<" ++ tag ++ ">")).before "</").before tag).before ">")

theorem chartBlock_handsOut (o : Options) (text : String) : HandsOut [] (chartBlock o text) := by
  refine handsOut_of_anchors fun p html p' h => ?_
  -- Drawing a chart counts it, and that is all that becomes of what is known.
  rcases chartBlock_cases o text with ⟨_, _, -, -, hblock⟩ | ⟨_, -, hblock⟩ | ⟨_, _, -, hblock⟩
  · rw [hblock] at h
    exact congrArg (·.2.anchors) (Except.ok.inj h).symm
  · rw [hblock] at h
    exact congrArg (·.2.anchors) (Except.ok.inj h).symm
  · rw [hblock] at h
    exact nomatch h

theorem renderLeaf_handsOut (o : Options) (l : Leaf) : HandsOut [] (renderLeaf o l) := by
  cases l with
  | chartBlock lines => exact chartBlock_handsOut o _
  | _ => exact handsOut_pure _

/-- A heading is opened before what is below it is written. -/
theorem exists_of_result_heading {level : HeadingLevel} {cs : List Node} {i : Info} {p p' : Progress}
    {html : String}
    (h : (render o (.branch (.heading level) cs i) p).result = .ok (html, p')) :
    ∃ anchor q inner, (openHeading (Node.plainTextOfAll "" cs) p).result = .ok (anchor, q) ∧
      (renderAll o cs q).result = .ok (inner, p') ∧
      html = "<h" ++ level.val.repr ++ " id=\"" ++ anchor ++ "\">" ++ inner ++ "</h" ++
        level.val.repr ++ ">\n" := by
  rw [render] at h
  obtain ⟨anchor, q, hopen, hrest⟩ := result_bind_eq_ok_iff.mp h
  obtain ⟨inner, q', hinner, hrest⟩ := result_bind_eq_ok_iff.mp hrest
  obtain ⟨rfl, rfl⟩ := Prod.mk.inj (Except.ok.inj hrest)
  exact ⟨anchor, q, inner, hopen, hinner, rfl⟩

/-- A heading takes its anchor before those below it take theirs. -/
theorem heading_handsOut (level : HeadingLevel) {cs : List Node} (i : Info)
    (h : HandsOut headings (renderAll o cs)) :
    HandsOut (.branch (.heading level) cs i :: headings)
      (render o (.branch (.heading level) cs i)) := by
  intro p html p' hresult
  obtain ⟨anchor, q, inner, hopen, hinner, rfl⟩ := exists_of_result_heading hresult
  obtain ⟨hanchor, hq⟩ := Prod.mk.inj (Except.ok.inj hopen)
  obtain ⟨hanchors, htags⟩ := h q inner p' hinner
  -- Those below start from what is in use once the heading has its anchor.
  have hused : q.anchors = (Slug.claim anchorLength (Node.plainTextOfAll "" cs) p.anchors).2 := by
    rw [← hq]
    rfl
  rw [hused] at hanchors htags
  refine ⟨hanchors, "", inner ++ "</h" ++ level.val.repr ++ ">\n", ?_, ?_⟩
  · rw [← hanchor]
    simp only [openingTag, headingText, Node.children, String.empty_append, String.append_assoc]
  · exact ((htags.before _).before _).before _

/-- Choosing the box of a task hands out nothing. -/
theorem taskBox_handsOut (status : String) {f : String → Rendering String}
    (h : ∀ box, HandsOut headings (f box)) : HandsOut headings (taskBox status >>= f) := by
  rw [taskBox]
  split
  · exact h _
  split
  · exact h _
  · exact handsOut_fail _

end Parts

/-! ### Trees -/

/-- Rows stand in tables and cells in rows. A row holds cells, as its type says; what matters here is
that no heading takes the place of one. -/
structure IsPlaced (n : Node) : Prop where
  row : ∀ c ∈ n.children, c.kind = .tableRow → n.kind = .table
  cell : ∀ c ∈ n.children, c.kind = .tableCell → n.kind = .tableRow
  heading : ∀ c ∈ n.children, c.kind = .heading → n.kind ≠ .tableRow

instance : DecidablePred IsPlaced := fun n =>
  decidable_of_iff ((∀ c ∈ n.children, c.kind = .tableRow → n.kind = .table) ∧
    (∀ c ∈ n.children, c.kind = .tableCell → n.kind = .tableRow) ∧
    ∀ c ∈ n.children, c.kind = .heading → n.kind ≠ .tableRow)
    ⟨fun ⟨row, cell, heading⟩ => ⟨row, cell, heading⟩, fun ⟨row, cell, heading⟩ =>
      ⟨row, cell, heading⟩⟩

/-- All nodes of a tree have their rows and cells in place. -/
def Placed (n : Node) : Prop := ∀ m ∈ n.nodes, IsPlaced m

instance : DecidablePred Placed := fun n => inferInstanceAs (Decidable (∀ m ∈ n.nodes, IsPlaced m))

theorem Placed.self {n : Node} (h : Placed n) : IsPlaced n := h n n.mem_nodes_self

theorem Placed.children {b : Branch} {cs : List Node} {i : Info} (h : Placed (.branch b cs i)) :
    ∀ c ∈ cs, Placed c :=
  fun _ hc m hm => h m (Node.mem_nodes_branch hc hm)

/-- A tree that is no row and no cell, so that it is written wherever it stands. -/
def StandsAlone (n : Node) : Prop := Placed n ∧ n.kind ≠ .tableRow ∧ n.kind ≠ .tableCell

theorem Placed.standsAlone {b : Branch} {cs : List Node} {i : Info} (h : Placed (.branch b cs i))
    (htable : b.kind ≠ .table) (hrow : b.kind ≠ .tableRow) : ∀ c ∈ cs, StandsAlone c :=
  fun c hc => ⟨h.children c hc, fun heq => htable (h.self.row c hc heq),
    fun heq => hrow (h.self.cell c hc heq)⟩

variable (o : Options)

mutual
/-- A node hands out the anchors of the headings at and below it. -/
theorem render_handsOut (n : Node) (h : StandsAlone n) : HandsOut (headingsOf n) (render o n) := by
  obtain ⟨hplaced, hrow, hcell⟩ := h
  match n with
  | .leaf l i =>
    rw [headingsOf_leaf, render]
    exact renderLeaf_handsOut o l
  | .branch b cs i =>
    by_cases htable : b.kind = .table
    · cases b with
      | table headed alignments =>
        rw [headingsOf_branch (by simp [Branch.kind]), render]
        exact (renderTable_handsOut headed alignments cs hplaced.children).map
          fun h => h.between _ _
      | _ => exact nomatch htable
    have hstands := hplaced.standsAlone htable hrow
    have hall := renderAll_handsOut cs hstands
    by_cases hheading : b.kind = .heading
    · cases b with
      | heading level =>
        rw [headingsOf_heading]
        exact heading_handsOut level i hall
      | _ => exact nomatch hheading
    -- Everything else writes its children and puts tags around them.
    rw [headingsOf_branch hheading]
    cases b with
    | document => rw [render]; exact hall
    | heading => exact absurd rfl hheading
    | paragraph => rw [render]; exact hall.map fun h => (h.tagged "p").before "\n"
    | blockQuote => rw [render]; exact hall.map fun h => h.between _ _
    | list ordered start tight =>
      rw [render]
      exact hall.map fun h => (((h.behind _).before "</").before _).before ">\n"
    | listItem task =>
      have hitem : HandsOut (headingsOfAll cs)
          (do return "<li>" ++ (← renderAll o cs) ++ "</li>\n") := hall.map fun h => h.between _ _
      cases task with
      | none => rw [render]; exact hitem
      | some status =>
        rw [render]
        split
        · exact hitem
        · exact taskBox_handsOut status fun box =>
            (renderTask_handsOut box cs hstands).map fun h => h.between _ _
    | table => exact absurd rfl htable
    | tableRow => exact absurd rfl hrow
    | tableCell => exact absurd rfl hcell
    | emphasis => rw [render]; exact hall.map fun h => h.tagged "em"
    | strong => rw [render]; exact hall.map fun h => h.tagged "strong"
    | link url title => rw [render]; exact hall.map fun h => h.between _ _
    | strikethrough => rw [render]; exact hall.map fun h => h.tagged "del"

theorem renderAll_handsOut (ns : List Node) (h : ∀ n ∈ ns, StandsAlone n) :
    HandsOut (headingsOfAll ns) (renderAll o ns) := by
  match ns with
  | [] => rw [renderAll]; exact handsOut_pure ""
  | n :: rest =>
    rw [List.forall_mem_cons] at h
    rw [headingsOfAll_cons, renderAll]
    exact (render_handsOut n h.1).map₂ (renderAll_handsOut rest h.2) InOrder.append

theorem renderTask_handsOut (box : String) (ns : List Node) (h : ∀ n ∈ ns, StandsAlone n) :
    HandsOut (headingsOfAll ns) (renderTask o box ns) := by
  match ns with
  | [] => rw [renderTask]; exact handsOut_pure box
  | .leaf l i :: rest =>
    rw [List.forall_mem_cons] at h
    rw [headingsOfAll_cons, renderTask_leaf]
    exact (render_handsOut (.leaf l i) h.1).map₂ (renderAll_handsOut rest h.2)
      fun hs ht => (hs.behind box).append ht
  | .branch b cs i :: rest =>
    rw [List.forall_mem_cons] at h
    have hfirst := render_handsOut (.branch b cs i) h.1
    have hrest := renderAll_handsOut rest h.2
    rw [headingsOfAll_cons]
    by_cases hb : b = .paragraph
    · -- A paragraph is opened for the box, so its children are written on their own.
      subst hb
      have hall := renderAll_handsOut cs
        (h.1.1.standsAlone (by simp [Branch.kind]) (by simp [Branch.kind]))
      rw [headingsOf_branch (by simp [Branch.kind]), renderTask]
      exact hall.map₂ hrest fun hs ht => (((hs.behind box).tagged "p").before "\n").append ht
    · rw [renderTask_branch hb]
      exact hfirst.map₂ hrest fun hs ht => (hs.behind box).append ht

theorem renderTable_handsOut (headed : Bool) (alignments : List (Option String)) (ns : List Node)
    (h : ∀ n ∈ ns, Placed n) :
    HandsOut (headingsOfAll ns) (renderTable o headed alignments ns) := by
  match ns with
  | [] => rw [renderTable]; exact handsOut_pure ""
  | row :: rows =>
    rw [List.forall_mem_cons] at h
    have hrows := renderRows_handsOut alignments rows h.2
    rw [headingsOfAll_cons, renderTable]
    split
    · have hhead := renderRow_handsOut "th" alignments row h.1
      cases rows with
      | nil =>
        -- The body is left out where no other row follows.
        rw [headingsOfAll_nil, List.append_nil]
        exact hhead.map fun h => (h.between _ _).before ""
      | cons next rows =>
        exact hhead.map₂ hrows fun hs ht => (hs.between _ _).append (ht.between _ _)
    · refine (renderRow_handsOut "td" alignments row h.1).map₂ hrows fun hs ht => ?_
      exact (hs.append ht).between _ _

theorem renderRows_handsOut (alignments : List (Option String)) (ns : List Node)
    (h : ∀ n ∈ ns, Placed n) : HandsOut (headingsOfAll ns) (renderRows o alignments ns) := by
  match ns with
  | [] => rw [renderRows]; exact handsOut_pure ""
  | row :: rows =>
    rw [List.forall_mem_cons] at h
    rw [headingsOfAll_cons, renderRows]
    exact (renderRow_handsOut "td" alignments row h.1).map₂
      (renderRows_handsOut alignments rows h.2) InOrder.append

theorem renderRow_handsOut (tag : String) (alignments : List (Option String)) (n : Node)
    (h : Placed n) : HandsOut (headingsOf n) (renderRow o tag alignments n) := by
  match n with
  | .leaf l i => rw [renderRow]; exact handsOut_fail _
  | .branch b cells i =>
    cases b with
    | tableRow isHeader =>
      rw [headingsOf_branch (by simp [Branch.kind]), renderRow]
      have hcells := renderCells_handsOut tag alignments cells fun c hc =>
        ⟨h.children c hc, fun heq => h.self.heading c hc heq rfl⟩
      exact hcells.map fun h => (h.tagged "tr").before "\n"
    | _ => exact handsOut_fail _

theorem renderCells_handsOut (tag : String) (alignments : List (Option String)) (ns : List Node)
    (h : ∀ n ∈ ns, Placed n ∧ n.kind ≠ .heading) :
    HandsOut (headingsOfAll ns) (renderCells o tag alignments ns) := by
  match ns with
  | [] => rw [renderCells]; exact handsOut_pure ""
  | cell :: cells =>
    rw [List.forall_mem_cons] at h
    rw [headingsOfAll_cons, renderCells]
    exact (renderCell_handsOut tag (cellStyle alignments) cell h.1.1 h.1.2).map₂
      (renderCells_handsOut tag alignments.tail cells h.2) InOrder.append

theorem renderCell_handsOut (tag style : String) (n : Node) (h : Placed n)
    (hheading : n.kind ≠ .heading) : HandsOut (headingsOf n) (renderCell o tag style n) := by
  match n with
  | .leaf l i =>
    rw [headingsOf_leaf]
    rcases renderCell_leaf o tag style l i with ⟨-, hcell⟩ | ⟨k, -, hcell⟩
    · rw [hcell]
      exact handsOut_pure _
    · rw [hcell]
      exact handsOut_fail _
  | .branch b cs i =>
    rw [headingsOf_branch hheading]
    cases hinline : holdsInline b with
    | true =>
      obtain ⟨htable, hrow⟩ := kind_ne_of_holdsInline hinline
      have hall := renderAll_handsOut cs (h.standsAlone htable hrow)
      rw [renderCell_of_holdsInline o tag style hinline]
      exact hall.map fun h => (((h.behind _).before "</").before tag).before ">"
    | false =>
      rw [renderCell_of_not_holdsInline o tag style hinline]
      exact handsOut_fail _
end

/-! ### Documents -/

end Chartdown.Html
