import Chartdown.Proofs.Chart.Configuration
import Chartdown.Proofs.Html.Anchors

/-!
# What a renderer gathers

On its way a renderer takes note of its anchors, of the first heading with a text and of the charts
that it draws. Writing goes into inline content, tables and tasks, and passes over charts that are
empty or malformed; what is gathered then is what one pass over the nodes in document order gathers
without writing anything.

## Key results

- `Progress.title_foldl`, `Progress.charts_foldl`: the title and the charts that a pass gathers
- `Rendering.Visits`: a step gathers what a pass over some nodes gathers
- `render_visits`: writing a node gathers what a pass over the nodes at and below it gathers
-/

namespace Chartdown.Html

open Text

/-! ### Passes over nodes -/

/-- Whether a node is a chart that is drawn: its text is not empty and describes one. -/
def isDrawn : Node → Bool
  | .leaf (.chartBlock lines) _ =>
    String.join lines ≠ "" && (Chart.Description.parse (String.join lines).toList).isOk
  | _ => false

/-- The text of the first of some headings that is not blank. -/
def firstTitle? (headings : List Node) : Option String :=
  (headings.map fun n => trimmed (headingText n)).find? (· ≠ "")

namespace Progress

/-- What is known behind the opening of a heading. -/
def noteHeading (p : Progress) (n : Node) : Progress :=
  { p with
    anchors := (Slug.claim anchorLength (headingText n) p.anchors).2
    title := p.title.or (firstTitle? [n]) }

/-- What is known behind a node, but for what its children add. -/
def visit (p : Progress) (n : Node) : Progress :=
  if n.kind = .heading then p.noteHeading n
  else if isDrawn n then { p with charts := p.charts + 1 }
  else p

theorem visit_heading {n : Node} (h : n.kind = .heading) (p : Progress) :
    p.visit n = p.noteHeading n := if_pos h

theorem visit_leaf {l : Leaf} {i : Info} (h : isDrawn (.leaf l i) = false) (p : Progress) :
    p.visit (.leaf l i) = p := by
  have hkind : (Node.leaf l i).kind ≠ .heading := by cases l <;> exact nofun
  rw [visit, if_neg hkind, h, if_neg (by decide)]

theorem visit_branch {b : Branch} (hb : b.kind ≠ .heading) (cs : List Node) (i : Info)
    (p : Progress) : p.visit (.branch b cs i) = p := by
  rw [visit, if_neg (show (Node.branch b cs i).kind ≠ .heading from hb)]
  rfl

end Progress

/-! ### Steps that gather -/

/-- A step comes to know what a pass over some nodes comes to know. -/
def Rendering.Visits (ns : List Node) (r : Rendering String) : Prop :=
  ∀ p html p', (r p).result = .ok (html, p') → p' = ns.foldl Progress.visit p

namespace Rendering
variable {ns others : List Node} {r r' : Rendering String}

theorem visits_pure (s : String) : Visits [] (pure s) :=
  fun _ _ _ h => (Prod.mk.inj (Except.ok.inj h)).2.symm

theorem visits_fail (e : RenderError) : Visits ns (fun _ => Noted.fail e) :=
  fun _ _ _ h => nomatch h

/-- What is made of the text does not matter to what is known. -/
theorem Visits.map (f : String → String) (h : Visits ns r) : Visits ns (do return f (← r)) := by
  intro p html p' hresult
  obtain ⟨s, q, hs, hrest⟩ := result_bind_eq_ok_iff.mp hresult
  obtain ⟨-, rfl⟩ := Prod.mk.inj (Except.ok.inj hrest)
  exact h p s q hs

/-- One step after the other passes over the first nodes and then over the others. -/
theorem Visits.map₂ (f : String → String → String) (h : Visits ns r) (h' : Visits others r') :
    Visits (ns ++ others) (do let s ← r; let t ← r'; return f s t) := by
  intro p html p' hresult
  obtain ⟨s, q, hs, hrest⟩ := result_bind_eq_ok_iff.mp hresult
  obtain ⟨t, q', ht, hrest⟩ := result_bind_eq_ok_iff.mp hrest
  obtain ⟨-, rfl⟩ := Prod.mk.inj (Except.ok.inj hrest)
  rw [List.foldl_append, ← h p s q hs]
  exact h' q t q' ht

/-- A node that adds nothing by itself can stand in front. -/
theorem Visits.below {b : Branch} (hb : b.kind ≠ .heading) {cs : List Node} {i : Info}
    (h : Visits (Node.nodesOfAll cs) r) : Visits (Node.branch b cs i).nodes r := by
  intro p html p' hresult
  rw [Node.nodes, List.foldl_cons, Progress.visit_branch hb]
  exact h p html p' hresult

/-- Choosing the box of a task adds nothing. -/
theorem taskBox_visits (status : String) {f : String → Rendering String}
    (h : ∀ box, Visits ns (f box)) : Visits ns (taskBox status >>= f) := by
  rw [taskBox]
  split
  · exact h _
  split
  · exact h _
  · exact visits_fail _

end Rendering

open Rendering

/-! ### Parts of a tree -/

section Parts
variable {o : Options}

/-- Opening a heading takes note of it. -/
theorem result_openHeading {n : Node} {p q : Progress} {anchor : String}
    (h : (openHeading (headingText n) p).result = .ok (anchor, q)) : q = p.noteHeading n := by
  have htitle : (if p.title.isNone && trimmed (headingText n) ≠ "" then
      some (trimmed (headingText n)) else p.title) = p.title.or (firstTitle? [n]) := by
    cases p.title <;> by_cases htext : trimmed (headingText n) = "" <;>
      simp [firstTitle?, htext]
  obtain ⟨-, rfl⟩ := Prod.mk.inj (Except.ok.inj h)
  rw [Progress.noteHeading, ← htitle]
  rfl

/-- A heading is noted before those below it. -/
theorem heading_visits (level : HeadingLevel) {cs : List Node} (i : Info)
    (h : Visits (Node.nodesOfAll cs) (renderAll o cs)) :
    Visits (Node.branch (.heading level) cs i).nodes
      (render o (.branch (.heading level) cs i)) := by
  intro p html p' hresult
  obtain ⟨anchor, q, inner, hopen, hinner, -⟩ := exists_of_result_heading hresult
  have hnoted : q = p.noteHeading (.branch (.heading level) cs i) := result_openHeading hopen
  rw [Node.nodes, List.foldl_cons, Progress.visit_heading rfl, ← hnoted]
  exact h q inner p' hinner

/-- A chart block is counted just if its chart is drawn. -/
theorem chartBlock_visits (o : Options) (lines : List String) (i : Info) :
    Visits [.leaf (.chartBlock lines) i] (chartBlock o (String.join lines)) := by
  intro p html p' h
  have hkind : (Node.leaf (.chartBlock lines) i).kind ≠ .heading := by
    simp [Node.kind, Leaf.kind]
  rw [List.foldl_cons, List.foldl_nil, Progress.visit, if_neg hkind, isDrawn]
  by_cases hempty : String.join lines = ""
  · -- Nothing is drawn for the empty text.
    have hchart : (chartBlock o (String.join lines) p).result = .ok ("", p) := by
      rw [hempty]
      rfl
    obtain ⟨-, rfl⟩ := Prod.mk.inj (Except.ok.inj (hchart.symm.trans h))
    simp [hempty]
  cases hparse : Chart.Description.parse (String.join lines).toList with
  | ok d =>
    have hdraw := Chart.result_draw hempty hparse o.chart
    simp only [chartBlock, hdraw, Chart.container_append_ne, if_false] at h
    obtain ⟨-, rfl⟩ := Prod.mk.inj (Except.ok.inj h)
    simp [hempty, Except.isOk, Except.toBool]
  | error e =>
    have hmalformed : malformation? (String.join lines) = some e := by
      rw [malformation?, if_neg hempty, hparse]
    rw [chartBlock_of_malformed hmalformed] at h
    split at h
    · cases h
    · obtain ⟨-, rfl⟩ := Prod.mk.inj (Except.ok.inj h)
      simp [Except.isOk, Except.toBool]

theorem leaf_visits (o : Options) (l : Leaf) (i : Info) :
    Visits (Node.leaf l i).nodes (render o (.leaf l i)) := by
  cases l with
  | chartBlock lines => exact chartBlock_visits o lines i
  | _ => exact fun p _ _ h => (Prod.mk.inj (Except.ok.inj h)).2.symm

end Parts

/-! ### Trees -/

variable (o : Options)

mutual
/-- Writing a node gathers what a pass over the nodes at and below it gathers. -/
theorem render_visits (n : Node) (h : StandsAlone n) : Visits n.nodes (render o n) := by
  obtain ⟨hplaced, hrow, hcell⟩ := h
  match n with
  | .leaf l i => exact leaf_visits o l i
  | .branch b cs i =>
    by_cases htable : b.kind = .table
    · cases b with
      | table headed alignments =>
        rw [render]
        exact ((renderTable_visits headed alignments cs hplaced.children).map _).below
          (by simp [Branch.kind])
      | _ => exact nomatch htable
    have hstands := hplaced.standsAlone htable hrow
    have hall := renderAll_visits cs hstands
    by_cases hheading : b.kind = .heading
    · cases b with
      | heading level => exact heading_visits level i hall
      | _ => exact nomatch hheading
    -- Everything else writes its children and puts tags around them.
    cases b with
    | document => rw [render]; exact hall.below hheading
    | heading => exact absurd rfl hheading
    | paragraph => rw [render]; exact (hall.map _).below hheading
    | blockQuote => rw [render]; exact (hall.map _).below hheading
    | list ordered start tight => rw [render]; exact (hall.map _).below hheading
    | listItem task =>
      cases task with
      | none => rw [render]; exact (hall.map _).below hheading
      | some status =>
        rw [render]
        split
        · exact (hall.map _).below hheading
        · exact (taskBox_visits status fun box =>
            (renderTask_visits box cs hstands).map _).below hheading
    | table => exact absurd rfl htable
    | tableRow => exact absurd rfl hrow
    | tableCell => exact absurd rfl hcell
    | emphasis => rw [render]; exact (hall.map _).below hheading
    | strong => rw [render]; exact (hall.map _).below hheading
    | link url title => rw [render]; exact (hall.map _).below hheading
    | strikethrough => rw [render]; exact (hall.map _).below hheading

theorem renderAll_visits (ns : List Node) (h : ∀ n ∈ ns, StandsAlone n) :
    Visits (Node.nodesOfAll ns) (renderAll o ns) := by
  match ns with
  | [] => rw [renderAll]; exact visits_pure ""
  | n :: rest =>
    rw [List.forall_mem_cons] at h
    rw [Node.nodesOfAll, renderAll]
    exact (render_visits n h.1).map₂ _ (renderAll_visits rest h.2)

theorem renderTask_visits (box : String) (ns : List Node) (h : ∀ n ∈ ns, StandsAlone n) :
    Visits (Node.nodesOfAll ns) (renderTask o box ns) := by
  match ns with
  | [] => rw [renderTask]; exact visits_pure box
  | .leaf l i :: rest =>
    rw [List.forall_mem_cons] at h
    rw [Node.nodesOfAll, renderTask_leaf]
    exact (render_visits (.leaf l i) h.1).map₂ _ (renderAll_visits rest h.2)
  | .branch b cs i :: rest =>
    rw [List.forall_mem_cons] at h
    have hfirst := render_visits (.branch b cs i) h.1
    have hrest := renderAll_visits rest h.2
    rw [Node.nodesOfAll]
    by_cases hb : b = .paragraph
    · -- A paragraph is opened for the box, so its children are written on their own.
      subst hb
      have hall := renderAll_visits cs
        (h.1.1.standsAlone (by simp [Branch.kind]) (by simp [Branch.kind]))
      rw [renderTask]
      exact (hall.below (by simp [Branch.kind])).map₂ _ hrest
    · rw [renderTask_branch hb]
      exact hfirst.map₂ _ hrest

theorem renderTable_visits (headed : Bool) (alignments : List (Option String)) (ns : List Node)
    (h : ∀ n ∈ ns, Placed n) :
    Visits (Node.nodesOfAll ns) (renderTable o headed alignments ns) := by
  match ns with
  | [] => rw [renderTable]; exact visits_pure ""
  | row :: rows =>
    rw [List.forall_mem_cons] at h
    have hrows := renderRows_visits alignments rows h.2
    rw [Node.nodesOfAll, renderTable]
    split
    · exact (renderRow_visits "th" alignments row h.1).map₂ _ hrows
    · exact (renderRow_visits "td" alignments row h.1).map₂ _ hrows

theorem renderRows_visits (alignments : List (Option String)) (ns : List Node)
    (h : ∀ n ∈ ns, Placed n) : Visits (Node.nodesOfAll ns) (renderRows o alignments ns) := by
  match ns with
  | [] => rw [renderRows]; exact visits_pure ""
  | row :: rows =>
    rw [List.forall_mem_cons] at h
    rw [Node.nodesOfAll, renderRows]
    exact (renderRow_visits "td" alignments row h.1).map₂ _ (renderRows_visits alignments rows h.2)

theorem renderRow_visits (tag : String) (alignments : List (Option String)) (n : Node)
    (h : Placed n) : Visits n.nodes (renderRow o tag alignments n) := by
  match n with
  | .leaf l i => rw [renderRow]; exact visits_fail _
  | .branch b cells i =>
    cases b with
    | tableRow isHeader =>
      have hcells := renderCells_visits tag alignments cells fun c hc =>
        ⟨h.children c hc, fun heq => h.self.heading c hc heq rfl⟩
      rw [renderRow]
      exact (hcells.map _).below (by simp [Branch.kind])
    | _ => exact visits_fail _

theorem renderCells_visits (tag : String) (alignments : List (Option String)) (ns : List Node)
    (h : ∀ n ∈ ns, Placed n ∧ n.kind ≠ .heading) :
    Visits (Node.nodesOfAll ns) (renderCells o tag alignments ns) := by
  match ns with
  | [] => rw [renderCells]; exact visits_pure ""
  | cell :: cells =>
    rw [List.forall_mem_cons] at h
    rw [Node.nodesOfAll, renderCells]
    exact (renderCell_visits tag (cellStyle alignments) cell h.1.1 h.1.2).map₂ _
      (renderCells_visits tag alignments.tail cells h.2)

theorem renderCell_visits (tag style : String) (n : Node) (h : Placed n)
    (hheading : n.kind ≠ .heading) : Visits n.nodes (renderCell o tag style n) := by
  match n with
  | .leaf l i =>
    rcases renderCell_leaf o tag style l i with ⟨hevents, hcell⟩ | ⟨k, -, hcell⟩
    · -- A chart is no cell, so nothing is drawn here.
      have hdrawn : isDrawn (.leaf l i) = false := by
        cases l with
        | chartBlock lines => exact nomatch hevents
        | _ => rfl
      rw [hcell]
      intro p html p' hresult
      rw [Node.nodes, List.foldl_cons, Progress.visit_leaf hdrawn]
      exact visits_pure _ p html p' hresult
    · rw [hcell]
      exact visits_fail _
  | .branch b cs i =>
    cases hinline : holdsInline b with
    | true =>
      obtain ⟨htable, hrow⟩ := kind_ne_of_holdsInline hinline
      have hall := renderAll_visits cs (h.standsAlone htable hrow)
      rw [renderCell_of_holdsInline o tag style hinline]
      exact (hall.map _).below hheading
    | false =>
      rw [renderCell_of_not_holdsInline o tag style hinline]
      exact visits_fail _
end

end Chartdown.Html
