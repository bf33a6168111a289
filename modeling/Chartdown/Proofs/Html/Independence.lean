import Chartdown.Proofs.Html.Emission

/-!
# Renders are independent

A call of a renderer tells nothing of the calls before it, as each starts it anew. Within a call only
the anchors in use have an effect on what is written: a step that knows nothing of before tells and
returns the same wherever it stands, and headings aside each step is of that kind.

## Key results

- `Rendering.IsLocal`: a step knows nothing of before
- `render_isLocal`: a node without headings is written alike wherever it stands
- `render_independent`: calls are independent, and blocks are written one by one
-/

namespace Chartdown.Html

open Emission

variable (o : Options)

/-- Every call tells what it would tell with a new renderer. -/
theorem renderEach_eq_map (docs : List Node) (r : Renderer) :
    renderEach o r docs = docs.map fun doc => (renderToString o doc {}).told := by
  induction docs generalizing r with
  | nil => rfl
  | cons doc docs ih =>
    rw [renderEach, ih, List.map_cons, told_renderToString, told_renderToString]

/-! ### Steps that know nothing of before -/

namespace Rendering

variable {α β : Type}

/-- A step tells and returns the same whatever is known, and only adds to the charts drawn. -/
def IsLocal (step : Rendering α) : Prop :=
  ∃ alone : Noted RenderError (α × Nat), ∀ p : Progress,
    step p = (fun done => (done.1, { p with charts := p.charts + done.2 })) <$> alone

theorem isLocal_of_eq {step : Rendering α} (alone : Noted RenderError (α × Nat))
    (h : ∀ p, step p = ⟨alone.notices,
      alone.result.map fun done => (done.1, { p with charts := p.charts + done.2 })⟩) : IsLocal step :=
  ⟨alone, fun p => (h p).trans (Noted.map_eq _ alone).symm⟩

theorem isLocal_pure (a : α) : IsLocal (pure a) := ⟨pure (a, 0), fun _ => rfl⟩

theorem isLocal_fail (error : RenderError) : IsLocal (fun _ => .fail error : Rendering α) :=
  ⟨.fail error, fun _ => rfl⟩

theorem IsLocal.bind {step : Rendering α} {next : α → Rendering β} (h : IsLocal step)
    (hnext : ∀ a, IsLocal (next a)) : IsLocal (step >>= next) := by
  obtain ⟨alone, halone⟩ := h
  -- What follows is told apart for each result of the first step, and the counts of charts add up.
  choose others hothers using hnext
  refine ⟨alone >>= fun done => (fun more => (more.1, done.2 + more.2)) <$> others done.1, fun p => ?_⟩
  have hrun : (step >>= next) p = step p >>= fun done => next done.1 done.2 := rfl
  simp only [hrun, halone, hothers, map_eq_pure_bind, bind_assoc, pure_bind, Nat.add_assoc]

/-- The text of a step is the same wherever it stands. -/
theorem IsLocal.text_eq {step : Rendering α} (h : IsLocal step) (p q : Progress) :
    Prod.fst <$> step p = Prod.fst <$> step q := by
  obtain ⟨alone, halone⟩ := h
  simp only [halone, Functor.map_map]

end Rendering

open Rendering

/-- Whether a chart is drawn, and how, is settled by its text. -/
theorem chartBlock_isLocal (text : String) : IsLocal (chartBlock o text) := by
  rcases chartBlock_cases o text with
    ⟨notices, html, -, -, hblock⟩ | ⟨notices, -, hblock⟩ | ⟨notices, error, -, hblock⟩
  · exact isLocal_of_eq ⟨notices, .ok (html ++ "\n", 1)⟩ hblock
  · exact isLocal_of_eq ⟨notices, .ok ("", 0)⟩ hblock
  · exact isLocal_of_eq ⟨notices, .error error⟩ hblock

theorem taskBox_isLocal (status : String) : IsLocal (taskBox status) := by
  unfold taskBox
  split
  · exact isLocal_pure _
  split
  · exact isLocal_pure _
  · exact isLocal_fail _

theorem renderLeaf_isLocal (l : Leaf) : IsLocal (renderLeaf o l) := by
  cases l with
  | chartBlock lines => exact chartBlock_isLocal o _
  | _ => exact isLocal_pure _

/-- No heading is at or below a node. -/
def Unheaded (n : Node) : Prop := ∀ m ∈ n.nodes, m.kind ≠ .heading

theorem Unheaded.children {b : Branch} {cs : List Node} {i : Info} (h : Unheaded (.branch b cs i)) :
    ∀ c ∈ cs, Unheaded c :=
  fun _ hc m hm => h m (Node.mem_nodes_branch hc hm)

mutual
/-- A node without headings is written alike wherever it stands. -/
theorem render_isLocal (n : Node) (h : Unheaded n) : IsLocal (render o n) := by
  match n with
  | .leaf l i => exact renderLeaf_isLocal o l
  | .branch b cs i =>
    have hall := renderAll_isLocal cs h.children
    cases b with
    | document => exact hall
    | heading level =>
      -- Its anchor would be chosen among those that are not in use.
      exact absurd rfl (h _ (Node.mem_nodes_self _))
    | listItem task =>
      cases task with
      | none => exact hall.bind fun _ => isLocal_pure _
      | some status =>
        by_cases hstatus : status = ""
        · simp only [render, hstatus, if_true]
          exact hall.bind fun _ => isLocal_pure _
        · simp only [render, hstatus, if_false]
          exact (taskBox_isLocal status).bind fun box =>
            (renderTask_isLocal box cs h.children).bind fun _ => isLocal_pure _
    | table headed alignments =>
      exact (renderTable_isLocal headed alignments cs h.children).bind fun _ => isLocal_pure _
    | tableRow header => exact isLocal_pure _
    | tableCell align => exact isLocal_pure _
    | _ => exact hall.bind fun _ => isLocal_pure _

theorem renderAll_isLocal (ns : List Node) (h : ∀ n ∈ ns, Unheaded n) : IsLocal (renderAll o ns) := by
  match ns with
  | [] => exact isLocal_pure _
  | n :: rest =>
    obtain ⟨hn, hrest⟩ := List.forall_mem_cons.mp h
    exact (render_isLocal n hn).bind fun _ => (renderAll_isLocal rest hrest).bind fun _ => isLocal_pure _

theorem renderTask_isLocal (box : String) (ns : List Node) (h : ∀ n ∈ ns, Unheaded n) :
    IsLocal (renderTask o box ns) := by
  match ns with
  | [] => exact isLocal_pure _
  | block :: rest =>
    obtain ⟨hblock, hrest⟩ := List.forall_mem_cons.mp h
    have hothers := renderAll_isLocal rest hrest
    have hother : (∀ cs i, block ≠ .branch .paragraph cs i) → IsLocal (renderTask o box (block :: rest)) := by
      intro hkind
      rw [renderTask_cons hkind]
      exact (render_isLocal block hblock).bind fun _ => hothers.bind fun _ => isLocal_pure _
    match block with
    | .leaf l i => exact hother fun cs i heq => by cases heq
    | .branch b cs i =>
      cases b with
      | paragraph =>
        exact (renderAll_isLocal cs hblock.children).bind fun _ => hothers.bind fun _ => isLocal_pure _
      | _ => exact hother fun cs i heq => by cases heq

theorem renderTable_isLocal (headed : Bool) (alignments : List (Option String)) (ns : List Node)
    (h : ∀ n ∈ ns, Unheaded n) : IsLocal (renderTable o headed alignments ns) := by
  match ns with
  | [] => exact isLocal_pure _
  | row :: rows =>
    obtain ⟨hrow, hrows⟩ := List.forall_mem_cons.mp h
    have hothers := renderRows_isLocal alignments rows hrows
    cases headed with
    | false =>
      exact (renderRow_isLocal "td" alignments row hrow).bind fun _ => hothers.bind fun _ => isLocal_pure _
    | true =>
      exact (renderRow_isLocal "th" alignments row hrow).bind fun _ => hothers.bind fun _ => isLocal_pure _

theorem renderRows_isLocal (alignments : List (Option String)) (ns : List Node)
    (h : ∀ n ∈ ns, Unheaded n) : IsLocal (renderRows o alignments ns) := by
  match ns with
  | [] => exact isLocal_pure _
  | row :: rows =>
    obtain ⟨hrow, hrows⟩ := List.forall_mem_cons.mp h
    exact (renderRow_isLocal "td" alignments row hrow).bind fun _ =>
      (renderRows_isLocal alignments rows hrows).bind fun _ => isLocal_pure _

theorem renderRow_isLocal (tag : String) (alignments : List (Option String)) (n : Node)
    (h : Unheaded n) : IsLocal (renderRow o tag alignments n) := by
  match n with
  | .leaf l i => exact isLocal_fail _
  | .branch b cells i =>
    cases b with
    | tableRow header =>
      exact (renderCells_isLocal tag alignments cells h.children).bind fun _ => isLocal_pure _
    | _ => exact isLocal_fail _

theorem renderCells_isLocal (tag : String) (alignments : List (Option String)) (ns : List Node)
    (h : ∀ n ∈ ns, Unheaded n) : IsLocal (renderCells o tag alignments ns) := by
  match ns with
  | [] => exact isLocal_pure _
  | cell :: cells =>
    obtain ⟨hcell, hcells⟩ := List.forall_mem_cons.mp h
    exact (renderCell_isLocal tag (cellStyle alignments) cell hcell).bind fun _ =>
      (renderCells_isLocal tag alignments.tail cells hcells).bind fun _ => isLocal_pure _

theorem renderCell_isLocal (tag style : String) (n : Node) (h : Unheaded n) :
    IsLocal (renderCell o tag style n) := by
  match n with
  | .leaf l i =>
    rcases renderCell_leaf o tag style l i with ⟨-, hcell⟩ | ⟨k, -, hcell⟩
    · rw [hcell]
      exact isLocal_pure _
    · rw [hcell]
      exact isLocal_fail _
  | .branch b cs i =>
    have hall := renderAll_isLocal cs h.children
    cases hinline : holdsInline b with
    | true =>
      rw [renderCell_of_holdsInline o tag style hinline]
      exact hall.bind fun _ => isLocal_pure _
    | false =>
      rw [renderCell_of_not_holdsInline o tag style hinline]
      exact isLocal_fail _
end

theorem renderAll_append (xs ys : List Node) :
    renderAll o (xs ++ ys) = do return (← renderAll o xs) ++ (← renderAll o ys) := by
  induction xs with
  | nil => simp only [List.nil_append, renderAll, pure_bind, String.empty_append, bind_pure]
  | cons x xs ih => simp only [List.cons_append, renderAll, ih, bind_assoc, pure_bind, String.append_assoc]

/-! ### Blocks one after the other -/

/-- Blocks without headings are written behind others as they are written alone. -/
theorem told_accumulate_append (xs : List Node) {ys : List Node} (h : ∀ n ∈ ys, Unheaded n) (r : Renderer) :
    (accumulate o (xs ++ ys) r).told = do
      return (← (accumulate o xs r).told) ++ (← (accumulate o ys {}).told) := by
  have hall : renderAll o (xs ++ ys) r.progress = renderAll o xs r.progress >>= fun done =>
      renderAll o ys done.2 >>= fun more => pure (done.1 ++ more.1, more.2) := by
    rw [renderAll_append]
    rfl
  have halone : ∀ (p : Progress) (back : String → String),
      (fun more => back more.1) <$> renderAll o ys p = (fun more => back more.1) <$> renderAll o ys {} := by
    intro p back
    have htext := congrArg (back <$> ·) ((renderAll_isLocal o ys h).text_eq p {})
    simpa only [Functor.map_map] using htext
  calc (accumulate o (xs ++ ys) r).told
      = renderAll o xs r.progress >>= fun done =>
          (fun more => r.text ++ (done.1 ++ more.1)) <$> renderAll o ys done.2 := by
        simp only [told_accumulate, hall, map_bind, bind_pure_comp, Functor.map_map]
    _ = renderAll o xs r.progress >>= fun done =>
          (fun more => r.text ++ done.1 ++ more.1) <$> renderAll o ys {} := by
        simp only [String.append_assoc, fun p front => halone p fun text => r.text ++ (front ++ text)]
    _ = _ := by
        simp only [told_accumulate_new, told_accumulate o xs, map_eq_pure_bind, bind_assoc, pure_bind]

/-- A document that is a part of a page is what was accumulated of its blocks, without the line feeds at
the end. -/
theorem told_renderToString_part (ho : o.standalone = false) (cs : List Node) (i : Info) (r : Renderer) :
    (renderToString o (.branch .document cs i) r).told =
      dropFinalFeeds <$> (accumulate o cs {}).told := by
  have hfinish : finish o i = fun done => pure (dropFinalFeeds done.1) := by
    funext done
    simp [finish, ho]
  simp only [told_renderToString, renderDocument_eq, Node.info, hfinish, told_accumulate_new,
    Functor.map_map, bind_pure_comp]
  rfl

/-! ### Charts -/

/-- What a chart block adds to an output. -/
def chartPieces (o : Chart.Options) (text : String) : List String :=
  match (Chart.draw text o).result with
  | .ok html => if html = "" then [] else [html ++ "\n"]
  | .error _ => []

/-- What is written of a step's text: nothing of an empty one, and nothing if there is none. -/
def piecesOf : Except RenderError (String × Progress) → List String
  | .ok (text, _) => if text = "" then [] else [text]
  | .error _ => []

theorem piecesOf_chartBlock (text : String) (p : Progress) :
    piecesOf (chartBlock o text p).result = chartPieces o.chart text := by
  rcases chartBlock_cases o text with
    ⟨_, html, hne, hdrawn, hblock⟩ | ⟨_, hempty, hblock⟩ | ⟨_, _, hnone, hblock⟩
  · simp [piecesOf, chartPieces, hblock, hdrawn, hne]
  · rw [hblock, piecesOf, if_pos rfl, chartPieces]
    cases hdrawn : (Chart.draw text o.chart).result with
    | ok html => simp [hempty html hdrawn]
    | error error => rfl
  · rw [hblock, piecesOf, chartPieces]
    cases hdrawn : (Chart.draw text o.chart).result with
    | ok html => exact absurd hdrawn (hnone html)
    | error error => rfl

theorem output_perform_write (step : Rendering String) (r : Renderer) :
    ((do
      let text ← perform step
      if text = "" then pure () else write text : Emission Unit) r).renderer.output =
        r.output ++ piecesOf (step r.progress).result := by
  cases hresult : (step r.progress).result with
  | error error =>
    have hstep := perform_of_error hresult
    rw [bind_of_error (by rw [hstep]), hstep, piecesOf, List.append_nil]
  | ok done =>
    have hstep := perform_of_ok hresult
    rw [bind_of_ok (by rw [hstep]), hstep]
    by_cases hempty : done.1 = "" <;> simp [piecesOf, hempty, pure, write]

/-- A chart is drawn alike wherever it stands. -/
theorem output_visit_chartBlock (lines : List String) (i : Info) (r : Renderer) :
    (visit o (.leaf (.chartBlock lines) i) r).renderer.output =
      r.output ++ chartPieces o.chart (String.join lines) := by
  rw [← piecesOf_chartBlock]
  exact output_perform_write _ r

/-- A renderer tells of each document what a new one would, also after calls that failed halfway.
A document is what was accumulated of its blocks. Blocks without headings are written behind other
blocks as they are written alone, and what a chart block adds to the output is settled by its text
and the options for charts. -/
theorem render_independent (o : Options) :
    (∀ (r : Renderer) (docs : List Node),
      renderEach o r docs = docs.map fun doc => (renderToString o doc {}).told) ∧
    (o.standalone = false → ∀ (cs : List Node) (i : Info) (r : Renderer),
      (renderToString o (.branch .document cs i) r).told =
        dropFinalFeeds <$> (accumulate o cs {}).told) ∧
    (∀ (r : Renderer) (xs ys : List Node), (∀ n ∈ ys, Unheaded n) →
      (accumulate o (xs ++ ys) r).told = do
        return (← (accumulate o xs r).told) ++ (← (accumulate o ys {}).told)) ∧
    ∀ (lines : List String) (i : Info) (r : Renderer),
      (visit o (.leaf (.chartBlock lines) i) r).renderer.output =
        r.output ++ chartPieces o.chart (String.join lines) :=
  ⟨fun r docs => renderEach_eq_map o docs r, told_renderToString_part o,
    fun r xs _ h => told_accumulate_append o xs h r, output_visit_chartBlock o⟩

/-- A heading. -/
def greeting : Node := .ofBranch (.heading ⟨4, by decide, by decide⟩) [.text "Hi"]

/-- The same heading in a quote, and behind it a task that is neither done nor open in the text of a
paragraph. -/
def brokenDocument : Node :=
  .ofBranch .document
    [.ofBranch .blockQuote [greeting],
     .ofBranch .paragraph [.text "so far", .ofBranch .strong [.ofBranch (.listItem (some "half")) []]]]

/-- A chart block that is empty and a quote. -/
def plainBlocks : List Node :=
  [.ofLeaf (.chartBlock []), .ofBranch .blockQuote [.ofBranch .paragraph [.text "Bye"]]]

/-- The failed call leaves nothing behind, and the blocks of a document are written one by one. -/
theorem render_independent_broken :
    (renderEach {} {} [brokenDocument, .ofBranch .document [greeting]]).map (·.result) =
      [.error (.taskStatus "half"), .ok "<h4 id=\"hi\">Hi</h4>"] ∧
    (∀ n ∈ plainBlocks, Unheaded n) ∧
    (renderToString {} (.branch .document (greeting :: plainBlocks) {}) {}).told.result =
      .ok "<h4 id=\"hi\">Hi</h4>\n<blockquote>\n<p>Bye</p>\n</blockquote>" := by
  have hunheaded : ∀ n ∈ plainBlocks, Unheaded n := by
    simp [plainBlocks, Unheaded, Node.text, Node.ofBranch, Node.ofLeaf, Node.nodes, Node.nodesOfAll,
      Node.kind, Leaf.kind, Branch.kind]
  obtain ⟨hcalls, hpart, hblocks, -⟩ := render_independent {}
  refine ⟨?_, hunheaded, ?_⟩
  · rw [hcalls]
    decide +kernel
  · rw [hpart rfl, ← List.singleton_append, hblocks {} [greeting] plainBlocks hunheaded]
    decide +kernel

end Chartdown.Html
