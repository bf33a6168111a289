import Chartdown.Proofs.Chart.Drawing
import Chartdown.Proofs.Html.Steps

/-!
# Malformed charts are left out

A chart that is malformed costs a document nothing but itself: where charts may be left out, the
document is written as if the chart block were empty, and otherwise the first such chart is the
error. Two ways through a tree are compared, one through the tree and one through its copy with the
malformed charts taken out, and both with the events that `eventsOf` lists.

## Key results

- `Rendering.Follows`: a step does what its events say, and its copy does the same without charts
- `render_follows`: a node is written in step with its copy
- `renderDocument_malformed`: what malformed charts do to a document
-/

namespace Chartdown

open Html (malformation?)

/-! ### Trees without malformed charts -/

/-- Whether a leaf is a chart block with a malformed text. -/
def Leaf.isMalformed : Leaf → Bool
  | .chartBlock lines => (malformation? (String.join lines)).isSome
  | _ => false

namespace Node

mutual
/-- A tree with an empty chart block in place of every malformed one. -/
def withoutMalformed : Node → Node
  | .leaf l i => if l.isMalformed then .ofLeaf (.chartBlock []) else .leaf l i
  | .branch b cs i => .branch b (withoutMalformedAll cs) i

/-- Some trees with an empty chart block in place of every malformed one. -/
def withoutMalformedAll : List Node → List Node
  | [] => []
  | n :: rest => n.withoutMalformed :: withoutMalformedAll rest
end

/-- The copy of a chart block is a chart block. -/
theorem exists_withoutMalformed_chartBlock (lines : List String) (i : Info) :
    ∃ lines' i', (leaf (.chartBlock lines) i).withoutMalformed = .leaf (.chartBlock lines') i' := by
  rw [withoutMalformed]
  split
  · exact ⟨[], {}, rfl⟩
  · exact ⟨lines, i, rfl⟩

theorem exists_withoutMalformed_leaf (l : Leaf) (i : Info) :
    ∃ l' i', (leaf l i).withoutMalformed = .leaf l' i' ∧ l'.kind = l.kind := by
  cases l with
  | chartBlock lines =>
    obtain ⟨lines', i', h⟩ := exists_withoutMalformed_chartBlock lines i
    exact ⟨_, i', h, rfl⟩
  | _ => exact ⟨_, i, rfl, rfl⟩

theorem withoutMalformed_ne_paragraph {n : Node} (h : ∀ cs i, n ≠ .branch .paragraph cs i)
    (cs : List Node) (i : Info) : n.withoutMalformed ≠ .branch .paragraph cs i := by
  cases n with
  | leaf l j =>
    obtain ⟨l', i', hcopy, -⟩ := exists_withoutMalformed_leaf l j
    rw [hcopy]
    exact fun heq => nomatch heq
  | branch b cs' j =>
    rw [withoutMalformed]
    intro heq
    obtain ⟨rfl, -, -⟩ := Node.branch.inj heq
    exact h cs' j rfl

theorem isEmpty_withoutMalformedAll (ns : List Node) :
    (withoutMalformedAll ns).isEmpty = ns.isEmpty := by
  cases ns <;> rfl

mutual
theorem plainText_withoutMalformed (joiner : String) (n : Node) :
    n.withoutMalformed.plainText joiner = n.plainText joiner := by
  match n with
  | .leaf l i =>
    rw [withoutMalformed]
    split
    · -- A chart block has no text, malformed or empty.
      cases l <;> first | rfl | (rename_i h; simp [Leaf.isMalformed] at h)
    · rfl
  | .branch b cs i => simp only [withoutMalformed, plainText, plainTexts_withoutMalformed joiner cs]

theorem plainTexts_withoutMalformed (joiner : String) (ns : List Node) :
    plainTexts joiner (withoutMalformedAll ns) = plainTexts joiner ns := by
  match ns with
  | [] => rfl
  | n :: rest =>
    simp only [withoutMalformedAll, plainTexts, plainText_withoutMalformed joiner n,
      plainTexts_withoutMalformed joiner rest]
end

theorem plainTextOfAll_withoutMalformed (joiner : String) (ns : List Node) :
    plainTextOfAll joiner (withoutMalformedAll ns) = plainTextOfAll joiner ns := by
  rw [plainTextOfAll, plainTexts_withoutMalformed, plainTextOfAll]

end Node

namespace Noted

/-- A result without its value. -/
def outcome (x : Noted ε α) : Noted ε Unit := ⟨x.notices, x.result.map fun _ => ()⟩

theorem outcome_bind {x : Noted ε α} {f : α → Noted ε β} {y : Noted ε Unit}
    (h : ∀ a, (f a).outcome = y) : (x >>= f).outcome = x.outcome >>= fun _ => y := by
  obtain ⟨notices, result⟩ := x
  cases result with
  | error e => rfl
  | ok a => rw [← h a]; rfl

end Noted

namespace Html

/-! ### Steps in step -/

/-- The same options, but for whether a malformed chart is an error. -/
def Options.failing (o : Options) (strict : Bool) : Options := { o with failOnChartErrors := strict }

/-- A step does what its events say. Its copy goes on to the same result unless the step fails at a
malformed chart, and gives the same notices but for those of charts that are left out. -/
structure Rendering.Follows {α : Type} (strict : Bool) (es : List Event)
    (r r₀ : Rendering α) : Prop where
  outcome : ∀ p, (r p).outcome = runEvents strict es
  result : ∀ p, (r₀ p).result = (r p).result ∨ strict = true ∧ ∃ e, (r p).result = .error (.chart e)
  notices : strict = false → ∀ p,
    (r₀ p).notices = (r p).notices.filter fun notice => !notice.isSkip

namespace Rendering

variable {α β : Type} {strict : Bool} {es fs : List Event} {r r₀ : Rendering α}

theorem Follows.pure (a : α) : Follows strict [] (pure a) (pure a) :=
  ⟨fun _ => rfl, fun _ => .inl rfl, fun _ _ => rfl⟩

theorem Follows.fail (k : Obstacle) : Follows strict [.obstacle k]
    (fun _ => (.fail k.error : Noted RenderError (α × Progress))) (fun _ => .fail k.error) :=
  ⟨fun _ => rfl, fun _ => .inl rfl, fun _ _ => rfl⟩

/-- Both steps go on with the same value, unless the first one has failed at a malformed chart. -/
theorem Follows.bind {f f₀ : α → Rendering β} (h : Follows strict es r r₀)
    (hf : ∀ a, Follows strict fs (f a) (f₀ a)) : Follows strict (es ++ fs) (r >>= f) (r₀ >>= f₀) := by
  have happly : ∀ (r : Rendering α) (f : α → Rendering β) p,
      (r >>= f) p = r p >>= fun x => f x.1 x.2 := fun _ _ _ => rfl
  refine ⟨fun p => ?_, fun p => ?_, fun hstrict p => ?_⟩
  · rw [runEvents_append, ← h.outcome p]
    exact Noted.outcome_bind fun x => (hf x.1).outcome x.2
  · rw [happly, happly]
    cases hresult : (r p).result with
    | error e =>
      rw [Noted.bind_of_error hresult]
      rcases h.result p with heq | ⟨hstrict, e', he⟩
      · exact .inl (by rw [Noted.bind_of_error (heq.trans hresult)])
      · obtain rfl := Except.error.inj (hresult.symm.trans he)
        exact .inr ⟨hstrict, e', rfl⟩
    | ok x =>
      rw [Noted.bind_of_ok hresult]
      rcases h.result p with heq | ⟨-, e', he⟩
      · rw [Noted.bind_of_ok (heq.trans hresult)]
        exact (hf x.1).result x.2
      · exact nomatch hresult.symm.trans he
  · -- Where charts are left out, the two results are the same, and so is what follows.
    have heq : (r₀ p).result = (r p).result :=
      (h.result p).resolve_right fun ⟨htrue, _⟩ => nomatch hstrict.symm.trans htrue
    rw [happly, happly]
    cases hresult : (r p).result with
    | error e =>
      rw [Noted.bind_of_error hresult, Noted.bind_of_error (heq.trans hresult)]
      exact h.notices hstrict p
    | ok x =>
      rw [Noted.bind_of_ok hresult, Noted.bind_of_ok (heq.trans hresult), List.filter_append,
        h.notices hstrict p, (hf x.1).notices hstrict x.2]

/-- What is made of the results of two steps is in step as they are. -/
theorem Follows.map (f : α → β) (h : Follows strict es r r₀) :
    Follows strict es (do return f (← r)) (do return f (← r₀)) := by
  rw [← List.append_nil es]
  exact h.bind fun a => .pure (f a)

/-- What is made of the results of two steps and two more is in step as they are. -/
theorem Follows.map₂ {s s₀ : Rendering α} (f : α → α → β) (h : Follows strict es r r₀)
    (hs : Follows strict fs s s₀) : Follows strict (es ++ fs)
      (do let a ← r; let b ← s; return f a b) (do let a ← r₀; let b ← s₀; return f a b) :=
  h.bind fun a => hs.map (f a)

end Rendering

open Rendering

/-! ### Leaves -/

section Chart

variable {o : Options} {text : String}

/-- A chart that is read is drawn in either mode, with notices of its size only. -/
theorem exists_chartBlock (o : Options) (h : malformation? text = none) :
    ∃ f : Progress → String × Progress, ∀ mode p,
      chartBlock (o.failing mode) text p = ⟨sizeNotices text, .ok (f p)⟩ := by
  rcases eq_or_ne text "" with rfl | htext
  · exact ⟨fun p => ("", p), fun _ _ => rfl⟩
  cases hparse : Chart.Description.parse text.toList with
  | error e => simp [malformation?, htext, hparse] at h
  | ok d =>
    obtain ⟨html, hhtml⟩ := Chart.exists_markup (Chart.parse_sound hparse)
      (Chart.canvasId o.chart.idPrefix text) o.chart
    have hdraw : Chart.draw text o.chart = ⟨sizeNotices text, .ok html⟩ := by
      simp only [Chart.draw, htext, if_false, hparse, Noted.mapError, hhtml, sizeNotices]
      rfl
    refine ⟨fun p => if html = "" then ("", p) else
      (html ++ "\n", { p with charts := p.charts + 1 }), fun mode p => ?_⟩
    simp only [chartBlock, Options.failing, hdraw]
    split <;> rfl

/-- A malformed chart is an error, or it is left out. -/
theorem chartBlock_of_malformed {e : Chart.Error} (h : malformation? text = some e) (p : Progress) :
    chartBlock o text p =
      if o.failOnChartErrors then .fail (.chart e) else ⟨[.chartSkipped e], .ok ("", p)⟩ := by
  rw [malformation?] at h
  split at h
  · exact nomatch h
  rename_i htext
  have hdraw : Chart.draw text o.chart = .fail (.description e) := by
    cases hparse : Chart.Description.parse text.toList with
    | error e' =>
      obtain rfl : e' = e := by simpa [hparse] using h
      simp [Chart.draw, htext, hparse]
    | ok d => simp [hparse] at h
  cases hmode : o.failOnChartErrors <;> simp [chartBlock, hdraw, hmode, Noted.fail]

/-- A chart block is written in step with itself, or with an empty one if it is malformed. -/
theorem chartBlock_follows (o : Options) (mode : Bool) (text : String) :
    Follows o.failOnChartErrors [.chart text] (chartBlock o text)
      (chartBlock (o.failing mode) (if (malformation? text).isSome then "" else text)) := by
  have hrun : ∀ strict, runEvents strict [.chart text] = (Event.chart text).run strict :=
    fun _ => Noted.bind_pure _
  cases h : malformation? text with
  | none =>
    obtain ⟨f, hf⟩ := exists_chartBlock o h
    have hself : ∀ p, chartBlock o text p = ⟨sizeNotices text, .ok (f p)⟩ := hf o.failOnChartErrors
    rw [Option.isSome_none, if_neg (by decide)]
    refine ⟨fun p => ?_, fun p => .inl (by rw [hf, hself]), fun _ p => ?_⟩
    · rw [hself, hrun, Event.run, h]
      rfl
    · rw [hf, hself]
      exact (List.filter_eq_self.mpr fun notice hmem => by
        simp [isSkip_of_mem_sizeNotices hmem]).symm
  | some e =>
    -- The copy is empty, so nothing is written in its place and nothing is said of it.
    have hempty : ∀ p, chartBlock (o.failing mode) "" p = ⟨[], .ok ("", p)⟩ := fun _ => rfl
    rw [Option.isSome_some, if_pos rfl]
    cases hmode : o.failOnChartErrors with
    | true =>
      have hchart : ∀ p, chartBlock o text p = .fail (.chart e) := fun p => by
        rw [chartBlock_of_malformed h, if_pos hmode]
      refine ⟨fun p => ?_, fun p => .inr ⟨rfl, e, by rw [hchart]; rfl⟩, by simp⟩
      simp only [hchart, hrun, Event.run, h]
      rfl
    | false =>
      have hchart : ∀ p, chartBlock o text p = ⟨[.chartSkipped e], .ok ("", p)⟩ := fun p => by
        rw [chartBlock_of_malformed h, hmode, if_neg (by decide)]
      refine ⟨fun p => ?_, fun p => .inl (by rw [hchart, hempty]), fun _ p => ?_⟩
      · simp only [hchart, hrun, Event.run, h]
        rfl
      · rw [hchart, hempty]
        rfl

end Chart

/-- A leaf is written in step with itself, or with an empty chart block if it is a malformed one. -/
theorem leaf_follows (o : Options) (mode : Bool) (l : Leaf) (i : Info) :
    Follows o.failOnChartErrors (eventsOf (.leaf l i)) (render o (.leaf l i))
      (render (o.failing mode) (Node.leaf l i).withoutMalformed) := by
  cases l with
  | chartBlock lines =>
    have hcopy : render (o.failing mode) (Node.leaf (.chartBlock lines) i).withoutMalformed =
        chartBlock (o.failing mode)
          (if (malformation? (String.join lines)).isSome then "" else String.join lines) := by
      rw [Node.withoutMalformed, Leaf.isMalformed]
      split
      · rfl
      · rfl
    rw [hcopy]
    exact chartBlock_follows o mode (String.join lines)
  | _ => exact .pure _

/-! ### Trees -/

theorem taskBox_follows {strict : Bool} {status : String} (h : status ≠ "") :
    Follows strict (taskEvents (some status)) (taskBox status) (taskBox status) := by
  by_cases hchecked : status = "checked"
  · rw [taskEvents, if_pos (.inr (.inl hchecked)), taskBox, if_pos hchecked]
    exact .pure _
  by_cases hunchecked : status = "unchecked"
  · rw [taskEvents, if_pos (.inr (.inr hunchecked)), taskBox, if_neg hchecked, if_pos hunchecked]
    exact .pure _
  · rw [taskEvents, if_neg (by simp [h, hchecked, hunchecked]), taskBox, if_neg hchecked,
      if_neg hunchecked]
    exact .fail (.taskStatus status)

theorem openHeading_follows {strict : Bool} (text : String) :
    Follows strict [] (openHeading text) (openHeading text) :=
  ⟨fun _ => rfl, fun _ => .inl rfl, fun _ _ => rfl⟩

/-- A leaf in the place of a cell is written alike with and without malformed charts, as a chart is no
cell. -/
theorem renderCell_withoutMalformed (o o' : Options) (tag style : String) (l : Leaf) (i : Info) :
    renderCell o' tag style (Node.leaf l i).withoutMalformed = renderCell o tag style (.leaf l i) := by
  cases l with
  | chartBlock lines =>
    obtain ⟨lines', i', hcopy⟩ := Node.exists_withoutMalformed_chartBlock lines i
    rw [hcopy]
    rfl
  | _ => rfl

variable (o : Options) (mode : Bool)

mutual
/-- A node is written in step with its copy without malformed charts. -/
theorem render_follows (n : Node) : Follows o.failOnChartErrors (eventsOf n) (render o n)
    (render (o.failing mode) n.withoutMalformed) := by
  match n with
  | .leaf l i => exact leaf_follows o mode l i
  | .branch b cs i =>
    have hall := renderAll_follows cs
    rw [Node.withoutMalformed]
    cases b with
    | document => simpa only [eventsOf, render] using hall
    | heading level =>
      rw [eventsOf, render, render, Node.plainTextOfAll_withoutMalformed]
      exact (openHeading_follows _).bind fun anchor => hall.map _
    | paragraph => rw [eventsOf, render, render]; exact hall.map _
    | blockQuote => rw [eventsOf, render, render]; exact hall.map _
    | list ordered start tight => rw [eventsOf, render, render]; exact hall.map _
    | listItem task =>
      cases task with
      | none => rw [eventsOf, render, render]; exact hall.map _
      | some status =>
        rw [eventsOf, render, render]
        by_cases hstatus : status = ""
        · rw [if_pos hstatus, if_pos hstatus, taskEvents, if_pos (.inl hstatus)]
          exact hall.map _
        · rw [if_neg hstatus, if_neg hstatus]
          exact (taskBox_follows hstatus).bind fun box => (renderTask_follows box cs).map _
    | table headed alignments =>
      rw [eventsOf, render, render]
      exact (renderTable_follows headed alignments cs).map _
    | tableRow isHeader => rw [eventsOf, render, render]; exact .pure _
    | tableCell alignment => rw [eventsOf, render, render]; exact .pure _
    | emphasis => rw [eventsOf, render, render]; exact hall.map _
    | strong => rw [eventsOf, render, render]; exact hall.map _
    | link url title => rw [eventsOf, render, render]; exact hall.map _
    | strikethrough => rw [eventsOf, render, render]; exact hall.map _

theorem renderAll_follows (ns : List Node) : Follows o.failOnChartErrors (eventsOfAll ns)
    (renderAll o ns) (renderAll (o.failing mode) (Node.withoutMalformedAll ns)) := by
  match ns with
  | [] => simp only [eventsOfAll, Node.withoutMalformedAll, renderAll]; exact .pure _
  | n :: rest =>
    rw [eventsOfAll, Node.withoutMalformedAll, renderAll, renderAll]
    exact (render_follows n).map₂ _ (renderAll_follows rest)

theorem renderTask_follows (box : String) (ns : List Node) :
    Follows o.failOnChartErrors (eventsOfAll ns) (renderTask o box ns)
      (renderTask (o.failing mode) box (Node.withoutMalformedAll ns)) := by
  match ns with
  | [] => simp only [eventsOfAll, Node.withoutMalformedAll, renderTask]; exact .pure _
  | .leaf l i :: rest =>
    have hne : ∀ cs j, Node.leaf l i ≠ .branch .paragraph cs j := fun _ _ heq => nomatch heq
    rw [eventsOfAll, Node.withoutMalformedAll, renderTask_cons hne,
      renderTask_cons (Node.withoutMalformed_ne_paragraph hne)]
    exact (leaf_follows o mode l i).map₂ _ (renderAll_follows rest)
  | .branch b cs i :: rest =>
    by_cases hb : b = .paragraph
    · -- A paragraph is opened for the box, so its children are written on their own.
      subst hb
      rw [eventsOfAll, eventsOf, Node.withoutMalformedAll, Node.withoutMalformed, renderTask,
        renderTask]
      exact (renderAll_follows cs).map₂ _ (renderAll_follows rest)
    · have hne : ∀ cs' j, Node.branch b cs i ≠ .branch .paragraph cs' j := fun _ _ heq =>
        hb (Node.branch.inj heq).1
      rw [eventsOfAll, Node.withoutMalformedAll, renderTask_cons hne,
        renderTask_cons (Node.withoutMalformed_ne_paragraph hne)]
      exact (render_follows (.branch b cs i)).map₂ _ (renderAll_follows rest)

theorem renderTable_follows (headed : Bool) (alignments : List (Option String)) (ns : List Node) :
    Follows o.failOnChartErrors (eventsOfRows ns) (renderTable o headed alignments ns)
      (renderTable (o.failing mode) headed alignments (Node.withoutMalformedAll ns)) := by
  match ns with
  | [] => simp only [eventsOfRows, Node.withoutMalformedAll, renderTable]; exact .pure _
  | row :: rows =>
    have hrows := renderRows_follows alignments rows
    rw [eventsOfRows, Node.withoutMalformedAll, renderTable, renderTable,
      Node.isEmpty_withoutMalformedAll]
    cases headed with
    | true => exact (renderRow_follows "th" alignments row).map₂ _ hrows
    | false => exact (renderRow_follows "td" alignments row).map₂ _ hrows

theorem renderRows_follows (alignments : List (Option String)) (ns : List Node) :
    Follows o.failOnChartErrors (eventsOfRows ns) (renderRows o alignments ns)
      (renderRows (o.failing mode) alignments (Node.withoutMalformedAll ns)) := by
  match ns with
  | [] => simp only [eventsOfRows, Node.withoutMalformedAll, renderRows]; exact .pure _
  | row :: rows =>
    rw [eventsOfRows, Node.withoutMalformedAll, renderRows, renderRows]
    exact (renderRow_follows "td" alignments row).map₂ _ (renderRows_follows alignments rows)

theorem renderRow_follows (tag : String) (alignments : List (Option String)) (n : Node) :
    Follows o.failOnChartErrors (eventsOfRow n) (renderRow o tag alignments n)
      (renderRow (o.failing mode) tag alignments n.withoutMalformed) := by
  match n with
  | .leaf l i =>
    obtain ⟨l', i', hcopy, hkind⟩ := Node.exists_withoutMalformed_leaf l i
    rw [hcopy, eventsOfRow, renderRow, renderRow, hkind]
    exact .fail (.rowKind l.kind)
  | .branch b cells i =>
    rw [Node.withoutMalformed]
    cases b with
    | tableRow isHeader =>
      rw [eventsOfRow, renderRow, renderRow]
      exact (renderCells_follows tag alignments cells).map _
    | _ => exact .fail (.rowKind _)

theorem renderCells_follows (tag : String) (alignments : List (Option String)) (ns : List Node) :
    Follows o.failOnChartErrors (eventsOfCells ns) (renderCells o tag alignments ns)
      (renderCells (o.failing mode) tag alignments (Node.withoutMalformedAll ns)) := by
  match ns with
  | [] => simp only [eventsOfCells, Node.withoutMalformedAll, renderCells]; exact .pure _
  | cell :: cells =>
    rw [eventsOfCells, Node.withoutMalformedAll, renderCells, renderCells]
    exact (renderCell_follows tag _ cell).map₂ _ (renderCells_follows tag alignments.tail cells)

theorem renderCell_follows (tag style : String) (n : Node) :
    Follows o.failOnChartErrors (eventsOfCell n) (renderCell o tag style n)
      (renderCell (o.failing mode) tag style n.withoutMalformed) := by
  match n with
  | .leaf l i =>
    rw [eventsOfCell, renderCell_withoutMalformed o]
    rcases renderCell_leaf o tag style l i with ⟨hevents, hcell⟩ | ⟨k, hevents, hcell⟩
    · rw [hevents, hcell]
      exact .pure _
    · rw [hevents, hcell]
      exact .fail k
  | .branch b cs i =>
    have hall := renderAll_follows cs
    rw [Node.withoutMalformed, eventsOfCell]
    cases hinline : holdsInline b with
    | true =>
      rw [if_pos rfl, renderCell_of_holdsInline _ _ _ hinline, renderCell_of_holdsInline _ _ _ hinline]
      exact hall.map _
    | false =>
      rw [if_neg (by decide), renderCell_of_not_holdsInline _ _ _ hinline,
        renderCell_of_not_holdsInline _ _ _ hinline]
      exact .fail (.cellKind b.kind)
end

/-! ### Documents -/

/-- What is put around the body of a document that was written. -/
def finish (o : Options) (i : Info) (x : String × Progress) : Noted RenderError String :=
  if o.standalone then page o i x.2 (dropFinalFeeds x.1) else pure (dropFinalFeeds x.1)

theorem renderDocument_eq (o : Options) (doc : Node) :
    renderDocument o doc = render o doc {} >>= finish o doc.info := rfl

/-- What the events of a document say of its errors. -/
theorem result_render_eq_error_iff (o : Options) (n : Node) (p : Progress) (e : RenderError) :
    (render o n p).result = .error e ↔
      (runEvents o.failOnChartErrors (eventsOf n)).result = .error e := by
  rw [← (render_follows o false n).outcome p, Noted.outcome]
  cases (render o n p).result <;> simp [Except.map]

end Html
end Chartdown
