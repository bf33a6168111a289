import Chartdown.Proofs.Html.Events

/-!
# What single steps come to

The steps of writing that go by what stands in a place: a chart block, a cell of a row, and the first
block of a task. What each of them comes to is said here once, case by case, so that what holds of
whole trees can be proved along the renderer without going into them again.

A table asks its children to be rows, and a row asks its children to be cells. Whatever else stands
there is an obstacle, but for leaves that could hold a text and do not: they are written as empty
cells. A task puts its box into the paragraph that it starts with, or in front of what stands there
instead.

## Key results

- `chartBlock_cases`: a chart block is drawn, left empty or an error, whatever is known
- `renderCell_leaf`: a leaf is an empty cell or an obstacle
- `renderCell_of_holdsInline`, `renderCell_of_not_holdsInline`: the same for a branch
- `renderTask_cons`: what a task without a paragraph in front is written as
-/

namespace Chartdown.Html

open Chartdown

/-- A step and the next one have a result when each of them has one. -/
theorem Rendering.result_bind_eq_ok_iff {α β : Type} {r : Rendering α} {f : α → Rendering β}
    {p p' : Progress} {b : β} : ((r >>= f) p).result = .ok (b, p') ↔
      ∃ a q, (r p).result = .ok (a, q) ∧ (f a q).result = .ok (b, p') := by
  have hbind : (r >>= f) p = r p >>= fun x => f x.1 x.2 := rfl
  rw [hbind, Noted.result_bind_eq_ok_iff]
  exact ⟨fun ⟨x, hx, h⟩ => ⟨x.1, x.2, hx, h⟩, fun ⟨a, q, hx, h⟩ => ⟨(a, q), hx, h⟩⟩

/-! ### Chart blocks -/

/-- A chart block is a chart that is drawn and counted, or nothing is written for it, or it is an
error. Which of these it is, and what is told of it, does not depend on what is known before. -/
theorem chartBlock_cases (o : Options) (text : String) :
    (∃ notices html, html ≠ "" ∧ (Chart.draw text o.chart).result = .ok html ∧
      ∀ p, chartBlock o text p =
        ⟨notices, .ok (html ++ "\n", { p with charts := p.charts + 1 })⟩) ∨
    (∃ notices, (∀ html, (Chart.draw text o.chart).result = .ok html → html = "") ∧
      ∀ p, chartBlock o text p = ⟨notices, .ok ("", p)⟩) ∨
    ∃ notices error, (∀ html, (Chart.draw text o.chart).result ≠ .ok html) ∧
      ∀ p, chartBlock o text p = ⟨notices, .error error⟩ := by
  unfold chartBlock
  generalize Chart.draw text o.chart = drawn
  obtain ⟨notices, result⟩ := drawn
  dsimp only
  cases result with
  | ok html =>
    by_cases hempty : html = ""
    · refine .inr (.inl ⟨notices, fun other hother => ?_, fun p => if_pos hempty⟩)
      exact Except.ok.inj hother ▸ hempty
    · exact .inl ⟨notices, html, hempty, rfl, fun p => if_neg hempty⟩
  | error error =>
    cases error with
    | description e =>
      -- A description that cannot be read is reported, or it is put up with.
      by_cases hfail : o.failOnChartErrors = true
      · exact .inr (.inr ⟨notices, .chart e, nofun, fun p => if_pos hfail⟩)
      · exact .inr (.inl ⟨notices ++ [.chartSkipped e], nofun, fun p => if_neg hfail⟩)
    | encoding e => exact .inr (.inr ⟨notices, .encoding e, nofun, fun p => rfl⟩)

/-! ### Cells -/

section Cells
variable (o : Options) (tag style : String)

/-- A leaf in the place of a cell is written as an empty cell, or it cannot be written. -/
theorem renderCell_leaf (l : Leaf) (i : Info) :
    (leafCellEvents l = [] ∧
      renderCell o tag style (.leaf l i) = pure ("<" ++ tag ++ style ++ "></" ++ tag ++ ">")) ∨
    ∃ k : Obstacle, leafCellEvents l = [.obstacle k] ∧
      renderCell o tag style (.leaf l i) = fun _ => .fail k.error := by
  unfold renderCell
  cases l with
  | codeBlock s | htmlBlock s | text s | code s | htmlInline s =>
    by_cases hs : s = ""
    · exact .inl ⟨if_pos hs, if_pos hs⟩
    · exact .inr ⟨.cellText, if_neg hs, if_neg hs⟩
  | chartBlock | thematicBreak | image | lineBreak => exact .inr ⟨.cellKind _, rfl, rfl⟩

/-- A branch with inline children is written like a cell, whatever it is. -/
theorem renderCell_of_holdsInline {b : Branch} (h : holdsInline b = true) (cs : List Node) (i : Info) :
    renderCell o tag style (.branch b cs i) = do
      return "<" ++ tag ++ style ++ ">" ++ (← renderAll o cs) ++ "</" ++ tag ++ ">" := by
  cases b with
  | heading | paragraph | tableCell | emphasis | strong | link | strikethrough => rw [renderCell]
  | document | blockQuote | list | listItem | table | tableRow => exact nomatch h

theorem renderCell_of_not_holdsInline {b : Branch} (h : holdsInline b = false) (cs : List Node)
    (i : Info) :
    renderCell o tag style (.branch b cs i) = fun _ => .fail (Obstacle.cellKind b.kind).error := by
  cases b with
  | heading | paragraph | tableCell | emphasis | strong | link | strikethrough => exact nomatch h
  | document | blockQuote | list | listItem | table | tableRow => rfl

end Cells

/-- What holds inline nodes holds neither rows nor cells. -/
theorem kind_ne_of_holdsInline {b : Branch} (h : holdsInline b = true) :
    b.kind ≠ .table ∧ b.kind ≠ .tableRow := by
  cases b with
  | table | tableRow => exact nomatch h
  | _ => exact ⟨nofun, nofun⟩

/-! ### Tasks -/

/-- A task that does not start with a paragraph has its box in front. -/
theorem renderTask_cons {o : Options} {box : String} {n : Node} {rest : List Node}
    (h : ∀ cs i, n ≠ .branch .paragraph cs i) :
    renderTask o box (n :: rest) = do
      let first ← render o n
      let others ← renderAll o rest
      return box ++ first ++ others := by
  rw [renderTask]
  exact fun cs i heq => h cs i heq

theorem renderTask_leaf {o : Options} {box : String} {l : Leaf} {i : Info} {rest : List Node} :
    renderTask o box (.leaf l i :: rest) = do
      let first ← render o (.leaf l i)
      let others ← renderAll o rest
      return box ++ first ++ others :=
  renderTask_cons fun _ _ heq => nomatch heq

theorem renderTask_branch {o : Options} {box : String} {b : Branch} (h : b ≠ .paragraph)
    {cs : List Node} {i : Info} {rest : List Node} :
    renderTask o box (.branch b cs i :: rest) = do
      let first ← render o (.branch b cs i)
      let others ← renderAll o rest
      return box ++ first ++ others :=
  renderTask_cons fun _ _ heq => h (Node.branch.inj heq).1

end Chartdown.Html
