import Chartdown.Html.Renderer
import Chartdown.Proofs.Html.Skipping

/-!
# What a renderer adds to its output

A renderer keeps an output, which inline content swaps out, and some knowledge of the nodes before.
Each of its steps is related to the step of writing that only returns its text: the renderer adds
that text behind its output, tells the same and knows the same in the end. It alters nothing of what
is there, also when it fails.

## Key results

- `Emission.Emits`, `Emission.Performs`: a step of a renderer does what a step of writing does
- `visit_emits`: a node is added to the output as it is written
- `output_prefix_visit`: what was written before stays
- `told_renderToString`: a call tells what the document says, whatever the renderer did before
-/

namespace Chartdown.Html

/-! ### Steps of a renderer -/

namespace Emission

variable {α β γ δ : Type} {e : Emission α} {step : Rendering β} {pre : String}

/-- How a step of a renderer and a step of writing end: both fail with the same error, or both know
the same and their results, with the pieces that were written, are related. -/
inductive Outcome (R : α → List String → β → Prop) (pieces : List String) (p : Progress) :
    Except RenderError α → Except RenderError (β × Progress) → Prop
  | error (error : RenderError) : Outcome R pieces p (.error error) (.error error)
  | ok {a : α} {b : β} (h : R a pieces b) : Outcome R pieces p (.ok a) (.ok (b, p))

theorem Outcome.imp {R T : α → List String → β → Prop} {pieces others : List String} {p : Progress}
    {result : Except RenderError α} {stepResult : Except RenderError (β × Progress)}
    (h : Outcome R pieces p result stepResult) (hRT : ∀ a b, R a pieces b → T a others b) :
    Outcome T others p result stepResult := by
  cases h with
  | error error => exact .error error
  | ok h => exact .ok (hRT _ _ h)

/-- A step of a renderer goes along with a step of writing. It tells the same, and all it does to the
output is to add pieces behind it, also when it fails. -/
def Tracks (R : α → List String → β → Prop) (e : Emission α) (step : Rendering β) : Prop :=
  ∀ r : Renderer, ∃ pieces p result,
    e r = ⟨(step r.progress).notices, result, ⟨r.output ++ pieces, p⟩⟩ ∧
      Outcome R pieces p result (step r.progress).result

/-- A step that returns something does what a step of writing does, and writes nothing. -/
def Performs (e : Emission α) (step : Rendering α) : Prop :=
  Tracks (fun a pieces b => pieces = [] ∧ a = b) e step

/-- A step writes what a step of writing returns behind a text. -/
def Emits (pre : String) (e : Emission Unit) (step : Rendering String) : Prop :=
  Tracks (fun _ pieces text => text = pre ++ String.join pieces) e step

/-- A step fails as its first part does. -/
theorem bind_of_error {f : α → Emission γ} {r : Renderer} {error : RenderError}
    (h : (e r).result = .error error) : (e >>= f) r = ⟨(e r).notices, .error error, (e r).renderer⟩ := by
  show Emission.bind e f r = _
  simp only [Emission.bind, h]

theorem bind_of_ok {f : α → Emission γ} {r : Renderer} {a : α} (h : (e r).result = .ok a) :
    (e >>= f) r = ⟨(e r).notices ++ (f a (e r).renderer).notices, (f a (e r).renderer).result,
      (f a (e r).renderer).renderer⟩ := by
  show Emission.bind e f r = _
  simp only [Emission.bind, h]

/-- Steps that go along with one another do so one after the other, the pieces of the first in front
of those of the second. -/
theorem Tracks.bind {R : α → List String → β → Prop} {T : γ → List String → δ → Prop}
    {f : α → Emission γ} {next : β → Rendering δ} (he : Tracks R e step)
    (hf : ∀ a pieces b, R a pieces b →
      Tracks (fun c others d => T c (pieces ++ others) d) (f a) (next b)) :
    Tracks T (e >>= f) (step >>= next) := by
  intro r
  obtain ⟨pieces, p, result, hrun, hends⟩ := he r
  have hseq : (step >>= next) r.progress = step r.progress >>= fun done => next done.1 done.2 := rfl
  rw [hseq]
  generalize step r.progress = done at hrun hends
  obtain ⟨notices, stepResult⟩ := done
  cases hends with
  | error error =>
    rw [Noted.bind_of_error rfl, bind_of_error (by rw [hrun]), hrun]
    exact ⟨pieces, p, _, rfl, .error error⟩
  | @ok a b h =>
    obtain ⟨others, p', result', hnext, hends'⟩ := hf a pieces b h ⟨r.output ++ pieces, p⟩
    rw [Noted.bind_of_ok rfl, bind_of_ok (by rw [hrun]), hrun, hnext]
    -- The pieces of both steps count from the output before the first.
    exact ⟨pieces ++ others, p', result', by rw [List.append_assoc], hends'.imp fun _ _ h' => h'⟩

theorem performs_pure (a : α) : Performs (pure a) (pure a) :=
  fun r => ⟨[], r.progress, .ok a, by rw [List.append_nil]; rfl, .ok ⟨rfl, rfl⟩⟩

theorem performs_fail (error : RenderError) :
    Performs (fail error : Emission α) fun _ => .fail error :=
  fun r => ⟨[], r.progress, .error error, by rw [List.append_nil]; rfl, .error error⟩

theorem perform_of_error {step : Rendering α} {r : Renderer} {error : RenderError}
    (h : (step r.progress).result = .error error) :
    perform step r = ⟨(step r.progress).notices, .error error, r⟩ := by
  simp only [perform, h]

theorem perform_of_ok {step : Rendering α} {r : Renderer} {done : α × Progress}
    (h : (step r.progress).result = .ok done) :
    perform step r = ⟨(step r.progress).notices, .ok done.1, ⟨r.output, done.2⟩⟩ := by
  simp only [perform, h]

theorem performs_perform (step : Rendering α) : Performs (perform step) step := by
  intro r
  cases h : (step r.progress).result with
  | error error =>
    rw [perform_of_error h]
    exact ⟨[], r.progress, .error error, by rw [List.append_nil], .error error⟩
  | ok done =>
    rw [perform_of_ok h]
    exact ⟨[], done.2, .ok done.1, by rw [List.append_nil], .ok ⟨rfl, rfl⟩⟩

theorem Performs.bind {e : Emission α} {step : Rendering α} {f : α → Emission γ}
    {next : α → Rendering γ} (he : Performs e step) (hf : ∀ a, Performs (f a) (next a)) :
    Performs (e >>= f) (step >>= next) :=
  Tracks.bind he fun a _ _ ⟨hpieces, hresult⟩ => by
    subst hpieces hresult
    exact hf a

/-- A step that returns something comes before one that writes. -/
theorem Performs.bind_emits {e : Emission α} {step : Rendering α} {f : α → Emission Unit}
    {next : α → Rendering String} (he : Performs e step) (hf : ∀ a, Emits pre (f a) (next a)) :
    Emits pre (e >>= f) (step >>= next) :=
  Tracks.bind he fun a _ _ ⟨hpieces, hresult⟩ => by
    subst hpieces hresult
    exact hf a

/-- Two steps that write, one after the other. -/
theorem Emits.bind {e : Emission Unit} {step : Rendering String} {f : Unit → Emission Unit}
    {next : String → Rendering String} (he : Emits "" e step)
    (hf : ∀ text, Emits (pre ++ text) (f ()) (next text)) : Emits pre (e >>= f) (step >>= next) :=
  Tracks.bind he fun _ pieces text htext => by
    have h := hf text
    simp only [Emits, htext, String.empty_append, String.append_assoc] at h
    simpa only [htext, String.empty_append, String.join_append] using h

/-- A text that is written is behind what was there. -/
theorem Emits.write {text : String} {f : Unit → Emission Unit} {step : Rendering String}
    (h : Emits (pre ++ text) (f ()) step) : Emits pre (Emission.write text >>= f) step := by
  intro r
  obtain ⟨pieces, p, result, hrun, hends⟩ := h ⟨r.output ++ [text], r.progress⟩
  refine ⟨text :: pieces, p, result, ?_, ?_⟩
  · have hwrite : (Emission.write text >>= f) r = f () ⟨r.output ++ [text], r.progress⟩ := rfl
    rw [hwrite, hrun, List.append_assoc, List.singleton_append]
  · exact hends.imp fun _ _ hwhole => by rw [hwhole, String.join_cons, String.append_assoc]

/-- Nothing more is written. -/
theorem Emits.pure {text : String} (h : text = pre) :
    Emits pre (Pure.pure ()) (Pure.pure text) :=
  fun r => ⟨[], r.progress, .ok (), by rw [List.append_nil]; rfl, .ok (by simp [h])⟩

protected theorem bind_pure (e : Emission α) : e >>= Pure.pure = e := by
  funext r
  cases h : (e r).result with
  | error error => rw [bind_of_error h, ← h]
  | ok a =>
    rw [bind_of_ok h]
    show ⟨(e r).notices ++ [], .ok a, (e r).renderer⟩ = e r
    rw [List.append_nil, ← h]

/-- A text is written at last. -/
theorem Emits.last {text whole : String} (h : whole = pre ++ text) :
    Emits pre (Emission.write text) (Pure.pure whole) :=
  Emits.write (f := Pure.pure) (Emits.pure h)

/-- A text is all that is written. -/
theorem Emits.whole (text : String) : Emits "" (Emission.write text) (Pure.pure text) :=
  .last String.empty_append.symm

/-- A step that writes, at last. -/
theorem Emits.tail {e : Emission Unit} {step : Rendering String} {f : String → String}
    (he : Emits "" e step) (hf : ∀ text, f text = pre ++ text) :
    Emits pre e (step >>= fun text => Pure.pure (f text)) := by
  have h := Emits.bind (f := Pure.pure) he fun text => Emits.pure (hf text)
  rwa [Emission.bind_pure] at h

/-- What is told behind a step that writes. -/
theorem Emits.told_bind {e : Emission Unit} {step : Rendering String} {f : Unit → Emission γ}
    {next : String × Progress → Noted RenderError γ} {r : Renderer} (he : Emits "" e step)
    (hf : ∀ pieces p, (f () ⟨r.output ++ pieces, p⟩).told = next (String.join pieces, p)) :
    ((e >>= f) r).told = step r.progress >>= next := by
  obtain ⟨pieces, p, result, hrun, hends⟩ := he r
  generalize step r.progress = done at hrun hends
  obtain ⟨notices, stepResult⟩ := done
  cases hends with
  | error error =>
    rw [Noted.bind_of_error rfl, bind_of_error (by rw [hrun]), hrun]
    rfl
  | ok htext =>
    rw [Noted.bind_of_ok rfl, bind_of_ok (by rw [hrun]), hrun, htext, String.empty_append, ← hf]
    rfl

/-- What is captured is what is written. The pieces of the step go with the output that it was given,
and nothing is added to the one around it. -/
theorem Emits.capture {e : Emission Unit} {step : Rendering String} (he : Emits "" e step) :
    Performs (capture e) step := by
  intro r
  obtain ⟨pieces, p, result, hrun, hends⟩ := he ⟨[], r.progress⟩
  refine ⟨[], p, result.map fun _ => String.join pieces, ?_, ?_⟩
  · simp only [Emission.capture, hrun, Renderer.text, List.nil_append, List.append_nil]
  · generalize (step r.progress).result = stepResult at hends
    cases hends with
    | error error => exact .error error
    | ok htext => exact .ok ⟨rfl, by rw [htext, String.empty_append]⟩

end Emission

open Emission

/-! ### All nodes -/

/-- A text is written, unless it is empty. -/
theorem emits_write (text : String) :
    Emits "" (if text = "" then pure () else write text) (pure text) := by
  split
  · exact .pure ‹_›
  · exact .whole text

theorem visitLeaf_emits (o : Options) (l : Leaf) : Emits "" (visitLeaf o l) (renderLeaf o l) := by
  cases l with
  | chartBlock lines =>
    have h := (performs_perform (chartBlock o (String.join lines))).bind_emits emits_write
    rwa [bind_pure] at h
  | htmlBlock html =>
    show Emits "" (if html = "" then pure () else write _) (pure (if html = "" then "" else _))
    split
    · exact .pure rfl
    · exact .whole _
  | _ => exact (performs_perform _).bind_emits fun _ => .whole _

variable (o : Options)

mutual
/-- A node is added to the output as it is written. -/
theorem visit_emits (n : Node) : Emits "" (visit o n) (render o n) := by
  match n with
  | .leaf l i => exact visitLeaf_emits o l
  | .branch b cs i =>
    have hall := visitAll_emits cs
    -- A block writes its tags around what its children write in place; the other nodes write once,
    -- around what their children have written elsewhere.
    have hbetween : ∀ {opening closing : String} {e : Emission Unit} {step : Rendering String},
        Emits "" e step → Emits "" (do write opening; e; write closing)
          (do return opening ++ (← step) ++ closing) := fun h =>
      .write (h.bind fun inner => .last (by rw [String.empty_append]))
    cases b with
    | document => exact hall
    | heading level =>
      exact (performs_perform _).bind_emits fun anchor => hall.capture.bind_emits fun inner => .whole _
    | blockQuote => exact hbetween hall
    | list ordered start tight =>
      refine .write (hall.bind fun inner => .last ?_)
      simp only [String.append_assoc, String.empty_append]
    | listItem task =>
      cases task with
      | none => exact hbetween hall
      | some status =>
        by_cases hstatus : status = ""
        · simp only [visit, render, hstatus, if_true]
          exact hbetween hall
        · simp only [visit, render, hstatus, if_false]
          refine .write <| (performs_perform _).bind_emits fun box =>
            (visitTask_emits box cs).bind fun inner => .last ?_
          rw [String.empty_append]
    | table headed alignments => exact hbetween (visitTable_emits headed alignments cs)
    | tableRow header => exact .pure rfl
    | tableCell align => exact .pure rfl
    | _ => exact hall.capture.bind_emits fun inner => .whole _

/-- Some nodes are added one after the other. -/
theorem visitAll_emits (ns : List Node) : Emits "" (visitAll o ns) (renderAll o ns) := by
  match ns with
  | [] => exact .pure rfl
  | n :: rest =>
    exact (visit_emits n).bind fun first => (visitAll_emits rest).tail fun others => by
      rw [String.empty_append]

theorem visitTask_emits (box : String) (ns : List Node) :
    Emits "" (visitTask o box ns) (renderTask o box ns) := by
  match ns with
  | [] => exact .whole box
  | block :: rest =>
    have hrest := visitAll_emits rest
    have hother : (∀ cs i, block ≠ .branch .paragraph cs i) →
        Emits "" (visitTask o box (block :: rest)) (renderTask o box (block :: rest)) := by
      intro hkind
      rw [visitTask, renderTask_cons hkind]
      · exact .write <| (visit_emits block).bind fun first => hrest.tail fun others => by
          rw [String.empty_append]
      · exact hkind
    match block with
    | .leaf l i => exact hother fun cs i heq => by cases heq
    | .branch b cs i =>
      cases b with
      | paragraph =>
        exact (visitAll_emits cs).capture.bind_emits fun inner => .write <| hrest.tail fun others => by
          rw [String.empty_append]
      | _ => exact hother fun cs i heq => by cases heq

theorem visitTable_emits (headed : Bool) (alignments : List (Option String)) (ns : List Node) :
    Emits "" (visitTable o headed alignments ns) (renderTable o headed alignments ns) := by
  match ns with
  | [] => exact .pure rfl
  | row :: rows =>
    have hrows := rowsText_performs alignments rows
    cases headed with
    | false =>
      exact (rowText_performs "td" alignments row).bind_emits fun first =>
        hrows.bind_emits fun others => .whole _
    | true =>
      refine (rowText_performs "th" alignments row).bind_emits fun head => .write ?_
      refine hrows.bind_emits fun body => ?_
      split
      · exact .pure (by simp)
      · exact .last (by simp)

theorem rowsText_performs (alignments : List (Option String)) (ns : List Node) :
    Performs (rowsText o alignments ns) (renderRows o alignments ns) := by
  match ns with
  | [] => exact performs_pure ""
  | row :: rows =>
    exact (rowText_performs "td" alignments row).bind fun first =>
      (rowsText_performs alignments rows).bind fun others => performs_pure _

theorem rowText_performs (tag : String) (alignments : List (Option String)) (n : Node) :
    Performs (rowText o tag alignments n) (renderRow o tag alignments n) := by
  match n with
  | .leaf l i => exact performs_fail _
  | .branch b cells i =>
    cases b with
    | tableRow header => exact (cellsText_performs tag alignments cells).bind fun inner => performs_pure _
    | _ => exact performs_fail _

theorem cellsText_performs (tag : String) (alignments : List (Option String)) (ns : List Node) :
    Performs (cellsText o tag alignments ns) (renderCells o tag alignments ns) := by
  match ns with
  | [] => exact performs_pure ""
  | cell :: cells =>
    exact (cellText_performs tag (cellStyle alignments) cell).bind fun first =>
      (cellsText_performs tag alignments.tail cells).bind fun others => performs_pure _

theorem cellText_performs (tag style : String) (n : Node) :
    Performs (cellText o tag style n) (renderCell o tag style n) := by
  have hempty : ∀ s : String, Performs
      (if s = "" then (pure ("<" ++ tag ++ style ++ "></" ++ tag ++ ">") : Emission String) else fail .cellText)
      (if s = "" then (pure ("<" ++ tag ++ style ++ "></" ++ tag ++ ">") : Rendering String)
        else fun _ => .fail .cellText) := by
    intro s
    split
    · exact performs_pure _
    · exact performs_fail _
  match n with
  | .leaf l i =>
    cases l with
    | codeBlock | htmlBlock | text | code | htmlInline => exact hempty _
    | _ => exact performs_fail _
  | .branch b cs i =>
    have hcapture := (visitAll_emits cs).capture
    cases b with
    | heading | paragraph | tableCell | emphasis | strong | link | strikethrough =>
      exact hcapture.bind fun inner => performs_pure _
    | _ => exact performs_fail _
end

/-- What was written before stays, also when a node cannot be written. -/
theorem output_prefix_visit (n : Node) (r : Renderer) :
    r.output <+: (visit o n r).renderer.output := by
  obtain ⟨pieces, p, result, hrun, -⟩ := visit_emits o n r
  rw [hrun]
  exact List.prefix_append _ _

/-! ### Calls -/

/-- What is written behind the output of a renderer is all that changes. -/
theorem told_accumulate (blocks : List Node) (r : Renderer) :
    (accumulate o blocks r).told =
      (fun done => r.text ++ done.1) <$> renderAll o blocks r.progress := by
  rw [map_eq_pure_bind]
  refine (visitAll_emits o blocks).told_bind fun pieces p => ?_
  show (⟨[], .ok (String.join (r.output ++ pieces))⟩ : Noted RenderError String) = _
  rw [String.join_append]
  rfl

theorem told_accumulate_new (blocks : List Node) :
    (accumulate o blocks {}).told = Prod.fst <$> renderAll o blocks {} := by
  have hnew : ∀ text : String, ({} : Renderer).text ++ text = text := fun _ => String.empty_append
  simp only [told_accumulate, hnew]

theorem told_perform {α : Type} (step : Rendering α) (r : Renderer) :
    (perform step r).told = Prod.fst <$> step r.progress := by
  rw [Noted.map_eq]
  cases hresult : (step r.progress).result with
  | error error => rw [perform_of_error hresult]; rfl
  | ok done => rw [perform_of_ok hresult]; rfl

theorem told_finished (i : Info) (r : Renderer) :
    (finished o i r).told = finish o i (r.text, r.progress) := by
  have hfinished : finished o i r = (if o.standalone then
      perform fun p => do return (← page o i p (dropFinalFeeds r.text), p)
      else return dropFinalFeeds r.text : Emission String) r := rfl
  rw [hfinished, finish]
  split
  · rw [told_perform]
    simp only [map_bind, map_pure, bind_pure]
  · rfl

/-- A call tells what the document says, whatever the renderer did before. -/
theorem told_renderToString (doc : Node) (r : Renderer) :
    (renderToString o doc r).told = renderDocument o doc := by
  -- The call starts anew, so that nothing of the renderer is left.
  have hcall : renderToString o doc r = (visit o doc >>= fun _ => finished o doc.info) {} := rfl
  rw [hcall, renderDocument_eq]
  exact (visit_emits o doc).told_bind fun pieces p => told_finished o doc.info ⟨pieces, p⟩

end Chartdown.Html
