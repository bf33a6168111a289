import Chartdown.Convert
import Chartdown.Proofs.Transform.Order

/-!
# What stages bring in

A stage that is named brings in the transform of that name and all that it needs, as far as earlier
stages have not. The passes of a pipeline are told here together with the names that they were made
from (`Expands`), and a name has a pass when a listed name needs it.

A conversion to HTML binds the selection of chart blocks to the marker that is configured, but only
where that selection is listed. Where another listed transform needs it, it is made with the marker
it has by default.

## Key results

- `result_passes_eq_ok_iff`: the passes of some stages
- `Expands.some_mem_origins_iff`: which names passes are made from
- `result_toHtmlIn_eq_ok_iff`: what a conversion to HTML does
- `marksOnly_passes_iff`: when a conversion makes charts of no blocks but those of the marker
-/

namespace Chartdown

/-- A pass makes nothing of code blocks but of those whose language is a marker. -/
def Pass.MarksOnly (p : Pass) (marker : String) : Prop :=
  ∀ content language fenceChar fenceLength i, language ≠ some marker →
    p.run (.leaf (.codeBlock content language fenceChar fenceLength) i) =
      .ok (some (.leaf (.codeBlock content language fenceChar fenceLength) i))

theorem Pass.chartBlocks_marksOnly_iff {other marker : String} :
    (Pass.chartBlocks other).MarksOnly marker ↔ other = marker := by
  constructor
  · intro h
    by_contra hne
    have hrun := h "" (some other) "" 0 {} (by simpa using hne)
    simp [Pass.run, chartBlocks, selecting, Node.isMarked, Leaf.chartBlockOf] at hrun
  · rintro rfl content language fenceChar fenceLength i hlanguage
    cases language with
    | none => simp [Pass.run, chartBlocks, selecting, Node.isMarked]
    | some language =>
      have hne : language ≠ other := by simpa using hlanguage
      simp [Pass.run, chartBlocks, selecting, Node.isMarked, hne]

namespace Transform

/-- A pass of a pipeline, and the name of the transform it was made from unless it was given. -/
structure Made where
  origin : Option String
  pass : Pass

/-- A pass is made from a name, without arguments. -/
def Made.IsFrom (r : Registry) (name : String) (m : Made) : Prop :=
  m.origin = some name ∧ ∃ d, r.definition name = .ok d ∧ (d.create []).result = .ok m.pass

/-- What stages bring in, in the order of the stages. A name that was brought in before brings in
nothing, and another one all that it needs and was not brought in before. -/
inductive Expands (r : Registry) : List String → List Stage → List Made → Prop
  | nil {seen : List String} : Expands r seen [] []
  | given {seen : List String} {pass : Pass} {rest : List Stage} {made : List Made}
      (hrest : Expands r seen rest made) :
      Expands r seen (.given pass :: rest) (⟨none, pass⟩ :: made)
  | again {seen : List String} {name : String} {rest : List Stage} {made : List Made}
      (hseen : name ∈ seen) (hrest : Expands r seen rest made) :
      Expands r seen (.named name :: rest) made
  | named {seen order : List String} {name : String} {rest : List Stage} {front made : List Made}
      (hseen : name ∉ seen) (horder : r.resolve [name] = .ok order)
      (hfront : List.Forall₂ (Made.IsFrom r) (order.filter (!seen.contains ·)) front)
      (hrest : Expands r (seen ++ order.filter (!seen.contains ·)) rest made) :
      Expands r seen (.named name :: rest) (front ++ made)

/-! ### Passes -/

theorem mapError_eq_ok_iff {ε ε' α : Type} {x : Except ε α} {f : ε → ε'} {a : α} :
    x.mapError f = .ok a ↔ x = .ok a := by
  cases x <;> simp [Except.mapError]

theorem result_createAll_eq_ok_iff {r : Registry} {names : List String} {ps : List Pass} :
    (createAll r names).result = .ok ps ↔
      ∃ made, List.Forall₂ (Made.IsFrom r) names made ∧ made.map (·.pass) = ps := by
  induction names generalizing ps with
  | nil => simp [createAll, Pure.pure]
  | cons name rest ih =>
    simp only [createAll, Noted.result_bind_eq_ok_iff, ih, Noted.ofExcept, Noted.mapError,
      mapError_eq_ok_iff, List.forall₂_cons_left_iff]
    constructor
    · rintro ⟨d, hd, pass, hpass, _, ⟨made, hmade, rfl⟩, hps⟩
      exact ⟨_, ⟨⟨some name, pass⟩, made, ⟨rfl, d, hd, hpass⟩, hmade, rfl⟩, Except.ok.inj hps⟩
    · rintro ⟨_, ⟨m, made, ⟨-, d, hd, hpass⟩, hmade, rfl⟩, rfl⟩
      exact ⟨d, hd, m.pass, hpass, _, ⟨made, hmade, rfl⟩, rfl⟩

/-- A name that was not brought in before is put in order with all that it needs. What is new of
that is made, and then come the other stages. -/
theorem result_passes_named {r : Registry} {seen : List String} {name : String}
    (hseen : name ∉ seen) {rest : List Stage} {ps : List Pass} :
    (passes r seen (.named name :: rest)).2.result = .ok ps ↔
      ∃ order front back, r.ready.1.resolve [name] = .ok order ∧
        (createAll r.ready.1 (order.filter (!seen.contains ·))).result = .ok front ∧
        (passes r.ready.1 (seen ++ order.filter (!seen.contains ·)) rest).2.result = .ok back ∧
        front ++ back = ps := by
  rw [passes, if_neg (by simpa using hseen)]
  cases horder : r.ready.1.resolve [name] with
  | error e => simp [horder]
  | ok order =>
    simp only [horder, Except.ok.injEq, exists_and_left, exists_eq_left']
    generalize order.filter (!seen.contains ·) = fresh
    rcases createAll r.ready.1 fresh with ⟨notices, e | front⟩
    · simp
    · cases (passes r.ready.1 (seen ++ fresh) rest).2.result <;> simp [Except.map]

/-- The passes of some stages are what the stages bring in. -/
theorem result_passes_eq_ok_iff {r : Registry} {seen : List String} {stages : List Stage}
    {ps : List Pass} :
    (passes r seen stages).2.result = .ok ps ↔
      ∃ made, Expands r.ready.1 seen stages made ∧ made.map (·.pass) = ps := by
  -- Each kind of stage has one way to go on and one rule of expansion.
  induction stages generalizing r seen ps with
  | nil =>
    refine ⟨fun h => ⟨[], .nil, Except.ok.inj h⟩, ?_⟩
    rintro ⟨_, hmade, rfl⟩
    cases hmade
    rfl
  | cons stage rest ih =>
    cases stage with
    | other v =>
      refine ⟨fun h => (nomatch h), ?_⟩
      rintro ⟨_, hmade, -⟩
      cases hmade
    | given pass =>
      rw [passes, Noted.result_map_eq_ok_iff]
      simp only [ih]
      constructor
      · rintro ⟨_, ⟨made, hmade, rfl⟩, rfl⟩
        exact ⟨_, .given hmade, rfl⟩
      · rintro ⟨_, hmade, rfl⟩
        cases hmade with
        | given hrest => exact ⟨_, ⟨_, hrest, rfl⟩, rfl⟩
    | named name =>
      by_cases hseen : name ∈ seen
      · rw [passes, if_pos (List.contains_iff_mem.mpr hseen), ih]
        constructor
        · rintro ⟨made, hmade, rfl⟩
          exact ⟨made, .again hseen hmade, rfl⟩
        · rintro ⟨_, hmade, rfl⟩
          cases hmade with
          | again _ hrest => exact ⟨_, hrest, rfl⟩
          | named hnew => exact absurd hseen hnew
      · rw [result_passes_named hseen]
        simp only [ih, result_createAll_eq_ok_iff, Registry.ready_ready]
        constructor
        · rintro ⟨order, _, _, horder, ⟨front, hfront, rfl⟩, ⟨back, hback, rfl⟩, rfl⟩
          exact ⟨_, .named hseen horder hfront hback, List.map_append⟩
        · rintro ⟨_, hmade, rfl⟩
          cases hmade with
          | again hmem => exact absurd hmem hseen
          | named _ horder hfront hback =>
            exact ⟨_, _, _, horder, ⟨_, hfront, rfl⟩, ⟨_, hback, rfl⟩, List.map_append.symm⟩

/-! ### Names -/

namespace Made
variable {r : Registry} {names : List String} {made : List Made}

theorem exists_isFrom_of_mem (h : List.Forall₂ (IsFrom r) names made) {m : Made} (hm : m ∈ made) :
    ∃ name ∈ names, m.IsFrom r name := by
  induction h with
  | nil => exact nomatch hm
  | cons hfrom _ ih =>
    rcases List.mem_cons.mp hm with rfl | hm
    · exact ⟨_, List.mem_cons_self, hfrom⟩
    · obtain ⟨name, hname, hm⟩ := ih hm
      exact ⟨name, List.mem_cons_of_mem _ hname, hm⟩

/-- One pass is made from each name. -/
theorem map_origin (h : List.Forall₂ (IsFrom r) names made) :
    made.map (·.origin) = names.map some := by
  induction h with
  | nil => rfl
  | cons hfrom _ ih => rw [List.map_cons, List.map_cons, hfrom.1, ih]

end Made

theorem Needed.trans {jobs : List Job} {requested : List String} {name other : String}
    (hname : Needed jobs requested name) (hother : Needed jobs [name] other) :
    Needed jobs requested other := by
  induction hother with
  | request hmem => exact List.mem_singleton.mp hmem ▸ hname
  | dependency _ hdepends ih => exact ih.dependency hdepends

/-- What is resolved for a name is what it needs. -/
theorem mem_of_resolve {r : Registry} {requested order : List String}
    (h : r.resolve requested = .ok order) (name : String) :
    name ∈ order ↔ Needed r.jobs requested name := by
  have hanswers : Answers r.jobs requested (r.resolve requested) := answers_runOrder _ _
  rw [h] at hanswers
  cases hanswers with
  | ordered _ _ _ hmem _ => exact hmem name

/-- Some names come with all that they need. -/
def IsClosed (r : Registry) (names : List String) : Prop :=
  ∀ name ∈ names, ∀ other, Needed r.jobs [name] other → other ∈ names

theorem IsClosed.append_fresh {r : Registry} {seen order : List String} (h : IsClosed r seen)
    {name : String} (horder : r.resolve [name] = .ok order) :
    IsClosed r (seen ++ order.filter (!seen.contains ·)) := by
  intro found hfound other hother
  have hmem : other ∈ seen ∨ other ∈ order := by
    rcases List.mem_append.mp hfound with hseen | hfresh
    · exact .inl (h found hseen other hother)
    · have hneeded := (mem_of_resolve horder found).mp (List.mem_of_mem_filter hfresh)
      exact .inr ((mem_of_resolve horder other).mpr (hneeded.trans hother))
  by_cases hseen : other ∈ seen
  · exact List.mem_append_left _ hseen
  · exact List.mem_append_right _
      (List.mem_filter.mpr ⟨hmem.resolve_left hseen, by simpa using hseen⟩)

namespace Expands
variable {r : Registry} {seen : List String} {stages : List Stage} {made : List Made}

/-- Passes are made from the names that listed names need and that were not brought in before. -/
theorem some_mem_origins_iff (h : Expands r seen stages made) (hclosed : IsClosed r seen)
    (name : String) :
    some name ∈ made.map (·.origin) ↔
      name ∉ seen ∧ ∃ listed, .named listed ∈ stages ∧ Needed r.jobs [listed] name := by
  induction h with
  | nil => simp
  | given _ ih => simpa using ih hclosed
  | again hseen _ ih =>
    rw [ih hclosed]
    refine and_congr_right fun hname => ?_
    constructor
    · rintro ⟨listed, hlisted, hneeded⟩
      exact ⟨listed, List.mem_cons_of_mem _ hlisted, hneeded⟩
    · rintro ⟨listed, hlisted, hneeded⟩
      rcases List.mem_cons.mp hlisted with heq | hlisted
      · obtain rfl := Stage.named.inj heq
        exact absurd (hclosed listed hseen name hneeded) hname
      · exact ⟨listed, hlisted, hneeded⟩
  | @named seen order first rest front made hseen horder hfront _ ih =>
    have hfresh : name ∈ order.filter (!seen.contains ·) ↔
        Needed r.jobs [first] name ∧ name ∉ seen := by
      rw [List.mem_filter, mem_of_resolve horder]
      simp
    rw [List.map_append, List.mem_append, ih (hclosed.append_fresh horder), Made.map_origin hfront,
      List.mem_append, List.mem_map_of_injective (Option.some_injective _), hfresh]
    -- The name is new with this stage, or it is new with one of the others.
    by_cases hneeded : Needed r.jobs [first] name <;> simp [hneeded]

/-- Every pass was given, or it was made from a name. -/
theorem isFrom_of_mem (h : Expands r seen stages made) {m : Made} (hm : m ∈ made) :
    (m.origin = none ∧ .given m.pass ∈ stages) ∨ ∃ name, m.IsFrom r name := by
  induction h with
  | nil => exact nomatch hm
  | given _ ih =>
    rcases List.mem_cons.mp hm with rfl | hm
    · exact .inl ⟨rfl, List.mem_cons_self⟩
    · exact (ih hm).imp_left fun h => ⟨h.1, List.mem_cons_of_mem _ h.2⟩
  | again _ _ ih => exact (ih hm).imp_left fun h => ⟨h.1, List.mem_cons_of_mem _ h.2⟩
  | named _ _ hfront _ ih =>
    rcases List.mem_append.mp hm with hm | hm
    · obtain ⟨name, -, hname⟩ := Made.exists_isFrom_of_mem hfront hm
      exact .inr ⟨name, hname⟩
    · exact (ih hm).imp_left fun h => ⟨h.1, List.mem_cons_of_mem _ h.2⟩

end Expands

/-! ### Bound stages -/

/-- The stages of a conversion to HTML by listed names. -/
def boundNames (marker : String) (names : List String) : List Stage :=
  boundStages marker (some (names.map .named))

theorem given_mem_boundNames {marker : String} {names : List String} {pass : Pass}
    (h : .given pass ∈ boundNames marker names) : pass = .chartBlocks marker := by
  simp only [boundNames, boundStages, Option.getD_some, List.map_map, List.mem_map,
    Function.comp] at h
  obtain ⟨name, -, hname⟩ := h
  rw [Stage.withMarker] at hname
  split at hname
  · exact (Stage.given.inj hname).symm
  · exact nomatch hname

theorem named_mem_boundNames_iff {marker : String} {names : List String} {name : String} :
    .named name ∈ boundNames marker names ↔ name ∈ names ∧ name ≠ chartBlocks.name := by
  simp only [boundNames, boundStages, Option.getD_some, List.map_map, List.mem_map, Function.comp]
  constructor
  · rintro ⟨listed, hlisted, hname⟩
    rw [Stage.withMarker] at hname
    split at hname
    · exact nomatch hname
    · rename_i hne
      obtain rfl := Stage.named.inj hname
      exact ⟨hlisted, hne⟩
  · rintro ⟨hname, hne⟩
    exact ⟨name, hname, by rw [Stage.withMarker, if_neg hne]⟩

/-- A conversion to HTML reads the source, runs the passes of the bound stages one after the other
and writes what they leave. -/
theorem result_toHtmlIn_eq_ok_iff {r : Registry} {parsing : Markdown.Options}
    {writing : Html.Options} {stages : Option (List Stage)} {source : Source} {html : String} :
    (toHtmlIn r parsing writing stages source).result = .ok html ↔
      ∃ doc ps doc', (readDocument parsing source).result = .ok doc ∧
        (passes r [] (boundStages writing.chart.marker stages)).2.result = .ok ps ∧
        applyAll ps doc = .ok doc' ∧ (Html.renderDocument writing doc').result = .ok html := by
  simp only [toHtmlIn, render, apply, Noted.result_bind_eq_ok_iff, Noted.mapError,
    mapError_eq_ok_iff, Noted.ofExcept]
  constructor
  · rintro ⟨doc, hdoc, doc', ⟨ps, hps, hrun⟩, hhtml⟩
    exact ⟨doc, ps, doc', hdoc, hps, hrun, hhtml⟩
  · rintro ⟨doc, ps, doc', hdoc, hps, hrun, hhtml⟩
    exact ⟨doc, hdoc, doc', ⟨ps, hps, hrun⟩, hhtml⟩

/-- Without arguments the selection of chart blocks has its own marker. -/
theorem create_chartBlocks : (chartBlocks.create []).result = .ok (.chartBlocks "vis") := rfl

/-- A pass of the built-in: one that stands in the place of its name, or one made from the name. -/
def Made.IsBuiltin (m : Made) : Prop := m.origin = none ∨ m.origin = some chartBlocks.name

/-- A pass of the built-in is bound to the marker, unless it is made from the name and has the
marker it has by default. -/
theorem Expands.pass_of_isBuiltin {r : Registry} {marker : String} {names : List String}
    {made : List Made} (hbuiltin : r.find? chartBlocks.name = some builtin)
    (h : Expands r [] (boundNames marker names) made) {m : Made} (hm : m ∈ made) :
    (m.origin = none → m.pass = .chartBlocks marker) ∧
      (m.origin = some chartBlocks.name → m.pass = .chartBlocks "vis") := by
  rcases h.isFrom_of_mem hm with ⟨hnone, hgiven⟩ | ⟨name, hname, d, hd, hpass⟩
  · exact ⟨fun _ => given_mem_boundNames hgiven, fun hsome => by simp [hnone] at hsome⟩
  · refine ⟨fun hnone => by simp [hnone] at hname, fun hsome => ?_⟩
    obtain rfl : name = chartBlocks.name := by simpa [hsome, eq_comm] using hname
    obtain rfl : chartBlocks = d := by simpa [Registry.definition, hbuiltin, builtin] using hd
    exact Except.ok.inj (hpass.symm.trans create_chartBlocks)

/-- Listed names bring in the built-in by its name when another name than that needs it. -/
theorem Expands.some_chartBlocks_mem_iff {r : Registry} {marker : String} {names : List String}
    {made : List Made} (h : Expands r [] (boundNames marker names) made) :
    some chartBlocks.name ∈ made.map (·.origin) ↔
      ∃ name ∈ names, name ≠ chartBlocks.name ∧ Needed r.jobs [name] chartBlocks.name := by
  rw [h.some_mem_origins_iff (fun _ hname => nomatch hname)]
  simp only [named_mem_boundNames_iff, List.not_mem_nil, not_false_eq_true, true_and, and_assoc]

/-- Where the built-in stands under its name, a conversion by listed names makes charts by it of no
blocks but those of the marker, if and only if the marker is the one it has by default or no other
listed name needs it. -/
theorem marksOnly_passes_iff (r : Registry) (marker : String) (names : List String) {ps : List Pass}
    (hbuiltin : r.ready.1.find? chartBlocks.name = some builtin)
    (h : (passes r [] (boundNames marker names)).2.result = .ok ps) :
    ∃ made, Expands r.ready.1 [] (boundNames marker names) made ∧ made.map (·.pass) = ps ∧
      ((∀ m ∈ made, m.IsBuiltin → m.pass.MarksOnly marker) ↔
        marker = "vis" ∨ ∀ name ∈ names, name ≠ chartBlocks.name →
          ¬ Needed r.ready.1.jobs [name] chartBlocks.name) := by
  obtain ⟨made, hmade, hps⟩ := result_passes_eq_ok_iff.mp h
  refine ⟨made, hmade, hps, fun hmarks => ?_, fun hmarker m hm horigin => ?_⟩
  · by_contra hnot
    rw [not_or] at hnot
    -- Some other name brings the built-in in, and what is made of it has another marker.
    obtain ⟨m, hm, horigin⟩ := List.mem_map.mp (hmade.some_chartBlocks_mem_iff.mpr (by
      simpa using hnot.2))
    have hpass := (hmade.pass_of_isBuiltin hbuiltin hm).2 horigin
    have honly := hmarks m hm (.inr horigin)
    rw [hpass, Pass.chartBlocks_marksOnly_iff] at honly
    exact hnot.1 honly.symm
  · obtain ⟨hgiven, hmadeFrom⟩ := hmade.pass_of_isBuiltin hbuiltin hm
    rcases horigin with hnone | hsome
    · rw [hgiven hnone, Pass.chartBlocks_marksOnly_iff]
    · rw [hmadeFrom hsome, Pass.chartBlocks_marksOnly_iff]
      rcases hmarker with hvis | hnone
      · exact hvis.symm
      · obtain ⟨name, hname, hne, hneeded⟩ :=
          hmade.some_chartBlocks_mem_iff.mp (List.mem_map.mpr ⟨m, hm, hsome⟩)
        exact absurd hneeded (hnone name hname hne)

/-- A name that is listed twice is bound twice. -/
theorem marksOnly_passes_iff_twice :
    (({} : Registry).ready.1.find? chartBlocks.name = some builtin) ∧
      (passes {} [] (boundNames "chart" ["chart-blocks", "chart-blocks"])).2.result =
        .ok [.chartBlocks "chart", .chartBlocks "chart"] ∧
      ∃ made, Expands ({} : Registry).ready.1 []
          (boundNames "chart" ["chart-blocks", "chart-blocks"]) made ∧
        made.map (·.pass) = [.chartBlocks "chart", .chartBlocks "chart"] ∧
        ∀ m ∈ made, m.IsBuiltin → m.pass.MarksOnly "chart" := by
  have hbuiltin : ({} : Registry).ready.1.find? chartBlocks.name = some builtin := rfl
  have hpasses : (passes {} []
      (boundNames "chart" ["chart-blocks", "chart-blocks"])).2.result =
      .ok [.chartBlocks "chart", .chartBlocks "chart"] := rfl
  obtain ⟨made, hmade, hps, hmarks⟩ := marksOnly_passes_iff {} "chart" _ hbuiltin hpasses
  have honly : ∀ name ∈ ["chart-blocks", "chart-blocks"], name = chartBlocks.name := by decide
  exact ⟨hbuiltin, hpasses, made, hmade, hps,
    hmarks.mpr (.inr fun name hname hne => absurd (honly name hname) hne)⟩

/-- A transform that needs the built-in. -/
def outline : Entry where
  serial := 1
  definition :=
    { name := "outline", maker := ⟨"Identity", fun _ => .ok .identity⟩
      dependencies := ["chart-blocks"], name_ne := by decide }

/-- A registry with the built-in and a transform that needs it. -/
def outlineRegistry : Registry where
  entries := [builtin, outline]
  discovered := true

theorem resolve_outline :
    outlineRegistry.resolve ["outline"] = .ok ["chart-blocks", "outline"] := by
  have hreach : reach outlineRegistry.jobs [] ["outline"] =
      .ok [⟨"outline", 100, ["chart-blocks"]⟩, ⟨"chart-blocks", 50, []⟩] := by
    have houtline : job? outlineRegistry.jobs "outline" =
        some ⟨"outline", 100, ["chart-blocks"]⟩ := by decide +kernel
    have hcharts : job? outlineRegistry.jobs "chart-blocks" = some ⟨"chart-blocks", 50, []⟩ := by
      decide +kernel
    rw [reach_cons (by decide) houtline]
    exact (reach_cons (by decide) hcharts).trans (by simp [reach])
  have hcircle : circle? [⟨"outline", 100, ["chart-blocks"]⟩, ⟨"chart-blocks", 50, []⟩] = none := by
    simp [circle?, mentioned, dependents, findCircle]
  rw [Registry.resolve, runOrder, List.reverse_singleton, hreach]
  simp only [hcircle]
  simp [run, Progress.start, Progress.isActive, leastJob?, Progress.handOut, Progress.finish,
    Job.before]

/-- Its passes are those of the built-in, with the marker it has by default, and its own. -/
theorem result_passes_outline :
    (passes outlineRegistry [] (boundNames "chart" ["outline"])).2.result =
      .ok [.chartBlocks "vis", .identity] := by
  have hmade : Expands outlineRegistry [] [.named "outline"]
      ([⟨some "chart-blocks", .chartBlocks "vis"⟩, ⟨some "outline", .identity⟩] ++ []) := by
    refine .named List.not_mem_nil resolve_outline ?_ .nil
    exact .cons ⟨rfl, chartBlocks, rfl, create_chartBlocks⟩
      (.cons ⟨rfl, outline.definition, rfl, rfl⟩ .nil)
  exact result_passes_eq_ok_iff.mpr ⟨_, hmade, rfl⟩

/-- A document with one code block, of the language `vis`. -/
def visDocument : Node := .branch .document [.leaf (.codeBlock "x\n" (some "vis") "" 0) {}] {}

/-- A code block of another language than the marker becomes a chart where the built-in is needed by
a listed name. -/
theorem apply_boundNames_outline :
    boundNames "chart" ["outline"] = [.named "outline"] ∧
      (apply outlineRegistry (boundNames "chart" ["outline"]) visDocument).2.result =
        .ok (.branch .document [.leaf (.chartBlock ["x\n"]) {}] {}) := by
  refine ⟨rfl, ?_⟩
  have hrun : applyAll [.chartBlocks "vis", .identity] visDocument =
      .ok (.branch .document [.leaf (.chartBlock ["x\n"]) {}] {}) := by
    rfl
  exact Noted.result_bind_eq_ok_iff.mpr ⟨_, result_passes_outline, hrun⟩

end Transform
end Chartdown
