import Mathlib.Data.Prod.Lex
import Chartdown.Proofs.Transform.Order

/-! # The next transform is the least one that can run

Transforms get ready in batches, and one at a time is taken from the queue. The queue and the batch
together hold all that can run, no more and no less, so each transform of an order is the least of
those that could have stood in its place. An order is told by that: two requests for the same names
are answered alike, however the requests and the lists of dependencies are written.

## Key results

- `Running.mem_iff`: the jobs in the queue and the ready ones are those that can run
- `run_isGreedy`: each job of a run is the least that can run
- `IsGreedy.eq`: there is one such order
- `Registry.resolve_greedy`: the order of a request, and what it depends on
-/

namespace Chartdown.Transform

/-! ## What can run -/

/-- Which of two names that can run is preferred: the one with the lower priority, of equal ones the
first by name. -/
def preference (jobs : List Job) (name : String) : Nat ×ₗ String :=
  toLex (((job? jobs name).map (·.priority)).getD 0, name)

/-- A needed name can run: it has not, and all that it asks for has. -/
structure CanRun (jobs : List Job) (requested placed : List String) (name : String) : Prop where
  needed : Needed jobs requested name
  not_mem : name ∉ placed
  prepared : ∀ other, DependsOn jobs name other → other ∈ placed

/-- A name is the least of those that can run. -/
def IsNext (jobs : List Job) (requested placed : List String) (name : String) : Prop :=
  CanRun jobs requested placed name ∧
    ∀ other, CanRun jobs requested placed other → preference jobs name ≤ preference jobs other

/-- Each name of an order is the least of those that can run behind the names before it. -/
def IsGreedy (jobs : List Job) (requested order : List String) : Prop :=
  ∀ front name back, order = front ++ name :: back → IsNext jobs requested front name

section Orders
variable {jobs : List Job} {requested order order' placed : List String} {name other : String}

theorem IsGreedy.nil : IsGreedy jobs requested [] := by
  intro front name back hsplit
  simp at hsplit

theorem IsGreedy.snoc (h : IsGreedy jobs requested order) (hname : IsNext jobs requested order name) :
    IsGreedy jobs requested (order ++ [name]) :=
  forall_split_snoc h hname

/-- At most one name is next. -/
theorem IsNext.eq (h : IsNext jobs requested placed name) (h' : IsNext jobs requested placed other) :
    name = other :=
  congrArg (fun p => (ofLex p).2) (le_antisymm (h.2 other h'.1) (h'.2 name h.1))

/-- An order of all that is needed is told by being greedy. -/
theorem IsGreedy.eq (h : IsGreedy jobs requested order) (h' : IsGreedy jobs requested order')
    (hmem : ∀ name, name ∈ order ↔ Needed jobs requested name)
    (hmem' : ∀ name, name ∈ order' ↔ Needed jobs requested name) : order = order' := by
  -- Behind a front that both share there is the same name in both, or nothing.
  have hrest : ∀ front rest rest', order = front ++ rest → order' = front ++ rest' → rest = rest' := by
    intro front rest
    induction rest generalizing front with
    | nil =>
      intro rest' heq heq'
      cases rest' with
      | nil => rfl
      | cons other rest' =>
        have hother := (h' front other rest' heq').1
        rw [List.append_nil] at heq
        exact absurd (heq ▸ (hmem other).mpr hother.needed) hother.not_mem
    | cons name rest ih =>
      intro rest' heq heq'
      have hname := h front name rest heq
      cases rest' with
      | nil =>
        rw [List.append_nil] at heq'
        exact absurd (heq' ▸ (hmem' name).mpr hname.1.needed) hname.1.not_mem
      | cons other rest' =>
        obtain rfl := hname.eq (h' front other rest' heq')
        rw [ih (front ++ [name]) rest' (by simpa using heq) (by simpa using heq')]
  exact hrest [] order order' rfl rfl

end Orders

/-! ## Runs -/

/-- How a job is preferred. -/
def Job.preference (job : Job) : Nat ×ₗ String := toLex (job.priority, job.name)

theorem Job.before_iff {a b : Job} : a.before b = true ↔ a.preference < b.preference := by
  simp [Job.before, Job.preference, Prod.Lex.toLex_lt_toLex]

/-- The least job is preferred to none less than to the others. -/
theorem leastJob?_le {jobs : List Job} {job : Job} (h : leastJob? jobs = some job) :
    ∀ other ∈ jobs, job.preference ≤ other.preference := by
  induction jobs generalizing job with
  | nil => exact fun other hother => nomatch hother
  | cons first rest ih =>
    rw [leastJob?] at h
    rw [List.forall_mem_cons]
    cases hrest : leastJob? rest with
    | none =>
      obtain rfl := leastJob?_eq_none_iff.mp hrest
      simp only [leastJob?, Option.some.injEq] at h
      exact ⟨h ▸ le_rfl, List.forall_mem_nil _⟩
    | some least =>
      simp only [hrest, Option.some.injEq] at h
      split at h
      case isTrue hbefore =>
        subst h
        exact ⟨(Job.before_iff.mp hbefore).le, ih hrest⟩
      case isFalse hbefore =>
        subst h
        have hle : first.preference ≤ least.preference := not_lt.mp (mt Job.before_iff.mpr hbefore)
        exact ⟨le_rfl, fun other hother => hle.trans (ih hrest other hother)⟩

section Runs
variable {jobs found queue placed : List Job} {requested : List String} {p : Progress}

/-- The jobs in the queue and the ready ones are those that can run. -/
theorem Running.mem_iff (hfound : (found.map (·.name)).Nodup) (h : Running found p queue placed)
    {job : Job} :
    job ∈ queue ++ p.ready ↔ job ∈ found ∧ job.name ∉ placed.map (·.name) ∧
      ∀ name ∈ job.dependencies, name ∈ placed.map (·.name) := by
  constructor
  · intro hjob
    refine ⟨h.parts.mem_iff.mp ?_, h.name_not_mem hfound hjob, h.free job hjob⟩
    rw [← List.append_assoc queue]
    exact List.mem_append_right _ (List.mem_append_left _ hjob)
  · rintro ⟨hjob, hnew, hprepared⟩
    have hparts := h.parts.mem_iff.mpr hjob
    rw [← List.append_assoc queue, List.mem_append, List.mem_append] at hparts
    rcases hparts with hplaced | hfree | hblocked
    · exact absurd (List.mem_map_of_mem hplaced) hnew
    · exact hfree
    · -- A blocked job waits for a name that has not run.
      obtain ⟨b, hb, rfl⟩ := List.mem_map.mp hblocked
      obtain ⟨hcount, hpositive⟩ := h.counts b hb
      refine absurd (hcount.trans (List.countP_eq_zero.mpr fun name hname => ?_)) hpositive
      simpa using hprepared name hname

/-- The names of these jobs are the needed ones that can run. -/
theorem Running.canRun_iff (hsearch : Search jobs requested found [])
    (h : Running found p queue placed) {name : String} :
    CanRun jobs requested (placed.map (·.name)) name ↔ ∃ job ∈ queue ++ p.ready, job.name = name := by
  constructor
  · intro hname
    obtain ⟨job, hjob, rfl⟩ := List.mem_map.mp (hsearch.mem_names_iff.mpr hname.needed)
    exact ⟨job, (h.mem_iff hsearch.nodup).mpr ⟨hjob, hname.not_mem, fun other hother =>
      hname.prepared other ⟨job, hsearch.known job hjob, hother⟩⟩, rfl⟩
  · rintro ⟨job, hjob, rfl⟩
    obtain ⟨hfound, hnew, hprepared⟩ := (h.mem_iff hsearch.nodup).mp hjob
    refine ⟨hsearch.needed job hfound, hnew, ?_⟩
    rintro other ⟨same, hsame, hother⟩
    obtain rfl := Option.some.inj ((hsearch.known job hfound).symm.trans hsame)
    exact hprepared other hother

/-- The job that is taken from the queue is next. -/
theorem Running.isNext (hsearch : Search jobs requested found []) (h : Running found p queue placed)
    {job : Job} (hleast : leastJob? (queue ++ p.ready) = some job) :
    IsNext jobs requested (placed.map (·.name)) job.name := by
  have hpreference : ∀ other ∈ queue ++ p.ready, preference jobs other.name = other.preference := by
    intro other hother
    rw [preference, hsearch.known other ((h.mem_iff hsearch.nodup).mp hother).1]
    rfl
  have hjob := leastJob?_mem hleast
  refine ⟨(h.canRun_iff hsearch).mpr ⟨job, hjob, rfl⟩, fun name hname => ?_⟩
  obtain ⟨other, hother, rfl⟩ := (h.canRun_iff hsearch).mp hname
  rw [hpreference job hjob, hpreference other hother]
  exact leastJob?_le hleast other hother

/-- Each job of a run is the least that can run. -/
theorem run_isGreedy (hsearch : Search jobs requested found []) (h : Running found p queue placed)
    (hplaced : IsGreedy jobs requested (placed.map (·.name))) {order : List String}
    (hrun : run p queue (placed.map (·.name)) = .ok order) : IsGreedy jobs requested order := by
  generalize hnames : placed.map (·.name) = names at hrun
  fun_induction run p queue names generalizing placed with
  | case1 p queue names hactive hnone => cases hrun
  | case2 p queue names hactive job hleast ih =>
    have hnext := h.isNext hsearch hleast
    refine ih (h.step hsearch.nodup (leastJob?_mem hleast)) ?_ (by simp [hnames]) hrun
    rw [List.map_append, List.map_singleton]
    exact hplaced.snoc hnext
  | case3 p queue names hinactive =>
    cases hrun
    exact hnames ▸ hplaced

theorem runOrder_isGreedy {order : List String} (h : runOrder jobs requested = .ok order) :
    IsGreedy jobs requested order := by
  unfold runOrder at h
  split at h
  case h_1 => cases h
  case h_2 found hreach =>
    have hsearch := reach_eq_ok (Search.start jobs requested) hreach
    split at h
    case h_1 => cases h
    case h_2 => exact run_isGreedy hsearch (.start found) .nil h

end Runs

/-! ## Other ways to ask -/

/-- The same is asked for in two ways: the same names, whose dependencies are the same, and with the
same priorities. How often and in which order names are listed makes no difference, and neither do
jobs that are not needed. -/
structure SameDemand (jobs : List Job) (requested : List String) (jobs' : List Job)
    (requested' : List String) : Prop where
  requested_iff : ∀ name, name ∈ requested ↔ name ∈ requested'
  dependsOn_iff : ∀ name, Needed jobs requested name →
    ∀ other, DependsOn jobs name other ↔ DependsOn jobs' name other
  priority_eq : ∀ name, Needed jobs requested name →
    (job? jobs name).map (·.priority) = (job? jobs' name).map (·.priority)

namespace SameDemand
variable {jobs jobs' : List Job} {requested requested' : List String} {name : String}

theorem needed_iff (h : SameDemand jobs requested jobs' requested') :
    Needed jobs requested name ↔ Needed jobs' requested' name := by
  constructor
  · intro hneeded
    induction hneeded with
    | request hmem => exact .request ((h.requested_iff _).mp hmem)
    | dependency hneeded hdepends ih => exact ih.dependency ((h.dependsOn_iff _ hneeded _).mp hdepends)
  · intro hneeded
    induction hneeded with
    | request hmem => exact .request ((h.requested_iff _).mpr hmem)
    | dependency _ hdepends ih => exact ih.dependency ((h.dependsOn_iff _ ih _).mpr hdepends)

theorem symm (h : SameDemand jobs requested jobs' requested') :
    SameDemand jobs' requested' jobs requested where
  requested_iff name := (h.requested_iff name).symm
  dependsOn_iff name hneeded other := (h.dependsOn_iff name (h.needed_iff.mpr hneeded) other).symm
  priority_eq name hneeded := (h.priority_eq name (h.needed_iff.mpr hneeded)).symm

theorem complete (h : SameDemand jobs requested jobs' requested') (hcomplete : Complete jobs requested) :
    Complete jobs' requested' := by
  intro name hneeded
  have hsome := hcomplete name (h.needed_iff.mpr hneeded)
  have hpriority := h.priority_eq name (h.needed_iff.mpr hneeded)
  rwa [← Option.isSome_map (f := (·.priority)), hpriority, Option.isSome_map] at hsome

theorem complete_iff (h : SameDemand jobs requested jobs' requested') :
    Complete jobs requested ↔ Complete jobs' requested' :=
  ⟨h.complete, h.symm.complete⟩

/-- What a needed name brings with it, it brings with it either way. -/
theorem circular (h : SameDemand jobs requested jobs' requested') (hcircular : Circular jobs requested) :
    Circular jobs' requested' := by
  obtain ⟨name, hneeded, hcircle⟩ := hcircular
  have hway : ∀ {other}, Relation.TransGen (DependsOn jobs) name other →
      Needed jobs requested other ∧ Relation.TransGen (DependsOn jobs') name other := by
    intro other hlead
    induction hlead with
    | single hedge =>
      exact ⟨hneeded.dependency hedge, .single ((h.dependsOn_iff _ hneeded _).mp hedge)⟩
    | tail _ hedge ih =>
      exact ⟨ih.1.dependency hedge, ih.2.tail ((h.dependsOn_iff _ ih.1 _).mp hedge)⟩
  exact ⟨name, h.needed_iff.mp hneeded, (hway hcircle).2⟩

theorem circular_iff (h : SameDemand jobs requested jobs' requested') :
    Circular jobs requested ↔ Circular jobs' requested' :=
  ⟨h.circular, h.symm.circular⟩

theorem canRun (h : SameDemand jobs requested jobs' requested') {placed : List String}
    (hname : CanRun jobs requested placed name) : CanRun jobs' requested' placed name where
  needed := h.needed_iff.mp hname.needed
  not_mem := hname.not_mem
  prepared other hdepends := hname.prepared other ((h.dependsOn_iff _ hname.needed _).mpr hdepends)

theorem isGreedy (h : SameDemand jobs requested jobs' requested') {order : List String}
    (horder : IsGreedy jobs requested order) : IsGreedy jobs' requested' order := by
  have hpreference : ∀ name, Needed jobs requested name →
      preference jobs name = preference jobs' name := fun name hneeded => by
    rw [preference, preference, h.priority_eq name hneeded]
  intro front name back hsplit
  obtain ⟨hname, hleast⟩ := horder front name back hsplit
  refine ⟨h.canRun hname, fun other hother => ?_⟩
  have hother' := h.symm.canRun hother
  rw [← hpreference name hname.needed, ← hpreference other hother'.needed]
  exact hleast other hother'

/-- An order that answers one way of asking answers the other. -/
theorem runOrder_eq (h : SameDemand jobs requested jobs' requested') {order : List String}
    (horder : runOrder jobs requested = .ok order) : runOrder jobs' requested' = .ok order := by
  have hanswers := answers_runOrder jobs requested
  have hanswers' := answers_runOrder jobs' requested'
  obtain ⟨order', horder'⟩ := hanswers'.exists_ok_iff.mpr <| by
    rw [← h.complete_iff, ← h.circular_iff]
    exact hanswers.exists_ok_iff.mp ⟨order, horder⟩
  rw [horder] at hanswers
  rw [horder'] at hanswers'
  obtain _ | _ | ⟨_, _, _, hmem, _⟩ := hanswers
  obtain _ | _ | ⟨_, _, _, hmem', _⟩ := hanswers'
  have heq := (h.isGreedy (runOrder_isGreedy horder)).eq (runOrder_isGreedy horder')
    (fun name => (hmem name).trans h.needed_iff) hmem'
  rw [horder', heq]

end SameDemand

/-! ## Registries -/

/-- Each name of the order that answers a request is, among the needed names that have not run and
whose dependencies have, the one with the least priority, and the first by name of those. What is
answered depends on nothing but the names that are requested, the dependencies and the priorities:
the same demand has the same order, or fails for the same reason. -/
theorem Registry.resolve_greedy (r : Registry) (requested : List String) :
    (∀ order, r.resolve requested = .ok order → IsGreedy r.jobs requested order) ∧
    ∀ (r' : Registry) (requested' : List String), SameDemand r.jobs requested r'.jobs requested' →
      (∀ order, r.resolve requested = .ok order ↔ r'.resolve requested' = .ok order) ∧
      ((∃ name, r.resolve requested = .error (.unknown name)) ↔
        ∃ name, r'.resolve requested' = .error (.unknown name)) ∧
      ((∃ names, r.resolve requested = .error (.circular names)) ↔
        ∃ names, r'.resolve requested' = .error (.circular names)) := by
  refine ⟨fun order => runOrder_isGreedy, fun r' requested' h => ?_⟩
  have hanswers : Answers r.jobs requested (r.resolve requested) := answers_runOrder _ _
  have hanswers' : Answers r'.jobs requested' (r'.resolve requested') := answers_runOrder _ _
  refine ⟨fun order => ⟨h.runOrder_eq, h.symm.runOrder_eq⟩, ?_, ?_⟩
  · rw [hanswers.exists_unknown_iff, hanswers'.exists_unknown_iff, h.complete_iff]
  · rw [hanswers.exists_circular_iff, hanswers'.exists_circular_iff, h.complete_iff, h.circular_iff]

/-- `draw` needs `clean`, as often as is listed, and `load` needs nothing and can wait. -/
def sketch (dependencies : List String) : Registry where
  entries := [
    ⟨1, { name := "draw", maker := ⟨"Identity", fun _ => .ok .identity⟩, priority := 2
          dependencies, name_ne := by decide }⟩,
    ⟨2, { name := "load", maker := ⟨"Identity", fun _ => .ok .identity⟩, priority := 5
          name_ne := by decide }⟩,
    ⟨3, { name := "clean", maker := ⟨"Identity", fun _ => .ok .identity⟩, priority := 1
          name_ne := by decide }⟩]
  discovered := true

theorem job?_cons (job : Job) (jobs : List Job) (name : String) :
    job? (job :: jobs) name = if job.name = name then some job else job? jobs name := by
  rw [job?, List.find?_cons]
  split
  all_goals simp_all [job?]

theorem job?_sketch (dependencies : List String) (name : String) :
    job? (sketch dependencies).jobs name =
      if "draw" = name then some ⟨"draw", 2, dependencies⟩
      else if "load" = name then some ⟨"load", 5, []⟩
      else if "clean" = name then some ⟨"clean", 1, []⟩ else none := by
  simp only [Registry.jobs, sketch, Entry.name, List.map_cons, List.map_nil, job?_cons]
  rfl

theorem resolve_sketch :
    (sketch ["clean"]).resolve ["draw", "load"] = .ok ["clean", "draw", "load"] := by
  have hreach : reach (sketch ["clean"]).jobs [] ["load", "draw"] =
      .ok [⟨"load", 5, []⟩, ⟨"draw", 2, ["clean"]⟩, ⟨"clean", 1, []⟩] := by
    rw [reach_cons (by decide) (job?_sketch _ _)]
    refine (reach_cons (by decide) (job?_sketch _ _)).trans ?_
    exact (reach_cons (by decide) (job?_sketch _ _)).trans (by simp [reach])
  have hcircle : circle? [⟨"load", 5, []⟩, ⟨"draw", 2, ["clean"]⟩, ⟨"clean", 1, []⟩] = none := by
    simp [circle?, mentioned, dependents, findCircle]
  rw [Registry.resolve, runOrder, show ["draw", "load"].reverse = ["load", "draw"] from rfl, hreach]
  simp only [hcircle]
  simp [run, Progress.start, Progress.isActive, leastJob?, Progress.handOut, Progress.finish,
    Job.before]

/-- A request with repetitions, of a transform that lists what it needs twice. The transform that was
waiting runs before the one that was ready from the start. -/
theorem resolve_greedy_repeated :
    SameDemand (sketch ["clean"]).jobs ["draw", "load"]
      (sketch ["clean", "clean"]).jobs ["load", "draw", "load"] ∧
    IsGreedy (sketch ["clean"]).jobs ["draw", "load"] ["clean", "draw", "load"] ∧
    (sketch ["clean", "clean"]).resolve ["load", "draw", "load"] = .ok ["clean", "draw", "load"] := by
  have hdemand : SameDemand (sketch ["clean"]).jobs ["draw", "load"]
      (sketch ["clean", "clean"]).jobs ["load", "draw", "load"] := by
    refine ⟨by simp, fun name _ other => ?_, fun name _ => ?_⟩
    · simp only [DependsOn, job?_sketch]
      split_ifs
      all_goals simp
    · simp only [job?_sketch]
      split_ifs
      all_goals rfl
  obtain ⟨hgreedy, hsame⟩ := Registry.resolve_greedy (sketch ["clean"]) ["draw", "load"]
  obtain ⟨horder, -⟩ := hsame (sketch ["clean", "clean"]) ["load", "draw", "load"] hdemand
  exact ⟨hdemand, hgreedy _ resolve_sketch, (horder _).mp resolve_sketch⟩

end Chartdown.Transform
