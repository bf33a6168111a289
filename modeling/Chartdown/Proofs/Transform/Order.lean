import Mathlib.Data.List.Count
import Mathlib.Data.List.MinMax
import Mathlib.Data.String.Basic
import Chartdown.Proofs.Transform.Circle
import Chartdown.Proofs.Transform.Reach
import Chartdown.Transform.Registry

/-! # The order of transforms

A request is put in order in three parts: all that it needs is found, a circle among the needed
jobs is searched for, and where there is none the jobs run. While they run, the jobs are split into
those that have run, those in the queue, those that are ready and those that are blocked, and the
count of a blocked job is that of its mentions of jobs that have not run. Without a circle some
blocked job would have no blocked job before it, so the run ends with none blocked.

## Key results

- `circle?_eq_some`, `circle?_eq_none`: what the search for a circle says of the jobs
- `run_eq_ok`: a run without circles runs every job after those that it asks for
- `resolve_spec`: what is answered to a request, whatever the registry holds
-/

namespace Chartdown

namespace Text

theorem pairwise_insertName (name : String) {names : List String} (h : names.Pairwise (· < ·)) :
    (insertName name names).Pairwise (· < ·) := by
  induction names with
  | nil => simp [insertName]
  | cons other rest ih =>
    obtain ⟨hother, hrest⟩ := List.pairwise_cons.mp h
    simp only [insertName]
    split
    case isTrue hlt =>
      refine List.pairwise_cons.mpr ⟨fun x hx => ?_, h⟩
      rcases List.mem_cons.mp hx with rfl | hx
      · exact hlt
      · exact hlt.trans (hother x hx)
    case isFalse hge =>
      split
      case isTrue => exact h
      case isFalse hne =>
        refine List.pairwise_cons.mpr ⟨fun x hx => ?_, ih hrest⟩
        rcases mem_insertName.mp hx with rfl | hx
        · exact lt_of_le_of_ne (not_lt.mp hge) (Ne.symm hne)
        · exact hother x hx

/-- The names stand in order, each once. -/
theorem pairwise_sortedNames (names : List String) : (sortedNames names).Pairwise (· < ·) := by
  induction names with
  | nil => exact .nil
  | cons name rest ih => exact pairwise_insertName name ih

end Text

namespace Transform

/-! ## Circles among jobs -/

section Circles
variable {jobs : List Job} {name other : String}

theorem mem_dependents :
    name ∈ dependents jobs other ↔ ∃ job ∈ jobs, job.name = name ∧ other ∈ job.dependencies := by
  simp only [dependents, List.mem_flatMap, List.mem_map, List.mem_filter, beq_iff_eq]
  constructor
  · rintro ⟨job, hjob, other, ⟨hother, rfl⟩, hname⟩
    exact ⟨job, hjob, hname, hother⟩
  · rintro ⟨job, hjob, hname, hother⟩
    exact ⟨job, hjob, other, ⟨hother, rfl⟩, hname⟩

/-- Adding names to a list one by one, each unless it is there, keeps them distinct. -/
theorem foldl_distinct {names acc : List String} (hacc : acc.Nodup) :
    (names.foldl (fun acc name => if name ∈ acc then acc else acc ++ [name]) acc).Nodup ∧
      ∀ name, name ∈ names.foldl (fun acc name => if name ∈ acc then acc else acc ++ [name]) acc ↔
        name ∈ acc ∨ name ∈ names := by
  induction names generalizing acc with
  | nil => exact ⟨hacc, by simp⟩
  | cons first rest ih =>
    rw [List.foldl_cons]
    by_cases hfirst : first ∈ acc
    · rw [if_pos hfirst]
      refine ⟨(ih hacc).1, fun name => ?_⟩
      rw [(ih hacc).2, List.mem_cons]
      constructor
      · exact Or.imp_right .inr
      · rintro (hname | rfl | hname)
        · exact .inl hname
        · exact .inl hfirst
        · exact .inr hname
    · rw [if_neg hfirst]
      have hsnoc : (acc ++ [first]).Nodup := by
        rw [List.nodup_append_comm]
        exact List.nodup_cons.mpr ⟨hfirst, hacc⟩
      refine ⟨(ih hsnoc).1, fun name => ?_⟩
      rw [(ih hsnoc).2]
      simp only [List.mem_append, List.mem_cons, List.not_mem_nil, or_false, or_assoc]

theorem nodup_mentioned (jobs : List Job) : (mentioned jobs).Nodup := (foldl_distinct .nil).1

theorem mem_mentioned :
    name ∈ mentioned jobs ↔ ∃ job ∈ jobs, name = job.name ∨ name ∈ job.dependencies := by
  rw [mentioned, (foldl_distinct .nil).2]
  simp

theorem mem_mentioned_of_mem_dependents (h : name ∈ dependents jobs other) :
    name ∈ mentioned jobs ∧ other ∈ mentioned jobs := by
  obtain ⟨job, hjob, rfl, hother⟩ := mem_dependents.mp h
  exact ⟨mem_mentioned.mpr ⟨job, hjob, .inl rfl⟩, mem_mentioned.mpr ⟨job, hjob, .inr hother⟩⟩

/-- A circle that is found leads along what jobs ask for. -/
theorem circle?_eq_some {names : List String} (h : circle? jobs = some names) :
    IsCircle (fun name other => ∃ job ∈ jobs, job.name = name ∧ other ∈ job.dependencies) names := by
  have hcircle := findCircle_eq_some (nodup_mentioned jobs)
    (fun _ _ h => (mem_mentioned_of_mem_dependents h).1) (.start _ _) h
  exact hcircle.imp fun _ _ => mem_dependents.mp

/-- Where no circle is found, the names have a rank that is higher than those of all that a job
asks for. -/
theorem circle?_eq_none (h : circle? jobs = none) :
    ∃ rank : String → Nat, ∀ job ∈ jobs, ∀ other ∈ job.dependencies, rank other < rank job.name := by
  obtain ⟨names, hperm, hsettled⟩ := findCircle_eq_none (nodup_mentioned jobs)
    (fun _ _ h => (mem_mentioned_of_mem_dependents h).1) (.start _ _) h
  refine ⟨names.idxOf, fun job hjob other hother => ?_⟩
  have hmem : other ∈ names := hperm.mem_iff.mpr (mem_mentioned.mpr ⟨job, hjob, .inr hother⟩)
  exact (hsettled.idxOf_lt hmem (mem_dependents.mpr ⟨job, hjob, rfl, hother⟩)).2

end Circles

/-! ## Runs -/

/-- What holds of each element behind those in front of it holds still with one more at the end. -/
theorem forall_split_snoc {α : Type} {P : List α → α → Prop} {xs : List α} {last : α}
    (h : ∀ front x back, xs = front ++ x :: back → P front x) (hlast : P xs last) :
    ∀ front x back, xs ++ [last] = front ++ x :: back → P front x := by
  intro front x back hsplit
  rcases List.eq_nil_or_concat back with rfl | ⟨back, y, rfl⟩
  · obtain ⟨rfl, heq⟩ := List.append_inj' hsplit rfl
    rwa [← List.singleton_inj.mp heq]
  · have hsplit' : xs ++ [last] = (front ++ x :: back) ++ [y] := by simpa using hsplit
    exact h front x back (List.append_inj' hsplit' rfl).1

/-- Every job comes after all that it asks for. -/
def Ordered (jobs : List Job) : Prop :=
  ∀ front job back, jobs = front ++ job :: back → ∀ name ∈ job.dependencies, name ∈ front.map (·.name)

theorem Ordered.snoc {jobs : List Job} {job : Job} (h : Ordered jobs)
    (hjob : ∀ name ∈ job.dependencies, name ∈ jobs.map (·.name)) : Ordered (jobs ++ [job]) :=
  forall_split_snoc
    (P := fun front job => ∀ name ∈ Job.dependencies job, name ∈ front.map Job.name) h hjob

/-- Taking off the mentions of a name that is new leaves the mentions of names that are missing
still. -/
theorem countP_not_mem_snoc {names done : List String} {name : String} (hname : name ∉ done) :
    names.countP (fun n => n ∉ done) - names.count name =
      names.countP (fun n => n ∉ done ++ [name]) := by
  -- The mentions that were missing are those that are missing still and those of the name.
  have hsplit : names.countP (fun n => n ∉ done) =
      names.countP (fun n => n ∉ done ++ [name]) + names.count name := by
    induction names with
    | nil => rfl
    | cons first rest ih =>
      rw [List.countP_cons, List.countP_cons, List.count_cons, ih]
      by_cases heq : first = name
      · subst heq
        simp [hname]
        omega
      · by_cases hdone : first ∈ done
        · simp [heq, hdone]
        · simp [heq, hdone]
          omega
  omega

/-- What holds throughout a run of jobs, `placed` being those that have run. -/
structure Running (jobs : List Job) (p : Progress) (queue placed : List Job) : Prop where
  parts : (placed ++ (queue ++ (p.ready ++ p.blocked.map (·.1)))).Perm jobs
  counts : ∀ b ∈ p.blocked,
    b.2 = b.1.dependencies.countP (fun name => name ∉ placed.map (·.name)) ∧ b.2 ≠ 0
  free : ∀ job ∈ queue ++ p.ready, ∀ name ∈ job.dependencies, name ∈ placed.map (·.name)
  ordered : Ordered placed
  handedOut : p.handedOut = p.finished + queue.length

namespace Running
variable {jobs queue placed : List Job} {p : Progress} {job : Job}

theorem start (jobs : List Job) : Running jobs (.start jobs) [] [] where
  parts := by
    simpa [Progress.start, List.map_map, Function.comp_def] using
      List.filter_append_perm (·.dependencies.isEmpty) jobs
  counts := by
    simp only [Progress.start, List.mem_map, List.mem_filter]
    rintro b ⟨job, ⟨-, hjob⟩, rfl⟩
    simpa [List.countP_eq_length] using hjob
  free := by
    simp only [Progress.start, List.nil_append, List.mem_filter]
    rintro job ⟨-, hjob⟩ name hname
    rw [List.isEmpty_iff.mp hjob] at hname
    cases hname
  ordered := by
    intro front job back hsplit
    simp at hsplit
  handedOut := rfl

/-- A job that is about to run has not run. -/
theorem name_not_mem (hjobs : (jobs.map (·.name)).Nodup) (h : Running jobs p queue placed)
    (hjob : job ∈ queue ++ p.ready) : job.name ∉ placed.map (·.name) := by
  have hnodup := (h.parts.map (·.name)).nodup_iff.mpr hjobs
  rw [List.map_append, List.nodup_append] at hnodup
  intro hplaced
  refine hnodup.2.2 _ hplaced job.name (List.mem_map_of_mem ?_) rfl
  rw [← List.append_assoc]
  exact List.mem_append_left _ hjob

/-- One more job runs. -/
theorem step (hjobs : (jobs.map (·.name)).Nodup) (h : Running jobs p queue placed)
    (hjob : job ∈ queue ++ p.ready) :
    Running jobs (p.handOut.finish job.name) ((queue ++ p.ready).erase job) (placed ++ [job]) := by
  have hfresh := h.name_not_mem hjobs hjob
  have hnames : (placed ++ [job]).map (·.name) = placed.map (·.name) ++ [job.name] := by simp
  have hcounts : ∀ b ∈ p.blocked, b.2 - b.1.dependencies.count job.name =
      b.1.dependencies.countP (fun name => name ∉ placed.map (·.name) ++ [job.name]) := by
    intro b hb
    rw [(h.counts b hb).1, countP_not_mem_snoc hfresh]
  constructor
  case parts =>
    -- Blocked jobs are told apart by what is left to wait for; none is lost or made up.
    have hsplit := (List.filter_append_perm (fun b : Job × Nat => b.2 == 0)
      (p.blocked.map fun b => (b.1, b.2 - b.1.dependencies.count job.name))).map (·.1)
    simp only [List.map_append, List.map_map, Function.comp_def] at hsplit
    refine List.Perm.trans ?_ h.parts
    rw [List.append_assoc, List.singleton_append, ← List.append_assoc queue]
    simp only [Progress.finish, Progress.handOut, List.nil_append]
    refine List.Perm.append_left placed ?_
    rw [← List.cons_append]
    exact (List.perm_cons_erase hjob).symm.append hsplit
  case counts =>
    simp only [Progress.finish, Progress.handOut, List.mem_filter, List.mem_map, hnames]
    rintro _ ⟨⟨b, hb, rfl⟩, hpositive⟩
    exact ⟨hcounts b hb, by simpa using hpositive⟩
  case free =>
    simp only [Progress.finish, Progress.handOut, hnames, List.nil_append]
    intro other hother name hname
    rcases List.mem_append.mp hother with hother | hother
    · exact List.mem_append_left _ (h.free other (List.mem_of_mem_erase hother) name hname)
    · -- Nothing is left to wait for, so no mention is of a name that is missing.
      simp only [List.mem_map, List.mem_filter] at hother
      obtain ⟨_, ⟨⟨b, hb, rfl⟩, hzero⟩, rfl⟩ := hother
      have hnone := (hcounts b hb).symm.trans (beq_iff_eq.mp hzero)
      exact of_not_not (mt decide_eq_true (List.countP_eq_zero.mp hnone name hname))
  case ordered =>
    exact h.ordered.snoc fun name hname => h.free job hjob name hname
  case handedOut =>
    have hpos := List.length_pos_of_mem hjob
    have hhanded := h.handedOut
    simp only [Progress.finish, Progress.handOut, List.length_erase_of_mem hjob]
    rw [List.length_append] at hpos ⊢
    omega

theorem eq_nil_of_not_isActive (h : Running jobs p queue placed) (hactive : ¬ p.isActive = true) :
    queue = [] ∧ p.ready = [] := by
  have hhanded := h.handedOut
  simp only [Progress.isActive, Bool.or_eq_true, decide_eq_true_eq, not_or, Bool.not_eq_true',
    Bool.not_eq_false, List.isEmpty_iff] at hactive
  exact ⟨List.length_eq_zero_iff.mp (by omega), hactive.2⟩

/-- Without a circle no job is left blocked. -/
theorem blocked_eq_nil {rank : String → Nat}
    (hrank : ∀ job ∈ jobs, ∀ name ∈ job.dependencies, rank name < rank job.name)
    (hclosed : ∀ job ∈ jobs, ∀ name ∈ job.dependencies, name ∈ jobs.map (·.name))
    (h : Running jobs p queue placed) (hactive : ¬ p.isActive = true) : p.blocked = [] := by
  obtain ⟨rfl, hready⟩ := h.eq_nil_of_not_isActive hactive
  have hparts := h.parts
  rw [hready, List.nil_append, List.nil_append] at hparts
  by_contra hne
  -- A blocked job of least rank waits for a job that is neither blocked nor has run.
  obtain ⟨b, hb⟩ := Option.ne_none_iff_exists'.mp
    (mt (List.argmin_eq_none (f := fun b : Job × Nat => rank b.1.name)).mp hne)
  have hmem : ∀ b ∈ p.blocked, b.1 ∈ jobs := fun b hb =>
    hparts.mem_iff.mp (List.mem_append_right _ (List.mem_map_of_mem hb))
  have hb' := List.argmin_mem hb
  obtain ⟨hcount, hpositive⟩ := h.counts b hb'
  obtain ⟨name, hname, hmissing⟩ := List.countP_pos_iff.mp (hcount ▸ Nat.pos_of_ne_zero hpositive)
  obtain ⟨other, hother, rfl⟩ := List.mem_map.mp (hclosed b.1 (hmem b hb') name hname)
  have hlt := hrank b.1 (hmem b hb') other.name hname
  rcases List.mem_append.mp (hparts.mem_iff.mpr hother) with hplaced | hblocked
  · exact of_decide_eq_true hmissing (List.mem_map_of_mem hplaced)
  · obtain ⟨c, hc, rfl⟩ := List.mem_map.mp hblocked
    exact absurd (List.le_of_mem_argmin hc hb) (Nat.not_le.mpr hlt)

end Running

/-- A run without circles runs every job after those that it asks for. -/
theorem run_eq_ok {jobs queue placed : List Job} {p : Progress} {rank : String → Nat}
    (hjobs : (jobs.map (·.name)).Nodup)
    (hrank : ∀ job ∈ jobs, ∀ name ∈ job.dependencies, rank name < rank job.name)
    (hclosed : ∀ job ∈ jobs, ∀ name ∈ job.dependencies, name ∈ jobs.map (·.name))
    (h : Running jobs p queue placed) :
    ∃ all, run p queue (placed.map (·.name)) = .ok (all.map (·.name)) ∧ all.Perm jobs ∧
      Ordered all := by
  generalize horder : placed.map (·.name) = order
  fun_induction run p queue order generalizing placed with
  | case1 p queue order hactive hnone =>
    -- A run is active only as long as some job is ready or in the queue.
    have hempty := List.append_eq_nil_iff.mp (leastJob?_eq_none_iff.mp hnone)
    have hhanded := h.handedOut
    simp [Progress.isActive, hempty, hhanded] at hactive
  | case2 p queue order hactive job hleast ih =>
    exact ih (h.step hjobs (leastJob?_mem hleast)) (by simp [horder])
  | case3 p queue order hinactive =>
    obtain ⟨rfl, hready⟩ := h.eq_nil_of_not_isActive hinactive
    have hparts := h.parts
    rw [hready, h.blocked_eq_nil hrank hclosed hinactive] at hparts
    exact ⟨placed, by rw [horder], by simpa using hparts, h.ordered⟩

/-! ## Requests -/

/-- There is a job under every needed name. -/
def Complete (jobs : List Job) (requested : List String) : Prop :=
  ∀ name, Needed jobs requested name → (job? jobs name).isSome

/-- Some needed name brings itself with it. -/
def Circular (jobs : List Job) (requested : List String) : Prop :=
  ∃ name, Needed jobs requested name ∧ Relation.TransGen (DependsOn jobs) name name

/-- What may be answered to a request. -/
inductive Answers (jobs : List Job) (requested : List String) :
    Except OrderError (List String) → Prop
  | unknown {name : String} (needed : Needed jobs requested name) (missing : job? jobs name = none) :
      Answers jobs requested (.error (.unknown name))
  | circular {names circle : List String} (complete : Complete jobs requested)
      (circle_spec : IsCircle (DependsOn jobs) circle)
      (needed : ∀ name ∈ circle, Needed jobs requested name)
      (sorted : names.Pairwise (· < ·)) (mem_iff : ∀ name, name ∈ names ↔ name ∈ circle) :
      Answers jobs requested (.error (.circular names))
  | ordered {order : List String} (complete : Complete jobs requested)
      (straight : ¬ Circular jobs requested) (nodup : order.Nodup)
      (mem_iff : ∀ name, name ∈ order ↔ Needed jobs requested name)
      (behind : ∀ front name back, order = front ++ name :: back →
        ∀ other, DependsOn jobs name other → other ∈ front) :
      Answers jobs requested (.ok order)

namespace Search
variable {jobs found : List Job} {requested : List String}

theorem complete (h : Search jobs requested found []) : Complete jobs requested := by
  intro name hneeded
  obtain ⟨job, hjob, rfl⟩ := List.mem_map.mp (h.mem_names_iff.mpr hneeded)
  rw [h.known job hjob, Option.isSome_some]

theorem answers_circle (h : Search jobs requested found []) {circle : List String}
    (hcircle : circle? found = some circle) :
    Answers jobs requested (.error (.circular (Text.sortedNames circle))) := by
  have hedges := circle?_eq_some hcircle
  refine .circular h.complete (hedges.imp fun _ _ hedge => (h.dependsOn_iff.mpr hedge).1)
    (fun name hname => ?_) (Text.pairwise_sortedNames circle) fun _ => Text.mem_sortedNames
  obtain ⟨other, hedge⟩ := hedges.exists_rel hname
  exact (h.dependsOn_iff.mpr hedge).2

/-- Ranks rule circles out. -/
theorem not_circular (h : Search jobs requested found []) {rank : String → Nat}
    (hrank : ∀ job ∈ found, ∀ name ∈ job.dependencies, rank name < rank job.name) :
    ¬ Circular jobs requested := by
  rintro ⟨name, hneeded, hcircle⟩
  -- Along the way ranks go down, and the names stay needed.
  have hdown : ∀ {other}, Relation.TransGen (DependsOn jobs) name other →
      Needed jobs requested other ∧ rank other < rank name := by
    intro other hlead
    induction hlead with
    | single hedge =>
      obtain ⟨job, hjob, rfl, hother⟩ := h.dependsOn_iff.mp ⟨hedge, hneeded⟩
      exact ⟨hneeded.dependency hedge, hrank job hjob _ hother⟩
    | tail _ hedge ih =>
      obtain ⟨job, hjob, rfl, hother⟩ := h.dependsOn_iff.mp ⟨hedge, ih.1⟩
      exact ⟨ih.1.dependency hedge, (hrank job hjob _ hother).trans ih.2⟩
  exact (hdown hcircle).2.false

theorem answers_run (h : Search jobs requested found []) (hnone : circle? found = none) :
    Answers jobs requested (run (.start found) [] []) := by
  obtain ⟨rank, hrank⟩ := circle?_eq_none hnone
  have hclosed : ∀ job ∈ found, ∀ name ∈ job.dependencies, name ∈ found.map (·.name) :=
    fun job hjob name hname => (h.closed job hjob name hname).resolve_right List.not_mem_nil
  obtain ⟨all, hrun, hperm, hordered⟩ := run_eq_ok h.nodup hrank hclosed (.start found)
  rw [show run (.start found) [] [] = _ from hrun]
  have hmem : ∀ name, name ∈ all.map (·.name) ↔ Needed jobs requested name := fun name =>
    (hperm.map (·.name)).mem_iff.trans h.mem_names_iff
  refine .ordered h.complete (h.not_circular hrank) ((hperm.map (·.name)).nodup_iff.mpr h.nodup)
    hmem fun front name back hsplit other hedge => ?_
  obtain ⟨front, rest, rfl, rfl, hrest⟩ := List.map_eq_append_iff.mp hsplit
  obtain ⟨job, back, rfl, rfl, rfl⟩ := List.map_eq_cons_iff.mp hrest
  have hjob : job ∈ found := hperm.mem_iff.mp (by simp)
  obtain ⟨same, hsame, hother⟩ := hedge
  rw [h.known job hjob] at hsame
  exact hordered front job back rfl other (Option.some.inj hsame ▸ hother)

end Search

/-- Every request is answered. -/
theorem answers_runOrder (jobs : List Job) (requested : List String) :
    Answers jobs requested (runOrder jobs requested) := by
  have hstart := Search.start jobs requested
  unfold runOrder
  cases hreach : reach jobs [] requested.reverse with
  | error e =>
    obtain ⟨name, rfl, hneeded, hmissing⟩ := reach_eq_error hstart hreach
    exact .unknown hneeded hmissing
  | ok found =>
    have hfound := reach_eq_ok hstart hreach
    cases hcircle : circle? found with
    | some circle => simpa only [hcircle] using hfound.answers_circle hcircle
    | none => simpa only [hcircle] using hfound.answers_run hcircle

section Requests
variable {jobs : List Job} {requested : List String}

theorem not_complete_of_missing {name : String} (hneeded : Needed jobs requested name)
    (hmissing : job? jobs name = none) : ¬ Complete jobs requested := fun hcomplete => by
  simpa [hmissing] using hcomplete name hneeded

/-- A circle of needed names is a way from one of them back to it. -/
theorem IsCircle.circular {circle : List String} (hcircle : IsCircle (DependsOn jobs) circle)
    (hneeded : ∀ name ∈ circle, Needed jobs requested name) : Circular jobs requested := by
  obtain ⟨name, hname, hlead⟩ := hcircle.exists_transGen
  exact ⟨name, hneeded name hname, hlead⟩

end Requests

namespace Answers
variable {jobs : List Job} {requested : List String} {answer : Except OrderError (List String)}

/-- A name is unknown exactly when not all that is needed is there. -/
theorem exists_unknown_iff (h : Answers jobs requested answer) :
    (∃ name, answer = .error (.unknown name)) ↔ ¬ Complete jobs requested := by
  cases h with
  | unknown hneeded hmissing => simpa using not_complete_of_missing hneeded hmissing
  | circular hcomplete => simpa using hcomplete
  | ordered hcomplete => simpa using hcomplete

theorem exists_circular_iff (h : Answers jobs requested answer) :
    (∃ names, answer = .error (.circular names)) ↔
      Complete jobs requested ∧ Circular jobs requested := by
  cases h with
  | unknown hneeded hmissing => simp [not_complete_of_missing hneeded hmissing]
  | circular hcomplete hcircle hneeded => simpa [hcomplete] using hcircle.circular hneeded
  | ordered _ hstraight => simp [hstraight]

theorem exists_ok_iff (h : Answers jobs requested answer) :
    (∃ order, answer = .ok order) ↔ Complete jobs requested ∧ ¬ Circular jobs requested := by
  cases h with
  | unknown hneeded hmissing => simp [not_complete_of_missing hneeded hmissing]
  | circular _ hcircle hneeded => simp [hcircle.circular hneeded]
  | ordered hcomplete hstraight => simp [hcomplete, hstraight]

end Answers

theorem Registry.job?_jobs (r : Registry) (name : String) :
    job? r.jobs name = (r.find? name).map fun e =>
      ⟨e.name, e.definition.priority, e.definition.dependencies⟩ := by
  simp only [job?, Registry.jobs, Registry.find?, List.find?_map, Function.comp_def]

theorem Registry.has_eq_false {r : Registry} {name : String} (h : job? r.jobs name = none) :
    r.has name = false := by
  rw [r.job?_jobs, Option.map_eq_none_iff] at h
  rw [Registry.has, h, Option.isSome_none]

/-- What is asked for among the jobs of a registry is what definitions list. -/
theorem Registry.dependsOn_iff (r : Registry) (name other : String) :
    DependsOn r.jobs name other ↔
      ∃ e, r.find? name = some e ∧ other ∈ e.definition.dependencies := by
  simp only [DependsOn, r.job?_jobs, Option.map_eq_some_iff]
  constructor
  · rintro ⟨_, ⟨e, he, rfl⟩, hother⟩
    exact ⟨e, he, hother⟩
  · rintro ⟨e, he, hother⟩
    exact ⟨_, ⟨e, he, rfl⟩, hother⟩

theorem Registry.complete_iff (r : Registry) (requested : List String) :
    Complete r.jobs requested ↔ ∀ name, Needed r.jobs requested name → r.has name = true := by
  simp only [Complete, r.job?_jobs, Option.isSome_map, Registry.has]

/-- What is answered to a request, whatever the registry holds.

A name is unknown exactly when something needed is not registered, and it is such a name. Otherwise
there is a circle exactly when some needed name brings itself with it, and the names of one such
circle are told. Otherwise the needed names are put in order, each once and after all that it asks
for. The queue is never empty when the next job is taken from it. -/
theorem Registry.resolve_spec (r : Registry) (requested : List String) :
    ((∃ name, r.resolve requested = .error (.unknown name)) ↔
      ∃ name, Needed r.jobs requested name ∧ r.has name = false) ∧
    (∀ name, r.resolve requested = .error (.unknown name) →
      Needed r.jobs requested name ∧ r.has name = false) ∧
    ((∃ names, r.resolve requested = .error (.circular names)) ↔
      (∀ name, Needed r.jobs requested name → r.has name = true) ∧
        ∃ name, Needed r.jobs requested name ∧ Relation.TransGen (DependsOn r.jobs) name name) ∧
    (∀ names, r.resolve requested = .error (.circular names) →
      names.Pairwise (· < ·) ∧ ∃ circle, IsCircle (DependsOn r.jobs) circle ∧
        ∀ name, (name ∈ names ↔ name ∈ circle) ∧
          (name ∈ circle → Needed r.jobs requested name)) ∧
    ((∃ order, r.resolve requested = .ok order) ↔
      (∀ name, Needed r.jobs requested name → r.has name = true) ∧
        ¬ ∃ name, Needed r.jobs requested name ∧
          Relation.TransGen (DependsOn r.jobs) name name) ∧
    (∀ order, r.resolve requested = .ok order →
      order.Nodup ∧ (∀ name, name ∈ order ↔ Needed r.jobs requested name) ∧
        ∀ front name back, order = front ++ name :: back →
          ∀ other, DependsOn r.jobs name other → other ∈ front) ∧
    r.resolve requested ≠ .error .emptyQueue := by
  have hanswers : Answers r.jobs requested (r.resolve requested) := answers_runOrder _ _
  have hincomplete : ¬ Complete r.jobs requested ↔
      ∃ name, Needed r.jobs requested name ∧ r.has name = false := by
    simp [r.complete_iff]
  refine ⟨hanswers.exists_unknown_iff.trans hincomplete, fun name h => ?_, ?_, fun names h => ?_,
    ?_, fun order h => ?_, fun h => ?_⟩
  · rw [h] at hanswers
    cases hanswers with
    | unknown hneeded hmissing => exact ⟨hneeded, Registry.has_eq_false hmissing⟩
  · rw [hanswers.exists_circular_iff, r.complete_iff, Circular]
  · rw [h] at hanswers
    cases hanswers with
    | circular _ hcircle hneeded hsorted hmem =>
      exact ⟨hsorted, _, hcircle, fun name => ⟨hmem name, hneeded name⟩⟩
  · rw [hanswers.exists_ok_iff, r.complete_iff, Circular]
  · rw [h] at hanswers
    cases hanswers with
    | ordered _ _ hnodup hmem hbehind => exact ⟨hnodup, hmem, hbehind⟩
  · rw [h] at hanswers
    cases hanswers

end Transform
end Chartdown
