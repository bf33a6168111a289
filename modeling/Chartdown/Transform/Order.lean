import Chartdown.Text.Sorted

/-! # The order of jobs

Jobs are asked for by name and bring their prerequisites with them. They run one after the other:
of those whose prerequisites have all run, the one of the least priority is next, and of equal
ones the first by name.

A run counts for every job the mentions of prerequisites that have not run. Jobs without such are
handed out to a queue, and what is next is taken from the queue.

* `leastJob?_mem`, `leastJob?_eq_none_iff`  of some jobs one is the least, unless there are none
* `length_finish`                           no job is lost when another one has run
-/

namespace Chartdown.Transform

/-- Something to run, when it wants to run, and what has to run before. -/
structure Job where
  name : String
  priority : Nat
  dependencies : List String
  deriving DecidableEq

/-- Why jobs cannot be put in order. -/
inductive OrderError
  | unknown (name : String)
  | circular (names : List String)
  /-- The queue was empty when the next job was taken from it. -/
  | emptyQueue
  deriving DecidableEq

/-- The wording of an error. -/
def OrderError.message : OrderError → String
  | .unknown name => "Dependency '" ++ name ++ "' not found"
  | .circular names => "Circular dependency detected involving: " ++ ", ".intercalate names
  | .emptyQueue => "index out of range"

/-- The job under a name. -/
def job? (jobs : List Job) (name : String) : Option Job := jobs.find? (·.name == name)

theorem mem_and_name_of_job? {jobs : List Job} {name : String} {job : Job}
    (h : job? jobs name = some job) : job ∈ jobs ∧ job.name = name := by
  rw [job?, List.find?_eq_some_iff_append] at h
  obtain ⟨hname, front, back, rfl, -⟩ := h
  exact ⟨List.mem_append_right front List.mem_cons_self, beq_iff_eq.mp hname⟩

/-- Some jobs and all that pending names bring to them, in the order of discovery. The names that
were asked for last are followed first. -/
def reach (jobs reached : List Job) (pending : List String) : Except OrderError (List Job) :=
  match pending with
  | [] => .ok reached
  | name :: rest =>
    if _known : reached.any (·.name == name) then reach jobs reached rest
    else match _found : job? jobs name with
      | none => .error (.unknown name)
      | some job => reach jobs (reached ++ [job]) (job.dependencies.reverse ++ rest)
termination_by ((jobs.filter fun job => !reached.any (·.name == job.name)).length, pending.length)
decreasing_by
  · apply Prod.Lex.right
    simp
  · apply Prod.Lex.left
    obtain ⟨hmem, hname⟩ := mem_and_name_of_job? _found
    have hsplit : (jobs.filter fun j => !(reached ++ [job]).any (·.name == j.name)) =
        (jobs.filter fun j => !reached.any (·.name == j.name)).filter fun j => job.name != j.name := by
      rw [List.filter_filter]
      congr 1
      funext j
      simp [List.any_append, Bool.and_comm, bne]
    rw [hsplit, List.length_filter_lt_length_iff_exists]
    exact ⟨job, List.mem_filter.mpr ⟨hmem, by simpa [hname] using _known⟩, by simp⟩

/-! ## Circles -/

/-- All names that jobs are called by or name, in order of first mention. -/
def mentioned (jobs : List Job) : List String :=
  (jobs.flatMap fun job => job.name :: job.dependencies).foldl
    (fun names name => if name ∈ names then names else names ++ [name]) []

/-- The jobs that wait for a job, once for each mention. -/
def dependents (jobs : List Job) (name : String) : List String :=
  jobs.flatMap fun job => (job.dependencies.filter (· == name)).map fun _ => job.name

/-- Walk along the jobs that wait for each other, depth first. `left` are the names that were not
visited, and `path` leads back from where the walk stands, each name with those to visit next. The
walk ends where it meets its own path, and the result is the circle that it closes. -/
def findCircle (next : String → List String) (left : List String)
    (path : List (String × List String)) : Option (List String) :=
  match left, path with
  | [], [] => none
  | root :: left, [] => findCircle next left [(root, next root)]
  | left, (_, []) :: path => findCircle next left path
  | left, (name, step :: steps) :: path =>
    if step ∈ left then
      findCircle next (left.erase step) ((step, next step) :: (name, steps) :: path)
    else if step ∈ name :: path.map (·.1) then
      some ((name :: path.map (·.1)).takeWhile (· != step) ++ [step])
    else findCircle next left ((name, steps) :: path)
termination_by (left.length, path.foldr (fun p n => p.2.length + 1 + n) 0)
decreasing_by
  · apply Prod.Lex.left; simp
  · apply Prod.Lex.right; simp
  · rename_i h
    apply Prod.Lex.left
    rw [List.length_erase_of_mem h]
    exact Nat.sub_lt (List.length_pos_of_mem h) Nat.one_pos
  · apply Prod.Lex.right; simp

/-- A circle among jobs, if there is one. -/
def circle? (jobs : List Job) : Option (List String) :=
  findCircle (dependents jobs) (mentioned jobs) []

/-! ## Running -/

/-- Whether a job comes before another that could run at the same time. -/
def Job.before (a b : Job) : Bool :=
  a.priority < b.priority || (a.priority == b.priority && a.name < b.name)

/-- The one of some jobs that comes before the others. -/
def leastJob? : List Job → Option Job
  | [] => none
  | job :: rest =>
    match leastJob? rest with
    | none => some job
    | some other => some (if other.before job then other else job)

theorem leastJob?_mem {jobs : List Job} {job : Job} (h : leastJob? jobs = some job) :
    job ∈ jobs := by
  induction jobs generalizing job with
  | nil => simp [leastJob?] at h
  | cons a rest ih =>
    simp only [leastJob?] at h
    split at h
    · simp_all
    · rename_i other ho
      have := ih ho
      split at h <;> simp_all

theorem leastJob?_eq_none_iff {jobs : List Job} : leastJob? jobs = none ↔ jobs = [] := by
  cases jobs with
  | nil => simp [leastJob?]
  | cons job rest => cases h : leastJob? rest <;> simp [leastJob?, h]

/-- How far a run of jobs is. -/
structure Progress where
  /-- The jobs that have to wait, each with the mentions of prerequisites that have not run. -/
  blocked : List (Job × Nat)
  /-- The jobs that could run and were not handed out. -/
  ready : List Job
  /-- How many jobs were handed out. -/
  handedOut : Nat := 0
  /-- How many of them have run. -/
  finished : Nat := 0

namespace Progress

/-- The start of a run. -/
def start (jobs : List Job) : Progress where
  blocked := (jobs.filter (!·.dependencies.isEmpty)).map fun job => (job, job.dependencies.length)
  ready := jobs.filter (·.dependencies.isEmpty)

/-- Whether a job is ready or one that was handed out has not run. -/
def isActive (p : Progress) : Bool := p.finished < p.handedOut || !p.ready.isEmpty

/-- Hand out the jobs that are ready. -/
def handOut (p : Progress) : Progress :=
  { p with ready := [], handedOut := p.handedOut + p.ready.length }

/-- A job has run. Every mention of it is taken off the counts, and the jobs for which nothing is
left to wait for become ready. -/
def finish (p : Progress) (name : String) : Progress :=
  let counted := p.blocked.map fun b => (b.1, b.2 - b.1.dependencies.count name)
  { p with
    blocked := counted.filter fun b => !b.2 == 0
    ready := p.ready ++ (counted.filter fun b => b.2 == 0).map (·.1)
    finished := p.finished + 1 }

theorem length_finish (p : Progress) (name : String) :
    (p.finish name).blocked.length + (p.finish name).ready.length =
      p.blocked.length + p.ready.length := by
  have hsplit := List.length_eq_countP_add_countP (fun b : Job × Nat => b.2 == 0)
    (l := p.blocked.map fun b => (b.1, b.2 - b.1.dependencies.count name))
  simp only [List.countP_eq_length_filter, List.length_map, Bool.not_eq_true,
    Bool.decide_eq_false] at hsplit
  simp only [finish, List.length_append, List.length_map]
  omega

end Progress

/-- Run the jobs of a queue and those that get ready meanwhile. `order` are the names of the jobs
that have run. -/
def run (p : Progress) (queue : List Job) (order : List String) :
    Except OrderError (List String) :=
  if p.isActive then
    match _next : leastJob? (queue ++ p.ready) with
    | none => .error .emptyQueue
    | some job =>
      run (p.handOut.finish job.name) ((queue ++ p.ready).erase job) (order ++ [job.name])
  else .ok order
termination_by p.blocked.length + p.ready.length + queue.length
decreasing_by
  have hmem := leastJob?_mem _next
  have hpos := List.length_pos_of_mem hmem
  have hlength := p.handOut.length_finish job.name
  have hblocked : p.handOut.blocked = p.blocked := rfl
  have hready : p.handOut.ready = [] := rfl
  rw [List.length_erase_of_mem hmem]
  rw [hblocked, hready, List.length_nil] at hlength
  rw [List.length_append] at hpos ⊢
  omega

/-- The order in which the jobs that are asked for run, with all that they bring with them. -/
def runOrder (jobs : List Job) (requested : List String) : Except OrderError (List String) :=
  match reach jobs [] requested.reverse with
  | .error e => .error e
  | .ok reached =>
    match circle? reached with
    | some names => .error (.circular (Text.sortedNames names))
    | none => run (.start reached) [] []

end Chartdown.Transform
