import Mathlib.Data.List.Nodup
import Chartdown.Transform.Order

/-! # What a request brings with it

A request needs the names that it lists and what the jobs under needed names ask for. The search
for them keeps a list of jobs that were found and a list of names to look at. All that is found or
pending is needed, and what the found jobs ask for is found or pending.

* `reach_eq_ok`      once no name is pending, the jobs that were found are the needed ones
* `reach_eq_error`   a search that stops has met a needed name without a job
-/

namespace Chartdown.Transform

/-- The job under a name asks for another name. -/
def DependsOn (jobs : List Job) (name other : String) : Prop :=
  ∃ job, job? jobs name = some job ∧ other ∈ job.dependencies

/-- The names that are requested, and those that they bring with them. -/
inductive Needed (jobs : List Job) (requested : List String) : String → Prop
  | request {name : String} : name ∈ requested → Needed jobs requested name
  | dependency {name other : String} :
      Needed jobs requested name → DependsOn jobs name other → Needed jobs requested other

/-- What holds throughout a search for the needed jobs. -/
structure Search (jobs : List Job) (requested : List String) (found : List Job)
    (pending : List String) : Prop where
  nodup : (found.map (·.name)).Nodup
  known : ∀ job ∈ found, job? jobs job.name = some job
  needed : ∀ job ∈ found, Needed jobs requested job.name
  pending_needed : ∀ name ∈ pending, Needed jobs requested name
  covered : ∀ name ∈ requested, name ∈ found.map (·.name) ∨ name ∈ pending
  closed : ∀ job ∈ found, ∀ name ∈ job.dependencies, name ∈ found.map (·.name) ∨ name ∈ pending

namespace Search
variable {jobs found : List Job} {requested pending : List String} {name : String}

theorem start (jobs : List Job) (requested : List String) :
    Search jobs requested [] requested.reverse where
  nodup := .nil
  known := by simp
  needed := by simp
  pending_needed := fun name hname => .request (List.mem_reverse.mp hname)
  covered := fun name hname => .inr (List.mem_reverse.mpr hname)
  closed := by simp

/-- A name that was found already is passed over. -/
theorem skip (h : Search jobs requested found (name :: pending))
    (hfound : name ∈ found.map (·.name)) : Search jobs requested found pending := by
  have hkeep : ∀ other, other ∈ found.map (·.name) ∨ other ∈ name :: pending →
      other ∈ found.map (·.name) ∨ other ∈ pending := by
    intro other hother
    rcases hother with hother | hother
    · exact .inl hother
    · rcases List.mem_cons.mp hother with rfl | hother
      · exact .inl hfound
      · exact .inr hother
  exact { h with
    pending_needed := fun other hother => h.pending_needed other (List.mem_cons_of_mem _ hother)
    covered := fun other hother => hkeep other (h.covered other hother)
    closed := fun job hjob other hother => hkeep other (h.closed job hjob other hother) }

/-- The job under a new name is found, and what it asks for is pending. -/
theorem add {job : Job} (h : Search jobs requested found (name :: pending))
    (hnew : name ∉ found.map (·.name)) (hjob : job? jobs name = some job) :
    Search jobs requested (found ++ [job]) (job.dependencies.reverse ++ pending) := by
  have hname : job.name = name := (mem_and_name_of_job? hjob).2
  have hneeded : Needed jobs requested name := h.pending_needed name List.mem_cons_self
  -- The name is no longer pending but found, so nothing that was covered is lost.
  have hkeep : ∀ other, other ∈ found.map (·.name) ∨ other ∈ name :: pending →
      other ∈ (found ++ [job]).map (·.name) ∨ other ∈ job.dependencies.reverse ++ pending := by
    intro other hother
    simp only [List.mem_cons, List.map_append, List.map_cons, List.map_nil, List.mem_append,
      List.not_mem_nil, or_false, hname] at hother ⊢
    rcases hother with hother | hother | hother
    · exact .inl (.inl hother)
    · exact .inl (.inr hother)
    · exact .inr (.inr hother)
  constructor
  case nodup =>
    rw [List.map_append, List.nodup_append]
    refine ⟨h.nodup, List.nodup_singleton _, ?_⟩
    intro other hother same hsame
    rw [List.map_singleton, List.mem_singleton, hname] at hsame
    rintro rfl
    exact hnew (hsame ▸ hother)
  case known =>
    simp only [List.mem_append, List.mem_singleton]
    rintro other (hother | rfl)
    · exact h.known other hother
    · rw [hname]; exact hjob
  case needed =>
    simp only [List.mem_append, List.mem_singleton]
    rintro other (hother | rfl)
    · exact h.needed other hother
    · rw [hname]; exact hneeded
  case pending_needed =>
    simp only [List.mem_append, List.mem_reverse]
    rintro other (hother | hother)
    · exact hneeded.dependency ⟨job, hjob, hother⟩
    · exact h.pending_needed other (List.mem_cons_of_mem _ hother)
  case covered => exact fun other hother => hkeep other (h.covered other hother)
  case closed =>
    simp only [List.mem_append, List.mem_singleton]
    rintro other (hother | rfl) next hnext
    · simpa using hkeep next (h.closed other hother next hnext)
    · exact .inr (.inl (List.mem_reverse.mpr hnext))

/-- Once nothing is pending, the names of the found jobs are the needed ones. -/
theorem mem_names_iff (h : Search jobs requested found []) :
    name ∈ found.map (·.name) ↔ Needed jobs requested name := by
  constructor
  · intro hname
    obtain ⟨job, hjob, rfl⟩ := List.mem_map.mp hname
    exact h.needed job hjob
  · -- By induction on the way that the name is brought in.
    intro hneeded
    induction hneeded with
    | request hrequest => exact (h.covered _ hrequest).resolve_right List.not_mem_nil
    | dependency _ hdepends ih =>
      obtain ⟨job, hjob, hother⟩ := hdepends
      obtain ⟨same, hsame, hname⟩ := List.mem_map.mp ih
      have heq : job = same := Option.some.inj (hjob.symm.trans (hname ▸ h.known same hsame))
      exact (h.closed job (heq ▸ hsame) _ hother).resolve_right List.not_mem_nil

theorem dependsOn_iff (h : Search jobs requested found []) {other : String} :
    DependsOn jobs name other ∧ Needed jobs requested name ↔
      ∃ job ∈ found, job.name = name ∧ other ∈ job.dependencies := by
  constructor
  · rintro ⟨⟨job, hjob, hother⟩, hneeded⟩
    obtain ⟨same, hsame, hname⟩ := List.mem_map.mp (h.mem_names_iff.mpr hneeded)
    have heq : job = same := Option.some.inj (hjob.symm.trans (hname ▸ h.known same hsame))
    exact ⟨job, heq ▸ hsame, (mem_and_name_of_job? hjob).2, hother⟩
  · rintro ⟨job, hjob, rfl, hother⟩
    exact ⟨⟨job, h.known job hjob, hother⟩, h.needed job hjob⟩

end Search

section Reach
variable {jobs found : List Job} {requested pending : List String}

theorem any_name_eq_iff {name : String} :
    (found.any (·.name == name)) = true ↔ name ∈ found.map (·.name) := by
  simp

/-- The job under a new name is found. -/
theorem reach_cons {name : String} {job : Job} (hnew : ¬ (found.any (·.name == name)) = true)
    (hjob : job? jobs name = some job) :
    reach jobs found (name :: pending) =
      reach jobs (found ++ [job]) (job.dependencies.reverse ++ pending) := by
  rw [reach, dif_neg hnew]
  split <;> simp_all

theorem reach_eq_ok {all : List Job} (h : Search jobs requested found pending)
    (hok : reach jobs found pending = .ok all) : Search jobs requested all [] := by
  fun_induction reach jobs found pending with
  | case1 found => exact Except.ok.inj hok ▸ h
  | case2 found name pending hknown ih => exact ih (h.skip (any_name_eq_iff.mp hknown)) hok
  | case3 found name pending hnew hnone => cases hok
  | case4 found name pending hnew job hjob ih =>
    exact ih (h.add (mt any_name_eq_iff.mpr hnew) hjob) hok

theorem reach_eq_error {e : OrderError} (h : Search jobs requested found pending)
    (herror : reach jobs found pending = .error e) :
    ∃ name, e = .unknown name ∧ Needed jobs requested name ∧ job? jobs name = none := by
  fun_induction reach jobs found pending with
  | case1 found => cases herror
  | case2 found name pending hknown ih => exact ih (h.skip (any_name_eq_iff.mp hknown)) herror
  | case3 found name pending hnew hnone =>
    exact ⟨name, (Except.error.inj herror).symm, h.pending_needed name List.mem_cons_self, hnone⟩
  | case4 found name pending hnew job hjob ih =>
    exact ih (h.add (mt any_name_eq_iff.mpr hnew) hjob) herror

end Reach

end Chartdown.Transform
