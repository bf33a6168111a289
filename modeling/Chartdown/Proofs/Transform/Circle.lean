import Mathlib.Data.List.Chain
import Mathlib.Data.List.Perm.Basic
import Mathlib.Logic.Relation
import Chartdown.Transform.Order

/-! # The search for circles

The search walks depth first over names. Its state falls in three parts: the names that were not
visited, the path that leads back from where the walk stands, and the names that the walk has left
for good. Everything that follows a name of the last part was left before it.

* `findCircle_eq_some`   a circle that is found is one
* `findCircle_eq_none`   where none is found, the names stand in an order that has none
-/

namespace Chartdown.Transform

/-- Names of which each is related to the next one, and the last one to the first one. -/
structure IsCircle (r : String → String → Prop) (names : List String) : Prop where
  nodup : names.Nodup
  closed : ∃ first rest, names = first :: rest ∧ (first :: (rest ++ [first])).IsChain r

namespace IsCircle
variable {r s : String → String → Prop} {names : List String}

theorem imp (h : IsCircle r names) (hrs : ∀ a b, r a b → s a b) : IsCircle s names := by
  obtain ⟨hnodup, first, rest, rfl, hchain⟩ := h
  exact ⟨hnodup, first, rest, rfl, hchain.imp fun {a b} => hrs a b⟩

/-- Every name of a circle is related to one. -/
theorem exists_rel (h : IsCircle r names) {name : String} (hname : name ∈ names) :
    ∃ other, r name other := by
  obtain ⟨-, first, rest, rfl, hchain⟩ := h
  obtain ⟨front, back, hsplit⟩ := List.append_of_mem hname
  rw [← List.cons_append, hsplit, List.append_assoc, List.cons_append] at hchain
  have hbehind := hchain.right_of_append
  cases back with
  | nil => exact ⟨first, hbehind.rel⟩
  | cons other back => exact ⟨other, hbehind.rel⟩

/-- Some name leads back to itself. -/
theorem exists_transGen (h : IsCircle r names) : ∃ name ∈ names, Relation.TransGen r name name := by
  obtain ⟨-, first, rest, rfl, hchain⟩ := h
  refine ⟨first, List.mem_cons_self, ?_⟩
  -- Every name of the chain leads to the last one, which is the first one of the circle.
  have hlead : ∀ {name : String} {l : List String}, (name :: (l ++ [first])).IsChain r →
      Relation.TransGen r name first := by
    intro name l hl
    induction l generalizing name with
    | nil => exact .single hl.rel
    | cons other l ih => exact .head hl.rel (ih hl.tail)
  exact hlead hchain

end IsCircle

/-- Each name is new, and all that follow it come later in the list. -/
def Settled (next : String → List String) : List String → Prop
  | [] => True
  | name :: rest => name ∉ rest ∧ (∀ step ∈ next name, step ∈ rest) ∧ Settled next rest

theorem Settled.idxOf_lt {next : String → List String} {names : List String}
    (h : Settled next names) {name step : String} (hname : name ∈ names) (hstep : step ∈ next name) :
    step ∈ names ∧ names.idxOf name < names.idxOf step := by
  induction names with
  | nil => cases hname
  | cons first rest ih =>
    obtain ⟨hfresh, hbehind, hrest⟩ := h
    by_cases heq : first = name
    · subst heq
      have hmem := hbehind step hstep
      have hne : first ≠ step := fun heq => hfresh (heq ▸ hmem)
      exact ⟨List.mem_cons_of_mem _ hmem, by simp [List.idxOf_cons_ne, hne]⟩
    · obtain ⟨hmem, hlt⟩ := ih hrest ((List.mem_cons.mp hname).resolve_left (Ne.symm heq))
      have hne : first ≠ step := fun heq => hfresh (heq ▸ hmem)
      refine ⟨List.mem_cons_of_mem _ hmem, ?_⟩
      rw [List.idxOf_cons_ne _ heq, List.idxOf_cons_ne _ hne]
      exact Nat.succ_lt_succ hlt

section Walk
variable {next : String → List String} {all left visited : List String}
  {path : List (String × List String)}

/-- On a path, what follows a name is yet to be visited, was left for good, or is the name that
the path goes on with. -/
def Tracked (next : String → List String) (visited : List String) :
    Option String → List (String × List String) → Prop
  | _, [] => True
  | onward, (name, steps) :: path =>
    (∀ step ∈ next name, step ∈ steps ∨ step ∈ visited ∨ onward = some step) ∧
      Tracked next visited (some name) path

/-- Leaving the name that a path goes on with keeps track. -/
theorem Tracked.leave {name : String} (h : Tracked next visited (some name) path) :
    Tracked next (name :: visited) none path := by
  have hmono : ∀ {onward : Option String} {path : List (String × List String)},
      Tracked next visited onward path → Tracked next (name :: visited) onward path := by
    intro onward path
    induction path generalizing onward with
    | nil => exact fun _ => trivial
    | cons p path ih =>
      exact fun ⟨hp, hpath⟩ => ⟨fun step hstep => (hp step hstep).imp_right
        (Or.imp_left (List.mem_cons_of_mem name)), ih hpath⟩
  cases path with
  | nil => trivial
  | cons p path =>
    obtain ⟨hp, hpath⟩ := h
    refine ⟨fun step hstep => ?_, hmono hpath⟩
    rcases hp step hstep with hsteps | hvisited | honward
    · exact .inl hsteps
    · exact .inr (.inl (List.mem_cons_of_mem name hvisited))
    · exact .inr (.inl (Option.some.inj honward ▸ List.mem_cons_self))

/-- What holds throughout a search among names. -/
structure Walk (next : String → List String) (all left visited : List String)
    (path : List (String × List String)) : Prop where
  parts : (left ++ (path.map (·.1) ++ visited)).Perm all
  linked : (path.map (·.1)).IsChain fun step name => step ∈ next name
  steps : ∀ p ∈ path, ∀ step ∈ p.2, step ∈ next p.1
  tracked : Tracked next visited none path
  settled : Settled next visited

namespace Walk

theorem start (next : String → List String) (all : List String) : Walk next all all [] [] where
  parts := by simp
  linked := .nil
  steps := by simp
  tracked := trivial
  settled := trivial

theorem root {name : String} (h : Walk next all (name :: left) visited []) :
    Walk next all left visited [(name, next name)] where
  parts := (List.perm_middle.trans (.refl _)).trans h.parts
  linked := .singleton _
  steps := by simp
  tracked := ⟨fun _ hstep => .inl hstep, trivial⟩
  settled := h.settled

theorem nodup (hall : all.Nodup) (h : Walk next all left visited path) :
    (left ++ (path.map (·.1) ++ visited)).Nodup := h.parts.nodup_iff.mpr hall

theorem back {name : String} (hall : all.Nodup)
    (h : Walk next all left visited ((name, []) :: path)) :
    Walk next all left (name :: visited) path where
  parts := (List.perm_middle.append_left left).trans h.parts
  linked := h.linked.tail
  steps := fun p hp => h.steps p (List.mem_cons_of_mem _ hp)
  tracked := h.tracked.2.leave
  settled := by
    -- No step is left to go, so all that follows the name was left before it.
    have hnodup := (List.nodup_append.mp (h.nodup hall)).2.1
    have hname : name ∉ visited := fun hmem =>
      (List.nodup_cons.mp hnodup).1 (List.mem_append_right _ hmem)
    refine ⟨hname, fun step hstep => ?_, h.settled⟩
    simpa using h.tracked.1 step hstep

theorem enter {name step : String} {steps : List String}
    (h : Walk next all left visited ((name, step :: steps) :: path)) (hstep : step ∈ left) :
    Walk next all (left.erase step) visited ((step, next step) :: (name, steps) :: path) where
  parts := by
    refine (List.perm_middle.trans ?_).trans h.parts
    exact (List.perm_cons_erase hstep).symm.append_right _
  linked := .cons_cons (h.steps _ List.mem_cons_self step List.mem_cons_self) h.linked
  steps := by
    rintro p hp other hother
    rcases List.mem_cons.mp hp with rfl | hp
    · exact hother
    rcases List.mem_cons.mp hp with rfl | hp
    · exact h.steps _ List.mem_cons_self other (List.mem_cons_of_mem _ hother)
    · exact h.steps p (List.mem_cons_of_mem _ hp) other hother
  tracked := by
    refine ⟨fun _ hother => .inl hother, fun other hother => ?_, h.tracked.2⟩
    rcases h.tracked.1 other hother with hmem | hmem | hmem
    · exact (List.mem_cons.mp hmem).elim (fun heq => .inr (.inr (congrArg some heq.symm))) .inl
    · exact .inr (.inl hmem)
    · cases hmem
  settled := h.settled

theorem skip {name step : String} {steps : List String} (hnext : ∀ name, ∀ step ∈ next name, step ∈ all)
    (h : Walk next all left visited ((name, step :: steps) :: path)) (hleft : step ∉ left)
    (hpath : step ∉ name :: path.map (·.1)) : Walk next all left visited ((name, steps) :: path) where
  parts := h.parts
  linked := h.linked
  steps := by
    rintro p hp other hother
    rcases List.mem_cons.mp hp with rfl | hp
    · exact h.steps _ List.mem_cons_self other (List.mem_cons_of_mem _ hother)
    · exact h.steps p (List.mem_cons_of_mem _ hp) other hother
  tracked := by
    -- What is neither yet to be visited nor on the path was left for good.
    have hall := hnext name step (h.steps _ List.mem_cons_self step List.mem_cons_self)
    have hvisited : step ∈ visited := by
      simpa [hleft, List.mem_cons, not_or.mp (List.mem_cons.not.mp hpath)] using
        h.parts.mem_iff.mpr hall
    refine ⟨fun other hother => ?_, h.tracked.2⟩
    rcases h.tracked.1 other hother with hmem | hmem | hmem
    · exact (List.mem_cons.mp hmem).elim (fun heq => .inr (.inl (heq ▸ hvisited))) .inl
    · exact .inr (.inl hmem)
    · cases hmem
  settled := h.settled

/-- A walk that meets its own path has found a circle. -/
theorem isCircle {name step : String} {steps : List String} (hall : all.Nodup)
    (h : Walk next all left visited ((name, step :: steps) :: path))
    (hpath : step ∈ name :: path.map (·.1)) :
    IsCircle (fun step name => step ∈ next name)
      ((name :: path.map (·.1)).takeWhile (· != step) ++ [step]) := by
  have hnodup : (name :: path.map (·.1)).Nodup := (List.nodup_append.mp
    (List.nodup_append.mp (h.nodup hall)).2.1).1
  have hclosing : step ∈ next name := h.steps _ List.mem_cons_self step List.mem_cons_self
  -- The circle is the path from the walk's place back to the name that it has met.
  obtain ⟨front, back, hsplit, hfresh⟩ := List.eq_append_cons_of_mem hpath
  have hfront : (front ++ step :: back).takeWhile (· != step) = front := by
    rw [List.takeWhile_append_of_pos fun other hother => by
      simpa using ne_of_mem_of_not_mem hother hfresh]
    simp
  have hprefix : front ++ [step] <+: name :: path.map (·.1) := ⟨back, by simp [hsplit]⟩
  have hlinked := h.linked.prefix hprefix
  have hfirst : ∃ rest, front ++ [step] = name :: rest := by
    cases front with
    | nil => exact ⟨[], by simpa using (List.cons.inj hsplit).1.symm⟩
    | cons other front =>
      exact ⟨front ++ [step], by simp [(List.cons.inj hsplit).1]⟩
  obtain ⟨rest, hrest⟩ := hfirst
  rw [hsplit, hfront]
  refine ⟨hnodup.sublist hprefix.sublist, name, rest, hrest, ?_⟩
  rw [← List.cons_append, ← hrest]
  exact hlinked.append (.singleton _) (by simpa using hclosing)

end Walk

theorem findCircle_eq_some (hall : all.Nodup) (hnext : ∀ name, ∀ step ∈ next name, step ∈ all)
    (h : Walk next all left visited path) {names : List String}
    (hfound : findCircle next left path = some names) :
    IsCircle (fun step name => step ∈ next name) names := by
  fun_induction findCircle next left path generalizing visited with
  | case1 => cases hfound
  | case2 name left ih => exact ih h.root hfound
  | case3 left name path ih => exact ih (h.back hall) hfound
  | case4 left name step steps path hleft ih => exact ih (h.enter hleft) hfound
  | case5 left name step steps path hleft hpath =>
    exact Option.some.inj hfound ▸ h.isCircle hall hpath
  | case6 left name step steps path hleft hpath ih => exact ih (h.skip hnext hleft hpath) hfound

theorem findCircle_eq_none (hall : all.Nodup) (hnext : ∀ name, ∀ step ∈ next name, step ∈ all)
    (h : Walk next all left visited path) (hnone : findCircle next left path = none) :
    ∃ names, names.Perm all ∧ Settled next names := by
  fun_induction findCircle next left path generalizing visited with
  | case1 => exact ⟨visited, by simpa using h.parts, h.settled⟩
  | case2 name left ih => exact ih h.root hnone
  | case3 left name path ih => exact ih (h.back hall) hnone
  | case4 left name step steps path hleft ih => exact ih (h.enter hleft) hnone
  | case5 left name step steps path hleft hpath => cases hnone
  | case6 left name step steps path hleft hpath ih => exact ih (h.skip hnext hleft hpath) hnone

end Walk

end Chartdown.Transform
