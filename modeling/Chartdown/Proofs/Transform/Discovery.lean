import Mathlib.Data.List.Perm.Basic
import Chartdown.Proofs.Transform.Order

/-!
# Looking for plugins late

A registry looks for plugins when it is first asked something, and again after it was cleared. Here
it is compared with one that is stocked at once. The two are told apart by nothing as long as the
name of the built-in is left alone while plugins have yet to be looked for, and they are told apart
by some question once it is not.

What is compared is what stands under each name once plugins were looked for (`Alike`). Operations
that leave that name alone in time keep it, and the answers depend on it alone.

## Key results

- `find?_register`, `find?_unregister`, `find?_ready`: what stands under a name
- `names_congr`, `resolve_congr`: answers depend on what stands under the names
- `Alike.perform`: one operation on two registries that are alike
- `answers_alike_iff`: when looking for plugins late makes no difference
- `eraseIdx_lateAnswers`: a question makes no difference to the other answers
- `exists_getLast?_lateAnswers`: what was registered last under a name is found there
-/

namespace Chartdown.Transform

/-! ### Operations -/

/-- What a registry is asked. -/
inductive Question
  | has (name : String)
  | names (tags : Option (List String))
  | entry (name : String)
  | order (requested : List String)

/-- What is done with a registry. -/
inductive Operation
  | register (entry : Entry)
  | unregister (name : String)
  | clear
  | ask (question : Question)

/-- What an operation answers. -/
inductive Answer
  | done
  | removed (was : Bool)
  | has (is : Bool)
  | names (names : List String)
  | entry (found : Except Registry.NotRegistered Entry)
  | order (order : Except OrderError (List String))

namespace Registry

/-- The entry under a name. -/
def entry (r : Registry) (name : String) : Except NotRegistered Entry :=
  match r.find? name with
  | some e => .ok e
  | none => .error ⟨name⟩

theorem definition_eq (r : Registry) (name : String) :
    r.definition name = (r.entry name).map (·.definition) := by
  rw [definition, entry]
  cases r.find? name <;> rfl

/-- The answer to a question, where plugins were looked for. -/
def answer (r : Registry) : Question → Answer
  | .has name => .has (r.has name)
  | .names tags => .names (r.names tags)
  | .entry name => .entry (r.entry name)
  | .order requested => .order (r.resolve requested)

/-- Do an operation, where a cleared registry is left as one is told. -/
def perform (cleared r : Registry) : Operation → Registry × Answer
  | .register e => ((r.register e).1, .done)
  | .unregister name => ((r.unregister name).1, .removed (r.unregister name).2)
  | .clear => (cleared, .done)
  | .ask question => (r.ready.1, r.ready.1.answer question)

/-- The answers to some operations, one after the other. -/
def answers (cleared r : Registry) : List Operation → List Answer
  | [] => []
  | op :: ops => (perform cleared r op).2 :: answers cleared (perform cleared r op).1 ops

/-- The registry that looked for plugins at once. -/
def stocked : Registry := empty.ready.1

/-- The answers of a registry that looks for plugins when it is first asked something. -/
def lateAnswers (ops : List Operation) : List Answer := answers empty empty ops

/-- The answers of a registry that looks for plugins when it is made and when it is cleared. -/
def earlyAnswers (ops : List Operation) : List Answer := answers stocked stocked ops

end Registry

/-- Whether an operation leaves the name of the built-in alone. -/
def Operation.Spares : Operation → Prop
  | .register e => e.name = builtin.name → e = builtin
  | .unregister name => name ≠ builtin.name
  | .clear | .ask _ => True

/-- Whether plugins were looked for behind an operation. -/
def Operation.discovers (discovered : Bool) : Operation → Bool
  | .register _ | .unregister _ => discovered
  | .clear => false
  | .ask _ => true

/-- As long as plugins have yet to be looked for, the name of the built-in is left alone. -/
def Undisturbed : Bool → List Operation → Prop
  | _, [] => True
  | discovered, op :: ops =>
    (discovered = false → op.Spares) ∧ Undisturbed (op.discovers discovered) ops

/-! ### What stands under a name -/

/-- What stands under the name of an entry once it was registered where something stood, or not. -/
def Entry.placedOver (e : Entry) : Option Entry → Entry
  | none => e
  | some old => if old.serial = e.serial then old else e

theorem Entry.placedOver_placedOver (e : Entry) (old : Option Entry) :
    e.placedOver (some (e.placedOver old)) = e.placedOver old := by
  cases old with
  | none => simp [placedOver]
  | some old => by_cases h : old.serial = e.serial <;> simp [placedOver, h]

theorem Entry.serial_placedOver (e : Entry) (old : Option Entry) :
    (e.placedOver old).serial = e.serial := by
  cases old with
  | none => rfl
  | some old => by_cases h : old.serial = e.serial <;> simp [placedOver, h]

theorem Entry.placedOver_of_ne {e old : Entry} (h : old.serial ≠ e.serial) :
    e.placedOver (some old) = e := by
  simp [placedOver, h]

namespace Registry

theorem find?_register (r : Registry) (e : Entry) (name : String) :
    (r.register e).1.find? name =
      if name = e.name then some (e.placedOver (r.find? name)) else r.find? name := by
  by_cases hname : name = e.name
  · subst hname
    rw [if_pos rfl, register]
    cases hold : r.find? e.name with
    | none => exact find?_put e r.entries
    | some old =>
      by_cases hserial : old.serial = e.serial
      · simp [hserial, hold, Entry.placedOver]
      · simp only [hserial, if_false, Entry.placedOver]
        exact find?_put e r.entries
  · have hput := find?_put_of_ne (Ne.symm hname) r.entries
    rw [if_neg hname, register]
    cases r.find? e.name with
    | none => exact hput
    | some old => by_cases hserial : old.serial = e.serial <;> simp [hserial, find?, hput]

theorem find?_unregister (r : Registry) (name other : String) :
    (r.unregister name).1.find? other = if other = name then none else r.find? other := by
  simp only [unregister, find?, List.find?_filter]
  by_cases hother : other = name
  · subst hother
    rw [if_pos rfl, List.find?_eq_none]
    simp
  · rw [if_neg hother]
    congr 1
    funext e
    by_cases he : e.name = other <;> simp [he, hother]

theorem find?_ready (r : Registry) (name : String) :
    r.ready.1.find? name =
      if r.discovered = false ∧ name = builtin.name then some (builtin.placedOver (r.find? name))
      else r.find? name := by
  cases hdiscovered : r.discovered with
  | true => simp [ready, hdiscovered]
  | false =>
    -- The built-in is registered, and the plugin that offers it changes nothing.
    have hready : r.ready.1 =
        ((({ r with discovered := true } : Registry).register builtin).1.register builtin).1 := by
      simp [ready, hdiscovered, discover, installedPlugins, loadAll, load]
    rw [hready, find?_register, find?_register]
    by_cases hname : name = builtin.name
    · simp only [hname, if_true, Entry.placedOver_placedOver]
      rfl
    · simp only [hname, if_false, and_false]
      rfl

theorem find?_ready_of_discovered {r : Registry} (h : r.discovered = true) (name : String) :
    r.ready.1.find? name = r.find? name := by
  simp [find?_ready, h]

/-! ### Distinct names -/

/-- No two entries stand under one name. -/
def Distinct (r : Registry) : Prop := (r.entries.map Entry.name).Nodup

theorem map_name_put (e : Entry) (es : List Entry) :
    (put e es).map Entry.name =
      if e.name ∈ es.map Entry.name then es.map Entry.name else es.map Entry.name ++ [e.name] := by
  induction es with
  | nil => simp [put]
  | cons old rest ih =>
    by_cases hname : old.name = e.name
    · simp [put, hname]
    · have hmem : e.name ∈ (old :: rest).map Entry.name ↔ e.name ∈ rest.map Entry.name := by
        simp [Ne.symm hname]
      rw [put, if_neg hname, List.map_cons, ih, ite_cond_congr (propext hmem), List.map_cons]
      split <;> rfl

theorem Distinct.register {r : Registry} (h : r.Distinct) (e : Entry) :
    (r.register e).1.Distinct := by
  have hput : ((put e r.entries).map Entry.name).Nodup := by
    rw [map_name_put]
    split
    case isTrue => exact h
    case isFalse hnew =>
      rw [← List.concat_eq_append]
      exact h.concat hnew
  unfold Registry.register
  split
  · exact hput
  · split
    · exact h
    · exact hput

theorem Distinct.unregister {r : Registry} (h : r.Distinct) (name : String) :
    (r.unregister name).1.Distinct := by
  rw [Distinct, Registry.unregister]
  exact h.sublist (List.filter_sublist.map Entry.name)

theorem Distinct.ready {r : Registry} (h : r.Distinct) : r.ready.1.Distinct := by
  unfold Registry.ready
  split
  · exact h
  · have hopen : ({ r with discovered := true } : Registry).Distinct := h
    have htwice := (hopen.register builtin).register builtin
    simpa [discover, installedPlugins, loadAll, load] using htwice

/-- The entries are those that stand under their names. -/
theorem Distinct.mem_entries_iff {r : Registry} (h : r.Distinct) {e : Entry} :
    e ∈ r.entries ↔ r.find? e.name = some e := by
  obtain ⟨entries, discovered⟩ := r
  rw [Distinct] at h
  simp only [find?] at h ⊢
  induction entries with
  | nil => simp
  | cons first rest ih =>
    rw [List.map_cons, List.nodup_cons] at h
    rw [List.mem_cons, List.find?_cons]
    by_cases hname : first.name = e.name
    · -- The first entry stands under the name, so no later one does.
      have hrest : e ∉ rest := fun he => h.1 (hname ▸ List.mem_map_of_mem he)
      simp [hname, hrest, eq_comm]
    · have hne : e ≠ first := fun heq => hname (heq ▸ rfl)
      rw [beq_eq_false_iff_ne.mpr hname]
      simp only [hne, false_or]
      exact ih h.2

/-! ### Answers -/

theorem sortedNames_congr {names names' : List String} (h : ∀ name, name ∈ names ↔ name ∈ names') :
    Text.sortedNames names = Text.sortedNames names' := by
  have hsorted := Text.pairwise_sortedNames names
  have hsorted' := Text.pairwise_sortedNames names'
  refine List.Perm.eq_of_pairwise ?_ hsorted hsorted' ?_
  · exact fun a b _ _ hab hba => absurd hab (lt_asymm hba)
  · rw [List.perm_ext_iff_of_nodup (hsorted.imp ne_of_lt) (hsorted'.imp ne_of_lt)]
    intro name
    rw [Text.mem_sortedNames, Text.mem_sortedNames, h]

variable {r e : Registry}

/-- The names that are listed are told by what stands under the names. -/
theorem names_congr (hr : r.Distinct) (he : e.Distinct) (h : ∀ name, r.find? name = e.find? name)
    (tags : Option (List String)) : r.names tags = e.names tags := by
  have hentries : ∀ entry, entry ∈ r.entries ↔ entry ∈ e.entries := fun entry => by
    rw [hr.mem_entries_iff, he.mem_entries_iff, h]
  refine sortedNames_congr fun name => ?_
  simp only [List.mem_map, List.mem_filter, hentries]

end Registry

theorem reach_congr {jobs jobs' : List Job} (h : ∀ name, job? jobs name = job? jobs' name)
    (found : List Job) (pending : List String) :
    reach jobs found pending = reach jobs' found pending := by
  fun_induction reach jobs found pending with
  | case1 found => rw [reach]
  | case2 found name pending hknown ih => rw [reach, dif_pos hknown, ih]
  | case3 found name pending hnew hnone =>
    rw [reach, dif_neg hnew]
    split
    · rfl
    · simp_all
  | case4 found name pending hnew job hjob ih => rw [ih, reach_cons hnew (h name ▸ hjob)]

namespace Registry
variable {r e : Registry}

/-- The order that is answered is told by what stands under the names. -/
theorem resolve_congr (h : ∀ name, r.find? name = e.find? name) (requested : List String) :
    r.resolve requested = e.resolve requested := by
  have hjobs : ∀ name, job? r.jobs name = job? e.jobs name := fun name => by
    rw [job?_jobs, job?_jobs, h]
  rw [resolve, resolve, runOrder, runOrder, reach_congr hjobs]

theorem answer_congr (hr : r.Distinct) (he : e.Distinct) (h : ∀ name, r.find? name = e.find? name)
    (question : Question) : r.answer question = e.answer question := by
  cases question with
  | has name => simp only [answer, has, h]
  | names tags => simp only [answer, names_congr hr he h]
  | entry name => simp only [answer, entry, h]
  | order requested => simp only [answer, resolve_congr h]

theorem find?_eq_of_entry_eq {name : String} (h : r.entry name = e.entry name) :
    r.find? name = e.find? name := by
  rw [entry, entry] at h
  cases hr : r.find? name <;> cases he : e.find? name <;> simp_all

/-! ### Registries that are stocked at once -/

theorem ready_of_discovered (h : r.discovered = true) : r.ready = (r, []) := by
  rw [ready, if_pos h]

theorem discovered_perform (h : r.discovered = true) (op : Operation) :
    (perform stocked r op).1.discovered = true := by
  cases op with
  | register e => rw [perform, discovered_register, h]
  | unregister name => exact h
  | clear => exact discovered_ready _
  | ask question => exact discovered_ready r

end Registry

/-! ### Registries that are alike -/

/-- What two registries have in common of which the first may have yet to look for plugins. The same
stands under each name, but under that of the built-in only once plugins were looked for. -/
structure Alike (late early : Registry) : Prop where
  find_eq : ∀ name, (late.discovered = false → name ≠ builtin.name) →
    late.find? name = early.find? name
  find_builtin : late.discovered = false → early.find? builtin.name = some builtin
  eq_builtin : late.discovered = false → ∀ e, late.find? builtin.name = some e → e = builtin
  discovered : early.discovered = true
  distinct_late : late.Distinct
  distinct_early : early.Distinct

theorem alike_empty_stocked : Alike .empty .stocked where
  find_eq name hname := by
    have hne : name ≠ builtin.name := hname rfl
    simp [Registry.stocked, Registry.find?_ready, hne]
  find_builtin _ := by simp [Registry.stocked, Registry.find?_ready]; rfl
  eq_builtin _ e he := nomatch he
  discovered := Registry.discovered_ready _
  distinct_late := List.nodup_nil
  distinct_early := Registry.Distinct.ready List.nodup_nil

namespace Alike
variable {late early : Registry}

theorem placedOver_eq_builtin (h : Alike late early) (hpending : late.discovered = false) :
    builtin.placedOver (late.find? builtin.name) = builtin := by
  cases hfind : late.find? builtin.name with
  | none => rfl
  | some e => rw [h.eq_builtin hpending e hfind, Entry.placedOver, if_pos rfl]

theorem register (h : Alike late early) {e : Entry}
    (hspares : late.discovered = false → (Operation.register e).Spares) :
    Alike (late.register e).1 (early.register e).1 where
  find_eq name hname := by
    rw [Registry.discovered_register] at hname
    rw [Registry.find?_register, Registry.find?_register, h.find_eq name hname]
  find_builtin hpending := by
    rw [Registry.discovered_register] at hpending
    rw [Registry.find?_register, h.find_builtin hpending]
    by_cases hname : builtin.name = e.name
    · rw [if_pos hname, hspares hpending hname.symm, Entry.placedOver, if_pos rfl]
    · rw [if_neg hname]
  eq_builtin hpending found hfound := by
    rw [Registry.discovered_register] at hpending
    rw [Registry.find?_register] at hfound
    by_cases hname : builtin.name = e.name
    · rw [if_pos hname, hspares hpending hname.symm, h.placedOver_eq_builtin hpending] at hfound
      exact (Option.some.inj hfound).symm
    · rw [if_neg hname] at hfound
      exact h.eq_builtin hpending found hfound
  discovered := by rw [Registry.discovered_register, h.discovered]
  distinct_late := h.distinct_late.register e
  distinct_early := h.distinct_early.register e

theorem unregister (h : Alike late early) {name : String}
    (hspares : late.discovered = false → (Operation.unregister name).Spares) :
    Alike (late.unregister name).1 (early.unregister name).1 where
  find_eq other hother := by
    rw [Registry.find?_unregister, Registry.find?_unregister, h.find_eq other hother]
  find_builtin hpending := by
    have hne : builtin.name ≠ name := (hspares hpending).symm
    rw [Registry.find?_unregister, if_neg hne, h.find_builtin hpending]
  eq_builtin hpending found hfound := by
    have hne : builtin.name ≠ name := (hspares hpending).symm
    rw [Registry.find?_unregister, if_neg hne] at hfound
    exact h.eq_builtin hpending found hfound
  discovered := h.discovered
  distinct_late := h.distinct_late.unregister name
  distinct_early := h.distinct_early.unregister name

/-- Looking for plugins puts the built-in where it stands already in the other registry. -/
theorem ready (h : Alike late early) : Alike late.ready.1 early where
  find_eq name _ := by
    rw [Registry.find?_ready]
    split
    case isTrue hpending =>
      obtain ⟨hpending, rfl⟩ := hpending
      rw [h.placedOver_eq_builtin hpending, h.find_builtin hpending]
    case isFalse hother => exact h.find_eq name fun hpending hname => hother ⟨hpending, hname⟩
  find_builtin hpending := by simp [Registry.discovered_ready] at hpending
  eq_builtin hpending := by simp [Registry.discovered_ready] at hpending
  discovered := h.discovered
  distinct_late := h.distinct_late.ready
  distinct_early := h.distinct_early

/-- Questions are answered alike. -/
theorem answer_ready (h : Alike late early) (question : Question) :
    late.ready.1.answer question = early.answer question := by
  refine Registry.answer_congr h.distinct_late.ready h.distinct_early (fun name => ?_) question
  exact h.ready.find_eq name fun hpending => by simp [Registry.discovered_ready] at hpending

/-- An operation that leaves the built-in alone while plugins have yet to be looked for is answered
alike, and the registries stay alike. -/
theorem perform (h : Alike late early) {op : Operation}
    (hspares : late.discovered = false → op.Spares) :
    (Registry.perform .empty late op).2 = (Registry.perform .stocked early op).2 ∧
      Alike (Registry.perform .empty late op).1 (Registry.perform .stocked early op).1 ∧
      (Registry.perform .empty late op).1.discovered = op.discovers late.discovered := by
  cases op with
  | register e => exact ⟨rfl, h.register hspares, Registry.discovered_register late e⟩
  | unregister name =>
    refine ⟨?_, h.unregister hspares, rfl⟩
    have hfind := h.find_eq name fun hpending => hspares hpending
    simp only [Registry.perform, Registry.unregister, hfind]
  | clear => exact ⟨rfl, alike_empty_stocked, rfl⟩
  | ask question =>
    simp only [Registry.perform, Registry.ready_of_discovered h.discovered]
    exact ⟨h.answer_ready question, h.ready, Registry.discovered_ready late⟩

/-- Operations that leave the built-in alone in time are answered alike. -/
theorem answers_eq (h : Alike late early) {ops : List Operation}
    (hops : Undisturbed late.discovered ops) :
    Registry.answers .empty late ops = Registry.answers .stocked early ops := by
  induction ops generalizing late early with
  | nil => rfl
  | cons op ops ih =>
    obtain ⟨hspares, hrest⟩ := hops
    obtain ⟨hanswer, halike, hdiscovered⟩ := h.perform hspares
    rw [Registry.answers, Registry.answers, hanswer, ih halike (hdiscovered ▸ hrest)]

/-- What stands under the name of the built-in behind an operation is told by asking for it. -/
theorem find?_eq_of_answers (h : Alike late early) {op : Operation}
    (hsame : Registry.answers .empty late [op, .ask (.entry builtin.name)] =
      Registry.answers .stocked early [op, .ask (.entry builtin.name)]) :
    (Registry.perform .empty late op).1.ready.1.find? builtin.name =
      (Registry.perform .stocked early op).1.find? builtin.name := by
  have hentry : (Registry.perform .empty late op).1.ready.1.entry builtin.name =
      (Registry.perform .stocked early op).1.ready.1.entry builtin.name :=
    Answer.entry.inj (List.cons.inj (List.cons.inj hsame).2).1
  rw [Registry.find?_eq_of_entry_eq hentry,
    Registry.find?_ready_of_discovered (Registry.discovered_perform h.discovered op)]

/-- An operation that puts something in the place of the built-in before plugins were looked for, or
takes it away, is told by what stands there then. -/
theorem spares (h : Alike late early) (hpending : late.discovered = false) {op : Operation}
    (hserial : ∀ e, op = .register e → e.serial = builtin.serial → e = builtin)
    (hsame : Registry.answers .empty late [op, .ask (.entry builtin.name)] =
      Registry.answers .stocked early [op, .ask (.entry builtin.name)]) : op.Spares := by
  have hfind := h.find?_eq_of_answers hsame
  cases op with
  | clear => trivial
  | ask question => trivial
  | register e =>
    intro hname
    by_contra hne
    have hother : builtin.serial ≠ e.serial := fun heq => hne (hserial e rfl heq.symm)
    have hover : e.placedOver (late.find? builtin.name) = e := by
      cases hold : late.find? builtin.name with
      | none => rfl
      | some old => rw [h.eq_builtin hpending old hold, Entry.placedOver_of_ne hother]
    -- The entry is registered either way, and then looking for plugins puts the built-in back.
    rw [Registry.perform, Registry.perform, Registry.find?_ready, Registry.discovered_register,
      if_pos ⟨hpending, rfl⟩, Registry.find?_register, Registry.find?_register,
      if_pos hname.symm, if_pos hname.symm, hover, h.find_builtin hpending,
      Entry.placedOver_of_ne hother, Entry.placedOver_of_ne hother.symm] at hfind
    exact hne (Option.some.inj hfind).symm
  | unregister name =>
    rintro rfl
    rw [Registry.perform, Registry.perform, Registry.find?_ready, if_pos ⟨hpending, rfl⟩,
      Registry.find?_unregister, Registry.find?_unregister, if_pos rfl, if_pos rfl] at hfind
    exact nomatch hfind

end Alike

/-! ### Runs -/

/-- A question disturbs nothing. -/
theorem Undisturbed.snoc_ask {discovered : Bool} {front back : List Operation}
    (h : Undisturbed discovered (front ++ back)) (question : Question) :
    Undisturbed discovered (front ++ [.ask question]) := by
  induction front generalizing discovered with
  | nil => exact ⟨fun _ => trivial, trivial⟩
  | cons op front ih => exact ⟨h.1, ih h.2⟩

theorem Undisturbed.of_pending {discovered : Bool} {ops : List Operation}
    (h : Undisturbed discovered ops) : Undisturbed true ops := by
  induction ops generalizing discovered with
  | nil => trivial
  | cons op ops ih =>
    refine ⟨fun htrue => (nomatch htrue), ?_⟩
    cases op with
    | register e => exact ih h.2
    | unregister name => exact ih h.2
    | clear => exact h.2
    | ask question => exact h.2

/-- Asking earlier disturbs nothing either. -/
theorem Undisturbed.insert_ask {discovered : Bool} {front back : List Operation}
    (h : Undisturbed discovered (front ++ back)) (question : Question) :
    Undisturbed discovered (front ++ .ask question :: back) := by
  induction front generalizing discovered with
  | nil => exact ⟨fun _ => trivial, h.of_pending⟩
  | cons op front ih => exact ⟨h.1, ih h.2⟩

/-- From registries that are alike on, all questions are answered alike along some operations if and
only if these leave the built-in alone in time. -/
theorem Alike.answers_eq_iff {late early : Registry} (h : Alike late early) {ops : List Operation}
    (hserial : ∀ e, .register e ∈ ops → e.serial = builtin.serial → e = builtin) :
    (∀ front, front <+: ops → ∀ question,
      Registry.answers .empty late (front ++ [.ask question]) =
        Registry.answers .stocked early (front ++ [.ask question])) ↔
      Undisturbed late.discovered ops := by
  refine ⟨fun hsame => ?_, fun hops front hfront question => ?_⟩
  · induction ops generalizing late early with
    | nil => trivial
    | cons op ops ih =>
      -- Asking for the built-in right behind the operation tells whether it was left alone.
      have hspares : late.discovered = false → op.Spares := fun hpending =>
        h.spares hpending (fun e he => hserial e (he ▸ List.mem_cons_self))
          (hsame [op] (List.prefix_append [op] ops) (.entry builtin.name))
      obtain ⟨-, halike, hdiscovered⟩ := h.perform hspares
      have hrest : ∀ e, .register e ∈ ops → e.serial = builtin.serial → e = builtin :=
        fun e he => hserial e (List.mem_cons_of_mem _ he)
      refine ⟨hspares, hdiscovered ▸ ih halike hrest fun front hfront question => ?_⟩
      have hprefix : op :: front <+: op :: ops := List.cons_prefix_cons.mpr ⟨rfl, hfront⟩
      exact (List.cons.inj (hsame (op :: front) hprefix question)).2
  · obtain ⟨back, rfl⟩ := hfront
    exact h.answers_eq (hops.snoc_ask question)

/-- Looking for plugins late makes no difference, whatever is asked and when, if and only if the
name of the built-in is left alone as long as plugins have yet to be looked for. -/
theorem answers_alike_iff (ops : List Operation)
    (hserial : ∀ e, .register e ∈ ops → e.serial = builtin.serial → e = builtin) :
    (∀ front, front <+: ops → ∀ question,
      Registry.lateAnswers (front ++ [.ask question]) =
        Registry.earlyAnswers (front ++ [.ask question])) ↔ Undisturbed false ops :=
  alike_empty_stocked.answers_eq_iff hserial

/-- Another definition under the name of the built-in. -/
def rival : Entry := ⟨1, { chartBlocks with priority := 10 }⟩

/-- A question, and then another definition in the place of the built-in. -/
def askedInTime : List Operation :=
  [.ask (.has "outline"), .register rival, .ask (.entry "chart-blocks"), .unregister "chart-blocks"]

theorem answers_alike_iff_askedInTime :
    (∀ e, .register e ∈ askedInTime → e.serial = builtin.serial → e = builtin) ∧
      ∀ front, front <+: askedInTime → ∀ question,
        Registry.lateAnswers (front ++ [.ask question]) =
          Registry.earlyAnswers (front ++ [.ask question]) := by
  have hserial : ∀ e, .register e ∈ askedInTime → e.serial = builtin.serial → e = builtin := by
    simp [askedInTime, rival, builtin]
  exact ⟨hserial, (answers_alike_iff askedInTime hserial).mpr
    ⟨fun _ => trivial, fun h => (nomatch h), fun _ => trivial, fun h => (nomatch h), trivial⟩⟩

/-- What was registered under the name of the built-in before the first question is not what the
question is answered with. -/
theorem lateAnswers_ne_earlyAnswers :
    Registry.lateAnswers [.register rival, .ask (.entry "chart-blocks")] =
        [.done, .entry (.ok builtin)] ∧
      Registry.earlyAnswers [.register rival, .ask (.entry "chart-blocks")] =
        [.done, .entry (.ok rival)] ∧
      Registry.lateAnswers [.register rival, .ask (.entry "chart-blocks")] ≠
        Registry.earlyAnswers [.register rival, .ask (.entry "chart-blocks")] := by
  have hlate : Registry.lateAnswers [.register rival, .ask (.entry "chart-blocks")] =
      [.done, .entry (.ok builtin)] := rfl
  have hearly : Registry.earlyAnswers [.register rival, .ask (.entry "chart-blocks")] =
      [.done, .entry (.ok rival)] := rfl
  have hserial : builtin.serial ≠ rival.serial := by decide
  refine ⟨hlate, hearly, fun heq => hserial ?_⟩
  rw [hlate, hearly] at heq
  simp only [List.cons.injEq, Answer.entry.injEq, Except.ok.injEq, true_and, and_true] at heq
  rw [heq]

/-! ### Questions in between -/

namespace Registry

/-- Where plugins are looked for at once, a question makes no difference to other answers. -/
theorem eraseIdx_answers {r : Registry} (h : r.discovered = true) (front back : List Operation)
    (question : Question) :
    (answers stocked r (front ++ .ask question :: back)).eraseIdx front.length =
      answers stocked r (front ++ back) := by
  induction front generalizing r with
  | nil =>
    rw [List.nil_append, answers, List.length_nil, List.eraseIdx_zero, List.tail_cons, perform,
      ready_of_discovered h, List.nil_append]
  | cons op front ih =>
    rw [List.cons_append, List.cons_append, answers, answers, List.length_cons,
      List.eraseIdx_cons_succ, ih (discovered_perform h op)]

end Registry

/-- A question in between makes no difference to the other answers, where the name of the built-in
is left alone in time. -/
theorem eraseIdx_lateAnswers {front back : List Operation} (h : Undisturbed false (front ++ back))
    (question : Question) :
    (Registry.lateAnswers (front ++ .ask question :: back)).eraseIdx front.length =
      Registry.lateAnswers (front ++ back) := by
  rw [Registry.lateAnswers, Registry.lateAnswers, alike_empty_stocked.answers_eq h,
    alike_empty_stocked.answers_eq (h.insert_ask question)]
  exact Registry.eraseIdx_answers (Registry.discovered_ready _) front back question

/-! ### What was registered last -/

/-- Whether an operation leaves what stands under a name. -/
def Operation.Leaves (name : String) : Operation → Prop
  | .register e => e.name ≠ name
  | .unregister other => other ≠ name
  | .clear => False
  | .ask _ => True

namespace Registry
variable {r : Registry}

theorem find?_perform (h : r.discovered = true) {op : Operation} {name : String}
    (hop : op.Leaves name) : (perform stocked r op).1.find? name = r.find? name := by
  cases op with
  | register e => rw [perform, find?_register, if_neg (Ne.symm hop)]
  | unregister other => rw [perform, find?_unregister, if_neg (Ne.symm hop)]
  | clear => exact hop.elim
  | ask question => exact find?_ready_of_discovered h name

/-- The last answer is given where the operations before it lead. -/
theorem getLast?_answers_cons (cleared : Registry) (op : Operation) {ops : List Operation}
    (hne : ops ≠ []) :
    (answers cleared r (op :: ops)).getLast? =
      (answers cleared (perform cleared r op).1 ops).getLast? := by
  obtain ⟨next, rest, rfl⟩ := List.exists_cons_of_ne_nil hne
  rw [answers, answers, List.getLast?_cons_cons]

theorem getLast?_answers_of_leaves (h : r.discovered = true) {ops : List Operation} {name : String}
    (hops : ∀ op ∈ ops, op.Leaves name) :
    (answers stocked r (ops ++ [.ask (.entry name)])).getLast? = some (.entry (r.entry name)) := by
  induction ops generalizing r with
  | nil => simp [answers, perform, ready_of_discovered h, answer]
  | cons op ops ih =>
    rw [List.forall_mem_cons] at hops
    have hentry : (perform stocked r op).1.entry name = r.entry name := by
      rw [entry, entry, find?_perform h hops.1]
    rw [List.cons_append, getLast?_answers_cons stocked op (by simp),
      ih (discovered_perform h op) hops.2, hentry]

/-- Where plugins are looked for at once, an entry stands under its name from when it was registered
until something is done under that name. -/
theorem exists_getLast?_answers (h : r.discovered = true) (front : List Operation) (e : Entry)
    {back : List Operation} (hback : ∀ op ∈ back, op.Leaves e.name) :
    ∃ found, found.serial = e.serial ∧
      (answers stocked r (front ++ .register e :: (back ++ [.ask (.entry e.name)]))).getLast? =
        some (.entry (.ok found)) := by
  induction front generalizing r with
  | nil =>
    have hfind : (r.register e).1.find? e.name = some (e.placedOver (r.find? e.name)) := by
      rw [find?_register, if_pos rfl]
    refine ⟨e.placedOver (r.find? e.name), e.serial_placedOver _, ?_⟩
    rw [List.nil_append, getLast?_answers_cons stocked _ (by simp),
      getLast?_answers_of_leaves (discovered_perform h (.register e)) hback, perform, entry, hfind]
  | cons op front ih =>
    rw [List.cons_append, getLast?_answers_cons stocked op (by simp)]
    exact ih (discovered_perform h op)

end Registry

/-- An entry stands under its name from when it was registered until something is done under that
name, where the name of the built-in is left alone in time. -/
theorem exists_getLast?_lateAnswers {front back : List Operation} {e : Entry}
    (h : Undisturbed false (front ++ .register e :: back))
    (hback : ∀ op ∈ back, op.Leaves e.name) :
    ∃ found, found.serial = e.serial ∧
      (Registry.lateAnswers (front ++ .register e :: (back ++ [.ask (.entry e.name)]))).getLast? =
        some (.entry (.ok found)) := by
  have hasked : Undisturbed false (front ++ .register e :: (back ++ [.ask (.entry e.name)])) := by
    have hops : Undisturbed false ((front ++ .register e :: back) ++ []) := by simpa using h
    simpa using hops.snoc_ask (.entry e.name)
  rw [Registry.lateAnswers, alike_empty_stocked.answers_eq hasked]
  exact Registry.exists_getLast?_answers (Registry.discovered_ready _) front e hback

end Chartdown.Transform
