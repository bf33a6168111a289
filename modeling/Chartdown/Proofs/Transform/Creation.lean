import Chartdown.Proofs.Transform.Order

/-!
# Making a transform with arguments

The declared parameters are gone through in order. For each, the arguments of a call either are
acceptable (`Admits`), and then a value may be passed for it (`Passes`), or they offend against it
in one way (`Offends`). So a call either reaches the constructor, with one list of arguments, or is
turned away at the first parameter that it offends against.

The method that is called takes the name `self` itself, so no argument can be given by that name.

## Key results

- `vet_eq_ok_iff`, `vet_eq_error_iff`: what is passed, and the first parameter that is offended
- `create_of_self`: an argument by the name `self` is a failure of type
- `create_spec`: what becomes of a call with any other arguments
-/

namespace Chartdown.Transform

open Parameter (takes)

/-! ### One parameter -/

/-- The arguments of a call are acceptable for a declared parameter: it is given if it must be, and
a value that is given for it is of its kind, among its choices and sound. -/
structure Admits (arguments : Arguments) (q : String × Parameter) : Prop where
  isGiven : q.2.required = true → ∃ v, arguments.lookup q.1 = some v
  isSound : ∀ v, arguments.lookup q.1 = some v →
    takes q.2.kind v = true ∧ q.2.isChoice v = true ∧ q.2.verdict v = .ok true

/-- A value is passed for a declared parameter: the one that is given for it, or its default where
none is given. A default that is null is not passed. -/
inductive Passes (arguments : Arguments) (q : String × Parameter) : Json → Prop
  | given {v : Json} (h : arguments.lookup q.1 = some v) : Passes arguments q v
  | default (h : arguments.lookup q.1 = none) (hdefault : q.2.default ≠ .null) :
      Passes arguments q q.2.default

/-- The arguments of a call offend against a declared parameter. The kind of a value is looked at
first, then the choices, then the check. -/
inductive Offends (transform : String) (arguments : Arguments) (q : String × Parameter) :
    CreateError → Prop
  | missing (h : arguments.lookup q.1 = none) (hrequired : q.2.required = true) :
      Offends transform arguments q (.missing q.1 transform)
  | wrongKind {v : Json} (h : arguments.lookup q.1 = some v) (hkind : takes q.2.kind v = false) :
      Offends transform arguments q (.value (.wrongKind q.2.kind v.kind))
  | noChoice {v : Json} {choices : List Json} (h : arguments.lookup q.1 = some v)
      (hkind : takes q.2.kind v = true) (hchoices : q.2.choices = some choices)
      (hnone : ∀ choice ∈ choices, v.agrees choice = false) :
      Offends transform arguments q (.value (.noChoice choices v))
  | unsound {v : Json} (h : arguments.lookup q.1 = some v) (hkind : takes q.2.kind v = true)
      (hchoice : q.2.isChoice v = true) (hcheck : q.2.verdict v = .ok false) :
      Offends transform arguments q (.value (.unsound v))
  | refused {v : Json} {refusal : Refusal} (h : arguments.lookup q.1 = some v)
      (hkind : takes q.2.kind v = true) (hchoice : q.2.isChoice v = true)
      (hcheck : q.2.verdict v = .error refusal) :
      Offends transform arguments q (.value (.refused refusal))

variable {transform : String} {arguments : Arguments} {q : String × Parameter} {e : CreateError}

/-- A value that is not among the choices agrees with none of them. -/
theorem exists_choices {p : Parameter} {v : Json} (h : p.isChoice v = false) :
    ∃ choices, p.choices = some choices ∧ ∀ choice ∈ choices, v.agrees choice = false := by
  unfold Parameter.isChoice at h
  cases hchoices : p.choices with
  | none => simp [hchoices] at h
  | some choices => exact ⟨choices, rfl, by simpa [hchoices] using h⟩

/-- The first problem with a value that is given is what the arguments offend by. -/
theorem offends_of_problem? {v : Json} {problem : ValueProblem}
    (h : arguments.lookup q.1 = some v) (hproblem : q.2.problem? v = some problem) :
    Offends transform arguments q (.value problem) := by
  -- The kind is checked first, then the choices, then the parameter's own check.
  unfold Parameter.problem? at hproblem
  split at hproblem
  case isTrue hkind =>
    obtain rfl := Option.some.inj hproblem
    exact .wrongKind h hkind
  case isFalse hkind =>
    have hkind : takes q.2.kind v = true := by simpa using hkind
    split at hproblem
    case isTrue hchoice =>
      obtain rfl := Option.some.inj hproblem
      obtain ⟨choices, hchoices, hnone⟩ := exists_choices hchoice
      rw [hchoices]
      exact .noChoice h hkind hchoices hnone
    case isFalse hchoice =>
      have hchoice : q.2.isChoice v = true := by simpa using hchoice
      split at hproblem
      case h_1 refusal hcheck =>
        obtain rfl := Option.some.inj hproblem
        exact .refused h hkind hchoice hcheck
      case h_2 hcheck =>
        obtain rfl := Option.some.inj hproblem
        exact .unsound h hkind hchoice hcheck
      case h_3 => cases hproblem

/-- What is offended by is the first problem of the value that is given, if one is. -/
theorem Offends.cases (h : Offends transform arguments q e) :
    (arguments.lookup q.1 = none ∧ q.2.required = true ∧ e = .missing q.1 transform) ∨
      ∃ v problem, arguments.lookup q.1 = some v ∧ q.2.problem? v = some problem ∧
        e = .value problem := by
  cases h with
  | missing h hrequired => exact .inl ⟨h, hrequired, rfl⟩
  | wrongKind h hkind => exact .inr ⟨_, _, h, by simp [Parameter.problem?, hkind], rfl⟩
  | @noChoice v choices h hkind hchoices hnone =>
    have hchoice : q.2.isChoice v = false := by simpa [Parameter.isChoice, hchoices] using hnone
    exact .inr ⟨_, _, h, by simp [Parameter.problem?, hkind, hchoice, hchoices], rfl⟩
  | unsound h hkind hchoice hcheck =>
    exact .inr ⟨_, _, h, by simp [Parameter.problem?, hkind, hchoice, hcheck], rfl⟩
  | refused h hkind hchoice hcheck =>
    exact .inr ⟨_, _, h, by simp [Parameter.problem?, hkind, hchoice, hcheck], rfl⟩

/-- Arguments that are acceptable do not offend. -/
theorem Admits.not_offends (h : Admits arguments q) : ¬ Offends transform arguments q e := by
  intro hoffends
  rcases hoffends.cases with ⟨hnone, hrequired, -⟩ | ⟨v, problem, hv, hproblem, -⟩
  · obtain ⟨v, hv⟩ := h.isGiven hrequired
    rw [hnone] at hv
    cases hv
  · rw [Parameter.problem?_eq_none_iff.mpr (h.isSound v hv)] at hproblem
    cases hproblem

/-- Arguments that are not acceptable offend. -/
theorem admits_or_offends (transform : String) (arguments : Arguments) (q : String × Parameter) :
    Admits arguments q ∨ ∃ e, Offends transform arguments q e := by
  cases hlookup : arguments.lookup q.1 with
  | none =>
    cases hrequired : q.2.required with
    | true => exact .inr ⟨_, .missing hlookup hrequired⟩
    | false =>
      apply Or.inl
      constructor
      · simp [hrequired]
      · simp [hlookup]
  | some v =>
    cases hproblem : q.2.problem? v with
    | some problem => exact .inr ⟨_, offends_of_problem? hlookup hproblem⟩
    | none =>
      apply Or.inl
      constructor
      · exact fun _ => ⟨v, hlookup⟩
      · intro w hw
        obtain rfl := Option.some.inj (hlookup.symm.trans hw)
        exact Parameter.problem?_eq_none_iff.mp hproblem

/-! ### All parameters -/

/-- What is passed for a parameter, as a list of one argument or none. -/
def passedFor (arguments : Arguments) (q : String × Parameter) : Arguments :=
  match arguments.lookup q.1 with
  | some v => [(q.1, v)]
  | none =>
    match q.2.default with
    | .null => []
    | v => [(q.1, v)]

theorem passedFor_of_given {v : Json} (h : arguments.lookup q.1 = some v) :
    passedFor arguments q = [(q.1, v)] := by
  simp [passedFor, h]

theorem passedFor_of_null (h : arguments.lookup q.1 = none) (hnull : q.2.default = .null) :
    passedFor arguments q = [] := by
  simp [passedFor, h, hnull]

theorem passedFor_of_default (h : arguments.lookup q.1 = none) (hdefault : q.2.default ≠ .null) :
    passedFor arguments q = [(q.1, q.2.default)] := by
  unfold passedFor
  rw [h]
  show (match q.2.default with | .null => [] | v => [(q.1, v)]) = _
  split
  · exact absurd ‹_› hdefault
  · rfl

/-- The three ways in which a parameter is passed or is not. -/
theorem passedFor_cases (arguments : Arguments) (q : String × Parameter) :
    (∃ v, passedFor arguments q = [(q.1, v)] ∧ Passes arguments q v) ∨
      (passedFor arguments q = [] ∧ ∀ v, ¬ Passes arguments q v) := by
  cases hlookup : arguments.lookup q.1 with
  | some v => exact .inl ⟨v, passedFor_of_given hlookup, .given hlookup⟩
  | none =>
    by_cases hnull : q.2.default = .null
    · apply Or.inr
      constructor
      · exact passedFor_of_null hlookup hnull
      · intro v hpasses
        cases hpasses with
        | given h => rw [hlookup] at h; cases h
        | default _ hdefault => exact hdefault hnull
    · exact .inl ⟨_, passedFor_of_default hlookup hnull, .default hlookup hnull⟩

/-- For one parameter one value is passed at most. -/
theorem Passes.eq {v w : Json} (hv : Passes arguments q v) (hw : Passes arguments q w) : v = w := by
  cases hv with
  | given hv =>
    cases hw with
    | given hw => exact Option.some.inj (hv.symm.trans hw)
    | default hw => rw [hv] at hw; cases hw
  | default hv =>
    cases hw with
    | given hw => rw [hv] at hw; cases hw
    | default => rfl

theorem mem_passedFor {name : String} {v : Json} :
    (name, v) ∈ passedFor arguments q ↔ name = q.1 ∧ Passes arguments q v := by
  rcases passedFor_cases arguments q with ⟨w, hpassed, hpasses⟩ | ⟨hpassed, hnone⟩
  · rw [hpassed, List.mem_singleton, Prod.mk.injEq]
    constructor
    · rintro ⟨rfl, rfl⟩
      exact ⟨rfl, hpasses⟩
    · rintro ⟨rfl, hv⟩
      exact ⟨rfl, hv.eq hpasses⟩
  · rw [hpassed]
    exact ⟨fun h => (List.not_mem_nil h).elim, fun h => (hnone v h.2).elim⟩

theorem mem_passed {parameters : List (String × Parameter)} {name : String} {v : Json} :
    (name, v) ∈ parameters.flatMap (passedFor arguments) ↔
      ∃ p, (name, p) ∈ parameters ∧ Passes arguments (name, p) v := by
  rw [List.mem_flatMap]
  constructor
  · rintro ⟨⟨_, p⟩, hq, hmem⟩
    obtain ⟨rfl, hpasses⟩ := mem_passedFor.mp hmem
    exact ⟨p, hq, hpasses⟩
  · rintro ⟨p, hq, hpasses⟩
    exact ⟨(name, p), hq, mem_passedFor.mpr ⟨rfl, hpasses⟩⟩

/-- The names that are passed for parameters are names of them, in their order. -/
theorem names_passed_sublist (arguments : Arguments) (parameters : List (String × Parameter)) :
    ((parameters.flatMap (passedFor arguments)).map (·.1)).Sublist (parameters.map (·.1)) := by
  induction parameters with
  | nil => exact .slnil
  | cons q rest ih =>
    rw [List.flatMap_cons, List.map_append, List.map_cons]
    rcases passedFor_cases arguments q with ⟨v, hpassed, -⟩ | ⟨hpassed, -⟩
    · rw [hpassed]
      exact ih.cons_cons q.1
    · rw [hpassed]
      exact ih.cons q.1

theorem vet_cons_of_admits (h : Admits arguments q) (rest : List (String × Parameter)) :
    vet transform arguments (q :: rest) =
      (vet transform arguments rest).map (passedFor arguments q ++ ·) := by
  obtain ⟨name, p⟩ := q
  cases hlookup : arguments.lookup name with
  | some v =>
    have hproblem := Parameter.problem?_eq_none_iff.mpr (h.isSound v hlookup)
    simp [vet, passedFor, hlookup, hproblem]
  | none =>
    have hoptional : p.required = false := by
      rw [Bool.eq_false_iff]
      intro hrequired
      obtain ⟨v, hv⟩ := h.isGiven hrequired
      rw [hlookup] at hv
      cases hv
    cases hdefault : p.default
    case null =>
      -- Nothing is passed, and putting nothing in front changes nothing.
      simp only [vet, passedFor, hlookup, hoptional, hdefault]
      cases vet transform arguments rest
      all_goals rfl
    all_goals simp [vet, passedFor, hlookup, hoptional, hdefault]

theorem vet_cons_of_offends (h : Offends transform arguments q e)
    (rest : List (String × Parameter)) : vet transform arguments (q :: rest) = .error e := by
  obtain ⟨name, p⟩ := q
  rcases h.cases with ⟨hnone, hrequired, rfl⟩ | ⟨v, problem, hv, hproblem, rfl⟩
  · have hrequired : p.required = true := hrequired
    simp [vet, hnone, hrequired]
  · simp [vet, hv, hproblem]

theorem vet_append_of_admits {front : List (String × Parameter)}
    (h : ∀ q ∈ front, Admits arguments q) (back : List (String × Parameter)) :
    vet transform arguments (front ++ back) =
      (vet transform arguments back).map (front.flatMap (passedFor arguments) ++ ·) := by
  induction front with
  | nil => cases hback : vet transform arguments back <;> simp [hback, Except.map]
  | cons q front ih =>
    obtain ⟨hq, hfront⟩ := List.forall_mem_cons.mp h
    rw [List.cons_append, vet_cons_of_admits hq, ih hfront]
    cases vet transform arguments back <;> simp [Except.map]

/-- Where some parameter is offended, there is a first one. -/
theorem admits_or_exists_offends (transform : String) (arguments : Arguments)
    (parameters : List (String × Parameter)) :
    (∀ q ∈ parameters, Admits arguments q) ∨
      ∃ front q back e, parameters = front ++ q :: back ∧ (∀ r ∈ front, Admits arguments r) ∧
        Offends transform arguments q e := by
  induction parameters with
  | nil => exact .inl (List.forall_mem_nil _)
  | cons q rest ih =>
    rcases admits_or_offends transform arguments q with hq | ⟨e, he⟩
    · rcases ih with hrest | ⟨front, r, back, e, rfl, hfront, he⟩
      · exact .inl (List.forall_mem_cons.mpr ⟨hq, hrest⟩)
      · exact .inr ⟨q :: front, r, back, e, rfl, List.forall_mem_cons.mpr ⟨hq, hfront⟩, he⟩
    · exact .inr ⟨[], q, rest, e, rfl, List.forall_mem_nil _, he⟩

variable {parameters : List (String × Parameter)}

theorem vet_of_admits (h : ∀ q ∈ parameters, Admits arguments q) :
    vet transform arguments parameters = .ok (parameters.flatMap (passedFor arguments)) := by
  have hvet : vet transform arguments (parameters ++ []) =
      (vet transform arguments []).map (parameters.flatMap (passedFor arguments) ++ ·) :=
    vet_append_of_admits h []
  simpa [vet, Except.map] using hvet

theorem vet_of_offends {front back : List (String × Parameter)}
    (hfront : ∀ r ∈ front, Admits arguments r) (he : Offends transform arguments q e) :
    vet transform arguments (front ++ q :: back) = .error e := by
  rw [vet_append_of_admits hfront, vet_cons_of_offends he]
  rfl

/-- Arguments are passed exactly if they are acceptable for every parameter. -/
theorem vet_eq_ok_iff {passed : Arguments} :
    vet transform arguments parameters = .ok passed ↔
      (∀ q ∈ parameters, Admits arguments q) ∧
        passed = parameters.flatMap (passedFor arguments) := by
  constructor
  · intro h
    rcases admits_or_exists_offends transform arguments parameters with
      hall | ⟨front, q, back, e, rfl, hfront, he⟩
    · rw [vet_of_admits hall] at h
      exact ⟨hall, (Except.ok.inj h).symm⟩
    · rw [vet_of_offends hfront he] at h
      cases h
  · rintro ⟨hall, rfl⟩
    exact vet_of_admits hall

/-- What keeps the constructor from making a transform is a failure of value, unless it refuses with
another kind of failure that is not one of type. -/
theorem mishap_of_construct {maker : Maker} {passed : Arguments}
    (h : construct transform maker passed = .error e) :
    e.mishap = .value ∨ ∃ refusal, maker.make passed = .error refusal ∧ e = .refused refusal ∧
      refusal.kind ∉ [.type, .value] := by
  unfold construct at h
  split at h
  · cases h
  · rename_i refusal hrefusal
    split at h
    case isTrue =>
      obtain rfl := Except.error.inj h
      exact .inl rfl
    case isFalse htype =>
      obtain rfl := Except.error.inj h
      by_cases hvalue : refusal.kind = .value
      · exact .inl hvalue
      · exact .inr ⟨refusal, hrefusal, rfl, by simp [htype, hvalue]⟩

/-- Offending is a failure of value where checks refuse with such failures only. -/
theorem Offends.mishap (h : Offends transform arguments q e)
    (hchecks : ∀ v refusal, q.2.verdict v = .error refusal → refusal.kind = .value) :
    e.mishap = .value := by
  cases h with
  | refused _ _ _ hcheck => exact hchecks _ _ hcheck
  | missing | wrongKind | noChoice | unsound => rfl

/-! ### Calls -/

namespace Definition

/-- A call reaches the constructor with some arguments: whatever the constructor is, the result is
what it makes of them. -/
def Reaches (d : Definition) (arguments passed : Arguments) : Prop :=
  ∀ maker : Maker,
    (create { d with maker := maker } arguments).result = construct d.name maker passed

/-- A call is turned away before it reaches the constructor: whatever that is, the call fails in the
same way. -/
def TurnsAway (d : Definition) (arguments : Arguments) (e : CreateError) : Prop :=
  ∀ maker : Maker, (create { d with maker := maker } arguments).result = .error e

/-- The constructor that keeps all that it is passed. -/
def keeper : Maker where
  name := "Kept"
  make passed := .ok { Pass.identity with attributes := passed }

theorem construct_keeper (transform : String) (passed : Arguments) :
    construct transform keeper passed = .ok { Pass.identity with attributes := passed } := rfl

variable {d : Definition}

/-- Nothing is given by a name when no argument has it. -/
theorem lookup_eq_none_iff {name : String} :
    arguments.lookup name = none ↔ ∀ a ∈ arguments, a.1 ≠ name := by
  rw [List.lookup_eq_none_iff]
  simp only [bne_iff_ne, ne_eq, @eq_comm _ name]

theorem taken?_eq_none (call : String) (h : arguments.lookup "self" = none) :
    taken? call ["self"] arguments = none := by
  unfold taken?
  rw [Option.map_eq_none_iff, List.find?_eq_none]
  intro a ha
  simpa using lookup_eq_none_iff.mp h a ha

theorem taken?_eq_some (call : String) (h : arguments.lookup "self" ≠ none) :
    taken? call ["self"] arguments = some ⟨call, "self"⟩ := by
  unfold taken?
  cases hfind : arguments.find? fun a => ["self"].contains a.1 with
  | none =>
    -- Then nothing is given by the name, against the hypothesis.
    apply absurd _ h
    rw [lookup_eq_none_iff]
    intro a ha
    simpa using List.find?_eq_none.mp hfind a ha
  | some a =>
    have hname : a.1 = "self" := by simpa using List.find?_some hfind
    rw [Option.map_some, hname]

/-- A call with an argument by the name `self` fails before anything is looked at. -/
theorem create_of_self (d : Definition) (h : arguments.lookup "self" ≠ none) :
    d.create arguments = .fail (.taken ⟨"TransformMetadata.create_instance", "self"⟩) := by
  unfold create
  rw [taken?_eq_some _ h]

theorem create_eq_build (d : Definition) (h : arguments.lookup "self" = none) :
    d.create arguments = d.build arguments := by
  unfold create
  rw [taken?_eq_none _ h]

theorem result_create_of_admits (hself : arguments.lookup "self" = none)
    (h : ∀ q ∈ d.parameters, Admits arguments q) :
    (d.create arguments).result =
      construct d.name d.maker (d.parameters.flatMap (passedFor arguments)) := by
  rw [create_eq_build d hself, build, vet_of_admits h]

theorem result_create_of_offends (hself : arguments.lookup "self" = none)
    {front back : List (String × Parameter)} (hsplit : d.parameters = front ++ q :: back)
    (hfront : ∀ r ∈ front, Admits arguments r) (he : Offends d.name arguments q e) :
    (d.create arguments).result = .error e := by
  rw [create_eq_build d hself, build, hsplit, vet_of_offends hfront he]

/-- The constructor is reached exactly if the arguments are acceptable for every parameter. -/
theorem reaches_iff (hself : arguments.lookup "self" = none) {passed : Arguments} :
    d.Reaches arguments passed ↔
      (∀ q ∈ d.parameters, Admits arguments q) ∧
        passed = d.parameters.flatMap (passedFor arguments) := by
  constructor
  · intro h
    -- The constructor that keeps what it is passed tells what that was.
    have hkept := h keeper
    rw [construct_keeper] at hkept
    rcases admits_or_exists_offends d.name arguments d.parameters with
      hall | ⟨front, q, back, e, hsplit, hfront, he⟩
    · rw [result_create_of_admits (d := { d with maker := keeper }) hself hall,
        construct_keeper] at hkept
      exact ⟨hall, (congrArg Pass.attributes (Except.ok.inj hkept)).symm⟩
    · rw [result_create_of_offends (d := { d with maker := keeper }) hself hsplit hfront
        he] at hkept
      cases hkept
  · rintro ⟨hall, rfl⟩ maker
    exact result_create_of_admits (d := { d with maker := maker }) hself hall

/-- A call is turned away for the first parameter that it offends against. -/
theorem turnsAway_iff (hself : arguments.lookup "self" = none) :
    d.TurnsAway arguments e ↔
      ∃ front q back, d.parameters = front ++ q :: back ∧ (∀ r ∈ front, Admits arguments r) ∧
        Offends d.name arguments q e := by
  constructor
  · intro h
    have hkept := h keeper
    rcases admits_or_exists_offends d.name arguments d.parameters with
      hall | ⟨front, q, back, e', hsplit, hfront, he⟩
    · rw [result_create_of_admits (d := { d with maker := keeper }) hself hall,
        construct_keeper] at hkept
      cases hkept
    · rw [result_create_of_offends (d := { d with maker := keeper }) hself hsplit hfront
        he] at hkept
      obtain rfl := Except.error.inj hkept
      exact ⟨front, q, back, hsplit, hfront, he⟩
  · rintro ⟨front, q, back, hsplit, hfront, he⟩ maker
    exact result_create_of_offends (d := { d with maker := maker }) hself hsplit hfront he

/-- The undeclared names of a call. -/
theorem mem_undeclared {name : String} :
    name ∈ d.undeclared arguments ↔
      (∃ v, arguments.lookup name = some v) ∧ ∀ q ∈ d.parameters, q.1 ≠ name := by
  have hgiven : (∃ v, arguments.lookup name = some v) ↔ name ∈ arguments.map (·.1) := by
    rw [← Option.isSome_iff_exists, Option.isSome_iff_ne_none, ne_eq, lookup_eq_none_iff]
    simp
  rw [undeclared, Text.mem_sortedNames, List.mem_filter, hgiven]
  simp

theorem notices_create (hself : arguments.lookup "self" = none) :
    (d.create arguments).notices =
      if d.undeclared arguments = [] then []
      else [.unknownParameters d.name (d.undeclared arguments)] := by
  rw [create_eq_build d hself]
  show d.undeclaredNotices arguments = _
  unfold undeclaredNotices
  cases d.undeclared arguments with
  | nil => rfl
  | cons name names => rfl

/-- A call fails for a parameter or at the constructor, and both are failures of value. -/
theorem mishap_eq_value (hself : arguments.lookup "self" = none)
    (hchecks : ∀ q ∈ d.parameters, ∀ v refusal, q.2.verdict v = .error refusal →
      refusal.kind = .value)
    (hmaker : ∀ passed refusal, d.maker.make passed = .error refusal →
      refusal.kind = .type ∨ refusal.kind = .value)
    (he : (d.create arguments).result = .error e) : e.mishap = .value := by
  rcases admits_or_exists_offends d.name arguments d.parameters with
    hall | ⟨front, q, back, e', hsplit, hfront, hoffends⟩
  · rw [result_create_of_admits hself hall] at he
    rcases mishap_of_construct he with hvalue | ⟨refusal, hrefusal, -, hkind⟩
    · exact hvalue
    · exact absurd (by simpa using hmaker _ _ hrefusal) hkind
  · rw [result_create_of_offends hself hsplit hfront hoffends] at he
    obtain rfl := Except.error.inj he
    exact hoffends.mishap (hchecks q (by simp [hsplit]))

/-- What becomes of a call, when no argument has the name that the method takes itself, checks
refuse with failures of value and the constructor with failures of value or type.

The constructor is reached exactly if every required parameter is given and every value that is
given for a parameter is accepted. It is passed those values, and the defaults other than null of
the parameters that are not given, and nothing else. Otherwise the call is turned away for the first
parameter that it offends against. Every failure is one of value. Arguments that are not declared
make no difference but for one notice, which tells their names in order. -/
theorem create_spec (d : Definition) (arguments : Arguments)
    (hself : arguments.lookup "self" = none)
    (hchecks : ∀ q ∈ d.parameters, ∀ v refusal, q.2.verdict v = .error refusal →
      refusal.kind = .value)
    (hmaker : ∀ passed refusal, d.maker.make passed = .error refusal →
      refusal.kind = .type ∨ refusal.kind = .value) :
    ((∃ passed, d.Reaches arguments passed) ↔ ∀ q ∈ d.parameters, Admits arguments q) ∧
    (∀ passed, d.Reaches arguments passed →
      (passed.map (·.1)).Sublist (d.parameters.map (·.1)) ∧
      ∀ name v, (name, v) ∈ passed ↔ ∃ p, (name, p) ∈ d.parameters ∧ Passes arguments (name, p) v) ∧
    (∀ e, d.TurnsAway arguments e ↔
      ∃ front q back, d.parameters = front ++ q :: back ∧ (∀ r ∈ front, Admits arguments r) ∧
        Offends d.name arguments q e) ∧
    (∀ e, (d.create arguments).result = .error e → e.failure = .plain .value e.message) ∧
    (∀ others : Arguments, others.lookup "self" = none →
      (∀ q ∈ d.parameters, others.lookup q.1 = arguments.lookup q.1) →
        (d.create others).result = (d.create arguments).result) ∧
    ∃ names : List String, names.Pairwise (· < ·) ∧
      (∀ name, name ∈ names ↔
        (∃ v, arguments.lookup name = some v) ∧ ∀ q ∈ d.parameters, q.1 ≠ name) ∧
      (d.create arguments).notices =
        if names = [] then [] else [.unknownParameters d.name names] := by
  refine ⟨?reached, ?passed, fun e => turnsAway_iff hself, ?failures, ?others,
    d.undeclared arguments, Text.pairwise_sortedNames _, fun name => mem_undeclared,
    notices_create hself⟩
  case reached =>
    constructor
    · rintro ⟨passed, hreaches⟩
      exact ((reaches_iff hself).mp hreaches).1
    · intro hall
      exact ⟨_, (reaches_iff hself).mpr ⟨hall, rfl⟩⟩
  case passed =>
    intro passed hreaches
    obtain ⟨-, rfl⟩ := (reaches_iff hself).mp hreaches
    constructor
    · exact names_passed_sublist arguments d.parameters
    · exact fun name v => mem_passed
  case failures =>
    intro e he
    unfold CreateError.failure
    rw [mishap_eq_value hself hchecks hmaker he]
  case others =>
    intro others hothers hsame
    rw [create_eq_build d hothers, create_eq_build d hself]
    unfold build
    rw [vet_eq_of_lookup_eq hsame]

/-! ### The selection of chart blocks -/

/-- The check of the marker never refuses with a failure of its own. -/
theorem verdict_ne_error (hq : q ∈ chartBlocks.parameters) (v : Json) (refusal : Refusal) :
    q.2.verdict v ≠ .error refusal := by
  obtain rfl := List.mem_singleton.mp hq
  cases v
  all_goals exact nofun

/-- The selection of chart blocks refuses arguments that it does not take with a failure of type,
and a marker that is not given with one of value. -/
theorem kind_of_chartBlocksMaker {passed : Arguments} {refusal : Refusal}
    (h : chartBlocksMaker.make passed = .error refusal) :
    refusal.kind = .type ∨ refusal.kind = .value := by
  simp only [chartBlocksMaker] at h
  split at h
  case h_1 misfit hmisfit =>
    obtain rfl := Except.error.inj h
    obtain ⟨a, -, rfl⟩ := Option.map_eq_some_iff.mp hmisfit
    exact .inl rfl
  case h_2 =>
    unfold selectCharts at h
    split at h
    · obtain rfl := Except.error.inj h
      exact .inr rfl
    · split at h
      all_goals cases h

/-- A marker, between two arguments that are not declared. -/
def relabelled : Arguments :=
  [("size", .ofInt 3), ("marker", .ofString "diagram"), ("colour", .null)]

theorem admits_relabelled (hq : q ∈ chartBlocks.parameters) : Admits relabelled q := by
  obtain rfl := List.mem_singleton.mp hq
  constructor
  · exact nofun
  · intro v hv
    have hlookup : relabelled.lookup "marker" = some (.ofString "diagram") := rfl
    obtain rfl := Option.some.inj (hlookup.symm.trans hv)
    exact ⟨by decide, by decide, rfl⟩

/-- The marker alone is passed. The two others are told, and make no other difference. A marker that
is no text is what a call is turned away for. -/
theorem create_spec_relabelled :
    relabelled.lookup "self" = none ∧
      (∃ passed, chartBlocks.Reaches relabelled passed ∧
        ∀ name v, (name, v) ∈ passed ↔ name = "marker" ∧ v = .ofString "diagram") ∧
      (chartBlocks.create [("marker", .ofString "diagram")]).result =
        (chartBlocks.create relabelled).result ∧
      (∃ names, (chartBlocks.create relabelled).notices =
          [.unknownParameters "chart-blocks" names] ∧ "colour" ∈ names ∧ "size" ∈ names) ∧
      chartBlocks.TurnsAway [("marker", .ofInt 5)] (.value (.wrongKind .string .integer)) := by
  have hself : relabelled.lookup "self" = none := by decide
  have hspec (arguments : Arguments) (h : arguments.lookup "self" = none) :=
    create_spec chartBlocks arguments h (fun q hq v refusal hrefusal =>
      (verdict_ne_error hq v refusal hrefusal).elim) fun passed refusal => kind_of_chartBlocksMaker
  obtain ⟨hreached, hpassed, -, -, hothers, names, -, hnames, hnotices⟩ := hspec relabelled hself
  refine ⟨hself, ?passed, ?others, ⟨names, ?notices, ?colour, ?size⟩, ?turnsAway⟩
  case passed =>
    obtain ⟨passed, hreaches⟩ := hreached.mpr fun q hq => admits_relabelled hq
    refine ⟨passed, hreaches, fun name v => ?_⟩
    rw [(hpassed passed hreaches).2]
    constructor
    · rintro ⟨p, hq, hpasses⟩
      obtain ⟨rfl, rfl⟩ := Prod.mk.inj (List.mem_singleton.mp hq)
      exact ⟨rfl, hpasses.eq (.given rfl)⟩
    · rintro ⟨rfl, rfl⟩
      exact ⟨markerParameter, List.mem_singleton.mpr rfl, .given rfl⟩
  case others =>
    apply hothers _ (by decide)
    intro q hq
    obtain rfl := List.mem_singleton.mp hq
    rfl
  case colour => exact (hnames "colour").mpr ⟨⟨_, rfl⟩, by decide⟩
  case size => exact (hnames "size").mpr ⟨⟨_, rfl⟩, by decide⟩
  case notices =>
    rw [hnotices, if_neg]
    · rfl
    · exact List.ne_nil_of_mem ((hnames "size").mpr ⟨⟨_, rfl⟩, by decide⟩)
  case turnsAway =>
    obtain ⟨-, -, hturns, -⟩ := hspec [("marker", .ofInt 5)] (by decide)
    have hoffends : Offends chartBlocks.name [("marker", .ofInt 5)] ("marker", markerParameter)
        (.value (.wrongKind .string .integer)) :=
      Offends.wrongKind (v := .ofInt 5) rfl (by decide)
    exact (hturns _).mpr ⟨[], _, [], rfl, List.forall_mem_nil _, hoffends⟩

/-- An argument by the name `self` is not declared, and the call fails all the same. -/
theorem create_of_self_ne_value :
    (∀ q ∈ chartBlocks.parameters, Admits [("self", .ofInt 1)] q) ∧
      (∃ pass, (chartBlocks.create []).result = .ok pass) ∧
      ∃ e, (chartBlocks.create [("self", .ofInt 1)]).result = .error e ∧
        e.failure = .plain .type e.message := by
  refine ⟨?_, ⟨_, rfl⟩, _, rfl, rfl⟩
  intro q hq
  obtain rfl := List.mem_singleton.mp hq
  constructor
  · exact nofun
  · exact nofun

end Definition

end Chartdown.Transform
