import Chartdown.Failure
import Chartdown.Json.Display

/-! # Parameters of transforms

A parameter says which values it takes: of a kind, out of some choices, and passing a check. The
three are looked at in this order, and the first that fails is told.

* `problem?_eq_none_iff`  a value is accepted when it passes all three
-/

namespace Chartdown.Transform

/-- Why a check or a constructor turns down what it is given. -/
structure Refusal where
  kind : Mishap := .value
  message : String
  deriving DecidableEq

/-- A parameter that a transform can be made with. -/
structure Parameter where
  kind : Json.Kind
  /-- What is passed where no value is given; null passes nothing. -/
  default : Json := .null
  help : String := ""
  required : Bool := false
  choices : Option (List Json) := none
  check : Option (Json → Except Refusal Bool) := none

/-- Why a value is not accepted. -/
inductive ValueProblem
  | wrongKind (expected actual : Json.Kind)
  | noChoice (choices : List Json) (value : Json)
  | unsound (value : Json)
  | refused (refusal : Refusal)

/-- The wording of a problem. -/
def ValueProblem.message : ValueProblem → String
  | .wrongKind expected actual => "Expected type " ++ expected.name ++ ", got " ++ actual.name
  | .noChoice choices value =>
    "Value must be one of " ++ Json.inspect (.array choices) ++ ", got " ++ Json.inspect value
  | .unsound value => "Validation failed for value: " ++ Json.inspect value
  | .refused refusal => refusal.message

/-- The kind of failure that a problem is. -/
def ValueProblem.mishap : ValueProblem → Mishap
  | .refused refusal => refusal.kind
  | _ => .value

namespace Parameter

/-- Whether a kind takes a value. Truth values count as whole numbers too. -/
def takes (kind : Json.Kind) (v : Json) : Bool :=
  v.kind == kind || (kind == .integer && v.kind == .bool)

/-- Whether a value is among the choices, where there are any. -/
def isChoice (p : Parameter) (v : Json) : Bool :=
  match p.choices with
  | none => true
  | some choices => choices.any v.agrees

/-- What the check says of a value. -/
def verdict (p : Parameter) (v : Json) : Except Refusal Bool :=
  match p.check with
  | none => .ok true
  | some check => check v

/-- The first problem with a value. -/
def problem? (p : Parameter) (v : Json) : Option ValueProblem :=
  if takes p.kind v = false then some (.wrongKind p.kind v.kind)
  else if p.isChoice v = false then some (.noChoice (p.choices.getD []) v)
  else match p.verdict v with
    | .error refusal => some (.refused refusal)
    | .ok false => some (.unsound v)
    | .ok true => none

theorem problem?_eq_none_iff {p : Parameter} {v : Json} :
    p.problem? v = none ↔ takes p.kind v = true ∧ p.isChoice v = true ∧ p.verdict v = .ok true := by
  unfold problem?
  split
  · simp_all
  · split
    · simp_all
    · split <;> simp_all

end Parameter
end Chartdown.Transform
