import Chartdown.Chart.Markup

/-! # Failures

How a failure is told to a caller. Plain failures have a kind and a wording. The others belong to
a small tree of families, say where they arose and keep the failure that caused them.

* `mem_families_general`  every failure that is not plain belongs to the general family
-/

namespace Chartdown

/-- The kinds of plain failures. -/
inductive Mishap
  | value | type | key | attribute | jsonSyntax | recursion | encoding | missingFile
  deriving DecidableEq

/-- A failure behind another one. -/
inductive Cause
  | plain (kind : Mishap) (message : String)
  | chart (error : Chart.Error)
  deriving DecidableEq

/-- The wording of a cause. -/
def Cause.message : Cause → String
  | .plain _ message => message
  | .chart error => error.message

/-- The sets of options that a component can be given. -/
inductive OptionsKind
  | html | markdown | chart
  deriving DecidableEq

/-- The name of a set of options in messages. -/
def OptionsKind.name : OptionsKind → String
  | .html => "HtmlRendererOptions"
  | .markdown => "MarkdownParserOptions"
  | .chart => "ChartOptions"

/-- A failure as a caller sees it. -/
inductive Failure
  | plain (kind : Mishap) (message : String)
  | general (message : String) (cause : Option Cause)
  | validation (message : String) (parameter : Option String) (value : Json) (cause : Option Cause)
  | wrongOptions (component : String) (expected received : OptionsKind) (wording : Option String)
      (cause : Option Cause)
  | parsing (message : String) (stage : Option String) (cause : Option Cause)
  | chart (message : String) (category : String) (field : Option String) (cause : Option Cause)
  | rendering (message : String) (stage : Option String) (cause : Option Cause)
  | transform (message : String) (transform : Option String) (cause : Option Cause)

/-- The families of failures that are not plain. -/
inductive Family
  | general | validation | wrongOptions | parsing | chart | rendering | transform
  deriving DecidableEq

/-- The family that a family is part of. -/
def Family.parent? : Family → Option Family
  | .general => none
  | .wrongOptions => some .validation
  | .chart => some .parsing
  | .validation | .parsing | .rendering | .transform => some .general

namespace Failure

/-- The family of a failure. -/
def family? : Failure → Option Family
  | .plain .. => none
  | .general .. => some .general
  | .validation .. => some .validation
  | .wrongOptions .. => some .wrongOptions
  | .parsing .. => some .parsing
  | .chart .. => some .chart
  | .rendering .. => some .rendering
  | .transform .. => some .transform

/-- A family, the family it is part of, and so on up. -/
def ancestry : Family → List Family
  | .general => [.general]
  | .validation => [.validation, .general]
  | .wrongOptions => [.wrongOptions, .validation, .general]
  | .parsing => [.parsing, .general]
  | .chart => [.chart, .parsing, .general]
  | .rendering => [.rendering, .general]
  | .transform => [.transform, .general]

/-- All families that a failure belongs to. -/
def families (f : Failure) : List Family := (f.family?.map ancestry).getD []

theorem ancestry_eq (f : Family) :
    ancestry f = f :: (f.parent?.map ancestry).getD [] := by
  cases f <;> rfl

theorem mem_families_general {f : Failure} (h : f.family?.isSome = true) :
    Family.general ∈ f.families := by
  cases f <;> simp_all [family?, families, ancestry]

/-- The wording of a failure. -/
def message : Failure → String
  | .plain _ message => message
  | .general message _ => message
  | .validation message .. => message
  | .wrongOptions component expected received wording _ =>
    match wording with
    | some w => if w = "" then standard component expected received else w
    | none => standard component expected received
  | .parsing message .. => message
  | .chart message .. => message
  | .rendering message .. => message
  | .transform message .. => message
where
  standard (component : String) (expected received : OptionsKind) : String :=
    component ++ " expected options of type '" ++ expected.name ++ "' but received '" ++
      received.name ++ "'."

/-- The cause of a failure. -/
def cause? : Failure → Option Cause
  | .plain .. => none
  | .general _ cause => cause
  | .validation _ _ _ cause => cause
  | .wrongOptions _ _ _ _ cause => cause
  | .parsing _ _ cause => cause
  | .chart _ _ _ cause => cause
  | .rendering _ _ cause => cause
  | .transform _ _ cause => cause

/-- Where a failure arose. -/
def stage? : Failure → Option String
  | .parsing _ stage _ => stage
  | .chart .. => some "chart"
  | .rendering _ stage _ => stage
  | _ => none

end Failure

/-- Options for a component, which takes one set of them and no other. -/
def OptionsKind.expect (component : String) (expected given : OptionsKind) : Except Failure Unit :=
  if given = expected then .ok ()
  else .error (.wrongOptions component expected given none none)

/-- The kind of an error in JSON: of grammar, or of a limit. -/
def Json.DecodeError.mishap : Json.DecodeError → Mishap
  | .malformed .. => .jsonSyntax
  | .tooDeep _ => .recursion
  | _ => .value

/-- An error in JSON as a failure. -/
def Json.DecodeError.failure (e : Json.DecodeError) : Failure := .plain e.mishap e.message

/-- An obstacle to writing JSON as a failure. -/
def Json.EncodeError.failure (e : Json.EncodeError) : Failure := .plain .value e.message

/-- Unacceptable options as a failure. -/
def OptionError.failure (e : OptionError) : Failure := .plain .value e.message

namespace Chart

/-- The kind of an error in chart data. -/
def DataError.mishap : DataError → Mishap
  | .json (.tooDeep _) => .value
  | .json e => e.mishap
  | _ => .value

/-- An error in chart data as a failure. -/
def DataError.failure (e : DataError) : Failure := .plain e.mishap e.message

/-- The field that a description lacks. -/
def Error.field? : Error → Option String
  | .missingLayout => some "layout"
  | .missingData => some "data"
  | .malformedData _ => none

/-- The error in the data behind an error of a description. -/
def Error.cause? : Error → Option Cause
  | .malformedData e => some (.plain e.mishap e.message)
  | _ => none

/-- An error of a description as a failure. -/
def Error.failure (e : Error) : Failure := .chart e.message e.category e.field? e.cause?

/-- What keeps a chart from being drawn as a failure. -/
def DrawError.failure : DrawError → Failure
  | .description e => e.failure
  | .encoding e => e.failure

end Chart
end Chartdown
