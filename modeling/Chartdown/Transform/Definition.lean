import Chartdown.Text.Blank
import Chartdown.Text.Sorted
import Chartdown.Transform.Parameter
import Chartdown.Tree.ChartBlocks

/-! # Definitions of transforms

A definition names a transform, tells how one is made, and declares the parameters it can be made
with. Making one passes the values that were given for declared parameters, once each of them is
accepted, and the defaults of the others. Undeclared names are told and left out.

* `vet_eq_of_lookup_eq`  undeclared arguments have no part in what is passed
-/

namespace Chartdown.Transform

/-- Values under names. -/
abbrev Arguments := List (String × Json)

/-- An argument under a name by which a call takes something else. -/
structure TakenName where
  call : String
  name : String
  deriving DecidableEq

/-- The wording of the error. -/
def TakenName.message (e : TakenName) : String :=
  e.call ++ "() got multiple values for argument '" ++ e.name ++ "'"

/-- The first argument under one of the names that a call takes. -/
def taken? (call : String) (own : List String) (arguments : Arguments) : Option TakenName :=
  (arguments.find? fun a => own.contains a.1).map fun a => ⟨call, a.1⟩

/-- Why a constructor does not take the first argument that is none of its parameters. -/
def misfit? (name : String) (parameters : List String) (arguments : Arguments) : Option Refusal :=
  (arguments.find? fun a => !parameters.contains a.1).map fun a =>
    let call := name ++ ".__init__"
    ⟨.type,
      if parameters.isEmpty then name ++ "() takes no arguments"
      else if a.1 = "self" then (TakenName.mk call a.1).message
      else call ++ "() got an unexpected keyword argument '" ++ a.1 ++ "'"⟩

/-- How transforms of a class are made. -/
structure Maker where
  name : String
  make : Arguments → Except Refusal Pass

/-- What is told of a transform besides how it is made and when it runs. -/
structure Profile where
  name : String
  description : String := ""
  parameters : List (String × Parameter) := []
  dependencies : List String := []
  version : String := "1.0.0"
  author : Option String := none
  tags : List String := []

/-- A definition that has not been checked. -/
structure Draft extends Profile where
  /-- How the transform is made, or else a text that shows what was given instead. -/
  maker : String ⊕ Maker
  priority : Int := 100

/-- A transform that can be made by its name. Of transforms that could run next, the one of the
least priority does. -/
structure Definition extends Profile where
  maker : Maker
  priority : Nat := 100
  name_ne : name ≠ ""

/-- Why a draft is not accepted. -/
inductive DraftError
  | noName
  | noMaker (shown : String)
  | negativePriority (priority : Int)
  deriving DecidableEq

/-- The wording of an error. -/
def DraftError.message : DraftError → String
  | .noName => "Transform name cannot be empty"
  | .noMaker shown => "transformer_class must inherit from NodeTransformer, got " ++ shown
  | .negativePriority priority =>
    "Priority must be non-negative, got " ++ String.ofList (integerText priority)

/-- An unacceptable draft as a failure. -/
def DraftError.failure (e : DraftError) : Failure := .plain .value e.message

/-- The definition of a draft. -/
def Draft.check (d : Draft) : Except DraftError Definition :=
  if h : d.name = "" then .error .noName
  else match d.maker with
    | .inl shown => .error (.noMaker shown)
    | .inr maker =>
      if d.priority < 0 then .error (.negativePriority d.priority)
      else .ok { d.toProfile with maker, priority := d.priority.toNat, name_ne := h }

/-- Why a transform cannot be made. -/
inductive CreateError
  | missing (parameter transform : String)
  | value (problem : ValueProblem)
  | construction (transform : String) (problem : String)
  | refused (refusal : Refusal)
  | taken (error : TakenName)

/-- The wording of an error. -/
def CreateError.message : CreateError → String
  | .missing parameter transform =>
    "Required parameter '" ++ parameter ++ "' not provided for '" ++ transform ++ "'"
  | .value problem => problem.message
  | .construction transform problem =>
    "Failed to create transform '" ++ transform ++ "': " ++ problem
  | .refused refusal => refusal.message
  | .taken error => error.message

/-- The kind of failure that an error is. -/
def CreateError.mishap : CreateError → Mishap
  | .value problem => problem.mishap
  | .refused refusal => refusal.kind
  | .taken _ => .type
  | _ => .value

/-- What keeps a transform from being made as a failure. -/
def CreateError.failure (e : CreateError) : Failure := .plain e.mishap e.message

/-- What is passed for the parameters: the values that were given, and defaults for the others. The
first parameter that is missing or has a value that is not accepted is told. -/
def vet (transform : String) (arguments : Arguments) :
    List (String × Parameter) → Except CreateError Arguments
  | [] => .ok []
  | (name, p) :: rest =>
    match arguments.lookup name with
    | some v =>
      match p.problem? v with
      | some problem => .error (.value problem)
      | none => (vet transform arguments rest).map ((name, v) :: ·)
    | none =>
      if p.required then .error (.missing name transform)
      else match p.default with
        | .null => vet transform arguments rest
        | v => (vet transform arguments rest).map ((name, v) :: ·)

theorem vet_eq_of_lookup_eq {transform : String} {a b : Arguments}
    {parameters : List (String × Parameter)}
    (h : ∀ p ∈ parameters, a.lookup p.1 = b.lookup p.1) :
    vet transform a parameters = vet transform b parameters := by
  induction parameters with
  | nil => rfl
  | cons p rest ih =>
    obtain ⟨name, p⟩ := p
    have hp := h (name, p) (by simp)
    have hr := ih fun q hq => h q (by simp [hq])
    simp only [vet, hp, hr]

/-- Make a transform. That the arguments do not fit the constructor is a failure to create it, and
any other refusal stands for itself. -/
def construct (transform : String) (maker : Maker) (arguments : Arguments) :
    Except CreateError Pass :=
  match maker.make arguments with
  | .ok r => .ok r
  | .error refusal =>
    if refusal.kind = .type then .error (.construction transform refusal.message)
    else .error (.refused refusal)

namespace Definition

/-- The names of arguments that are not declared, in order. -/
def undeclared (d : Definition) (arguments : Arguments) : List String :=
  Text.sortedNames ((arguments.map (·.1)).filter fun name => !d.parameters.any (·.1 == name))

/-- The notice of undeclared arguments, if there are any. -/
def undeclaredNotices (d : Definition) (arguments : Arguments) : List Notice :=
  match d.undeclared arguments with
  | [] => []
  | names => [.unknownParameters d.name names]

/-- Make the transform with arguments that are no names of the call itself. -/
def build (d : Definition) (arguments : Arguments) : Noted CreateError Pass where
  notices := d.undeclaredNotices arguments
  result := match vet d.name arguments d.parameters with
    | .error e => .error e
    | .ok passed => construct d.name d.maker passed

/-- Make the transform with arguments. -/
def create (d : Definition) (arguments : Arguments) : Noted CreateError Pass :=
  match taken? "TransformMetadata.create_instance" ["self"] arguments with
  | some e => .fail (.taken e)
  | none => d.build arguments

end Definition

/-! ## The selection of chart blocks -/

/-- The pass that selects chart blocks by a marker. A marker that is no text selects none. -/
def selectCharts (marker : Json) : Except Refusal Pass :=
  if marker.isGiven = false then .error { message := "marker must be a non-empty string" }
  else match marker with
    | .string s => .ok (.chartBlocks (Text.Utf16.toString s))
    | other => .ok { Pass.selecting (fun _ => false) with attributes := [("marker", other)] }

/-- How the selection of chart blocks is made. -/
def chartBlocksMaker : Maker where
  name := "ChartBlockTransform"
  make arguments :=
    match misfit? "ChartBlockTransform" ["marker"] arguments with
    | some refusal => .error refusal
    | none => selectCharts ((arguments.lookup "marker").getD (.ofString "vis"))

/-- The marker of chart blocks. -/
def markerParameter : Parameter where
  kind := .string
  default := .ofString "vis"
  help := "Code block language that marks a chart description"
  check := some fun
    | .string s => .ok (!Text.isBlankText (Text.Utf16.toChars s))
    | _ => .ok false

/-- The definition of the selection of chart blocks. -/
def chartBlocks : Definition where
  name := "chart-blocks"
  description := "Replace fenced code blocks tagged with the chart marker by chart blocks"
  maker := chartBlocksMaker
  parameters := [("marker", markerParameter)]
  priority := 50
  tags := ["charts", "structure"]
  author := some "mdvis"
  name_ne := by decide

end Chartdown.Transform
