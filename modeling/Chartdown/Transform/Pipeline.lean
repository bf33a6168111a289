import Chartdown.Html.Page
import Chartdown.Transform.Registry

/-! # Pipelines

A pipeline is a list of stages. A stage that is named stands for the registered transform and what
it depends on, as far as earlier names have not brought it in. The passes run in order, and each
has to turn a document into a document.

* `applyAll_append`  running two lists of passes is running one after the other
-/

namespace Chartdown.Transform

/-- A stage of a pipeline. -/
inductive Stage
  | named (name : String)
  | given (pass : Pass)
  /-- A value that is no stage. -/
  | other (value : Json)

/-- Why a pipeline fails. -/
inductive PipelineError
  | noStage (kind : Json.Kind)
  | order (error : OrderError)
  | unregistered (error : Registry.NotRegistered)
  | creation (error : CreateError)
  | node (error : NodeError)
  | noDocument (transform : String) (result : Option NodeKind)

/-- The wording of an error. -/
def PipelineError.message : PipelineError → String
  | .noStage kind => "Transform must be str or NodeTransformer, got " ++ kind.name
  | .order error => error.message
  | .unregistered error => error.message
  | .creation error => error.message
  | .node error => error.message
  | .noDocument transform result =>
    "Transform " ++ transform ++ " must return Document, got " ++
      (result.map NodeKind.title).getD "NoneType"

/-- What keeps a pipeline from running as a failure. -/
def PipelineError.failure (e : PipelineError) : Failure :=
  match e with
  | .noStage _ => .plain .type e.message
  | .unregistered _ => .plain .key e.message
  | .creation error => error.failure
  | .noDocument transform _ => .transform e.message (some transform) none
  | .order _ | .node _ => .plain .value e.message

/-- Make the transforms of some names, without arguments. -/
def createAll (r : Registry) : List String → Noted PipelineError (List Pass)
  | [] => pure []
  | name :: rest => do
    let d ← .ofExcept ((r.definition name).mapError .unregistered)
    let made ← (d.create []).mapError .creation
    let others ← createAll r rest
    return made :: others

/-- The passes of some stages and the registry that was asked for them. `seen` are the names
that were brought in before. -/
def passes (r : Registry) (seen : List String) :
    List Stage → Registry × Noted PipelineError (List Pass)
  | [] => (r, pure [])
  | .other v :: _ => (r, .fail (.noStage v.kind))
  | .given pass :: rest =>
    let (r, others) := passes r seen rest
    (r, (pass :: ·) <$> others)
  | .named name :: rest =>
    if seen.contains name then passes r seen rest
    else
      let (r, notices) := r.ready
      match r.resolve [name] with
      | .error e => (r, ⟨notices, .error (.order e)⟩)
      | .ok names =>
        let fresh := names.filter (!seen.contains ·)
        match createAll r fresh with
        | ⟨ns, .error e⟩ => (r, ⟨notices ++ ns, .error e⟩)
        | ⟨ns, .ok made⟩ =>
          let (r, others) := passes r (seen ++ fresh) rest
          (r, ⟨notices ++ ns ++ others.notices, others.result.map (made ++ ·)⟩)

/-- Run a pass that has to make a document. -/
def applyOne (pass : Pass) (doc : Node) : Except PipelineError Node :=
  match pass.run doc with
  | .error e => .error (.node e)
  | .ok none => .error (.noDocument pass.name none)
  | .ok (some result) =>
    if result.kind = .document then .ok result
    else .error (.noDocument pass.name (some result.kind))

/-- Run some passes in order. -/
def applyAll : List Pass → Node → Except PipelineError Node
  | [], doc => .ok doc
  | pass :: rest, doc =>
    match applyOne pass doc with
    | .error e => .error e
    | .ok doc => applyAll rest doc

theorem applyAll_append (rs ts : List Pass) (doc : Node) :
    applyAll (rs ++ ts) doc = match applyAll rs doc with
      | .error e => .error e
      | .ok doc => applyAll ts doc := by
  induction rs generalizing doc with
  | nil => rfl
  | cons pass rest ih =>
    simp only [List.cons_append, applyAll]
    cases applyOne pass doc with
    | error e => rfl
    | ok doc => exact ih doc

/-- Whether some passes leave a document as it is. -/
def keepAll : List Pass → Node → Bool
  | rs, doc => rs.all (·.keeps doc)

/-- Run the stages of a pipeline on a document. -/
def apply (r : Registry) (stages : List Stage) (doc : Node) : Registry × Noted PipelineError Node :=
  let (r, rs) := passes r [] stages
  (r, do
    let rs ← rs
    .ofExcept (applyAll rs doc))

/-- Run the stages of a pipeline on a document and write the result as HTML. -/
def render (r : Registry) (stages : List Stage) (o : Html.Options) (doc : Node) :
    Registry × Noted Failure String :=
  let (r, doc) := apply r stages doc
  (r, do
    let doc ← doc.mapError (·.failure)
    (Html.renderDocument o doc).mapError (·.failure))

/-- A stage that selects chart blocks by a marker, where the stage is named for that selection. -/
def Stage.withMarker (marker : String) : Stage → Stage
  | .named name => if name = chartBlocks.name then .given (.chartBlocks marker) else .named name
  | s => s

end Chartdown.Transform
