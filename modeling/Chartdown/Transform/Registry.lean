import Chartdown.Transform.Definition
import Chartdown.Transform.Order

/-! # The registry of transforms

Transforms are registered under their names. The built-in one and those of installed plugins are
registered when the registry is first asked about a transform.

* `find?_put`       what was registered last under a name is found there
* `ready_ready`     asking twice is asking once
-/

namespace Chartdown.Transform

/-- A definition to register. The serial number tells definitions apart that look alike. -/
structure Entry where
  serial : Nat
  definition : Definition

/-- The name that an entry is registered under. -/
def Entry.name (e : Entry) : String := e.definition.name

/-- The entry of the selection of chart blocks. -/
def builtin : Entry := ⟨0, chartBlocks⟩

/-- What a plugin offers. -/
inductive Plugin
  | entry (name : String) (offered : Entry)
  /-- A plugin that offers no definition. -/
  | stranger (name : String)
  | failing (name : String) (problem : String)

/-- The plugins that are installed. -/
def installedPlugins : List Plugin := [.entry "chart-blocks" builtin]

/-- The registered transforms, and whether plugins were looked for. -/
structure Registry where
  entries : List Entry := []
  discovered : Bool := false

namespace Registry

/-- Put an entry under its name. -/
def put (entry : Entry) : List Entry → List Entry
  | [] => [entry]
  | e :: rest => if e.name = entry.name then entry :: rest else e :: put entry rest

/-- The entry under a name. -/
def find? (r : Registry) (name : String) : Option Entry := r.entries.find? (·.name == name)

theorem find?_put (entry : Entry) (es : List Entry) :
    (put entry es).find? (·.name == entry.name) = some entry := by
  induction es with
  | nil => simp [put]
  | cons e rest ih => by_cases h : e.name = entry.name <;> simp [put, h, ih]

theorem find?_put_of_ne {entry : Entry} {name : String} (h : entry.name ≠ name)
    (es : List Entry) :
    (put entry es).find? (·.name == name) = es.find? (·.name == name) := by
  induction es with
  | nil => simp [put, h]
  | cons e rest ih =>
    by_cases he : e.name = entry.name
    · simp [put, he, h]
    · simp [put, he, List.find?_cons, ih]

/-- Register an entry. An entry that stands under its name already stays, and one that takes the
place of another is told. -/
def register (r : Registry) (entry : Entry) : Registry × List Notice :=
  match r.find? entry.name with
  | none => ({ r with entries := put entry r.entries }, [])
  | some old =>
    if old.serial = entry.serial then (r, [])
    else ({ r with entries := put entry r.entries }, [.transformReplaced entry.name])

/-- Remove what is registered under a name, and tell whether there was something. -/
def unregister (r : Registry) (name : String) : Registry × Bool :=
  ({ r with entries := r.entries.filter (·.name != name) }, (r.find? name).isSome)

/-- A registry without transforms that has yet to look for plugins. -/
def empty : Registry := {}

/-- Register what a plugin offers, and tell whether it was taken. -/
def load (r : Registry) : Plugin → Registry × List Notice × Bool
  | .entry _ offered =>
    let (r, ns) := r.register offered
    (r, ns, true)
  | .stranger name => (r, [.pluginRejected name], false)
  | .failing name problem => (r, [.pluginFailed name problem], false)

/-- Register what plugins offer, and count those that were taken. -/
def loadAll (r : Registry) : List Plugin → Registry × List Notice × Nat
  | [] => (r, [], 0)
  | p :: rest =>
    let (r, ns, taken) := r.load p
    let (r, ms, count) := r.loadAll rest
    (r, ns ++ ms, (if taken then 1 else 0) + count)

/-- Register the built-in transform and what plugins offer, and count the plugins taken. -/
def discover (r : Registry) (plugins : List Plugin) : Registry × List Notice × Nat :=
  let (r, ns) := r.register builtin
  let (r, ms, count) := r.loadAll plugins
  (r, ns ++ ms, count)

/-- The registry as it answers questions: plugins are looked for the first time. -/
def ready (r : Registry) : Registry × List Notice :=
  if r.discovered then (r, [])
  else
    let (r, ns, _) := { r with discovered := true }.discover installedPlugins
    (r, ns)

theorem discovered_register (r : Registry) (entry : Entry) :
    (r.register entry).1.discovered = r.discovered := by
  unfold register
  split
  · rfl
  · split <;> rfl

theorem discovered_loadAll (r : Registry) (plugins : List Plugin) :
    (r.loadAll plugins).1.discovered = r.discovered := by
  induction plugins generalizing r with
  | nil => rfl
  | cons p rest ih =>
    cases p <;> simp [loadAll, load, ih, discovered_register]

theorem discovered_ready (r : Registry) : r.ready.1.discovered = true := by
  unfold ready
  split
  · assumption
  · simp [discover, discovered_loadAll, discovered_register]

theorem ready_ready (r : Registry) : r.ready.1.ready = (r.ready.1, []) := by
  rw [ready.eq_def r.ready.1, if_pos (discovered_ready r)]

/-! ## Questions -/

/-- Whether something is registered under a name. -/
def has (r : Registry) (name : String) : Bool := (r.find? name).isSome

/-- The registered names in order, or those that carry one of some tags. -/
def names (r : Registry) (tags : Option (List String)) : List String :=
  Text.sortedNames ((r.entries.filter fun e => match tags with
    | none => true
    | some wanted => e.definition.tags.any wanted.contains).map Entry.name)

/-- That nothing is registered under a name. -/
structure NotRegistered where
  name : String
  deriving DecidableEq

/-- The wording of the error. -/
def NotRegistered.message (e : NotRegistered) : String :=
  "Transform '" ++ e.name ++ "' not registered"

/-- The definition under a name. -/
def definition (r : Registry) (name : String) : Except NotRegistered Definition :=
  match r.find? name with
  | some e => .ok e.definition
  | none => .error ⟨name⟩

/-- Make the transform under a name. -/
def create (r : Registry) (name : String) (arguments : Arguments) :
    Registry × Noted Failure Pass :=
  match taken? "TransformRegistry.get_transform" ["self", "name"] arguments with
  | some e => (r, .fail (CreateError.taken e).failure)
  | none =>
    let (r, notices) := r.ready
    (r, do
      .notifyAll notices
      let d ← .ofExcept ((r.definition name).mapError fun e => .plain .key e.message)
      (d.create arguments).mapError (·.failure))

/-- The registered transforms as jobs. -/
def jobs (r : Registry) : List Job :=
  r.entries.map fun e => ⟨e.name, e.definition.priority, e.definition.dependencies⟩

/-- The order in which the transforms that are asked for run. -/
def resolve (r : Registry) (requested : List String) : Except OrderError (List String) :=
  runOrder r.jobs requested

end Registry
end Chartdown.Transform
