import Chartdown.Chart.Description
import Chartdown.Text.Quoted

/-! # Notices

What an operation tells its caller besides its result, without failing. `Noted` pairs a result
with the notices that were given on the way, in order; a failure keeps those given before it.

* `Noted.bind_assoc`  the order of steps is all that counts
* `Noted.result_bind_eq_ok_iff`  steps have a result when each of them has one
-/

namespace Chartdown

/-- Something a caller should know. -/
inductive Notice
  | heightIgnored (hint : String)
  | languageTooLong (name : String)
  | languageBlocked (name : String)
  | chartSkipped (error : Chart.Error)
  | libraryMissing (charts : Nat)
  | transformReplaced (name : String)
  | unknownParameters (transform : String) (names : List String)
  | pluginFailed (name : String) (problem : String)
  | pluginRejected (name : String)
  | logFileFailed (path : String) (problem : String)
  deriving DecidableEq

/-- The category of an error of a chart description in messages. -/
def Chart.Error.category : Chart.Error → String
  | .missingLayout | .missingData => "missing_field"
  | .malformedData _ => "malformed_data"

/-- The wording of a notice. -/
def Notice.message : Notice → String
  | .heightIgnored hint =>
    "Ignoring chart height " ++ Text.quotedString hint ++ ": not a single CSS value"
  | .languageTooLong name =>
    "Language identifier exceeds maximum length (50): " ++ name ++ "..."
  | .languageBlocked name =>
    "Blocked language identifier containing invalid characters: " ++ name
  | .chartSkipped error =>
    "Skipping chart block (" ++ error.category ++ "): " ++ error.message
  | .libraryMissing charts =>
    "Document contains " ++ charts.repr ++ " chart(s) but allow_remote_scripts=False; " ++
      "Chart.js is not loaded and the host page must provide it."
  | .transformReplaced name => "Transform '" ++ name ++ "' already registered, replacing it"
  | .unknownParameters transform names =>
    "Transform '" ++ transform ++ "' received unknown parameter(s): " ++ ", ".intercalate names
  | .pluginFailed name problem =>
    "Failed to load transform entry point '" ++ name ++ "': " ++ problem
  | .pluginRejected name => "Entry point '" ++ name ++ "' is not a TransformMetadata, skipping"
  | .logFileFailed path problem => "Could not create log file " ++ path ++ ": " ++ problem

/-- A result and the notices given on the way to it. -/
structure Noted (ε α : Type) where
  notices : List Notice
  result : Except ε α

namespace Noted

/-- A result without notices. -/
def ofExcept (r : Except ε α) : Noted ε α := ⟨[], r⟩

/-- Give a notice. -/
def notify (n : Notice) : Noted ε Unit := ⟨[n], .ok ()⟩

/-- Give some notices. -/
def notifyAll (ns : List Notice) : Noted ε Unit := ⟨ns, .ok ()⟩

/-- A failure. -/
def fail (e : ε) : Noted ε α := ⟨[], .error e⟩

/-- Go on with a result, if there is one. -/
protected def bind (x : Noted ε α) (f : α → Noted ε β) : Noted ε β :=
  match x.result with
  | .error e => ⟨x.notices, .error e⟩
  | .ok a => ⟨x.notices ++ (f a).notices, (f a).result⟩

instance : Monad (Noted ε) where
  pure a := ⟨[], .ok a⟩
  bind := Noted.bind

/-- The same with another kind of error. -/
def mapError (f : ε → ε') (x : Noted ε α) : Noted ε' α := ⟨x.notices, x.result.mapError f⟩

@[simp] theorem pure_bind (a : α) (f : α → Noted ε β) : (pure a >>= f) = f a := rfl

@[simp] theorem bind_pure (x : Noted ε α) : x >>= pure = x := by
  obtain ⟨ns, r⟩ := x
  cases r with
  | error e => rfl
  | ok a =>
    show Noted.bind ⟨ns, .ok a⟩ pure = _
    simp [Noted.bind, Pure.pure]

theorem bind_assoc (x : Noted ε α) (f : α → Noted ε β) (g : β → Noted ε γ) :
    (x >>= f) >>= g = x >>= fun a => f a >>= g := by
  obtain ⟨ns, r⟩ := x
  cases r with
  | error e => rfl
  | ok a =>
    show Noted.bind ⟨ns ++ (f a).notices, (f a).result⟩ g = Noted.bind ⟨ns, .ok a⟩ _
    simp only [Noted.bind, Bind.bind]
    cases (f a).result <;> simp

instance : LawfulMonad (Noted ε) := LawfulMonad.mk' (Noted ε) bind_pure pure_bind bind_assoc

/-- A step that fails is the last one. -/
theorem bind_of_error {x : Noted ε α} {e : ε} (h : x.result = .error e) (f : α → Noted ε β) :
    x >>= f = ⟨x.notices, .error e⟩ := by
  show Noted.bind x f = _
  rw [Noted.bind, h]

theorem bind_of_ok {x : Noted ε α} {a : α} (h : x.result = .ok a) (f : α → Noted ε β) :
    x >>= f = ⟨x.notices ++ (f a).notices, (f a).result⟩ := by
  show Noted.bind x f = _
  rw [Noted.bind, h]

/-- Steps have a result when each of them has one. -/
theorem result_bind_eq_ok_iff {x : Noted ε α} {f : α → Noted ε β} {b : β} :
    (x >>= f).result = .ok b ↔ ∃ a, x.result = .ok a ∧ (f a).result = .ok b := by
  show (Noted.bind x f).result = .ok b ↔ _
  cases h : x.result <;> simp [Noted.bind, h]

/-- What is done with a result leaves the notices as they are. -/
theorem map_eq (f : α → β) (x : Noted ε α) : f <$> x = ⟨x.notices, x.result.map f⟩ := by
  obtain ⟨notices, result⟩ := x
  cases result with
  | error e => rfl
  | ok a =>
    show (⟨notices ++ [], .ok (f a)⟩ : Noted ε β) = _
    rw [List.append_nil]
    rfl

theorem result_map_eq_ok_iff {x : Noted ε α} {f : α → β} {b : β} :
    (f <$> x).result = .ok b ↔ ∃ a, x.result = .ok a ∧ f a = b := by
  show (x >>= fun a => pure (f a)).result = .ok b ↔ _
  simp [result_bind_eq_ok_iff, Pure.pure]

end Noted
end Chartdown
