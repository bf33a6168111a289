import Chartdown.Log.Path
import Chartdown.Notice
import Chartdown.Number.Decimal

/-! # The log

The package's own logger writes records to the console and, where asked, to a file. Configuring it
anew replaces its handlers. A record is written when its level is not below the logger's.

* `emit_handlers`  writing a record leaves the configuration as it is
-/

namespace Chartdown

namespace Log

/-- The level of a record and the least one that is written. -/
abbrev Level := Int

/-- The name that a level has in the log. -/
def levelName (level : Level) : String :=
  if level = 50 then "CRITICAL"
  else if level = 40 then "ERROR"
  else if level = 30 then "WARNING"
  else if level = 20 then "INFO"
  else if level = 10 then "DEBUG"
  else if level = 0 then "NOTSET"
  else "Level " ++ String.ofList (integerText level)

/-- The levels that can be named. -/
def namedLevels : List (String × Level) :=
  [("CRITICAL", 50), ("FATAL", 50), ("ERROR", 40), ("WARNING", 30), ("WARN", 30), ("INFO", 20),
   ("DEBUG", 10), ("NOTSET", 0)]

/-- The capital of a letter, where it is a letter of ASCII. -/
def capital (c : Char) : Char :=
  if c = 'ı' then 'I' else if c = 'ſ' then 'S' else c.toUpper

/-- The level of a name, in capitals or not. A name that is none stands for `INFO`. -/
def levelOf (name : String) : Level :=
  (namedLevels.lookup (String.ofList (name.toList.map capital))).getD 20

/-- How a record is laid out. -/
inductive Layout
  | plain
  /-- With the time and the name of the logger. -/
  | traced
  deriving DecidableEq

/-- The pattern of a layout. -/
def Layout.pattern : Layout → String
  | .plain => "%(levelname)s: %(message)s"
  | .traced => "[%(asctime)s] [%(levelname)s] [%(name)s] %(message)s"

/-- The pattern of the times in a layout. -/
def Layout.timePattern : Layout → Option String
  | .plain => none
  | .traced => some "%Y-%m-%d %H:%M:%S"

/-- Something to be told. -/
structure Record where
  logger : String
  level : Level
  message : String

/-- The line of a record. The time stands for itself. -/
def Layout.line (l : Layout) (r : Record) : String :=
  match l with
  | .plain => levelName r.level ++ ": " ++ r.message ++ "\n"
  | .traced =>
    "[TIME] [" ++ levelName r.level ++ "] [" ++ r.logger ++ "] " ++ r.message ++ "\n"

/-- Where records are written to. -/
inductive Place
  | console
  | file (name : String)
  /-- A file that is not among those of the log's own directory. -/
  | foreign
  deriving DecidableEq

/-- What writes records. -/
structure Handler where
  place : Place
  level : Level
  layout : Layout
  deriving DecidableEq

/-- The name of the package's logger. -/
def packageName : String := "mdvis"

/-- Whether a logger is the package's or one below it. -/
def isOwn (logger : String) : Bool :=
  logger == packageName || (packageName ++ ".").toList.isPrefixOf logger.toList

/-- Append to the contents of a file, which is made if need be. -/
def appendTo (name text : String) : List (String × String) → List (String × String)
  | [] => [(name, text)]
  | f :: rest => if f.1 = name then (name, f.2 ++ text) :: rest else f :: appendTo name text rest

end Log

/-- The log with what was written. -/
structure Log where
  level : Log.Level := 0
  handlers : List Log.Handler := []
  console : String := ""
  files : List (String × String) := []

namespace Log

/-- The level that counts. A logger without one takes that of warnings. -/
def effectiveLevel (l : Log) : Level := if l.level = 0 then 30 else l.level

/-- Whether records of a level are told at all. -/
def tells (l : Log) (level : Level) : Bool := 0 < level && l.effectiveLevel ≤ level

/-- Write the line of a record where a handler says. -/
def write (l : Log) (r : Record) (h : Handler) : Log :=
  if r.level < h.level then l
  else match h.place with
    | .console => { l with console := l.console ++ h.layout.line r }
    | .file name => { l with files := appendTo name (h.layout.line r) l.files }
    | .foreign => l

/-- Tell a record. Records of other loggers are not written. -/
def emit (l : Log) (r : Record) : Log :=
  if isOwn r.logger && l.tells r.level then l.handlers.foldl (·.write r ·) l else l

/-- A path with a null character, which no file has. -/
structure NullInPath where
  path : String
  deriving DecidableEq

/-- The wording of the error. -/
def NullInPath.message (_ : NullInPath) : String := "embedded null byte"

/-- A handler that writes to a file that was opened. -/
def fileHandler (level : Level) (layout : Layout) : Opened → Handler
  | .own name => ⟨.file name, level, layout⟩
  | .outside => ⟨.foreign, level, layout⟩

/-- Make a file among those of the log's own directory, unless it is there. -/
def makeFile (files : List (String × String)) : Opened → List (String × String)
  | .own name => appendTo name "" files
  | .outside => files

/-- Set the level and the handlers. A file that cannot be opened is told and left out. A path with
a null character leaves no handlers. -/
def configure (l : Log) (level : Level) (path : Option String) (layout : Layout) :
    Log × Noted NullInPath Unit :=
  let console : Handler := ⟨.console, level, layout⟩
  let l := { l with level := level, handlers := [console] }
  match path with
  | none | some "" => (l, pure ())
  | some path =>
    if path.contains '\x00' then ({ l with handlers := [] }, .fail ⟨path⟩)
    else
      let place := Path.ofString path
      match openPath? (l.files.map (·.1)) place with
      | .error problem =>
        let notices := if l.tells 30 then [.logFileFailed path (openFailure place problem)] else []
        (l, .notifyAll notices)
      | .ok opened =>
        let l := { l with
          handlers := [console, fileHandler level layout opened]
          files := makeFile l.files opened }
        (l.emit ⟨packageName, 20, "Logging to file: " ++ path⟩, pure ())

theorem write_handlers (l : Log) (r : Record) (h : Handler) :
    (l.write r h).handlers = l.handlers := by
  unfold write
  split
  · rfl
  · split <;> rfl

theorem emit_handlers (l : Log) (r : Record) : (l.emit r).handlers = l.handlers := by
  have key : ∀ (hs : List Handler) (l : Log),
      (hs.foldl (·.write r ·) l).handlers = l.handlers := by
    intro hs
    induction hs with
    | nil => exact fun _ => rfl
    | cons h rest ih => intro l; rw [List.foldl_cons, ih, write_handlers]
  unfold emit
  split
  · exact key _ _
  · rfl

end Log
end Chartdown
