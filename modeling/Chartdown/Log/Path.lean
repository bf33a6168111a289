import Chartdown.Text.Quoted

/-! # Paths of log files

A path is brought to its normal form before its file is opened: empty parts and dots fall away, and
two dots take back the part before them. Files are told by the normal form.

* `mem_resolve`  a part of the normal form is neither empty nor a dot
-/

namespace Chartdown.Log

/-- A path in normal form. -/
structure Path where
  /-- The slashes that it starts with, of which exactly two count as such. -/
  root : String
  parts : List String
  deriving DecidableEq

namespace Path

/-- Go on from some parts, last first, by a further one. Nothing is above the root. -/
def walk (rooted : Bool) (parts : List String) (part : String) : List String :=
  if part = "" ∨ part = "." then parts
  else if part = ".." then
    match parts with
    | [] => if rooted then [] else [".."]
    | last :: before => if last = ".." then ".." :: last :: before else before
  else part :: parts

/-- The parts of the normal form. -/
def resolve (rooted : Bool) (parts : List String) : List String :=
  (parts.foldl (walk rooted) []).reverse

theorem mem_walk {rooted : Bool} {parts : List String} {part p : String}
    (h : p ∈ walk rooted parts part) : p ∈ parts ∨ (p ≠ "" ∧ p ≠ ".") := by
  unfold walk at h
  split at h
  · exact .inl h
  · rename_i hp
    split at h
    · split at h
      · split at h
        · simp at h
        · rw [List.mem_singleton] at h
          exact .inr (by subst h; decide)
      · split at h
        · rcases List.mem_cons.1 h with h | h
          · exact .inr (by subst h; decide)
          · exact .inl h
        · exact .inl (List.mem_cons_of_mem _ h)
    · rcases List.mem_cons.1 h with h | h
      · exact .inr (by subst h; exact not_or.1 hp)
      · exact .inl h

theorem mem_resolve {rooted : Bool} {parts : List String} {p : String}
    (h : p ∈ resolve rooted parts) : p ≠ "" ∧ p ≠ "." := by
  have key : ∀ (todo done : List String), p ∈ todo.foldl (walk rooted) done →
      p ∈ done ∨ (p ≠ "" ∧ p ≠ ".") := by
    intro todo
    induction todo with
    | nil => exact fun _ h => .inl h
    | cons part rest ih =>
      intro done h
      rcases ih _ h with h | h
      · exact mem_walk h
      · exact .inr h
  rcases key parts [] (List.mem_reverse.1 h) with h | h
  · simp at h
  · exact h

/-- The slashes that the normal form of a path starts with. -/
def rootOf (path : String) : String :=
  match path.toList with
  | '/' :: '/' :: '/' :: _ => "/"
  | '/' :: '/' :: _ => "//"
  | '/' :: _ => "/"
  | _ => ""

/-- The normal form of a path. -/
def ofString (path : String) : Path :=
  let root := rootOf path
  ⟨root, resolve (root != "") (path.splitOn "/")⟩

/-- A path as it is told. -/
def text (p : Path) : String := p.root ++ "/".intercalate p.parts

end Path

/-! ## Opening files -/

/-- Why a file cannot be opened. -/
inductive OpenProblem
  | missing | notDirectory | directory | nameTooLong
  deriving DecidableEq

/-- The number and the wording of a problem. -/
def OpenProblem.message : OpenProblem → String
  | .missing => "[Errno 2] No such file or directory"
  | .notDirectory => "[Errno 20] Not a directory"
  | .directory => "[Errno 21] Is a directory"
  | .nameTooLong => "[Errno 36] File name too long"

/-- The bytes that the name of a file may have. -/
def nameLimit : Nat := 255

/-- The file that a path leads to. -/
inductive Opened
  /-- A file of the log's own directory. -/
  | own (name : String)
  /-- A file in a directory above. -/
  | outside
  deriving DecidableEq

/-- The file that a path leads to from the log's own directory, which holds some files and no
directories. Directories above are taken to hold no others than those on the way. -/
def openPath? (files : List String) (p : Path) : Except OpenProblem Opened :=
  match p.parts.dropWhile (· = "..") with
  | [] => .error .directory
  | name :: rest =>
    let isOwn := p.root = "" ∧ p.parts.head? ≠ some ".."
    if nameLimit < name.utf8ByteSize then .error .nameTooLong
    else if rest ≠ [] then
      if isOwn ∧ files.contains name = true then .error .notDirectory else .error .missing
    else .ok (if isOwn then .own name else .outside)

/-- What is told of a path that cannot be opened. -/
def openFailure (p : Path) (problem : OpenProblem) : String :=
  problem.message ++ ": " ++ Text.quotedString p.text

end Chartdown.Log
