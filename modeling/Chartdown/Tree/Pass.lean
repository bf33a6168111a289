import Chartdown.Tree.Collect

/-! # Passes over trees

A pass says for each node what becomes of it: it is copied around the results of its children, kept
as it is with all below it, replaced or dropped without a look at its children, or made anew from
the results of its children.
-/

namespace Chartdown

/-- What becomes of a node. -/
inductive Step
  /-- The node is copied around the results of its children. -/
  | rebuild
  /-- The node itself is the result, with all below it. -/
  | keep
  /-- Another node is put in its place, or it is dropped. -/
  | replace (result : Option Node)
  /-- The node is made anew from the results of its children, or dropped. -/
  | combine (build : List Node → Except NodeError (Option Node))

/-- A pass over trees: the name of its kind, the values it was made with, and what becomes of each
node. -/
structure Pass where
  name : String
  attributes : List (String × Json) := []
  step : Node → Step

namespace Pass

mutual
/-- Take a tree through the pass. The result is empty if its root is dropped. -/
def run (p : Pass) : Node → Except NodeError (Option Node)
  | .leaf l i =>
    match p.step (.leaf l i) with
    | .rebuild | .keep => .ok (some (.leaf l i))
    | .replace result => .ok result
    | .combine build => build []
  | .branch b cs i =>
    match p.step (.branch b cs i) with
    | .keep => .ok (some (.branch b cs i))
    | .replace result => .ok result
    | .rebuild =>
      match p.runAll cs with
      | .error e => .error e
      | .ok cs' => (b.build cs' i).map some
    | .combine build =>
      match p.runAll cs with
      | .error e => .error e
      | .ok cs' => build cs'

/-- Take some trees through the pass, leaving out those whose root is dropped. -/
def runAll (p : Pass) : List Node → Except NodeError (List Node)
  | [] => .ok []
  | n :: rest =>
    match p.run n with
    | .error e => .error e
    | .ok result =>
      match p.runAll rest with
      | .error e => .error e
      | .ok rest' => .ok (result.toList ++ rest')
end

/-- Whether a tree is its own result. -/
def keeps (p : Pass) (n : Node) : Bool := p.step n matches .keep

/-- Copy everything. -/
def identity : Pass where
  name := "Identity"
  step _ := .rebuild

/-- Drop raw HTML. -/
def dropHtml : Pass where
  name := "DropHtml"
  step
    | .leaf (.htmlBlock _) _ => .replace none
    | .leaf (.htmlInline _) _ => .replace none
    | _ => .rebuild

end Pass
end Chartdown
