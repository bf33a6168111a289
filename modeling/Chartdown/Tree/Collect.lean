import Chartdown.Tree.Node

/-! # Nodes and texts below a node

The nodes below a node are listed in document order, and its plain text is made from the texts
among them.
-/

namespace Chartdown

mutual
/-- A node and all nodes below it, each before its children. -/
def Node.nodes : Node → List Node
  | .leaf l i => [.leaf l i]
  | .branch b cs i => .branch b cs i :: Node.nodesOfAll cs

/-- The nodes of some trees, one tree after the other. -/
def Node.nodesOfAll : List Node → List Node
  | [] => []
  | n :: rest => n.nodes ++ Node.nodesOfAll rest
end

/-- The nodes of a kind at and below a node; all nodes where no kind is given. -/
def Node.nodesOf (kind : Option NodeKind) (n : Node) : List Node :=
  n.nodes.filter fun m => kind.all fun k => m.kind == k

/-- Join the texts that are not empty. -/
def joinNonEmpty (joiner : String) (parts : List String) : String :=
  joiner.intercalate (parts.filter (· ≠ ""))

mutual
/-- The text of a node: its content if it is a text, else the texts of its children, joined where
they are not empty. -/
def Node.plainText (joiner : String) : Node → String
  | .leaf (.text s) _ => s
  | .leaf _ _ => ""
  | .branch _ cs _ => joinNonEmpty joiner (Node.plainTexts joiner cs)

/-- The text of each of some nodes. -/
def Node.plainTexts (joiner : String) : List Node → List String
  | [] => []
  | n :: rest => n.plainText joiner :: Node.plainTexts joiner rest
end

/-- The text of some nodes, joined where it is not empty. -/
def Node.plainTextOfAll (joiner : String) (ns : List Node) : String :=
  joinNonEmpty joiner (Node.plainTexts joiner ns)

theorem Node.plainTexts_eq_map (joiner : String) (ns : List Node) :
    Node.plainTexts joiner ns = ns.map (Node.plainText joiner) := by
  induction ns with
  | nil => rfl
  | cons n rest ih => rw [Node.plainTexts, ih, List.map_cons]

theorem Node.nodesOfAll_eq_flatMap (ns : List Node) :
    Node.nodesOfAll ns = ns.flatMap Node.nodes := by
  induction ns with
  | nil => rfl
  | cons n rest ih => rw [Node.nodesOfAll, ih, List.flatMap_cons]

theorem Node.mem_nodes_self (n : Node) : n ∈ n.nodes := by
  cases n <;> simp [Node.nodes]

/-- What is at or below a child is below the branch. -/
theorem Node.mem_nodes_branch {n m : Node} {b : Branch} {cs : List Node} {i : Info}
    (hn : n ∈ cs) (hm : m ∈ n.nodes) : m ∈ (Node.branch b cs i).nodes := by
  rw [Node.nodes, Node.nodesOfAll_eq_flatMap]
  exact List.mem_cons_of_mem _ (List.mem_flatMap.mpr ⟨n, hn, hm⟩)

end Chartdown
