import Chartdown.Tree.Collect
import Mathlib.Tactic.SplitIfs

/-!
# The text of a tree

The text of a branch is joined from the texts of its children, level by level, and what is empty is
left out at every level. It is the same as one join of all that is not empty among the texts in the
tree, in their order: an inner join is empty only where there is nothing to join, so no joiner is
lost or doubled.

## Key results

- `joinNonEmpty_flatMap`: joining joins is joining once
- `plainText_spec`: the text of a tree against the nodes that are collected from it
-/

namespace Chartdown

/-! ### Joining what is not empty -/

variable {joiner : String}

@[simp] theorem joinNonEmpty_nil : joinNonEmpty joiner [] = "" := by simp [joinNonEmpty]

@[simp] theorem joinNonEmpty_singleton (s : String) : joinNonEmpty joiner [s] = s := by
  by_cases hs : s = "" <;> simp [joinNonEmpty, hs]

theorem joinNonEmpty_pair (s t : String) : joinNonEmpty joiner [s, t] =
    if s = "" then t else if t = "" then s else s ++ joiner ++ t := by
  by_cases hs : s = "" <;> by_cases ht : t = "" <;> simp [joinNonEmpty, hs, ht]

theorem filter_ne_empty_eq_nil_iff {parts : List String} :
    parts.filter (· ≠ "") = [] ↔ ∀ s ∈ parts, s = "" := by simp

/-- A join is empty only if there is nothing to join. -/
theorem joinNonEmpty_eq_empty_iff {parts : List String} :
    joinNonEmpty joiner parts = "" ↔ ∀ s ∈ parts, s = "" := by
  rw [← filter_ne_empty_eq_nil_iff, joinNonEmpty]
  cases hparts : parts.filter (· ≠ "") with
  | nil => simp
  | cons s rest =>
    have hmem : s ∈ parts.filter (· ≠ "") := hparts ▸ List.mem_cons_self
    have hne : s ≠ "" := by simpa using (List.mem_filter.mp hmem).2
    cases rest <;> simp [hne]

/-- Two groups of parts are joined group by group. -/
theorem joinNonEmpty_append (parts parts' : List String) :
    joinNonEmpty joiner (parts ++ parts') =
      joinNonEmpty joiner [joinNonEmpty joiner parts, joinNonEmpty joiner parts'] := by
  -- A group without a part that counts is left out on both sides.
  rw [joinNonEmpty_pair]
  by_cases hempty : ∀ s ∈ parts, s = ""
  · rw [if_pos (joinNonEmpty_eq_empty_iff.mpr hempty), joinNonEmpty, List.filter_append,
      filter_ne_empty_eq_nil_iff.mpr hempty, List.nil_append, joinNonEmpty]
  rw [if_neg (mt joinNonEmpty_eq_empty_iff.mp hempty)]
  by_cases hempty' : ∀ s ∈ parts', s = ""
  · rw [if_pos (joinNonEmpty_eq_empty_iff.mpr hempty'), joinNonEmpty, List.filter_append,
      filter_ne_empty_eq_nil_iff.mpr hempty', List.append_nil, joinNonEmpty]
  · rw [if_neg (mt joinNonEmpty_eq_empty_iff.mp hempty'), joinNonEmpty, List.filter_append,
      String.intercalate_append_of_ne_nil (mt filter_ne_empty_eq_nil_iff.mp hempty)
        (mt filter_ne_empty_eq_nil_iff.mp hempty'), joinNonEmpty, joinNonEmpty]

theorem joinNonEmpty_cons (s : String) (parts : List String) :
    joinNonEmpty joiner (s :: parts) = joinNonEmpty joiner [s, joinNonEmpty joiner parts] := by
  simpa using @joinNonEmpty_append joiner [s] parts

/-- Joining the joins of some groups is joining all their parts. -/
theorem joinNonEmpty_flatMap {α : Type} (parts : α → List String) (xs : List α) :
    joinNonEmpty joiner (xs.flatMap parts) =
      joinNonEmpty joiner (xs.map fun x => joinNonEmpty joiner (parts x)) := by
  induction xs with
  | nil => rfl
  | cons x xs ih =>
    rw [List.flatMap_cons, joinNonEmpty_append, ih, List.map_cons, ← joinNonEmpty_cons]

/-- Without a joiner, texts are put side by side. -/
theorem joinNonEmpty_empty_append (parts parts' : List String) :
    joinNonEmpty "" (parts ++ parts') = joinNonEmpty "" parts ++ joinNonEmpty "" parts' := by
  rw [joinNonEmpty_append, joinNonEmpty_pair]
  split_ifs with hs ht
  · rw [hs, String.empty_append]
  · rw [ht, String.append_empty]
  · rw [String.append_empty]

/-! ### Texts below a node -/

namespace Node

/-- What a text says. -/
def content? : Node → Option String
  | .leaf (.text s) _ => some s
  | _ => none

/-- What the texts at and below a node say, in document order. -/
def contents (n : Node) : List String := (n.nodesOf (some .text)).filterMap content?

theorem isSome_content?_of_kind {n : Node} (h : n.kind = .text) : n.content?.isSome = true := by
  cases n with
  | leaf l i => cases l <;> first | rfl | exact nomatch h
  | branch b cs i => cases b <;> exact nomatch h

/-- Every node that is listed as a text says something. -/
theorem map_content?_nodesOf (n : Node) :
    (n.nodesOf (some .text)).map content? = n.contents.map some := by
  rw [contents, List.map_filterMap_some_eq_filter_map_isSome, eq_comm, List.filter_eq_self]
  intro said hsaid
  obtain ⟨m, hm, rfl⟩ := List.mem_map.mp hsaid
  have hkind : (m.kind == NodeKind.text) = true := by simpa using (List.mem_filter.mp hm).2
  exact isSome_content?_of_kind (eq_of_beq hkind)

theorem contents_branch (b : Branch) (cs : List Node) (i : Info) :
    (branch b cs i).contents = cs.flatMap contents := by
  have hb : b.kind ≠ .text := by cases b <;> nofun
  have hfilter : (branch b cs i).nodesOf (some .text) = cs.flatMap (nodesOf (some .text)) := by
    simp only [nodesOf, nodes, nodesOfAll_eq_flatMap]
    rw [List.filter_cons_of_neg (by simpa [kind] using hb)]
    exact List.filter_flatMap
  rw [contents, hfilter, List.filterMap_flatMap]
  rfl

mutual
/-- The text of a tree is joined from the texts in it. -/
theorem plainText_eq (joiner : String) (n : Node) :
    n.plainText joiner = joinNonEmpty joiner n.contents := by
  match n with
  | .leaf l i =>
    cases l with
    | text s => exact (joinNonEmpty_singleton s).symm
    | _ => exact joinNonEmpty_nil.symm
  | .branch b cs i =>
    -- The children's texts are joins by induction, and joining joins is joining once.
    rw [plainText, plainTexts_eq joiner cs, contents_branch, joinNonEmpty_flatMap]

theorem plainTexts_eq (joiner : String) (ns : List Node) :
    plainTexts joiner ns = ns.map fun n => joinNonEmpty joiner n.contents := by
  match ns with
  | [] => rfl
  | n :: rest => rw [plainTexts, plainText_eq joiner n, plainTexts_eq joiner rest, List.map_cons]
end

/-- The text of a node is joined, once, from what the texts among its nodes say, and that of some
nodes from what they say one node after the other. With nothing between them, texts of lists are put
side by side as the lists are. -/
theorem plainText_spec (joiner : String) :
    (∀ n : Node, ∃ said : List String,
      (n.nodesOf (some .text)).map content? = said.map some ∧
        n.plainText joiner = joiner.intercalate (said.filter (· ≠ ""))) ∧
    (∀ ns : List Node, ∃ said : List String,
      (ns.flatMap (nodesOf (some .text))).map content? = said.map some ∧
        plainTextOfAll joiner ns = joiner.intercalate (said.filter (· ≠ ""))) ∧
    plainTextOfAll "" [] = "" ∧
    ∀ ns ns' : List Node,
      plainTextOfAll "" (ns ++ ns') = plainTextOfAll "" ns ++ plainTextOfAll "" ns' := by
  refine ⟨fun n => ⟨n.contents, map_content?_nodesOf n, plainText_eq joiner n⟩,
    fun ns => ⟨ns.flatMap contents, ?_, ?_⟩, joinNonEmpty_nil, fun ns ns' => ?_⟩
  · simp only [List.map_flatMap, map_content?_nodesOf]
  · rw [plainTextOfAll, plainTexts_eq, ← joinNonEmpty_flatMap, joinNonEmpty]
  · rw [plainTextOfAll, plainTexts_eq_map, List.map_append, joinNonEmpty_empty_append,
      ← plainTexts_eq_map, ← plainTexts_eq_map, plainTextOfAll, plainTextOfAll]

end Node
end Chartdown
