import Chartdown.Proofs.Selection

/-!
# Copying trees

The pass that copies everything takes each branch apart and builds it again from the copies of its
children. The rows of a table are in one list then, and its header is found again by the flag of a
row. So a copy is equal to its tree where every table is headed by its flags, and nowhere else.

## Key results

- `headerFirst_eq_self`: rows are in order where their flags are
- `build_eq_self_iff`: which branches are built again from their own children
- `identity_run_eq_self_iff`: which trees are their own copies
-/

namespace Chartdown

/-! ### Building a branch again -/

/-- Where no flag changes its place, no row does. -/
theorem headerFirst_eq_self {rows : List Node}
    (h : (headerFirst rows).map Node.isHeaderRow = rows.map Node.isHeaderRow) :
    headerFirst rows = rows := by
  cases hfind : rows.find? Node.isHeaderRow with
  | none => simp [headerFirst, hfind]
  | some header =>
    -- The first row is flagged, as the one that is put in front is.
    have hflag : header.isHeaderRow = true := List.find?_some hfind
    simp only [headerFirst, hfind] at h
    cases rows with
    | nil => simp at h
    | cons row rest =>
      rw [List.map_cons, List.map_cons, List.cons.injEq] at h
      exact headerFirst_cons_of_isHeaderRow (h.1.symm.trans hflag) rest

/-- A table is headed where it holds rows, its flags tell whether it has a header, and no row has to
be moved. -/
theorem wellHeaded_of_headerFirst {headed : Bool} {alignments : List (Option String)}
    {rows : List Node} {i : Info} (hrows : ∀ row ∈ rows, row.kind = .tableRow)
    (hany : rows.any Node.isHeaderRow = headed) (hfirst : headerFirst rows = rows) :
    (Node.branch (.table headed alignments) rows i).WellHeaded := by
  cases headed with
  | false => exact ⟨hrows, by simpa using hany⟩
  | true =>
    refine ⟨hrows, ?_⟩
    cases hfind : rows.find? Node.isHeaderRow with
    | none =>
      rw [List.find?_eq_none] at hfind
      obtain ⟨row, hrow, hflag⟩ := List.any_eq_true.mp hany
      exact absurd hflag (hfind row hrow)
    | some header =>
      simp only [headerFirst, hfind] at hfirst
      exact ⟨header, _, hfirst.symm, List.find?_some hfind⟩

/-- What was built has the children that it was given, but for the place of a header. -/
theorem exists_of_build {b b' : Branch} {cs cs' : List Node} {i : Info}
    (h : b.build cs' i = .ok (.branch b' cs i)) :
    b'.kind ≠ .table ∧ cs = cs' ∨
      ∃ headed alignments, b' = .table headed alignments ∧ (∀ row ∈ cs', row.kind = .tableRow) ∧
        cs'.any Node.isHeaderRow = headed ∧ headerFirst cs' = cs := by
  cases b with
  | table headed alignments =>
    right
    simp only [Branch.build] at h
    split at h
    · cases h
    rename_i hstray
    obtain ⟨rfl, rfl, -⟩ := Node.branch.inj (Except.ok.inj h)
    exact ⟨_, alignments, rfl, by simpa [strayTableChild?] using hstray, rfl, rfl⟩
  | _ =>
    left
    obtain ⟨rfl, rfl, -⟩ := Node.branch.inj (Except.ok.inj h)
    exact ⟨by simp [Branch.kind], rfl⟩

/-- A branch is built again from its own children exactly if it is headed by its flags. -/
theorem build_eq_self_iff {b : Branch} {cs : List Node} {i : Info} :
    b.build cs i = .ok (.branch b cs i) ↔ (Node.branch b cs i).WellHeaded := by
  refine ⟨fun h => ?_, build_of_wellHeaded⟩
  rcases exists_of_build h with ⟨hb, -⟩ | ⟨headed, alignments, rfl, hrows, hany, hfirst⟩
  · cases b with
    | table headed alignments => exact absurd rfl hb
    | _ => trivial
  · exact wellHeaded_of_headerFirst hrows hany hfirst

/-- What is put back in place of its own children leaves a node as it is, tables that are not headed
by their flags apart. -/
theorem withChildren_children_iff (n : Node) :
    n.withChildren n.children = .ok n ↔ n.WellHeaded := by
  cases n with
  | leaf l i => exact iff_of_true rfl trivial
  | branch b cs i => exact build_eq_self_iff

/-! ### Copying a tree -/

namespace Pass

/-- A branch that was built has the flag of the branch that it was made of. -/
theorem isHeaderRow_of_build {b : Branch} {cs cs' : List Node} {i : Info} {n' : Node}
    (h : b.build cs' i = .ok n') : n'.isHeaderRow = (Node.branch b cs i).isHeaderRow := by
  cases b with
  | table headed alignments =>
    simp only [Branch.build] at h
    split at h
    · cases h
    · exact Except.ok.inj h ▸ rfl
  | tableRow isHeader =>
    obtain rfl := Except.ok.inj h
    cases isHeader <;> rfl
  | _ => exact Except.ok.inj h ▸ rfl

/-- No node is dropped, and each copy has the flag of its node. -/
theorem isHeaderRow_of_identity_run {n : Node} {result : Option Node}
    (h : identity.run n = .ok result) :
    ∃ n', result = some n' ∧ n'.isHeaderRow = n.isHeaderRow := by
  cases n with
  | leaf l i => exact ⟨_, (Except.ok.inj h).symm, rfl⟩
  | branch b cs i =>
    simp only [run, identity] at h
    split at h
    · cases h
    rename_i cs' _
    cases hbuild : b.build cs' i with
    | error e => simp [hbuild, Except.map] at h
    | ok n' =>
      simp only [hbuild, Except.map, Except.ok.injEq] at h
      exact ⟨n', h.symm, isHeaderRow_of_build hbuild⟩

theorem exists_of_identity_runAll_cons {n : Node} {ns ns' : List Node}
    (h : identity.runAll (n :: ns) = .ok ns') :
    ∃ n' rest, identity.run n = .ok (some n') ∧ identity.runAll ns = .ok rest ∧
      ns' = n' :: rest ∧ n'.isHeaderRow = n.isHeaderRow := by
  rw [runAll] at h
  split at h
  · cases h
  rename_i result hn
  split at h
  · cases h
  rename_i rest hrest
  obtain ⟨n', rfl, hflag⟩ := isHeaderRow_of_identity_run hn
  exact ⟨n', rest, hn, hrest, (Except.ok.inj h).symm, hflag⟩

/-- The copies have the flags of the nodes, in their order. -/
theorem map_isHeaderRow_of_identity_runAll {ns ns' : List Node} (h : identity.runAll ns = .ok ns') :
    ns'.map Node.isHeaderRow = ns.map Node.isHeaderRow := by
  induction ns generalizing ns' with
  | nil => exact Except.ok.inj h ▸ rfl
  | cons n ns ih =>
    obtain ⟨n', rest, -, hrest, rfl, hflag⟩ := exists_of_identity_runAll_cons h
    rw [List.map_cons, List.map_cons, hflag, ih hrest]

/-- A branch that is its own copy is built of children that are their own copies. -/
theorem identity_runAll_of_run {b : Branch} {cs : List Node} {i : Info}
    (h : identity.run (.branch b cs i) = .ok (some (.branch b cs i))) :
    identity.runAll cs = .ok cs ∧ b.build cs i = .ok (.branch b cs i) := by
  simp only [run, identity] at h
  split at h
  · cases h
  rename_i cs' hcs
  cases hbuild : b.build cs' i with
  | error e => simp [hbuild, Except.map] at h
  | ok n' =>
    simp only [hbuild, Except.map, Except.ok.injEq, Option.some.injEq] at h
    subst h
    -- The copies of a table's rows have the flags of its rows, so none of them had to be moved.
    have hflags := map_isHeaderRow_of_identity_runAll hcs
    have heq : cs = cs' := by
      rcases exists_of_build hbuild with ⟨-, heq⟩ | ⟨headed, alignments, -, -, -, hfirst⟩
      · exact heq
      · exact hfirst.symm.trans (headerFirst_eq_self (by rw [hfirst, hflags]))
    subst heq
    exact ⟨hcs, hbuild⟩

mutual
theorem identity_run_of_wellHeaded (n : Node) (h : ∀ m ∈ n.nodes, m.WellHeaded) :
    identity.run n = .ok (some n) := by
  match n with
  | .leaf l i => rfl
  | .branch b cs i =>
    have hcs := identity_runAll_of_wellHeaded cs fun c hc m hm => h m (Node.mem_nodes_branch hc hm)
    have hbuild := build_of_wellHeaded (h _ (Node.mem_nodes_self _))
    have hstep : identity.step (.branch b cs i) = .rebuild := rfl
    simp only [run, hstep, hcs, hbuild, Except.map]

theorem identity_runAll_of_wellHeaded (ns : List Node)
    (h : ∀ n ∈ ns, ∀ m ∈ n.nodes, m.WellHeaded) : identity.runAll ns = .ok ns := by
  match ns with
  | [] => rfl
  | n :: rest =>
    rw [List.forall_mem_cons] at h
    simp [runAll, identity_run_of_wellHeaded n h.1, identity_runAll_of_wellHeaded rest h.2]
end

mutual
theorem wellHeaded_of_identity_run (n : Node) (h : identity.run n = .ok (some n)) :
    ∀ m ∈ n.nodes, m.WellHeaded := by
  match n with
  | .leaf l i => simp [Node.nodes, Node.WellHeaded]
  | .branch b cs i =>
    obtain ⟨hcs, hbuild⟩ := identity_runAll_of_run h
    rw [Node.nodes, List.forall_mem_cons]
    exact ⟨build_eq_self_iff.mp hbuild, wellHeaded_of_identity_runAll cs hcs⟩

theorem wellHeaded_of_identity_runAll (ns : List Node) (h : identity.runAll ns = .ok ns) :
    ∀ m ∈ Node.nodesOfAll ns, m.WellHeaded := by
  match ns with
  | [] => simp [Node.nodesOfAll]
  | n :: rest =>
    obtain ⟨n', rest', hn, hrest, heq, -⟩ := exists_of_identity_runAll_cons h
    obtain ⟨rfl, rfl⟩ := List.cons.inj heq
    rw [Node.nodesOfAll, List.forall_mem_append]
    exact ⟨wellHeaded_of_identity_run n hn, wellHeaded_of_identity_runAll rest hrest⟩
end

/-- A tree is its own copy exactly if every table in it is headed by its flags, and a node is left as
it is by its own children exactly if it is such a table or no table. -/
theorem identity_run_eq_self_iff (n : Node) :
    (identity.run n = .ok (some n) ↔ ∀ m ∈ n.nodes, m.WellHeaded) ∧
      (n.withChildren n.children = .ok n ↔ n.WellHeaded) :=
  ⟨⟨wellHeaded_of_identity_run n, identity_run_of_wellHeaded n⟩, withChildren_children_iff n⟩

/-- A table whose header is not flagged as one. -/
def unflaggedTable : Node := .ofBranch (.table true []) [.ofBranch (.tableRow false) []]

/-- The header that is not flagged becomes a row of the body. -/
theorem identity_run_ne_self :
    identity.run unflaggedTable ≠ .ok (some unflaggedTable) ∧
      unflaggedTable.withChildren unflaggedTable.children ≠ .ok unflaggedTable := by
  have hbuild : (Branch.table true []).build [.ofBranch (.tableRow false) []] {} =
      .ok (.ofBranch (.table false []) [.ofBranch (.tableRow false) []]) := rfl
  constructor
  · intro h
    simp [unflaggedTable, Node.ofBranch, run, runAll, identity, Branch.build, strayTableChild?,
      headerFirst, Node.isHeaderRow, Node.kind, Branch.kind, Except.map] at h
  · rw [unflaggedTable, Node.ofBranch, Node.withChildren, Node.children, hbuild]
    simp [Node.ofBranch]

end Pass
end Chartdown
