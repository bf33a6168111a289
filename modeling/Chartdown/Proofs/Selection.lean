import Chartdown.Tree.ChartBlocks

/-!
# Selecting chart blocks

The pass that makes chart blocks of marked code blocks is compared with a relation between trees,
`Node.Selects`, which says for every node what its copy may be. The two differ in how they get
there: the pass looks for a marked block first and keeps a document without one, and it takes every
table apart and puts it together by the flags of its rows.

## Key results

- `chartBlocks_selects`: the pass replaces the marked blocks and nothing else, and a second run
  keeps what the first one made
- `build_of_wellHeaded`: a table is put together again from its own rows
- `Node.Selects.not_mem_of_isChartCode`: no marked block is left
-/

namespace Chartdown

/-- A code block of a language. -/
def Node.IsChartCode (marker : String) (n : Node) : Prop :=
  ∃ content fenceChar fenceLength i,
    n = .leaf (.codeBlock content (some marker) fenceChar fenceLength) i

/-- A table holds rows. Its header is its first row and flagged as one; without a header no row is
flagged. Nothing is asked of other nodes. -/
def Node.WellHeaded : Node → Prop
  | .branch (.table true _) rows _ =>
    (∀ row ∈ rows, row.kind = .tableRow) ∧
      ∃ header body, rows = header :: body ∧ header.isHeaderRow = true
  | .branch (.table false _) rows _ =>
    (∀ row ∈ rows, row.kind = .tableRow) ∧ ∀ row ∈ rows, row.isHeaderRow = false
  | _ => True

mutual
/-- What a tree becomes when its code blocks of a language become charts: such a block is replaced
by the lines of its content and keeps its place in the source, and every other node stays as it is
around its children. -/
inductive Node.Selects (marker : String) : Node → Node → Prop
  | marked (content fenceChar : String) (fenceLength : Int) (i : Info) (lines : List String)
      (hlines : String.join lines = content) :
      Node.Selects marker (.leaf (.codeBlock content (some marker) fenceChar fenceLength) i)
        (.leaf (.chartBlock lines) { metadata := [], location := i.location })
  | leaf (l : Leaf) (i : Info) (hl : ¬ (Node.leaf l i).IsChartCode marker) :
      Node.Selects marker (.leaf l i) (.leaf l i)
  | branch (b : Branch) (cs cs' : List Node) (i : Info) (hcs : Node.SelectsAll marker cs cs') :
      Node.Selects marker (.branch b cs i) (.branch b cs' i)

/-- What some trees become, one by one. -/
inductive Node.SelectsAll (marker : String) : List Node → List Node → Prop
  | nil : Node.SelectsAll marker [] []
  | cons (n n' : Node) (ns ns' : List Node) (hn : Node.Selects marker n n')
      (hns : Node.SelectsAll marker ns ns') : Node.SelectsAll marker (n :: ns) (n' :: ns')
end

namespace Node

variable {marker : String}

/-! ### Marked blocks -/

theorem isMarked_iff_isChartCode (n : Node) :
    n.isMarked (· == marker) = true ↔ n.IsChartCode marker := by
  constructor
  · intro h
    match n, h with
    | .leaf (.codeBlock content (some language) fenceChar fenceLength) i, h =>
      have hlanguage : language = marker := by simpa [isMarked] using h
      exact ⟨content, fenceChar, fenceLength, i, by rw [hlanguage]⟩
  · rintro ⟨content, fenceChar, fenceLength, i, rfl⟩
    simp [isMarked]

/-! ### The relation -/

theorem Selects.kind_eq_tableRow {n n' : Node} (h : n.Selects marker n') (hn : n.kind = .tableRow) :
    n'.kind = .tableRow := by
  cases h with
  | marked => simp [kind, Leaf.kind] at hn
  | leaf l i _ => exact hn
  | branch b cs cs' i _ => exact hn

theorem Selects.isHeaderRow_eq {n n' : Node} (h : n.Selects marker n') :
    n'.isHeaderRow = n.isHeaderRow := by
  cases h with
  | marked => rfl
  | leaf => rfl
  | branch b cs cs' i _ => cases b <;> first | rfl | (rename_i flag; cases flag <;> rfl)

theorem SelectsAll.forall_kind {ns ns' : List Node} (h : SelectsAll marker ns ns')
    (hns : ∀ n ∈ ns, n.kind = .tableRow) : ∀ n ∈ ns', n.kind = .tableRow := by
  match h with
  | .nil => exact hns
  | .cons n n' ns ns' hn hrest =>
    rw [List.forall_mem_cons] at hns ⊢
    exact ⟨hn.kind_eq_tableRow hns.1, hrest.forall_kind hns.2⟩

theorem SelectsAll.forall_isHeaderRow {ns ns' : List Node} (h : SelectsAll marker ns ns')
    (hns : ∀ n ∈ ns, n.isHeaderRow = false) : ∀ n ∈ ns', n.isHeaderRow = false := by
  match h with
  | .nil => exact hns
  | .cons n n' ns ns' hn hrest =>
    rw [List.forall_mem_cons] at hns ⊢
    exact ⟨hn.isHeaderRow_eq.trans hns.1, hrest.forall_isHeaderRow hns.2⟩

/-- The copy of a table is headed like the table. -/
theorem SelectsAll.wellHeaded {b : Branch} {cs cs' : List Node} {i : Info}
    (h : SelectsAll marker cs cs') (hb : (Node.branch b cs i).WellHeaded) :
    (Node.branch b cs' i).WellHeaded := by
  cases b with
  | table headed alignments =>
    -- A row becomes a row with the same flag, so what is asked of the rows still holds.
    cases headed with
    | false => exact ⟨h.forall_kind hb.1, h.forall_isHeaderRow hb.2⟩
    | true =>
      obtain ⟨hrows, header, body, rfl, hflag⟩ := hb
      refine ⟨h.forall_kind hrows, ?_⟩
      cases h with
      | cons _ header' _ body' hheader hbody =>
        exact ⟨header', body', rfl, hheader.isHeaderRow_eq.trans hflag⟩
  | _ => trivial

mutual
/-- A tree without a marked block is its own copy. -/
theorem selects_self (n : Node) (h : ∀ m ∈ n.nodes, ¬ m.IsChartCode marker) :
    n.Selects marker n := by
  match n with
  | .leaf l i => exact .leaf l i (h _ (mem_nodes_self _))
  | .branch b cs i =>
    refine .branch b cs cs i (selectsAll_self cs fun n hn m hm => ?_)
    exact h m (mem_nodes_branch hn hm)

theorem selectsAll_self (ns : List Node)
    (h : ∀ n ∈ ns, ∀ m ∈ n.nodes, ¬ m.IsChartCode marker) : SelectsAll marker ns ns := by
  match ns with
  | [] => exact .nil
  | n :: rest =>
    rw [List.forall_mem_cons] at h
    exact .cons n n rest rest (selects_self n h.1) (selectsAll_self rest h.2)
end

mutual
/-- No marked block is left in a copy. -/
theorem Selects.not_mem_of_isChartCode {n n' : Node} (h : n.Selects marker n') :
    ∀ m ∈ n'.nodes, ¬ m.IsChartCode marker := by
  match h with
  | .marked _ _ _ _ _ _ =>
    rintro m hm ⟨_, _, _, _, rfl⟩
    simp [nodes] at hm
  | .leaf l i hl =>
    intro m hm
    rw [nodes, List.mem_singleton] at hm
    exact hm ▸ hl
  | .branch b cs cs' i hcs =>
    intro m hm
    rw [nodes, List.mem_cons] at hm
    rcases hm with rfl | hm
    · rintro ⟨_, _, _, _, h⟩
      exact nomatch h
    · exact hcs.not_mem_of_isChartCode m hm

theorem SelectsAll.not_mem_of_isChartCode {ns ns' : List Node} (h : SelectsAll marker ns ns') :
    ∀ m ∈ nodesOfAll ns', ¬ m.IsChartCode marker := by
  match h with
  | .nil => simp [nodesOfAll]
  | .cons n n' ns ns' hn hns =>
    intro m hm
    rw [nodesOfAll, List.mem_append] at hm
    exact hm.elim (hn.not_mem_of_isChartCode m) (hns.not_mem_of_isChartCode m)
end

end Node

/-! ### Tables -/

/-- A row that is flagged and stands first is the header that a table finds. -/
theorem headerFirst_cons_of_isHeaderRow {header : Node} (h : header.isHeaderRow = true)
    (body : List Node) : headerFirst (header :: body) = header :: body := by
  simp [headerFirst, h]

theorem headerFirst_of_forall_not {rows : List Node} (h : ∀ row ∈ rows, row.isHeaderRow = false) :
    headerFirst rows = rows := by
  have hnone : rows.find? Node.isHeaderRow = none := by simpa using h
  simp [headerFirst, hnone]

theorem strayTableChild?_eq_none {rows : List Node} (h : ∀ row ∈ rows, row.kind = .tableRow) :
    strayTableChild? rows = none := by
  simpa [strayTableChild?] using h

/-- A branch is put together again from its own children. -/
theorem build_of_wellHeaded {b : Branch} {cs : List Node} {i : Info}
    (h : (Node.branch b cs i).WellHeaded) : b.build cs i = .ok (.branch b cs i) := by
  cases b with
  | table headed alignments =>
    cases headed with
    | false =>
      have hany : cs.any Node.isHeaderRow = false := by simpa using h.2
      simp only [Branch.build, strayTableChild?_eq_none h.1, hany, headerFirst_of_forall_not h.2]
    | true =>
      obtain ⟨hrows, header, body, rfl, hflag⟩ := h
      simp only [Branch.build, strayTableChild?_eq_none hrows, List.any_cons, hflag, Bool.true_or,
        headerFirst_cons_of_isHeaderRow hflag]
  | _ => rfl

/-! ### The pass -/

namespace Pass

variable {marker : String}

/-- The lines of a chart block are the text of the code block that it was made from. -/
theorem join_splitLines (content : String) :
    String.join ((Text.splitLines content.toList).map String.ofList) = content := by
  apply String.toList_inj.mp
  rw [String.toList_join, List.flatMap_map]
  simp only [String.toList_ofList]
  rw [List.flatMap_id', Text.flatten_splitLines]

/-- A document is kept as it is where it has no marked block, and copied otherwise. -/
theorem step_document (cs : List Node) (i : Info) :
    (∀ n ∈ (Node.branch .document cs i).nodes, ¬ n.IsChartCode marker) ∧
        (chartBlocks marker).step (.branch .document cs i) = .keep ∨
      (∃ n ∈ (Node.branch .document cs i).nodes, n.IsChartCode marker) ∧
        (chartBlocks marker).step (.branch .document cs i) = .rebuild := by
  by_cases hany : (Node.branch .document cs i).nodes.any (Node.isMarked (· == marker)) = true
  · right
    refine ⟨?_, by simp only [chartBlocks, selecting, hany, if_true]⟩
    obtain ⟨n, hn, hmarked⟩ := List.any_eq_true.mp hany
    exact ⟨n, hn, (Node.isMarked_iff_isChartCode n).mp hmarked⟩
  · left
    refine ⟨fun n hn hcode => hany ?_, by simp only [chartBlocks, selecting, hany]; rfl⟩
    exact List.any_eq_true.mpr ⟨n, hn, (Node.isMarked_iff_isChartCode n).mpr hcode⟩

/-- Every branch is kept, where nothing in it is marked, or copied around its children. -/
theorem step_branch (b : Branch) (cs : List Node) (i : Info) :
    (∀ n ∈ (Node.branch b cs i).nodes, ¬ n.IsChartCode marker) ∧
        (chartBlocks marker).step (.branch b cs i) = .keep ∨
      (chartBlocks marker).step (.branch b cs i) = .rebuild := by
  by_cases hb : b = .document
  · subst hb
    exact (step_document cs i).imp id And.right
  · right
    cases b <;> first | rfl | exact absurd rfl hb

/-- A document is kept where it has no marked block. -/
theorem keeps_document {cs : List Node} {i : Info}
    (h : ∀ n ∈ (Node.branch .document cs i).nodes, ¬ n.IsChartCode marker) :
    (chartBlocks marker).keeps (.branch .document cs i) = true := by
  rcases @step_document marker cs i with ⟨_, hstep⟩ | ⟨⟨n, hn, hcode⟩, _⟩
  · simp [keeps, hstep]
  · exact absurd hcode (h n hn)

/-- A tree that is kept is its own result. -/
theorem run_of_keeps {p : Pass} {n : Node} (h : p.keeps n = true) : p.run n = .ok (some n) := by
  have hstep : p.step n = .keep := by
    simp only [keeps] at h
    split at h
    · assumption
    · exact nomatch h
  cases n <;> simp [run, hstep]

mutual
/-- The pass makes of every tree a copy with its marked blocks made charts. -/
theorem exists_run_chartBlocks (n : Node) (h : ∀ m ∈ n.nodes, m.WellHeaded) :
    ∃ n', (chartBlocks marker).run n = .ok (some n') ∧ n.Selects marker n' := by
  match n with
  | .leaf l i =>
    by_cases hl : (Node.leaf l i).IsChartCode marker
    · obtain ⟨content, fenceChar, fenceLength, j, heq⟩ := hl
      cases heq
      refine ⟨_, ?_, .marked content fenceChar fenceLength i _ (join_splitLines content)⟩
      simp [run, chartBlocks, selecting, Node.isMarked, Leaf.chartBlockOf]
    · refine ⟨.leaf l i, ?_, .leaf l i hl⟩
      rw [← Node.isMarked_iff_isChartCode] at hl
      cases l <;> simp [run, chartBlocks, selecting, hl]
  | .branch b cs i =>
    rcases @step_branch marker b cs i with ⟨hnone, hstep⟩ | hstep
    · exact ⟨_, by simp [run, hstep], Node.selects_self _ hnone⟩
    · obtain ⟨cs', hrun, hcs⟩ := exists_runAll_chartBlocks cs fun n hn m hm =>
        h m (Node.mem_nodes_branch hn hm)
      -- The copy's children are the table's rows again, so the table is headed as before.
      have hbuild : b.build cs' i = .ok (.branch b cs' i) :=
        build_of_wellHeaded (hcs.wellHeaded (h _ (Node.mem_nodes_self _)))
      exact ⟨.branch b cs' i, by simp [run, hstep, hrun, hbuild, Except.map], .branch b cs cs' i hcs⟩

theorem exists_runAll_chartBlocks (ns : List Node)
    (h : ∀ n ∈ ns, ∀ m ∈ n.nodes, m.WellHeaded) :
    ∃ ns', (chartBlocks marker).runAll ns = .ok ns' ∧ Node.SelectsAll marker ns ns' := by
  match ns with
  | [] => exact ⟨[], rfl, .nil⟩
  | n :: rest =>
    rw [List.forall_mem_cons] at h
    obtain ⟨n', hn, hselects⟩ := exists_run_chartBlocks n h.1
    obtain ⟨rest', hrest, hselectsAll⟩ := exists_runAll_chartBlocks rest h.2
    refine ⟨n' :: rest', ?_, .cons n n' rest rest' hselects hselectsAll⟩
    simp [runAll, hn, hrest]
end

/-- The pass replaces exactly the marked blocks of a document whose tables are well headed. None is
left, so a second run keeps its argument; a document without any is kept by the first. -/
theorem chartBlocks_selects (marker : String) (cs : List Node) (i : Info)
    (h : ∀ n ∈ (Node.branch .document cs i).nodes, n.WellHeaded) :
    ∃ doc', (chartBlocks marker).run (.branch .document cs i) = .ok (some doc') ∧
      (Node.branch .document cs i).Selects marker doc' ∧
      (∀ n ∈ doc'.nodes, ¬ n.IsChartCode marker) ∧
      (chartBlocks marker).keeps doc' = true ∧
      (chartBlocks marker).run doc' = .ok (some doc') ∧
      ((∀ n ∈ (Node.branch .document cs i).nodes, ¬ n.IsChartCode marker) →
        (chartBlocks marker).keeps (.branch .document cs i) = true ∧
          doc' = .branch .document cs i) := by
  obtain ⟨doc', hrun, hselects⟩ := @exists_run_chartBlocks marker _ h
  -- The copy of a document is a document without marked blocks, and such a one is kept.
  have hnone := hselects.not_mem_of_isChartCode
  have hkeeps : (chartBlocks marker).keeps doc' = true := by
    cases hselects with
    | branch _ _ cs' _ _ => exact keeps_document hnone
  refine ⟨doc', hrun, hselects, hnone, hkeeps, run_of_keeps hkeeps, fun hdoc => ?_⟩
  have hkeepsDoc := keeps_document hdoc
  refine ⟨hkeepsDoc, ?_⟩
  rw [run_of_keeps hkeepsDoc] at hrun
  simpa using hrun.symm

/-- A document with a code block that is marked, in a quote, and a table with one that is not. -/
def quotedChartChildren : List Node :=
  [.ofBranch .blockQuote [.ofLeaf (.codeBlock "layout: bar\r\ndata: []" (some "vis") "`" 3)],
   .ofBranch (.table true [])
    [.ofBranch (.tableRow true) [.ofBranch (.tableCell none) [.ofLeaf (.codeBlock "" none "`" 3)]],
     .ofBranch (.tableRow false) []]]

/-- The marked block is the one that is replaced. -/
theorem chartBlocks_selects_quoted :
    (∀ n ∈ (Node.branch .document quotedChartChildren {}).nodes, n.WellHeaded) ∧
      ∃ doc', (chartBlocks "vis").run (.branch .document quotedChartChildren {}) = .ok (some doc') ∧
        (Node.branch .document quotedChartChildren {}).Selects "vis" doc' ∧
        ∀ n ∈ doc'.nodes, ¬ n.IsChartCode "vis" := by
  have h : ∀ n ∈ (Node.branch .document quotedChartChildren {}).nodes, n.WellHeaded := by
    simp [quotedChartChildren, Node.ofBranch, Node.ofLeaf, Node.nodes, Node.nodesOfAll,
      Node.WellHeaded, Node.kind, Branch.kind, Node.isHeaderRow]
  obtain ⟨doc', hrun, hselects, hnone, _⟩ := chartBlocks_selects "vis" quotedChartChildren {} h
  exact ⟨h, doc', hrun, hselects, hnone⟩

end Pass
end Chartdown
