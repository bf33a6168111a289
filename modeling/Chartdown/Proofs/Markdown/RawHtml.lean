import Chartdown.Proofs.Markdown.Building

/-!
# Leaving out raw HTML

Raw HTML can be left out while a document is built, or dropped by a pass over the document. The two
differ in how they get there: building skips a token at two places, whereas the pass takes every
branch apart and puts it together again, tables by the flags of their rows.

## Key results

- `strip`, `stripAll`: trees without raw HTML, made branch by branch
- `block_strip`: leaving raw HTML out makes the stripped tree of each token
- `dropHtml_run`: the pass makes the stripped tree where tables are headed by their flags
- `blocks_dropHtml`: leaving raw HTML out is the same as dropping it
-/

namespace Chartdown

namespace Node

/-- Whether a node is raw HTML. -/
def isHtml (n : Node) : Bool := n.kind == .htmlBlock || n.kind == .htmlInline

mutual
/-- A tree without the raw HTML below its root. -/
def strip : Node → Node
  | .leaf l i => .leaf l i
  | .branch b cs i => .branch b (stripAll cs) i

/-- Some trees without raw HTML. -/
def stripAll : List Node → List Node
  | [] => []
  | n :: rest => if n.isHtml then stripAll rest else n.strip :: stripAll rest
end

/-- A tree without raw HTML, if it has a root then. -/
def strip? (n : Node) : Option Node := if n.isHtml then none else some n.strip

theorem strip?_branch (b : Branch) (cs : List Node) (i : Info) :
    (branch b cs i).strip? = some (branch b (stripAll cs) i) := by
  cases b <;> rfl

theorem stripAll_branch_cons (b : Branch) (cs : List Node) (i : Info) (ns : List Node) :
    stripAll (branch b cs i :: ns) = branch b (stripAll cs) i :: stripAll ns := by
  cases b <;> rfl

theorem stripAll_append (ns ns' : List Node) :
    stripAll (ns ++ ns') = stripAll ns ++ stripAll ns' := by
  induction ns with
  | nil => rfl
  | cons n rest ih =>
    simp only [List.cons_append, stripAll, ih]
    split <;> rfl

/-- Nothing is left out of nodes none of which is raw HTML. -/
theorem stripAll_eq_map {ns : List Node} (h : ∀ n ∈ ns, n.isHtml = false) :
    stripAll ns = ns.map strip := by
  induction ns with
  | nil => rfl
  | cons n rest ih =>
    rw [List.forall_mem_cons] at h
    simp [stripAll, h.1, ih h.2]

@[simp] theorem kind_strip (n : Node) : n.strip.kind = n.kind := by cases n <;> rfl

@[simp] theorem isHeaderRow_strip (n : Node) : n.strip.isHeaderRow = n.isHeaderRow := by
  cases n with
  | leaf l i => rfl
  | branch b cs i =>
    rw [strip]
    cases b with
    | tableRow isHeader => cases isHeader <;> rfl
    | _ => rfl

@[simp] theorem alignmentOf_strip (n : Node) :
    Markdown.alignmentOf n.strip = Markdown.alignmentOf n := by
  cases n with
  | leaf l i => rfl
  | branch b cs i => cases b <;> rfl

theorem isHtml_of_kind_tableRow {n : Node} (h : n.kind = .tableRow) : n.isHtml = false := by
  simp [isHtml, h]

/-- A stripped branch is headed as it was. -/
theorem WellHeaded.strip {n : Node} (h : n.WellHeaded) : n.strip.WellHeaded := by
  match n with
  | .leaf l i => trivial
  | .branch b cs i =>
    cases b with
    | table headed alignments =>
      have hmap (hrows : ∀ row ∈ cs, row.kind = .tableRow) : stripAll cs = cs.map Node.strip :=
        stripAll_eq_map fun row hrow => isHtml_of_kind_tableRow (hrows row hrow)
      cases headed with
      | false => exact ⟨by simpa [hmap h.1] using h.1, by simpa [hmap h.1] using h.2⟩
      | true =>
        obtain ⟨hrows, header, body, rfl, hflag⟩ := h
        refine ⟨by simpa [hmap hrows] using hrows, header.strip, body.map Node.strip, ?_, ?_⟩
        · rw [hmap hrows, List.map_cons]
        · rw [isHeaderRow_strip, hflag]
    | _ => trivial

mutual
/-- No raw HTML is left below the root of a stripped tree. -/
theorem isHtml_of_mem_strip (n : Node) (hn : n.isHtml = false) :
    ∀ m ∈ n.strip.nodes, m.isHtml = false := by
  match n with
  | .leaf l i => simpa [strip, nodes] using hn
  | .branch b cs i =>
    rw [strip, nodes, List.forall_mem_cons]
    exact ⟨hn, isHtml_of_mem_stripAll cs⟩

theorem isHtml_of_mem_stripAll (ns : List Node) :
    ∀ m ∈ nodesOfAll (stripAll ns), m.isHtml = false := by
  match ns with
  | [] => exact nofun
  | n :: rest =>
    rw [stripAll]
    split
    · exact isHtml_of_mem_stripAll rest
    · rename_i hn
      rw [nodesOfAll, List.forall_mem_append]
      exact ⟨isHtml_of_mem_strip n (by simpa using hn), isHtml_of_mem_stripAll rest⟩
end

end Node

/-! ### The pass -/

namespace Pass

open Node

theorem dropHtml_step (n : Node) :
    dropHtml.step n = if n.isHtml then .replace none else .rebuild := by
  cases n with
  | leaf l i => cases l <;> rfl
  | branch b cs i => cases b <;> rfl

mutual
/-- The pass strips a tree, and drops it if its root is raw HTML. -/
theorem dropHtml_run (n : Node) (h : ∀ m ∈ n.nodes, m.WellHeaded) :
    dropHtml.run n = .ok n.strip? := by
  match n with
  | .leaf l i =>
    rw [run, dropHtml_step, strip?]
    cases (Node.leaf l i).isHtml <;> rfl
  | .branch b cs i =>
    have hhtml : (Node.branch b cs i).isHtml = false := by cases b <;> rfl
    have hcs := dropHtml_runAll cs fun m hm =>
      h m (by rw [nodes]; exact List.mem_cons_of_mem _ hm)
    -- What is left of a table's rows is headed as the table was.
    have hbuild : b.build (stripAll cs) i = .ok (.branch b (stripAll cs) i) :=
      build_of_wellHeaded (h _ (mem_nodes_self _)).strip
    simp [run, dropHtml_step, hhtml, hcs, hbuild, Except.map, strip?, strip]

theorem dropHtml_runAll (ns : List Node) (h : Throughout WellHeaded ns) :
    dropHtml.runAll ns = .ok (stripAll ns) := by
  match ns with
  | [] => rfl
  | n :: rest =>
    have hn : ∀ m ∈ n.nodes, m.WellHeaded := fun m hm =>
      h m (by rw [nodesOfAll]; exact List.mem_append_left _ hm)
    have hrest : Throughout WellHeaded rest := fun m hm =>
      h m (by rw [nodesOfAll]; exact List.mem_append_right _ hm)
    rw [runAll, dropHtml_run n hn, dropHtml_runAll rest hrest, stripAll, strip?]
    cases n.isHtml <;> rfl
end

end Pass

/-! ### Building -/

namespace Markdown

open Node

/-- The options with raw HTML kept, or left out. -/
def Options.keeping (o : Options) (keep : Bool) : Options := { o with preserveHtml := keep }

theorem stripAll_toList (n : Option Node) : stripAll n.toList = (n.bind strip?).toList := by
  cases n with
  | none => rfl
  | some n => cases hn : n.isHtml <;> simp [stripAll, strip?, hn]

/-- Raw HTML that is left out is raw HTML that is stripped. -/
theorem keptHtml_strip (o : Options) {l : Leaf} (hl : (Node.ofLeaf l).isHtml = true) :
    keptHtml (o.keeping false) l = (keptHtml (o.keeping true) l).bind strip? := by
  simp [keptHtml, Options.keeping, strip?, hl]

mutual
theorem inline_strip (o : Options) (t : Token) :
    inline (o.keeping false) t = (·.bind strip?) <$> inline (o.keeping true) t := by
  obtain ⟨type, raw, children, a, marker, tight⟩ := t
  have hchildren := inlines_strip o children
  unfold inline
  split
  case h_3 | h_4 | h_5 | h_6 => simp [hchildren, Node.ofBranch, strip?_branch]
  case h_10 => rw [keptHtml_strip o rfl, map_pure]
  all_goals rfl

theorem inlines_strip (o : Options) (ts : List Token) :
    inlines (o.keeping false) ts = stripAll <$> inlines (o.keeping true) ts := by
  match ts with
  | [] => rfl
  | t :: rest =>
    simp [inlines, inline_strip o t, inlines_strip o rest, stripAll_append, stripAll_toList]
end

theorem cells_strip (o : Options) (ts : List Token) :
    cells (o.keeping false) ts = stripAll <$> cells (o.keeping true) ts := by
  induction ts with
  | nil => rfl
  | cons t rest ih =>
    obtain ⟨type, raw, children, a, marker, tight⟩ := t
    unfold cells
    split
    · simp [inlines_strip o children, ih, Node.ofBranch, stripAll_branch_cons]
    · exact ih

theorem bodyRows_strip (o : Options) (ts : List Token) :
    bodyRows (o.keeping false) ts = stripAll <$> bodyRows (o.keeping true) ts := by
  induction ts with
  | nil => rfl
  | cons t rest ih =>
    obtain ⟨type, raw, children, a, marker, tight⟩ := t
    simp [bodyRows, cells_strip o children, ih, Node.ofBranch, stripAll_branch_cons]

theorem tableParts_strip (o : Options) (ts : List Token) :
    tableParts (o.keeping false) ts =
      (fun p => (p.1.map stripAll, stripAll p.2)) <$> tableParts (o.keeping true) ts := by
  induction ts with
  | nil => rfl
  | cons t rest ih =>
    obtain ⟨type, raw, children, a, marker, tight⟩ := t
    unfold tableParts
    split
    · simp [cells_strip o children, ih]
    · simp [bodyRows_strip o children, ih, stripAll_append]
    · exact ih

/-- The columns of a table stay aligned as they were, since no cell of its head is left out. -/
theorem table_strip (o : Options) (ts : List Token) :
    some <$> table (o.keeping false) ts = strip? <$> table (o.keeping true) ts := by
  obtain ⟨head, rows, hparts, hhead, -⟩ := exists_tableParts (o.keeping true) ts
  simp only [table, tableParts_strip o ts, hparts, map_pure, pure_bind]
  cases head with
  | none => rfl
  | some cs =>
    have hcells : stripAll cs = cs.map strip :=
      stripAll_eq_map fun c hc => by simp [isHtml, (hhead cs rfl).1 c hc]
    have halign : (stripAll cs).map alignmentOf = cs.map alignmentOf := by
      simp [hcells, Function.comp_def]
    simp [halign, Node.ofBranch, strip?_branch, stripAll_branch_cons]

mutual
/-- Leaving raw HTML out strips the tree of a token. -/
theorem block_strip (o : Options) (t : Token) :
    block (o.keeping false) t = (·.bind strip?) <$> block (o.keeping true) t := by
  obtain ⟨type, raw, children, a, marker, tight⟩ := t
  have hinlines := inlines_strip o children
  unfold block
  split
  case h_1 =>
    cases HeadingLevel.ofInt (a.level.getD 1) with
    | ok level => simp [hinlines, Node.ofBranch, strip?_branch]
    | error e => simp [hinlines]
  case h_2 | h_3 => simp [hinlines, Node.ofBranch, strip?_branch]
  case h_4 =>
    -- Code gives notices about its language, and they do not depend on raw HTML.
    simp only [codeBlock, bind_assoc, pure_bind, map_bind, map_pure]
    rfl
  case h_5 => simp [blocks_strip o children, Node.ofBranch, strip?_branch]
  case h_6 => simp [listItems_strip o children, Node.ofBranch, strip?_branch]
  case h_7 => simpa using table_strip o children
  case h_9 => rw [keptHtml_strip o rfl, map_pure]
  all_goals rfl

theorem blocks_strip (o : Options) (ts : List Token) :
    blocks (o.keeping false) ts = stripAll <$> blocks (o.keeping true) ts := by
  match ts with
  | [] => rfl
  | t :: rest =>
    simp [blocks, block_strip o t, blocks_strip o rest, stripAll_append, stripAll_toList]

theorem listItems_strip (o : Options) (ts : List Token) :
    listItems (o.keeping false) ts = stripAll <$> listItems (o.keeping true) ts := by
  match ts with
  | [] => rfl
  | .mk _ _ children _ _ _ :: rest =>
    simp [listItems, blocks_strip o children, listItems_strip o rest, Node.ofBranch,
      stripAll_branch_cons]
end

/-- Leaving raw HTML out is the same as dropping it, errors and notices included, and no raw HTML
is left at any depth. -/
theorem blocks_dropHtml (o : Options) (ts : List Token) :
    blocks (o.keeping false) ts =
        (blocks (o.keeping true) ts >>= fun ns => .ofExcept (Pass.dropHtml.runAll ns)) ∧
      ∀ ns, (blocks (o.keeping false) ts).result = .ok ns →
        ∀ m ∈ nodesOfAll ns, m.kind ≠ .htmlBlock ∧ m.kind ≠ .htmlInline := by
  have hstrip := blocks_strip o ts
  constructor
  · -- The pass fails on tables only that are not headed by their flags, and none is built so.
    rw [hstrip, map_eq_pure_bind]
    refine Noted.bind_congr_of_ok fun ns hns => ?_
    rw [Pass.dropHtml_runAll ns (wellHeaded_of_blocks hns)]
    rfl
  · intro ns hns m hm
    rw [hstrip] at hns
    obtain ⟨kept, -, rfl⟩ := Noted.result_map_eq_ok_iff.mp hns
    simpa [isHtml] using isHtml_of_mem_stripAll kept m hm

end Markdown
end Chartdown
