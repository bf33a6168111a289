import Chartdown.Markdown.Nodes
import Chartdown.Proofs.Selection

/-!
# What tokens become

Inline tokens and tables always have a result and give no notices. What can go wrong is the level of
a heading, and what can be noticed is the language of a code block. The nodes of inline tokens are
of few kinds, so that all tables in a result are built at one place, headed by their flags and
aligned as the cells of their headers.

## Key results

- `exists_inlines`, `exists_table`: inline tokens and tables are built without a failure or a notice
- `isAligned_of_blocks`: every table among the nodes of block tokens is aligned
- `wellHeaded_of_blocks`: every table among the nodes of block tokens is headed by its flags
-/

namespace Chartdown

/-! ### Steps with notices -/

/-- What follows a step only counts at the results that the step can have. -/
theorem Noted.bind_congr_of_ok {x : Noted ε α} {f g : α → Noted ε β}
    (h : ∀ a, x.result = .ok a → f a = g a) : x >>= f = x >>= g := by
  show x.bind f = x.bind g
  unfold Noted.bind
  cases hx : x.result with
  | error e => rfl
  | ok a => simp only [h a hx]

@[simp] theorem Noted.map_fail (f : α → β) (e : ε) : f <$> (fail e : Noted ε α) = fail e := rfl

/-! ### Properties of all nodes -/

namespace Node

/-- All nodes at and below some nodes have a property. -/
def Throughout (P : Node → Prop) (ns : List Node) : Prop := ∀ m ∈ nodesOfAll ns, P m

variable {P Q : Node → Prop}

theorem throughout_nil : Throughout P [] := by simp [Throughout, nodesOfAll]

theorem throughout_leaf {l : Leaf} {i : Info} (h : P (.leaf l i)) : Throughout P [.leaf l i] := by
  simpa [Throughout, nodesOfAll, nodes] using h

theorem throughout_branch {b : Branch} {cs : List Node} {i : Info} (h : P (.branch b cs i))
    (hcs : Throughout P cs) : Throughout P [.branch b cs i] := by
  intro m hm
  simp only [nodesOfAll, nodes, List.append_nil, List.mem_cons] at hm
  exact hm.elim (fun h' => h' ▸ h) (hcs m)

theorem Throughout.append {ns ns' : List Node} (h : Throughout P ns) (h' : Throughout P ns') :
    Throughout P (ns ++ ns') := by
  intro m hm
  rw [nodesOfAll_eq_flatMap, List.flatMap_append, List.mem_append, ← nodesOfAll_eq_flatMap,
    ← nodesOfAll_eq_flatMap] at hm
  exact hm.elim (h m) (h' m)

theorem Throughout.cons {n : Node} {ns : List Node} (h : Throughout P [n])
    (h' : Throughout P ns) : Throughout P (n :: ns) :=
  h.append h'

theorem Throughout.imp {ns : List Node} (h : Throughout P ns) (hPQ : ∀ n, P n → Q n) :
    Throughout Q ns := fun m hm => hPQ m (h m hm)

/-- The row of a header, or of the body, of a table. -/
def IsRow (isHeader : Bool) (n : Node) : Prop := ∃ cells i, n = .branch (.tableRow isHeader) cells i

/-- The first row of a table with a header is flagged as one, no other row of any table is, and the
columns are aligned as the cells of the header, if there is one. Nothing is asked of other nodes. -/
def IsAligned : Node → Prop
  | .branch (.table true alignments) rows _ =>
    ∃ cells i body, rows = .branch (.tableRow true) cells i :: body ∧
      (∀ c ∈ cells, c.kind = .tableCell) ∧ alignments = cells.map Markdown.alignmentOf ∧
      ∀ row ∈ body, row.IsRow false
  | .branch (.table false alignments) rows _ => alignments = [] ∧ ∀ row ∈ rows, row.IsRow false
  | _ => True

theorem IsRow.kind_eq {isHeader : Bool} {n : Node} (h : n.IsRow isHeader) : n.kind = .tableRow := by
  obtain ⟨cells, i, rfl⟩ := h
  rfl

theorem IsRow.isHeaderRow_eq {n : Node} (h : n.IsRow false) : n.isHeaderRow = false := by
  obtain ⟨cells, i, rfl⟩ := h
  rfl

theorem isAligned_of_kind {n : Node} (h : n.kind ≠ .table) : n.IsAligned := by
  cases n with
  | leaf l i => trivial
  | branch b cs i =>
    cases b with
    | table => exact absurd rfl h
    | _ => trivial

/-- Aligned tables are headed by the flags of their rows. -/
theorem IsAligned.wellHeaded {n : Node} (h : n.IsAligned) : n.WellHeaded := by
  cases n with
  | leaf l i => trivial
  | branch b rows i =>
    cases b with
    | table headed alignments =>
      cases headed with
      | false => exact ⟨fun row hrow => (h.2 row hrow).kind_eq,
          fun row hrow => (h.2 row hrow).isHeaderRow_eq⟩
      | true =>
        obtain ⟨cells, j, body, rfl, -, -, hbody⟩ := h
        exact ⟨List.forall_mem_cons.mpr ⟨rfl, fun row hrow => (hbody row hrow).kind_eq⟩,
          _, body, rfl, rfl⟩
    | _ => trivial

end Node

/-- The kinds of nodes that inline tokens become. -/
def NodeKind.isInline : NodeKind → Bool
  | .text | .emphasis | .strong | .code | .link | .image | .lineBreak | .strikethrough
  | .htmlInline => true
  | _ => false

/-- The kinds of nodes that stand in tables. -/
def NodeKind.isTabular : NodeKind → Bool
  | .tableRow | .tableCell => true
  | k => k.isInline

theorem NodeKind.isTabular_of_isInline {k : NodeKind} (h : k.isInline = true) :
    k.isTabular = true := by
  cases k <;> first | rfl | exact h

theorem Node.isAligned_of_isTabular {n : Node} (h : n.kind.isTabular = true) : n.IsAligned := by
  refine isAligned_of_kind fun htable => ?_
  rw [htable] at h
  cases h

namespace Markdown

open Node

/-! ### Inline tokens -/

mutual
/-- An inline token becomes an inline node or none. -/
theorem exists_inline (o : Options) (t : Token) :
    ∃ n : Option Node, inline o t = pure n ∧ Throughout (·.kind.isInline = true) n.toList := by
  obtain ⟨type, raw, children, a, marker, tight⟩ := t
  obtain ⟨ns, hns, hinline⟩ := exists_inlines o children
  unfold inline
  split
  -- A token becomes a leaf, a branch around what is below it, raw HTML or nothing.
  case h_1 | h_2 | h_7 | h_8 | h_9 => exact ⟨_, rfl, throughout_leaf rfl⟩
  case h_3 | h_4 | h_5 | h_6 =>
    rw [hns, pure_bind]
    exact ⟨_, rfl, throughout_branch rfl hinline⟩
  case h_10 =>
    refine ⟨_, rfl, ?_⟩
    unfold keptHtml
    split
    · exact throughout_leaf rfl
    · exact throughout_nil
  case h_11 => exact ⟨none, rfl, throughout_nil⟩

theorem exists_inlines (o : Options) (ts : List Token) :
    ∃ ns : List Node, inlines o ts = pure ns ∧ Throughout (·.kind.isInline = true) ns := by
  match ts with
  | [] => exact ⟨[], by rw [inlines], throughout_nil⟩
  | t :: rest =>
    obtain ⟨n, hn, hinline⟩ := exists_inline o t
    obtain ⟨ns, hns, hinlines⟩ := exists_inlines o rest
    exact ⟨n.toList ++ ns, by rw [inlines, hn, hns, pure_bind, pure_bind], hinline.append hinlines⟩
end

/-! ### Tables -/

/-- The cells of a row, with their text. -/
def AreCells (cs : List Node) : Prop :=
  (∀ c ∈ cs, c.kind = .tableCell) ∧ Throughout (·.kind.isTabular = true) cs

/-- Rows of the body of a table, with their cells. -/
def AreBodyRows (rows : List Node) : Prop :=
  (∀ row ∈ rows, row.IsRow false) ∧ Throughout (·.kind.isTabular = true) rows

theorem exists_cells (o : Options) (ts : List Token) :
    ∃ cs : List Node, cells o ts = pure cs ∧ AreCells cs := by
  induction ts with
  | nil => exact ⟨[], rfl, nofun, throughout_nil⟩
  | cons t rest ih =>
    obtain ⟨type, raw, children, a, marker, tight⟩ := t
    obtain ⟨cs, hcs, hcells⟩ := ih
    obtain ⟨ns, hns, hinline⟩ := exists_inlines o children
    simp only [cells, hns, hcs, pure_bind]
    split
    · refine ⟨_, rfl, List.forall_mem_cons.mpr ⟨rfl, hcells.1⟩, ?_⟩
      exact .cons (throughout_branch rfl
        (hinline.imp fun _ => NodeKind.isTabular_of_isInline)) hcells.2
    · exact ⟨cs, rfl, hcells⟩

theorem exists_bodyRows (o : Options) (ts : List Token) :
    ∃ rows : List Node, bodyRows o ts = pure rows ∧ AreBodyRows rows := by
  induction ts with
  | nil => exact ⟨[], rfl, nofun, throughout_nil⟩
  | cons t rest ih =>
    obtain ⟨type, raw, children, a, marker, tight⟩ := t
    obtain ⟨rows, hrows, hbody⟩ := ih
    obtain ⟨cs, hcs, hcells⟩ := exists_cells o children
    simp only [bodyRows, hcs, hrows, pure_bind]
    refine ⟨_, rfl, List.forall_mem_cons.mpr ⟨⟨cs, {}, rfl⟩, hbody.1⟩, ?_⟩
    exact .cons (throughout_branch rfl hcells.2) hbody.2

theorem AreBodyRows.append {rows rows' : List Node} (h : AreBodyRows rows)
    (h' : AreBodyRows rows') : AreBodyRows (rows ++ rows') :=
  ⟨List.forall_mem_append.mpr ⟨h.1, h'.1⟩, h.2.append h'.2⟩

theorem exists_tableParts (o : Options) (ts : List Token) :
    ∃ (head : Option (List Node)) (rows : List Node), tableParts o ts = pure (head, rows) ∧
      (∀ cs ∈ head, AreCells cs) ∧ AreBodyRows rows := by
  induction ts with
  | nil => exact ⟨none, [], rfl, nofun, nofun, throughout_nil⟩
  | cons t rest ih =>
    obtain ⟨type, raw, children, a, marker, tight⟩ := t
    obtain ⟨head, rows, hparts, hhead, hbody⟩ := ih
    unfold tableParts
    split
    · obtain ⟨cs, hcs, hcells⟩ := exists_cells o children
      simp only [hcs, hparts, pure_bind]
      refine ⟨_, rows, rfl, ?_, hbody⟩
      -- The last head of a table is the one that counts.
      cases head with
      | none => simpa using hcells
      | some later => simpa using hhead
    · obtain ⟨more, hmore, hmoreBody⟩ := exists_bodyRows o children
      simp only [hmore, hparts, pure_bind]
      exact ⟨head, _, rfl, hhead, hmoreBody.append hbody⟩
    · exact ⟨head, rows, hparts, hhead, hbody⟩

/-- The table of a table token is aligned, and there is no table in it. -/
theorem exists_table (o : Options) (ts : List Token) :
    ∃ headed alignments rows, table o ts = pure (.ofBranch (.table headed alignments) rows) ∧
      (Node.branch (.table headed alignments) rows {}).IsAligned ∧
      Throughout (·.kind.isTabular = true) rows := by
  obtain ⟨head, rows, hparts, hhead, hbody⟩ := exists_tableParts o ts
  simp only [table, hparts, pure_bind]
  cases head with
  | none =>
    -- Without a head there are only rows of the body, none of which is flagged.
    exact ⟨false, [], rows, rfl, ⟨rfl, hbody.1⟩, hbody.2⟩
  | some cs =>
    -- The row of the head is the first one and the only one that is flagged.
    have hcells := hhead cs rfl
    exact ⟨true, cs.map alignmentOf, _, rfl, ⟨cs, {}, rows, rfl, hcells.1, rfl, hbody.1⟩,
      .cons (throughout_branch rfl hcells.2) hbody.2⟩

/-! ### Block tokens -/

mutual
theorem isAligned_of_block {o : Options} {t : Token} {n : Option Node}
    (h : (block o t).result = .ok n) : Throughout IsAligned n.toList := by
  obtain ⟨type, raw, children, a, marker, tight⟩ := t
  obtain ⟨ns, hns, hinline⟩ := exists_inlines o children
  have haligned : Throughout IsAligned ns :=
    hinline.imp fun _ h => isAligned_of_isTabular (NodeKind.isTabular_of_isInline h)
  unfold block at h
  split at h
  -- Tables stand below quotes and lists, by induction, or are made of a token of their own.
  case h_1 =>
    rw [hns, pure_bind] at h
    split at h
    · cases h
      exact throughout_branch trivial haligned
    · cases h
  case h_2 | h_3 =>
    rw [hns, pure_bind] at h
    cases h
    exact throughout_branch trivial haligned
  case h_4 =>
    obtain ⟨m, hm, hn⟩ := Noted.result_bind_eq_ok_iff.mp h
    obtain ⟨language, -, hm⟩ := Noted.result_bind_eq_ok_iff.mp hm
    cases hm
    cases hn
    exact throughout_leaf trivial
  case h_5 =>
    obtain ⟨cs, hcs, hn⟩ := Noted.result_bind_eq_ok_iff.mp h
    cases hn
    exact throughout_branch trivial (isAligned_of_blocks hcs)
  case h_6 =>
    obtain ⟨items, hitems, hn⟩ := Noted.result_bind_eq_ok_iff.mp h
    cases hn
    exact throughout_branch trivial (isAligned_of_listItems hitems)
  case h_7 =>
    obtain ⟨headed, alignments, rows, htable, hrows, htabular⟩ := exists_table o children
    rw [htable, pure_bind] at h
    cases h
    exact throughout_branch hrows (htabular.imp fun _ => isAligned_of_isTabular)
  case h_8 =>
    cases h
    exact throughout_leaf trivial
  case h_9 =>
    cases h
    unfold keptHtml
    split
    · exact throughout_leaf trivial
    · exact throughout_nil
  case h_10 =>
    cases h
    exact throughout_nil

/-- Every table in the nodes of block tokens is aligned. -/
theorem isAligned_of_blocks {o : Options} {ts : List Token} {ns : List Node}
    (h : (blocks o ts).result = .ok ns) : Throughout IsAligned ns := by
  match ts with
  | [] =>
    cases h
    exact throughout_nil
  | t :: rest =>
    rw [blocks] at h
    obtain ⟨n, hn, h⟩ := Noted.result_bind_eq_ok_iff.mp h
    obtain ⟨later, hlater, h⟩ := Noted.result_bind_eq_ok_iff.mp h
    cases h
    exact (isAligned_of_block hn).append (isAligned_of_blocks hlater)

theorem isAligned_of_listItems {o : Options} {ts : List Token} {ns : List Node}
    (h : (listItems o ts).result = .ok ns) : Throughout IsAligned ns := by
  match ts with
  | [] =>
    cases h
    exact throughout_nil
  | .mk _ _ children _ _ _ :: rest =>
    rw [listItems] at h
    obtain ⟨content, hcontent, h⟩ := Noted.result_bind_eq_ok_iff.mp h
    obtain ⟨others, hothers, h⟩ := Noted.result_bind_eq_ok_iff.mp h
    cases h
    exact .cons (throughout_branch trivial (isAligned_of_blocks hcontent))
      (isAligned_of_listItems hothers)
end

/-- Every table in the nodes of block tokens is headed by its flags. -/
theorem wellHeaded_of_blocks {o : Options} {ts : List Token} {ns : List Node}
    (h : (blocks o ts).result = .ok ns) : Throughout WellHeaded ns :=
  (isAligned_of_blocks h).imp fun _ => IsAligned.wellHeaded

end Markdown
end Chartdown
