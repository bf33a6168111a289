import Chartdown.Proofs.Copying

/-!
# Children put in the place of others

A branch that is no table takes any children as they are. A table takes rows only, in one list
without a mark between header and body, and finds its header among them by a flag. `TableOf` says
what table comes of a list of rows: one row at most changes its place, and none is lost or doubled.

## Key results

- `build_table_eq_ok_iff`, `build_table_eq_error_iff`: the table that is built of some nodes, and
  the node that is refused
- `TableOf.perm`, `TableOf.wellHeaded`: the rows are rearranged, and no further when they are put
  into the table again
- `withChildren_spec`: all of it, for every branch
-/

namespace Chartdown

namespace Node

/-- The table of some rows. The first row that is flagged as a header goes to the front and is the
header of the table, and the other rows keep their order; without such a row there is no header. -/
inductive TableOf (alignments : List (Option String)) (i : Info) : List Node → Node → Prop
  | headed (front back : List Node) (header : Node)
      (hfront : ∀ row ∈ front, row.isHeaderRow = false) (hflag : header.isHeaderRow = true) :
      TableOf alignments i (front ++ header :: back)
        (.branch (.table true alignments) (header :: (front ++ back)) i)
  | plain (rows : List Node) (hrows : ∀ row ∈ rows, row.isHeaderRow = false) :
      TableOf alignments i rows (.branch (.table false alignments) rows i)

variable {alignments : List (Option String)} {i : Info} {rows : List Node} {t : Node}

/-- No row is lost or doubled on its way into a table. -/
theorem TableOf.perm (h : TableOf alignments i rows t) : t.children.Perm rows := by
  cases h with
  | headed front back header _ _ => exact List.perm_middle.symm
  | plain => exact .refl _

/-- A table of rows is headed by their flags. -/
theorem TableOf.wellHeaded (h : TableOf alignments i rows t)
    (hrows : ∀ row ∈ rows, row.kind = .tableRow) : t.WellHeaded := by
  have hkind : ∀ row ∈ t.children, row.kind = .tableRow := fun row hrow =>
    hrows row (h.perm.mem_iff.mp hrow)
  cases h with
  | headed front back header _ hflag => exact ⟨hkind, header, front ++ back, rfl, hflag⟩
  | plain _ hflags => exact ⟨hkind, hflags⟩

end Node

/-! ### Building a table -/

open Node (TableOf)

variable {headed : Bool} {alignments : List (Option String)} {i : Info} {rows : List Node}

/-- The first of some rows that is flagged goes to the front. -/
theorem headerFirst_append_cons {front : List Node} {header : Node}
    (hfront : ∀ row ∈ front, row.isHeaderRow = false) (hflag : header.isHeaderRow = true)
    (back : List Node) : headerFirst (front ++ header :: back) = header :: (front ++ back) := by
  have hnone : ∀ row ∈ front, ¬ row.isHeaderRow = true := by simpa using hfront
  have hfind : (front ++ header :: back).find? Node.isHeaderRow = some header := by
    rw [List.find?_append, List.find?_eq_none.mpr hnone, Option.none_or,
      List.find?_cons_of_pos hflag]
  rw [headerFirst, hfind]
  simp only [List.eraseP_append_right _ hnone, List.eraseP_cons_of_pos hflag]

/-- What is built of some rows is their table. -/
theorem tableOf_headerFirst (alignments : List (Option String)) (i : Info) (rows : List Node) :
    TableOf alignments i rows
      (.branch (.table (rows.any Node.isHeaderRow) alignments) (headerFirst rows) i) := by
  by_cases hany : rows.any Node.isHeaderRow = true
  · -- Some row is flagged, so the rows are those in front of the first such row, it and the rest.
    obtain ⟨row, hrow, hflag⟩ := List.any_eq_true.mp hany
    obtain ⟨header, front, back, hfront, hflag, rfl, -⟩ := List.exists_of_eraseP hrow hflag
    have hfront : ∀ row ∈ front, row.isHeaderRow = false := by simpa using hfront
    rw [hany, headerFirst_append_cons hfront hflag]
    exact .headed front back header hfront hflag
  · have hnone : ∀ row ∈ rows, row.isHeaderRow = false := by simpa using hany
    rw [headerFirst_of_forall_not hnone, Bool.eq_false_iff.mpr hany]
    exact .plain rows hnone

/-- Rows have one table. -/
theorem Node.TableOf.eq {t : Node} (h : TableOf alignments i rows t) :
    t = .branch (.table (rows.any Node.isHeaderRow) alignments) (headerFirst rows) i := by
  cases h with
  | headed front back header hfront hflag =>
    rw [headerFirst_append_cons hfront hflag]
    simp [hflag]
  | plain _ hrows =>
    rw [headerFirst_of_forall_not hrows]
    simpa using hrows

/-- The first node that is no row. -/
theorem strayTableChild?_eq_some_iff {kind : NodeKind} :
    strayTableChild? rows = some kind ↔
      ∃ front stray back, rows = front ++ stray :: back ∧ (∀ row ∈ front, row.kind = .tableRow) ∧
        stray.kind ≠ .tableRow ∧ kind = stray.kind := by
  rw [strayTableChild?, List.find?_map, Option.map_eq_some_iff]
  constructor
  · rintro ⟨stray, hfind, rfl⟩
    obtain ⟨hstray, front, back, rfl, hfront⟩ := List.find?_eq_some_iff_append.mp hfind
    exact ⟨front, stray, back, rfl, by simpa using hfront, by simpa using hstray, rfl⟩
  · rintro ⟨front, stray, back, rfl, hfront, hstray, rfl⟩
    refine ⟨stray, List.find?_eq_some_iff_append.mpr ⟨by simpa using hstray, front, back, rfl, ?_⟩,
      rfl⟩
    simpa using hfront

theorem strayTableChild?_eq_none_iff :
    strayTableChild? rows = none ↔ ∀ row ∈ rows, row.kind = .tableRow :=
  ⟨fun h => by simpa [strayTableChild?] using h, strayTableChild?_eq_none⟩

/-- A table is built of rows, and is their table. -/
theorem build_table_eq_ok_iff {t : Node} :
    (Branch.table headed alignments).build rows i = .ok t ↔
      (∀ row ∈ rows, row.kind = .tableRow) ∧ TableOf alignments i rows t := by
  rw [← strayTableChild?_eq_none_iff]
  cases hstray : strayTableChild? rows with
  | some kind => simp [Branch.build, hstray]
  | none =>
    simp only [Branch.build, hstray, Except.ok.injEq, true_and]
    exact ⟨fun h => h ▸ tableOf_headerFirst alignments i rows, fun h => h.eq.symm⟩

/-- The first node that is no row is what a table is refused for. -/
theorem build_table_eq_error_iff {e : NodeError} :
    (Branch.table headed alignments).build rows i = .error e ↔
      ∃ front stray back, rows = front ++ stray :: back ∧ (∀ row ∈ front, row.kind = .tableRow) ∧
        stray.kind ≠ .tableRow ∧ e = .tableChild stray.kind := by
  have hbuild : (Branch.table headed alignments).build rows i = .error e ↔
      ∃ kind, strayTableChild? rows = some kind ∧ e = .tableChild kind := by
    cases hstray : strayTableChild? rows <;> simp [Branch.build, hstray, eq_comm]
  rw [hbuild]
  constructor
  · rintro ⟨kind, hstray, rfl⟩
    obtain ⟨front, stray, back, hsplit, hfront, hkind, rfl⟩ :=
      strayTableChild?_eq_some_iff.mp hstray
    exact ⟨front, stray, back, hsplit, hfront, hkind, rfl⟩
  · rintro ⟨front, stray, back, hsplit, hfront, hkind, rfl⟩
    exact ⟨stray.kind,
      strayTableChild?_eq_some_iff.mpr ⟨front, stray, back, hsplit, hfront, hkind, rfl⟩, rfl⟩

namespace Node

/-- A table refuses nodes exactly if one of them is no row, for the first such node. It takes rows
as their table, with its own alignments and all that it carries, and keeps them as they are when
they are put into it again. Every other branch takes all nodes as they are. -/
theorem withChildren_spec (b : Branch) (cs children : List Node) (i : Info) :
    (∀ headed alignments, b = .table headed alignments →
      ((∃ e, (branch b cs i).withChildren children = .error e) ↔
        ∃ stray ∈ children, stray.kind ≠ .tableRow) ∧
      (∀ e, (branch b cs i).withChildren children = .error e →
        ∃ front stray back, children = front ++ stray :: back ∧
          (∀ row ∈ front, row.kind = .tableRow) ∧ stray.kind ≠ .tableRow ∧
          e = .tableChild stray.kind) ∧
      ((∀ row ∈ children, row.kind = .tableRow) →
        ∃ t, (branch b cs i).withChildren children = .ok t ∧ TableOf alignments i children t ∧
          t.children.Perm children ∧ t.withChildren t.children = .ok t)) ∧
    (b.kind ≠ .table →
      (branch b cs i).withChildren children = .ok (.branch b children i)) := by
  refine ⟨?_, fun hb => children_withChildren hb cs children i⟩
  rintro headed alignments rfl
  simp only [withChildren]
  refine ⟨⟨?_, ?_⟩, fun e => build_table_eq_error_iff.mp, fun hrows => ?_⟩
  · rintro ⟨e, he⟩
    obtain ⟨front, stray, back, rfl, -, hkind, -⟩ := build_table_eq_error_iff.mp he
    exact ⟨stray, by simp, hkind⟩
  · rintro ⟨stray, hstray, hkind⟩
    cases hbuild : (Branch.table headed alignments).build children i with
    | error e => exact ⟨e, rfl⟩
    | ok t => exact absurd ((build_table_eq_ok_iff.mp hbuild).1 stray hstray) hkind
  · have htable := tableOf_headerFirst alignments i children
    exact ⟨_, build_table_eq_ok_iff.mpr ⟨hrows, htable⟩, htable, htable.perm,
      (withChildren_children_iff _).mpr (htable.wellHeaded hrows)⟩

/-- A row of some cells without text. -/
def emptyRow (isHeader : Bool) (cells : Nat) : Node :=
  .ofBranch (.tableRow isHeader) (List.replicate cells (.ofBranch (.tableCell none) []))

/-- Of two flagged rows behind others, the first becomes the header and the second stays behind. -/
theorem withChildren_spec_twoHeaders :
    (∀ row ∈ [emptyRow false 1, emptyRow true 2, emptyRow false 3, emptyRow true 4],
      row.kind = .tableRow) ∧
    Branch.blockQuote.kind ≠ .table ∧
    (∃ t, (branch (.table false [some "left"]) [] {}).withChildren
        [emptyRow false 1, emptyRow true 2, emptyRow false 3, emptyRow true 4] = .ok t ∧
      t.children = [emptyRow true 2, emptyRow false 1, emptyRow false 3, emptyRow true 4] ∧
      t.withChildren t.children = .ok t) ∧
    (branch .blockQuote [] {}).withChildren [emptyRow false 1, emptyRow true 2] =
      .ok (.branch .blockQuote [emptyRow false 1, emptyRow true 2] {}) := by
  have hrows : ∀ row ∈ [emptyRow false 1, emptyRow true 2, emptyRow false 3, emptyRow true 4],
      row.kind = .tableRow := by
    simp [emptyRow, Node.ofBranch, Node.kind, Branch.kind]
  obtain ⟨t, ht, -, -, hstable⟩ :=
    ((withChildren_spec (.table false [some "left"]) [] _ {}).1 _ _ rfl).2.2 hrows
  have hquote : Branch.blockQuote.kind ≠ .table := by decide
  refine ⟨hrows, hquote, ⟨t, ht, ?_, hstable⟩,
    (withChildren_spec .blockQuote [] [emptyRow false 1, emptyRow true 2] {}).2 hquote⟩
  cases ht
  rfl

end Node
end Chartdown
