import Chartdown.Proofs.Chart.Dialect.Writing
import Chartdown.Proofs.Chart.Outline

/-!
# The layout of a chart

A chart is read line by line, each line without the blanks at its ends. That changes the gaps
between tokens and nothing else: what is kept as data is the same array with other gaps.

## Key results

- `ArrayText.tidies_core`: tidying an array changes its gaps
- `ItemsText.steady_text`: no bracket inside the items of an array counts
- `Writing.parse_text_eq`: the points of a chart are decoded from its tidied array
-/

namespace Chartdown.Chart.Dialect

open Text
open Json (NumberText)

/-! ### Gaps -/

theorem isBlank_of_isSpace {c : Char} (h : Json.isSpace c = true) : isBlank c = true := by
  simp only [Json.isSpace, Bool.or_eq_true, beq_iff_eq] at h
  rcases h with ((rfl | rfl) | rfl) | rfl <;> decide

theorem Gap.isBlank_of_mem (g : Gap) : ∀ c ∈ g.val, isBlank c = true :=
  fun c hc => isBlank_of_isSpace (g.property c hc)

/-- What is left of a gap. -/
def Gap.tidy (sep g : Gap) : Gap :=
  ⟨tidyGap sep g, by
    rw [tidyGap]
    split
    · intro c hc
      obtain ⟨part, hpart, hc⟩ := List.mem_flatten.mp hc
      rw [List.eq_of_mem_replicate hpart] at hc
      exact sep.property c hc
    · exact g.property⟩

/-- What tidying does, where lines are put together by a separator. -/
def tidied (sep : Gap) : Change where
  gap := Gap.tidy sep
  name n := ⟨n.style, Gap.tidy sep n.beforeColon, Gap.tidy sep n.afterColon⟩
  ending e := ⟨e.beforeComma.map (Gap.tidy sep), Gap.tidy sep e.gap⟩

/-! ### Solid parts -/

/-- A text without gaps at its ends becomes another one. -/
structure Tidies (sep : Gap) (u u' : List Char) : Prop where
  starts : StartsSolid u
  ends : EndsSolid u
  eq : tidy sep u = u'

namespace Tidies

variable {sep : Gap} {u u' v v' : List Char}

/-- A token stays as it is. -/
theorem token (hu : u ≠ []) (hsolid : ∀ c ∈ u.head? , isBlank c = false)
    (hends : ∀ c ∈ u.getLast?, isBlank c = false) (hfeed : '\n' ∉ u) : Tidies sep u u := by
  have hstarts := startsSolid_of_head? hu hsolid
  have hends := endsSolid_of_getLast? hu hends
  exact ⟨hstarts, hends, tidy_of_solid sep hstarts hends hfeed⟩

/-- A token without blanks. -/
theorem of_forall (hu : u ≠ []) (h : ∀ c ∈ u, isBlank c = false) : Tidies sep u u := by
  refine token hu (fun c hc => h c (List.mem_of_mem_head? hc))
    (fun c hc => h c (List.mem_of_mem_getLast? hc)) fun hfeed => ?_
  exact absurd (h _ hfeed) (by decide)

/-- A mark of one character. -/
theorem mark {c : Char} (hc : isBlank c = false) : Tidies sep [c] [c] :=
  of_forall (List.cons_ne_nil c []) (List.forall_mem_singleton.mpr hc)

/-- Two parts and a gap between them. -/
theorem gap (hu : Tidies sep u u') (g : Gap) (hv : Tidies sep v v') :
    Tidies sep (u ++ (g ++ v)) (u' ++ (Gap.tidy sep g ++ v')) := by
  refine ⟨hu.starts.append _, ?_, ?_⟩
  · rw [← List.append_assoc]
    exact hv.ends.append _
  · rw [tidy_append sep.val hu.ends hv.starts g.isBlank_of_mem, hu.eq, hv.eq]
    rfl

end Tidies

theorem Quote.tidies_write (sep : Gap) (q : Quote) {s : List Char}
    (hs : ∀ c ∈ s, Json.IsPlainChar c) : Tidies sep (q.write s) (q.write s) := by
  have hq : isBlank q.char = false := by cases q <;> decide
  refine .token (List.cons_ne_nil _ _) ?_ ?_ ?_
  · rintro c ⟨⟩
    exact hq
  · intro c hc
    rw [write, ← List.cons_append, List.getLast?_concat, Option.mem_some_iff] at hc
    exact hc ▸ hq
  · intro hfeed
    rw [write, List.mem_cons, List.mem_append, List.mem_singleton] at hfeed
    have hne : '\n' ≠ q.char := by cases q <;> decide
    rcases hfeed with h | h | h
    · exact hne h
    · exact absurd (hs _ h).2.2.2 (by decide)
    · exact hne h

theorem NameStyle.tidies_write (sep : Gap) (r : Role) (style : NameStyle) :
    Tidies sep (style.write r.chars) (style.write r.chars) := by
  cases style with
  | bare => cases r <;> exact .of_forall (by decide) (by decide)
  | quoted q => exact q.tidies_write sep (by cases r <;> decide)

theorem isBlank_of_isNumberChar {c : Char} (h : Json.isNumberChar c = true) :
    isBlank c = false := by
  simp only [Json.isNumberChar, Bool.or_eq_true, beq_iff_eq] at h
  rcases h with ((((h | rfl) | rfl) | rfl) | rfl) | rfl
  · simp only [Char.isDigit, Bool.and_eq_true, decide_eq_true_eq] at h
    exact isBlank_eq_false (Nat.le_trans (by decide) h.1) (Nat.lt_of_le_of_lt h.2 (by decide))
  all_goals decide

theorem ScalarText.tidies_text (sep : Gap) (s : ScalarText) : Tidies sep s.text s.text := by
  cases s with
  | string q s => exact q.tidies_write sep s.property
  | number n =>
    obtain ⟨c, t, hcons, -⟩ := n.exists_text_eq_cons
    refine .of_forall (by rw [text, hcons]; exact List.cons_ne_nil c t) fun c hc => ?_
    exact isBlank_of_isNumberChar (NumberText.isNumberChar_of_mem_text hc)

/-! ### Points and arrays -/

theorem ScalarText.change_tidied (sep : Gap) (s : ScalarText) : s.change (tidied sep) = s := by
  cases s <;> rfl

theorem FieldText.tidies_text (sep : Gap) (f : FieldText) :
    Tidies sep f.text (f.change (tidied sep)).text := by
  have hcolon : Tidies sep [':'] [':'] := .mark (by decide)
  have hvalue := f.value.tidies_text sep
  have htext := (f.name.style.tidies_write sep f.role).gap f.name.beforeColon
    (hcolon.gap f.name.afterColon hvalue)
  rw [text, change, f.value.change_tidied]
  exact htext

/-- An ending between two solid parts. -/
theorem Ending.tidies (e : Ending) {sep : Gap} {u u' v v' : List Char} (hu : Tidies sep u u')
    (hv : Tidies sep v v') :
    Tidies sep (u ++ (e.text ++ v)) (u' ++ (((tidied sep).ending e).text ++ v')) := by
  obtain ⟨beforeComma, g⟩ := e
  cases beforeComma with
  | none => exact hu.gap g hv
  | some g' =>
    have hcomma : Tidies sep [','] [','] := .mark (by decide)
    have htext := hu.gap g' (hcomma.gap g hv)
    simp only [text, tidied, Option.map_some, List.append_assoc, List.cons_append]
    exact htext

theorem PointText.tidies_text (sep : Gap) (p : PointText) :
    Tidies sep p.text (p.change (tidied sep)).text := by
  have hopen : Tidies sep ['\x7b'] ['\x7b'] := .mark (by decide)
  have hcomma : Tidies sep [','] [','] := .mark (by decide)
  have hclose : Tidies sep ['\x7d'] ['\x7d'] := .mark (by decide)
  have htext := hopen.gap p.start ((p.firstField.tidies_text sep).gap p.beforeComma
    (hcomma.gap p.afterComma (p.ending.tidies (p.lastField.tidies_text sep) hclose)))
  rw [text, text, p.firstField_change, p.lastField_change]
  exact htext

namespace ItemsText

/-- The items without the gap at their end. -/
def trimmed : ItemsText → ItemsText
  | .last p e => .last p ⟨e.beforeComma, .none⟩
  | .next p beforeComma afterComma rest => .next p beforeComma afterComma rest.trimmed

/-- The gap at the end of items. -/
def finish : ItemsText → Gap
  | .last _ e => e.gap
  | .next _ _ _ rest => rest.finish

theorem text_eq (items : ItemsText) : items.text = items.trimmed.text ++ items.finish := by
  induction items with
  | last p e =>
    obtain ⟨beforeComma, g⟩ := e
    cases beforeComma <;> simp [text, trimmed, finish, Ending.text, Gap.none]
  | next p g g' rest ih => simp [text, trimmed, finish, ih]

theorem trimmed_change_tidied (sep : Gap) (items : ItemsText) :
    (items.change (tidied sep)).trimmed = items.trimmed.change (tidied sep) := by
  induction items with
  | last p e => rfl
  | next p g g' rest ih => simp only [change, trimmed, ih]

theorem finish_change_tidied (sep : Gap) (items : ItemsText) :
    (items.change (tidied sep)).finish = Gap.tidy sep items.finish := by
  induction items with
  | last p e => rfl
  | next p g g' rest ih => simp only [change, finish, ih]

theorem tidies_trimmed (sep : Gap) (items : ItemsText) :
    Tidies sep items.trimmed.text (items.trimmed.change (tidied sep)).text := by
  have hcomma : Tidies sep [','] [','] := .mark (by decide)
  induction items with
  | last p e =>
    -- A trailing comma is a solid end; without one the items end with the brace of the last point.
    obtain ⟨beforeComma, g⟩ := e
    have hpoint := p.tidies_text sep
    cases beforeComma with
    | none =>
      show Tidies sep (p.text ++ []) ((p.change (tidied sep)).text ++ [])
      rw [List.append_nil, List.append_nil]
      exact hpoint
    | some g' => exact hpoint.gap g' hcomma
  | next p g g' rest ih => exact (p.tidies_text sep).gap g (hcomma.gap g' ih)

end ItemsText

namespace ArrayText

/-- An array with other choices. -/
def change (c : Change) (a : ArrayText) : ArrayText := ⟨a.opening.map c.gap, a.items.change c, a.closed⟩

/-- An array without the gap at its end. -/
def core (a : ArrayText) : List Char :=
  a.front ++ if a.closed then a.items.text ++ [']'] else a.items.trimmed.text

/-- The gap at the end of an array. -/
def finish (a : ArrayText) : Gap := if a.closed then .none else a.items.finish

theorem text_eq (a : ArrayText) : a.text = a.core ++ a.finish := by
  cases hclosed : a.closed with
  | true => simp [text, core, finish, hclosed, Gap.none]
  | false => simp [text, core, finish, hclosed, a.items.text_eq]

/-- Tidying an array changes its gaps. -/
theorem tidies_core (sep : Gap) (a : ArrayText) :
    Tidies sep a.core (a.change (tidied sep)).core := by
  obtain ⟨opening, items, closed⟩ := a
  have hbracket : Tidies sep ['['] ['['] := .mark (by decide)
  have hclose : Tidies sep [']'] [']'] := .mark (by decide)
  have hitems : Tidies sep (if closed then items.text ++ [']'] else items.trimmed.text)
      (if closed then (items.change (tidied sep)).text ++ [']']
        else (items.change (tidied sep)).trimmed.text) := by
    cases closed with
    | true =>
      have htext := (items.tidies_trimmed sep).gap items.finish hclose
      simp only [if_true, items.text_eq, (items.change (tidied sep)).text_eq,
        items.trimmed_change_tidied, items.finish_change_tidied, List.append_assoc]
      exact htext
    | false =>
      rw [items.trimmed_change_tidied]
      exact items.tidies_trimmed sep
  cases opening with
  | none => exact hitems
  | some g => exact hbracket.gap g hitems

end ArrayText

/-! ### Brackets that do not count -/

open Nesting (Steady)

theorem Gap.steady (g : Gap) : Steady g.val := by
  refine .of_forall fun c hc => ?_
  have hspace := g.property c hc
  simp only [Json.isSpace, Bool.or_eq_true, beq_iff_eq] at hspace
  rcases hspace with ((rfl | rfl) | rfl) | rfl <;> decide

theorem Quote.steady_write (q : Quote) {s : List Char} (hs : ∀ c ∈ s, Json.IsPlainChar c) :
    Steady (q.write s) := by
  refine .quoted (by cases q <;> decide) fun c hc => ?_
  obtain ⟨hdouble, hsingle, hescape, -⟩ := hs c hc
  cases q with
  | single => exact ⟨hsingle, hescape⟩
  | double => exact ⟨hdouble, hescape⟩

theorem NameStyle.steady_write (r : Role) (style : NameStyle) : Steady (style.write r.chars) := by
  cases style with
  | bare => exact .of_forall (by cases r <;> decide)
  | quoted q => exact q.steady_write (by cases r <;> decide)

theorem ScalarText.steady_text (s : ScalarText) : Steady s.text := by
  cases s with
  | string q s => exact q.steady_write s.property
  | number n =>
    refine .of_forall fun c hc => ?_
    have hnumber : Json.isNumberChar c = true := NumberText.isNumberChar_of_mem_text hc
    refine ⟨?_, ?_, ?_, ?_⟩ <;> rintro rfl <;> exact absurd hnumber (by decide)

theorem FieldText.steady_text (f : FieldText) : Steady f.text :=
  (f.name.style.steady_write f.role).append (f.name.beforeColon.steady.append
    (.cons (by decide) (f.name.afterColon.steady.append f.value.steady_text)))

theorem Ending.steady_text (e : Ending) : Steady e.text := by
  obtain ⟨beforeComma, g⟩ := e
  cases beforeComma with
  | none => exact g.steady
  | some g' => exact g'.steady.append (.cons (by decide) g.steady)

theorem PointText.steady_text (p : PointText) : Steady p.text :=
  .cons (by decide) (p.start.steady.append (p.firstField.steady_text.append
    (p.beforeComma.steady.append (.cons (by decide) (p.afterComma.steady.append
      (p.lastField.steady_text.append (p.ending.steady_text.append (.cons (by decide) .nil))))))))

/-- No bracket inside the items of an array counts. -/
theorem ItemsText.steady_text (items : ItemsText) : Steady items.text := by
  induction items with
  | last p e => exact p.steady_text.append e.steady_text
  | next p g g' rest ih =>
    exact p.steady_text.append (g.steady.append (.cons (by decide) (g'.steady.append ih)))

namespace ArrayText

/-- Before its closing bracket an array is open. -/
theorem closed_read_of_isPrefix (a : ArrayText) {u : List Char} (hu : u <+: a.front ++ a.items.text) :
    (({} : Nesting).read u).closed = false := by
  rw [front] at hu
  cases hopening : a.opening with
  | none =>
    rw [hopening] at hu
    exact Nesting.closed_read_of_steady a.items.steady_text hu
  | some g =>
    rw [hopening] at hu
    exact Nesting.closed_read_of_steady_cons (g.steady.append a.items.steady_text) hu

/-- An array with both brackets is complete. -/
theorem closed_read_core {a : ArrayText} (hopening : a.opening ≠ none) (hclosed : a.closed = true) :
    (({} : Nesting).read a.core).closed = true := by
  obtain ⟨g, hg⟩ := Option.ne_none_iff_exists'.mp hopening
  have hread := Nesting.closed_read_brackets (g.steady.append a.items.steady_text)
  rw [core, front, hg, if_pos hclosed]
  rwa [List.append_assoc] at hread

theorem flatten_tidyLines_core (a : ArrayText) :
    (tidyLines a.core).flatten = (a.change (tidied .none)).core := by
  rw [← (a.tidies_core .none).eq, tidy]
  exact (intercalate_nil_left _).symm

/-- Before each line of it an array is open. -/
theorem closed_read_front (a : ArrayText) {front back : List (List Char)} {line : List Char}
    (h : tidyLines a.core = front ++ line :: back) :
    (({} : Nesting).read front.flatten).closed = false := by
  refine (a.change (tidied .none)).closed_read_of_isPrefix ?_
  obtain ⟨lines, last, hlines, hlast⟩ := exists_tidyLines_eq_concat (a.tidies_core .none).ends
  have hflatten := a.flatten_tidyLines_core
  rw [h, List.flatten_append, core] at hflatten
  cases hclosed : a.closed with
  | false =>
    have hstart : front.flatten <+:
        (a.change (tidied .none)).front ++ (a.change (tidied .none)).items.trimmed.text := by
      rw [if_neg (by simp [change, hclosed])] at hflatten
      exact ⟨_, hflatten⟩
    refine hstart.trans ?_
    rw [(a.change (tidied .none)).items.text_eq, List.prefix_append_right_inj]
    exact List.prefix_append _ _
  | true =>
    -- The last line holds the closing bracket, so the lines before it end before the bracket.
    rw [if_pos (by simp [change, hclosed]), ← List.append_assoc] at hflatten
    have hmem : last ∈ line :: back := by
      have hgetLast := congrArg List.getLast? (h.symm.trans hlines)
      rw [List.getLast?_concat, List.getLast?_append_cons] at hgetLast
      exact List.mem_of_getLast? hgetLast
    have hne : (line :: back).flatten ≠ [] := fun hnil =>
      hlast (List.flatten_eq_nil_iff.mp hnil last hmem)
    have hstart := List.prefix_concat_iff.mp ⟨_, hflatten⟩
    rcases hstart with heq | hstart
    · rw [heq, List.append_right_eq_self] at hflatten
      exact absurd hflatten hne
    · exact hstart

/-- The lines of an array are all data. -/
theorem foldl_addLine_core (a : ArrayText) {o : Outline} (hdata : o.inData = true)
    (hnesting : o.nesting = {}) :
    (tidyLines a.core).foldl Outline.addLine o =
      { o with
        dataLines := (tidyLines a.core).reverse ++ o.dataLines
        nesting := ({} : Nesting).read (a.change (tidied .none)).core } := by
  rw [Outline.foldl_addLine_of_open hdata, hnesting, a.flatten_tidyLines_core]
  intro front line back h
  rw [hnesting]
  exact a.closed_read_front h

end ArrayText

/-! ### The data mark -/

theorem kind_dataMark_append (g : Gap) {line : List Char} (hline : line = [] ∨ line.head? = some '[') :
    LineKind.of (dataMark ++ (g ++ line)) = .data line := by
  have hgap : ∀ c ∈ g.val, (c != '[') = true := fun c hc => by
    have hspace := g.property c hc
    rw [bne_iff_ne]
    rintro rfl
    exact absurd hspace (by decide)
  have hstart : (g ++ line).dropWhile (· != '[') = line := by
    rw [List.dropWhile_append_of_pos hgap]
    rcases hline with rfl | hline
    · rfl
    · obtain ⟨t, rfl⟩ := List.head?_eq_some_iff.mp hline
      rfl
  rw [LineKind.of_dataMark_append, hstart]

section Mark

variable (a : ArrayText) (afterMark : Gap) {o : Outline}

theorem tidies_dataMark : Tidies .none dataMark dataMark := .of_forall (by decide) (by decide)

theorem tidyLines_dataMark : tidyLines dataMark = [dataMark] := by
  rw [tidyLines_of_not_mem (by decide), trim_of_solid tidies_dataMark.starts tidies_dataMark.ends]

/-- Behind a mark on a line of its own the empty lines and the array below are data. -/
theorem ArrayText.foldl_addLine_below (hfeed : '\n' ∈ afterMark.val) (hdata : o.inData = false)
    (hlines : o.dataLines = []) (hnesting : o.nesting = {}) :
    (tidyLines (dataMark ++ (afterMark ++ a.core))).foldl Outline.addLine o =
      { o with
        inData := true
        dataLines := (tidyLines a.core).reverse ++
          List.replicate (afterMark.val.count '\n' - 1) []
        nesting := ({} : Nesting).read (a.change (tidied .none)).core } := by
  have hnotOpen : o.isOpen = false := by simp [Outline.isOpen, hdata]
  have hkind : LineKind.of dataMark = .data [] := by decide
  have hfirst : o.addLine dataMark = { o with inData := true } := by
    simp [Outline.addLine, hnotOpen, hkind]
  -- Empty lines open and close no brackets, so the array is still to come behind them.
  have hempty := @Outline.foldl_addLine_of_open { o with inData := true } rfl
    (List.replicate (afterMark.val.count '\n' - 1) []) fun front line back h => by
      have hfront : front.flatten = [] := List.flatten_eq_nil_iff.mpr fun l hl =>
        List.eq_of_mem_replicate (h ▸ List.mem_append_left _ hl)
      rw [hfront, hnesting]
      rfl
  rw [tidyLines_append_gap_append _ _ afterMark.isBlank_of_mem hfeed, tidyLines_dataMark,
    List.foldl_append, List.foldl_cons, List.foldl_nil, hfirst, List.foldl_append, hempty,
    a.foldl_addLine_core rfl (by simp [hnesting, Nesting.read])]
  simp [hlines]

/-- An array that starts on the line of the mark is taken in like the array alone. -/
theorem ArrayText.foldl_addLine_beside (hfeed : '\n' ∉ afterMark.val)
    (hbelow : a.opening = none → '\n' ∈ afterMark.val) (hdata : o.inData = false)
    (hlines : o.dataLines = []) (hnesting : o.nesting = {}) :
    (tidyLines (dataMark ++ (afterMark ++ a.core))).foldl Outline.addLine o =
      { o with
        inData := true
        dataLines := (tidyLines a.core).reverse
        nesting := ({} : Nesting).read (a.change (tidied .none)).core } := by
  obtain ⟨g, hg⟩ := Option.ne_none_iff_exists'.mp fun h => hfeed (hbelow h)
  -- The line of the mark and the first line of the array are one line of the text.
  obtain ⟨lines, last, first, others, hlast, hfirst, hmeet⟩ :=
    exists_tidyLines_append tidies_dataMark.ends (a.tidies_core .none).starts hfeed
  obtain ⟨rfl, rfl⟩ : lines = [] ∧ last = dataMark := by
    have honly : lines ++ [last] = [] ++ [dataMark] := hlast.symm.trans tidyLines_dataMark
    exact (List.append_inj' honly rfl).imp_right List.singleton_inj.mp
  have hbracket : first.head? = some '[' := by
    have hstart : a.core = '[' :: (g.val ++
        if a.closed then a.items.text ++ [']'] else a.items.trimmed.text) := by
      rw [ArrayText.core, ArrayText.front, hg]
      rfl
    obtain ⟨line, rest, hline⟩ := exists_tidyLines_eq_cons (c := '[') (by decide) (g.val ++
      if a.closed then a.items.text ++ [']'] else a.items.trimmed.text)
    rw [← hstart, hfirst] at hline
    rw [(List.cons.inj hline).1]
    rfl
  have hne : first.isEmpty = false := by
    obtain ⟨t, rfl⟩ := List.head?_eq_some_iff.mp hbracket
    rfl
  have hkind := kind_dataMark_append afterMark (.inr hbracket)
  have hnotOpen : o.isOpen = false := by simp [Outline.isOpen, hdata]
  -- What stands behind the mark is taken in as if the data were open.
  have hstep : o.addLine (dataMark ++ (afterMark ++ first)) =
      ({ o with inData := true } : Outline).addLine first := by
    have hopen : ({ o with inData := true } : Outline).isOpen = true := by
      simp [Outline.isOpen, Nesting.closed, hnesting]
    rw [Outline.addLine_of_isOpen hopen, Outline.addLine, if_neg (by simp [hnotOpen]), hkind]
    simp only [hne, Bool.false_eq_true, if_false]
  rw [hmeet, List.nil_append, List.foldl_cons, hstep, ← List.foldl_cons, ← hfirst,
    a.foldl_addLine_core rfl (by simp [hnesting])]
  simp [hlines]

/-- The mark of the data, the gap behind it and the array are taken in like the array alone, but for
empty lines in front of it. -/
theorem ArrayText.foldl_addLine_marked (hbelow : a.opening = none → '\n' ∈ afterMark.val)
    (hdata : o.inData = false) (hlines : o.dataLines = []) (hnesting : o.nesting = {}) :
    ∃ n, (tidyLines (dataMark ++ (afterMark ++ a.core))).foldl Outline.addLine o =
      { o with
        inData := true
        dataLines := (tidyLines a.core).reverse ++ List.replicate n []
        nesting := ({} : Nesting).read (a.change (tidied .none)).core } := by
  by_cases hfeed : '\n' ∈ afterMark.val
  · exact ⟨_, a.foldl_addLine_below afterMark hfeed hdata hlines hnesting⟩
  · refine ⟨0, ?_⟩
    rw [a.foldl_addLine_beside afterMark hfeed hbelow hdata hlines hnesting, List.replicate_zero,
      List.append_nil]

end Mark

/-! ### Whole charts -/

/-- The data kept of a tidied array is the array with other gaps. -/
theorem ArrayText.trim_intercalate (a : ArrayText) (n : Nat) :
    trim (['\n'].intercalate (List.replicate n [] ++ tidyLines a.core)) =
      (a.change (tidied .feed)).core := by
  have htidy := a.tidies_core .feed
  have hsolid := (a.change (tidied .feed)).tidies_core .feed
  have hfeeds : ∀ c ∈ (List.replicate n ['\n']).flatten, isBlank c = true := by
    intro c hc
    obtain ⟨part, hpart, hc⟩ := List.mem_flatten.mp hc
    rw [List.eq_of_mem_replicate hpart, List.mem_singleton] at hc
    rw [hc]
    decide
  rw [intercalate_replicate_append _ _ (tidyLines_ne_nil _), trim_gap_append hfeeds]
  show trim (tidy Gap.feed.val a.core) = _
  rw [htidy.eq, trim_of_solid hsolid.starts hsolid.ends]

namespace Writing

theorem text_eq (w : Writing) :
    w.text = w.before.flatMap (· ++ ['\n']) ++ (w.indent ++
      (((dataMark ++ (w.afterMark ++ w.array.core)) ++ (w.array.finish ++ w.finish)) ++
        w.after.flatMap ('\n' :: ·))) := by
  simp only [text, w.array.text_eq, List.append_assoc]

theorem tidyLines_text (w : Writing) :
    ∃ m n, tidyLines w.text =
      (w.before.map trim ++ List.replicate m []) ++
        (tidyLines (dataMark ++ (w.afterMark ++ w.array.core)) ++
          (List.replicate n [] ++ w.after.map trim)) := by
  have hfinish : ∀ c ∈ w.array.finish.val ++ w.finish.val, isBlank c = true :=
    List.forall_mem_append.mpr ⟨w.array.finish.isBlank_of_mem, w.finish.isBlank_of_mem⟩
  refine ⟨w.indent.val.count '\n', (w.array.finish.val ++ w.finish.val).count '\n', ?_⟩
  rw [text_eq, tidyLines_lines_append fun line hline => (w.before_ok line hline).1,
    tidyLines_gap_append w.indent.isBlank_of_mem,
    tidyLines_append_lines _ fun line hline => (w.after_ok line hline).1,
    tidyLines_append_gap _ hfinish]
  simp only [List.append_assoc]

/-- The lines before the data set fields. -/
theorem foldl_addLine_before (w : Writing) (n : Nat) :
    (w.before.map trim ++ List.replicate n []).foldl Outline.addLine {} =
      { fields := Outline.setAll (fun _ => []) (recordedBy w.before) } := by
  rw [Outline.foldl_addLine_of_asides rfl, List.filterMap_append, List.filterMap_map,
    Outline.filterMap_scalarLine?_replicate, List.append_nil]
  · rfl
  · rw [List.forall_mem_append]
    refine ⟨fun line hline => ?_, fun line hline => .inr (.inl (List.eq_of_mem_replicate hline))⟩
    obtain ⟨l, hl, rfl⟩ := List.mem_map.mp hline
    exact .inr (.inr ⟨rfl, (w.before_ok l hl).2⟩)

/-- The lines behind a complete array set fields. -/
theorem foldl_addLine_after (w : Writing) (n : Nat) {o : Outline} (hopen : o.isOpen = false) :
    (List.replicate n [] ++ w.after.map trim).foldl Outline.addLine o =
      { o with fields := Outline.setAll o.fields (recordedBy w.after) } := by
  rw [Outline.foldl_addLine_of_asides hopen, List.filterMap_append, List.filterMap_map,
    Outline.filterMap_scalarLine?_replicate, List.nil_append]
  · rfl
  · rw [List.forall_mem_append]
    refine ⟨fun line hline => .inr (.inl (List.eq_of_mem_replicate hline)), fun line hline => ?_⟩
    obtain ⟨l, hl, rfl⟩ := List.mem_map.mp hline
    rcases (w.after_ok l hl).2 with hblank | hscalar
    · exact .inr (.inl (trim_eq_nil_iff.mpr (List.all_eq_true.mp hblank)))
    · exact .inl hscalar

/-- The lines of a chart are taken in as its fields and its array. -/
theorem parse_text_eq (w : Writing) :
    ∃ o : Outline, Description.parse w.text = o.describe ∧
      (∀ f, o.fields f = (lastValue? f w.recorded).getD []) ∧
      o.dataText = (w.array.change (tidied .feed)).core := by
  obtain ⟨m, n, hlines⟩ := w.tidyLines_text
  obtain ⟨k, hmarked⟩ := w.array.foldl_addLine_marked w.afterMark w.below_of_opening
    (o := { fields := Outline.setAll (fun _ => []) (recordedBy w.before) }) rfl rfl rfl
  -- The lines in front are taken in first, then the mark and the array, then the lines behind.
  rw [parse_eq_describe, hlines, List.foldl_append, w.foldl_addLine_before, List.foldl_append,
    hmarked]
  generalize ho : ({
    fields := Outline.setAll (fun _ => []) (recordedBy w.before)
    inData := true
    dataLines := (tidyLines w.array.core).reverse ++ List.replicate k []
    nesting := ({} : Nesting).read (w.array.change (tidied .none)).core } : Outline) = o
  have hdata : o.dataText = (w.array.change (tidied .feed)).core := by
    rw [Outline.dataText, ← ho, List.reverse_append, List.reverse_reverse, List.reverse_replicate,
      w.array.trim_intercalate]
  have hfields : o.fields = Outline.setAll (fun _ => []) (recordedBy w.before) := by rw [← ho]
  by_cases hafter : w.after = []
  · -- The array may still be open, and what is left of the lines is empty.
    refine ⟨o, ?_, fun f => ?_, hdata⟩
    · rw [hafter, List.map_nil, List.append_nil, Outline.describe_foldl_nil]
    · rw [hfields, Outline.setAll_apply, recorded, hafter, List.append_nil]
  · -- The array is complete, so the lines behind it are read as fields again.
    obtain ⟨hopening, hclosed⟩ := w.closed_of_after hafter
    have hread : (({} : Nesting).read (w.array.change (tidied .none)).core).closed = true :=
      ArrayText.closed_read_core (by simpa [ArrayText.change] using hopening) hclosed
    refine ⟨{ o with fields := Outline.setAll o.fields (recordedBy w.after) }, ?_, fun f => ?_, hdata⟩
    · rw [w.foldl_addLine_after n (by simp [← ho, Outline.isOpen, hread])]
    · show Outline.setAll o.fields (recordedBy w.after) f = _
      rw [hfields, ← Outline.setAll_append, ← recordedBy_append, Outline.setAll_apply, recorded]

end Writing

end Chartdown.Chart.Dialect
