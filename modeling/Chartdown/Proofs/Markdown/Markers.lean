import Chartdown.Chart.Options
import Chartdown.Proofs.Markdown.Outcome

/-!
# Markers that select

A code block becomes a chart if its language is the marker. Its language is the first word of its
info string, but only if that word is short and plain. So an info string that is the marker itself
selects a block exactly if the marker could be a language, which accepted markers need not be: they
can hold blanks and any other characters inside and be of any length.

## Key results

- `Node.Selects.forall₂_nodes`: the nodes of a copy stand where the nodes of the tree do
- `marker_selects_iff_isPlain`: which accepted markers turn the blocks that carry them into charts
-/

namespace Chartdown

open Text

/-! ### Copies node by node -/

namespace Node

variable {marker : String}

mutual
/-- The nodes of a copy are the copies of the nodes, in their order. -/
theorem Selects.forall₂_nodes {n n' : Node} (h : n.Selects marker n') :
    List.Forall₂ (Selects marker) n.nodes n'.nodes := by
  match h with
  | .marked content fenceChar fenceLength i lines hlines =>
    exact .cons (.marked content fenceChar fenceLength i lines hlines) .nil
  | .leaf l i hl => exact .cons (.leaf l i hl) .nil
  | .branch b cs cs' i hcs =>
    rw [nodes, nodes]
    exact .cons (.branch b cs cs' i hcs) hcs.forall₂_nodesOfAll

theorem SelectsAll.forall₂_nodesOfAll {ns ns' : List Node} (h : SelectsAll marker ns ns') :
    List.Forall₂ (Selects marker) (nodesOfAll ns) (nodesOfAll ns') := by
  match h with
  | .nil => exact .nil
  | .cons n n' ns ns' hn hns =>
    rw [nodesOfAll, nodesOfAll]
    exact List.rel_append hn.forall₂_nodes hns.forall₂_nodesOfAll
end

theorem Selects.isFenced_eq {n n' : Node} (h : n.Selects marker n') : n.isFenced = n'.isFenced := by
  cases h with
  | marked => rfl
  | leaf => rfl
  | branch b => cases b <;> rfl

/-- The blocks of code and charts of a copy are the copies of such blocks, in their order. -/
theorem Selects.forall₂_isFenced {n n' : Node} (h : n.Selects marker n') :
    List.Forall₂ (Selects marker) (n.nodes.filter isFenced) (n'.nodes.filter isFenced) :=
  List.rel_filter (fun _ _ h => iff_of_eq (congrArg (· = true) h.isFenced_eq)) h.forall₂_nodes

end Node

/-! ### Markers -/

theorem Chart.Options.Valid.trim_marker {chart : Chart.Options} (h : chart.Valid) :
    trim chart.marker.toList = chart.marker.toList := by
  unfold Chart.Options.Valid Chart.Options.problem? at h
  split_ifs at h with _ htrim
  exact of_not_not htrim

theorem Chart.Options.Valid.marker_ne_empty {chart : Chart.Options} (h : chart.Valid) :
    chart.marker ≠ "" := by
  rintro hempty
  simp [Chart.Options.Valid, Chart.Options.problem?, hempty, isBlankText] at h

theorem forall₂_comp {α β γ : Type*} {R : α → β → Prop} {S : β → γ → Prop} {T : α → γ → Prop}
    (hRS : ∀ a b c, R a b → S b c → T a c) {as : List α} {bs : List β} {cs : List γ}
    (h : List.Forall₂ R as bs) (h' : List.Forall₂ S bs cs) : List.Forall₂ T as cs := by
  induction h generalizing cs with
  | nil =>
    cases h'
    exact .nil
  | cons hab _ ih =>
    cases h' with
    | cons hbc htail => exact .cons (hRS _ _ _ hab hbc) (ih htail)

namespace Markdown

open Node

/-- What a block of code whose info string is an accepted marker becomes: a chart with its text if
the marker can be a language, and the block that it was otherwise. -/
theorem Token.BecomesCode.selects {t : Token} {n n' : Node} {chart : Chart.Options}
    (h : t.BecomesCode n) (hchart : chart.Valid) (hinfo : t.attributes.info = some chart.marker)
    (hselects : n.Selects chart.marker n') :
    (Language.IsPlain chart.marker.toList ∧
        ∃ lines, n' = .ofLeaf (.chartBlock lines) ∧ String.join lines = t.text) ∨
      (¬ Language.IsPlain chart.marker.toList ∧ t.BecomesCode n') := by
  obtain ⟨info, language, fenceChar, fenceLength, rfl, hlanguage⟩ := h
  have hmarker : trim (t.attributes.info.getD "").toList = chart.marker.toList := by
    rw [hinfo, Option.getD_some, hchart.trim_marker]
  -- The marker is not trimmed any further, so the two names are compared as they are.
  have hplain : language = some chart.marker ↔ Language.IsPlain chart.marker.toList := by
    rw [← languageOf_eq_some_self_iff hchart.marker_ne_empty, ← hmarker, hlanguage,
      Except.ok.injEq]
  cases hselects with
  | marked _ _ _ _ lines hlines => exact .inl ⟨hplain.mp rfl, lines, rfl, hlines⟩
  | leaf _ _ hunmarked =>
    refine .inr ⟨fun h => hunmarked ?_, .intro _ language fenceChar fenceLength rfl hlanguage⟩
    rw [hplain.mpr h]
    exact ⟨_, _, _, _, rfl⟩

/-- Every code block that carries an accepted marker becomes a chart if the marker is short and
plain, and otherwise none does, at any depth. -/
theorem marker_selects_iff_isPlain (o : Options) {chart : Chart.Options} (hchart : chart.Valid)
    {ts : List Token} (hlevels : ∀ t ∈ Token.blockTokensOfAll ts, t.LevelFits) :
    ∃ ns doc', (blocks o ts).result = .ok ns ∧
      (Pass.chartBlocks chart.marker).run (.document ns) = .ok (some doc') ∧
      List.Forall₂
        (fun t n => t.attributes.info = some chart.marker →
          (Language.IsPlain chart.marker.toList ∧
              ∃ lines, n = .ofLeaf (.chartBlock lines) ∧ String.join lines = t.text) ∨
            (¬ Language.IsPlain chart.marker.toList ∧ t.BecomesCode n))
        ((Token.blockTokensOfAll ts).filter Token.isCode) (doc'.nodes.filter isFenced) := by
  obtain ⟨ns, hns, hmatches⟩ := exists_blocks o ts hlevels
  have hwell : ∀ m ∈ (Node.document ns).nodes, m.WellHeaded :=
    List.forall_mem_cons.mpr ⟨trivial, wellHeaded_of_blocks hns⟩
  obtain ⟨doc', hrun, hselects⟩ := @Pass.exists_run_chartBlocks chart.marker _ hwell
  refine ⟨ns, doc', hns, hrun, ?_⟩
  exact forall₂_comp (fun t n n' h hn hinfo => h.selects hchart hinfo hn) hmatches
    hselects.forall₂_isFenced

/-- A fence with an info string. -/
def fence (info : String) : Token :=
  .mk "block_code" (some "layout: bar\ndata: []\n") [] { info := some info } (some "```") none

/-- A heading, and a fence in an item of a list in a quote. -/
def quotedFence (info : String) : List Token :=
  [.mk "heading" none [.ofText "text" "Sales"] { level := some 2 } none none,
   .ofChildren "block_quote" [.ofChildren "list" [.ofChildren "list_item" [fence info]]]]

theorem marker_selects_iff_isPlain_quotedFence :
    ({} : Chart.Options).Valid ∧
      (∀ t ∈ Token.blockTokensOfAll (quotedFence "vis"), t.LevelFits) ∧
      ∃ ns doc' n lines, (blocks {} (quotedFence "vis")).result = .ok ns ∧
        (Pass.chartBlocks "vis").run (.document ns) = .ok (some doc') ∧
        doc'.nodes.filter isFenced = [n] ∧ n = .ofLeaf (.chartBlock lines) := by
  have hlevels : ∀ t ∈ Token.blockTokensOfAll (quotedFence "vis"), t.LevelFits := by
    simp [quotedFence, fence, Token.ofChildren, Token.blockTokensOfAll, Token.blockTokens,
      Token.itemTokens, Token.LevelFits, Token.type, Token.attributes]
  obtain ⟨ns, doc', hns, hrun, hmatches⟩ :=
    marker_selects_iff_isPlain {} Chart.Options.valid_default hlevels
  have hcode : (Token.blockTokensOfAll (quotedFence "vis")).filter Token.isCode = [fence "vis"] :=
    rfl
  rw [hcode] at hmatches
  obtain ⟨n, rest, hn, hrest, hfenced⟩ := List.forall₂_cons_left_iff.mp hmatches
  rw [List.forall₂_nil_left_iff.mp hrest] at hfenced
  rcases hn rfl with ⟨-, lines, hchart, -⟩ | ⟨hplain, -⟩
  · exact ⟨Chart.Options.valid_default, hlevels, ns, doc', n, lines, hns, hrun, hfenced, hchart⟩
  · exact absurd (by decide) hplain

/-- A marker of two words is accepted and selects no block. -/
theorem marker_of_two_words_selects_none :
    ({ marker := "my chart" } : Chart.Options).Valid ∧
      ∃ ns, (blocks {} [fence "my chart"]).result = .ok ns ∧
        (Pass.chartBlocks "my chart").run (.document ns) = .ok (some (.document ns)) ∧
        ∀ n ∈ (Node.document ns).nodes, n.kind ≠ .chartBlock := by
  refine ⟨?_, _, rfl, rfl, ?_⟩
  · unfold Chart.Options.Valid
    decide +kernel
  · simp [Node.document, Node.ofBranch, nodes, nodesOfAll, Node.kind, Leaf.kind, Branch.kind]

end Markdown
end Chartdown
