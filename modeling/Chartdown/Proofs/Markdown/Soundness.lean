import Chartdown.Proofs.Copying
import Chartdown.Proofs.Markdown.InfoString

/-!
# What block tokens become is sound

Block tokens are refused for the first heading whose level does not fit, or they become nodes that
the steps behind can rely on: headings have levels, tables are aligned with their headers, code
blocks have the languages and the metadata of their info strings, and all of it can be copied.

## Key results

- `identity_run_of_blocks`: every node of a result is its own copy
- `blocks_spec`: what comes of any block tokens, and what the nodes satisfy
-/

namespace Chartdown

namespace Node

mutual
/-- What is below a node that is below another one is below that one. -/
theorem mem_nodes_trans {k m : Node} (n : Node) (hm : m ∈ n.nodes) (hk : k ∈ m.nodes) :
    k ∈ n.nodes := by
  match n with
  | .leaf l i =>
    obtain rfl := List.mem_singleton.mp hm
    exact hk
  | .branch b cs i =>
    rw [nodes, List.mem_cons] at hm
    rcases hm with rfl | hm
    · exact hk
    · exact List.mem_cons_of_mem _ (mem_nodesOfAll_trans cs hm hk)

theorem mem_nodesOfAll_trans {k m : Node} (ns : List Node) (hm : m ∈ nodesOfAll ns)
    (hk : k ∈ m.nodes) : k ∈ nodesOfAll ns := by
  match ns with
  | [] => cases hm
  | n :: rest =>
    rw [nodesOfAll, List.mem_append] at hm ⊢
    exact hm.imp (mem_nodes_trans n · hk) (mem_nodesOfAll_trans rest · hk)
end

end Node

namespace Markdown

open Node

/-- Every node of a result is its own copy, and so is the document around it. -/
theorem identity_run_of_blocks {o : Options} {ts : List Token} {ns : List Node}
    (h : (blocks o ts).result = .ok ns) :
    ∀ m ∈ (Node.document ns).nodes, Pass.identity.run m = .ok (some m) := by
  -- The document itself is no table.
  have hwell : ∀ m ∈ (Node.document ns).nodes, m.WellHeaded :=
    List.forall_mem_cons.mpr ⟨trivial, wellHeaded_of_blocks h⟩
  exact fun m hm => Pass.identity_run_of_wellHeaded m fun k hk => hwell k (mem_nodes_trans _ hm hk)

/-- Block tokens are refused for the first heading among them whose level is not from 1 to 6, or
they become nodes: the headings have the levels of their tokens, tables are aligned with their
headers, code blocks have the language and the metadata of their info strings, and every node is its
own copy. -/
theorem blocks_spec (o : Options) (ts : List Token) :
    (∃ front t back, Token.blockTokensOfAll ts = front ++ t :: back ∧
        (∀ u ∈ front, u.LevelFits) ∧ t.isHeading = true ∧ ¬ (1 ≤ t.level ∧ t.level ≤ 6) ∧
        (blocks o ts).result = .error (.headingLevel t.level)) ∨
      ∃ ns, (blocks o ts).result = .ok ns ∧ (∀ t ∈ Token.blockTokensOfAll ts, t.LevelFits) ∧
        Matches Token.isHeading Node.isHeading Token.BecomesHeading
          (Token.blockTokensOfAll ts) ns ∧
        (∀ m ∈ nodesOfAll ns, m.IsAligned) ∧
        Matches Token.isCode isFenced Token.Explains (Token.blockTokensOfAll ts) ns ∧
        ∀ m ∈ (Node.document ns).nodes, Pass.identity.run m = .ok (some m) := by
  have houtcome := outcome_blocks o ts
  cases hresult : (blocks o ts).result with
  | error e =>
    rw [hresult] at houtcome
    cases houtcome with
    | refused front t back hts hfront ht =>
      obtain ⟨htype, hlevel⟩ := Classical.not_imp.mp ht
      exact .inl ⟨front, t, back, hts, hfront, beq_iff_eq.mpr htype, hlevel, rfl⟩
  | ok ns =>
    rw [hresult] at houtcome
    cases houtcome with
    | built _ hbuilt =>
      exact .inr ⟨ns, rfl, hbuilt.fits, hbuilt.headings, isAligned_of_blocks hresult,
        hbuilt.code.imp fun _ _ => Token.BecomesCode.explains, identity_run_of_blocks hresult⟩

end Markdown
end Chartdown
