import Chartdown.Proofs.Markdown.Building
import Chartdown.Proofs.Markdown.Language
import Mathlib.Data.List.Forall2

/-!
# What comes of block tokens

Block tokens stand in quotes and in the items of lists, at any depth. They are made into nodes all
of them, or the first heading among them whose level does not fit is what they are refused for.
Where they are made into nodes, the code blocks and the headings of the result are those of the
tokens, one by one and in order.

## Key results

- `outcome_blocks`: what comes of any block tokens
- `exists_blocks`: block tokens are built where the levels of headings fit, code block by code block
-/

namespace Chartdown

open Text

/-- A step that follows another one is done with its result. -/
theorem Noted.result_bind (x : Noted ε α) (f : α → Noted ε β) :
    (x >>= f).result = x.result.bind fun a => (f a).result := by
  cases h : x.result with
  | error e => rw [bind_of_error h]; rfl
  | ok a => rw [bind_of_ok h]; rfl

/-! ### Block tokens at any depth -/

namespace Markdown.Token

mutual
/-- A token and the block tokens below it, which stand in quotes and in the items of lists. -/
def blockTokens : Token → List Token
  | .mk type raw children a marker tight =>
    .mk type raw children a marker tight ::
      match type with
      | "block_quote" => blockTokensOfAll children
      | "list" => itemTokens children
      | _ => []

/-- The block tokens of some tokens, one token after the other. -/
def blockTokensOfAll : List Token → List Token
  | [] => []
  | t :: rest => t.blockTokens ++ blockTokensOfAll rest

/-- The block tokens in the items of a list. -/
def itemTokens : List Token → List Token
  | [] => []
  | .mk _ _ children _ _ _ :: rest => blockTokensOfAll children ++ itemTokens rest
end

/-- Whether a token is a code block. -/
def isCode (t : Token) : Bool := t.type == "block_code"

/-- Whether a token is a heading. -/
def isHeading (t : Token) : Bool := t.type == "heading"

/-- The level of a heading, which is the first one where none is given. -/
def level (t : Token) : Int := t.attributes.level.getD 1

/-- A heading has a level from 1 to 6. -/
def LevelFits (t : Token) : Prop :=
  t.type = "heading" → 1 ≤ t.attributes.level.getD 1 ∧ t.attributes.level.getD 1 ≤ 6

/-- A code token becomes a code block with its text, in the language of its info string. -/
inductive BecomesCode (t : Token) : Node → Prop
  | intro (info : List Char) (language : Option String) (fenceChar : String) (fenceLength : Int)
      (hinfo : info = trim (t.attributes.info.getD "").toList)
      (hlanguage : (languageOf info).result = .ok language) :
      BecomesCode t (.leaf (.codeBlock t.text language fenceChar fenceLength)
        { metadata := infoMetadata info })

/-- A heading token becomes a heading of its level. -/
inductive BecomesHeading (t : Token) : Node → Prop
  | intro (l : HeadingLevel) (cs : List Node) (hl : (l.val : Int) = t.level) :
      BecomesHeading t (.ofBranch (.heading l) cs)

end Markdown.Token

/-- Whether a node is a block of code or a chart. -/
def Node.isFenced (n : Node) : Bool := n.kind == .codeBlock || n.kind == .chartBlock

/-- Whether a node is a heading. -/
def Node.isHeading (n : Node) : Bool := n.kind == .heading

/-- A node is no block of code, no chart and no heading. -/
def Node.IsBody (n : Node) : Prop := n.isFenced = false ∧ n.isHeading = false

theorem Node.isBody_of_isTabular {n : Node} (h : n.kind.isTabular = true) : n.IsBody := by
  unfold IsBody isFenced isHeading
  cases hkind : n.kind <;> first | exact ⟨rfl, rfl⟩ | (rw [hkind] at h; cases h)

theorem HeadingLevel.ofInt_eq_ok_iff {n : Int} {l : HeadingLevel} :
    HeadingLevel.ofInt n = .ok l ↔ (l.val : Int) = n := by
  obtain ⟨val, hone, hsix⟩ := l
  rw [ofInt]
  split
  case isTrue h =>
    simp only [Except.ok.injEq, HeadingLevel.mk.injEq]
    omega
  case isFalse h =>
    refine iff_of_false nofun fun hval => h ?_
    simp only at hval
    omega

theorem HeadingLevel.ofInt_eq_error {n : Int} {e : NodeError}
    (h : HeadingLevel.ofInt n = .error e) : ¬ (1 ≤ n ∧ n ≤ 6) ∧ e = .headingLevel n := by
  rw [ofInt] at h
  split at h
  case isTrue hfits => cases h
  case isFalse hfits => exact ⟨hfits, (Except.error.inj h).symm⟩

namespace Markdown

open Node

/-! ### Tokens and nodes one by one -/

section
variable {isToken : Token → Bool} {isNode : Node → Bool} {R : Token → Node → Prop}

/-- The tokens of a kind become the nodes of a kind, one by one and in order. -/
def Matches (isToken : Token → Bool) (isNode : Node → Bool) (R : Token → Node → Prop)
    (ts : List Token) (ns : List Node) : Prop :=
  List.Forall₂ R (ts.filter isToken) ((nodesOfAll ns).filter isNode)

theorem Matches.append {ts ts' : List Token} {ns ns' : List Node}
    (h : Matches isToken isNode R ts ns) (h' : Matches isToken isNode R ts' ns') :
    Matches isToken isNode R (ts ++ ts') (ns ++ ns') := by
  unfold Matches
  rw [nodesOfAll_eq_flatMap, List.flatMap_append, ← nodesOfAll_eq_flatMap,
    ← nodesOfAll_eq_flatMap, List.filter_append, List.filter_append]
  exact List.rel_append h h'

theorem Matches.ofBranch {ts : List Token} {cs : List Node} (h : Matches isToken isNode R ts cs)
    {b : Branch} (hb : isNode (.ofBranch b cs) = false) :
    Matches isToken isNode R ts [.ofBranch b cs] := by
  rw [Node.ofBranch] at hb
  simpa [Matches, nodesOfAll, nodes, Node.ofBranch, hb] using h

theorem Matches.cons {t : Token} {ts : List Token} {ns : List Node}
    (h : Matches isToken isNode R ts ns) (ht : isToken t = false) :
    Matches isToken isNode R (t :: ts) ns := by
  simpa [Matches, ht] using h

/-- A token of another kind becomes nodes of other kinds. -/
theorem matches_of_none {t : Token} {ns : List Node} (ht : isToken t = false)
    (h : Throughout (isNode · = false) ns) : Matches isToken isNode R [t] ns := by
  have hnone : (nodesOfAll ns).filter isNode = [] := by
    rw [List.filter_eq_nil_iff]
    intro n hn
    simp [h n hn]
  simp [Matches, ht, hnone]

/-- A token becomes a node, with nodes of other kinds below it. -/
theorem matches_of_one {t : Token} {n : Node} {cs : List Node} (ht : isToken t = true)
    (hn : isNode n = true) (hnodes : n.nodes = n :: nodesOfAll cs)
    (hcs : Throughout (isNode · = false) cs) (h : R t n) : Matches isToken isNode R [t] [n] := by
  have hnone : (nodesOfAll cs).filter isNode = [] := by
    rw [List.filter_eq_nil_iff]
    intro m hm
    simp [hcs m hm]
  simpa [Matches, nodesOfAll, hnodes, ht, hn, hnone] using h

end

/-- Block tokens whose headings all have a level that fits, and the nodes that they become: the code
blocks and the headings are those of the tokens. -/
structure Built (ts : List Token) (ns : List Node) : Prop where
  fits : ∀ t ∈ ts, t.LevelFits
  code : Matches Token.isCode isFenced Token.BecomesCode ts ns
  headings : Matches Token.isHeading Node.isHeading Token.BecomesHeading ts ns

namespace Built

variable {t : Token} {ts ts' : List Token} {ns ns' : List Node}

theorem nil : Built [] [] := ⟨nofun, .nil, .nil⟩

theorem append (h : Built ts ns) (h' : Built ts' ns') : Built (ts ++ ts') (ns ++ ns') where
  fits := List.forall_mem_append.mpr ⟨h.fits, h'.fits⟩
  code := h.code.append h'.code
  headings := h.headings.append h'.headings

theorem ofBranch (h : Built ts ns) {b : Branch} (hb : b.kind ≠ .heading) :
    Built ts [.ofBranch b ns] where
  fits := h.fits
  code := h.code.ofBranch (by cases b <;> rfl)
  headings := h.headings.ofBranch (by cases b <;> first | rfl | exact absurd rfl hb)

theorem cons (h : Built ts ns) (hcode : t.isCode = false) (hheading : t.isHeading = false) :
    Built (t :: ts) ns where
  fits := List.forall_mem_cons.mpr
    ⟨fun htype => by simp [Token.isHeading, htype] at hheading, h.fits⟩
  code := h.code.cons hcode
  headings := h.headings.cons hheading

theorem of_isBody (hcode : t.isCode = false) (hheading : t.isHeading = false)
    (h : Throughout IsBody ns) : Built [t] ns where
  fits := List.forall_mem_singleton.mpr fun htype => by simp [Token.isHeading, htype] at hheading
  code := matches_of_none hcode (h.imp fun _ => And.left)
  headings := matches_of_none hheading (h.imp fun _ => And.right)

end Built

/-- What comes of block tokens: nodes, or an error about the first heading whose level does not
fit. -/
inductive Outcome (ts : List Token) : Except NodeError (List Node) → Prop
  | built (ns : List Node) (h : Built ts ns) : Outcome ts (.ok ns)
  | refused (front : List Token) (t : Token) (back : List Token) (hts : ts = front ++ t :: back)
      (hfront : ∀ u ∈ front, u.LevelFits) (ht : ¬ t.LevelFits) :
      Outcome ts (.error (.headingLevel t.level))

namespace Outcome

variable {t : Token} {ts ts' : List Token} {r r' : Except NodeError (List Node)}

/-- Tokens behind others are looked at only if those become nodes. -/
theorem append (h : Outcome ts r) (h' : Outcome ts' r') :
    Outcome (ts ++ ts') (r.bind fun ns => r'.map (ns ++ ·)) := by
  cases h with
  | refused front t back hts hfront ht =>
    have hsplit : ts ++ ts' = front ++ t :: (back ++ ts') := by
      rw [hts, List.append_assoc, List.cons_append]
    exact .refused front t (back ++ ts') hsplit hfront ht
  | built ns hns =>
    -- In front all levels fit, so that what is refused behind is the first of all.
    cases h' with
    | refused front t back hts hfront ht =>
      exact .refused (ts ++ front) t back (by rw [hts, List.append_assoc])
        (List.forall_mem_append.mpr ⟨hns.fits, hfront⟩) ht
    | built ns' hns' => exact .built _ (hns.append hns')

theorem ofBranch (h : Outcome ts r) {b : Branch} (hb : b.kind ≠ .heading) :
    Outcome ts (r.map fun cs => [.ofBranch b cs]) := by
  cases h with
  | refused front t back hts hfront ht => exact .refused front t back hts hfront ht
  | built ns hns => exact .built _ (hns.ofBranch hb)

theorem cons (h : Outcome ts r) (hcode : t.isCode = false) (hheading : t.isHeading = false) :
    Outcome (t :: ts) r := by
  cases h with
  | refused front u back hts hfront hu =>
    refine .refused (t :: front) u back (by rw [hts, List.cons_append]) ?_ hu
    exact List.forall_mem_cons.mpr
      ⟨fun htype => by simp [Token.isHeading, htype] at hheading, hfront⟩
  | built ns hns => exact .built _ (hns.cons hcode hheading)

theorem exists_built (h : Outcome ts r) (hfits : ∀ t ∈ ts, t.LevelFits) :
    ∃ ns, r = .ok ns ∧ Built ts ns := by
  cases h with
  | refused front t back hts _ ht => exact absurd (hfits t (by simp [hts])) ht
  | built ns hns => exact ⟨ns, rfl, hns⟩

end Outcome

/-! ### Block tokens -/

theorem exists_codeBlock (t : Token) (marker : Option String) :
    ∃ n, (codeBlock t.text t.attributes marker).result = .ok n ∧ t.BecomesCode n := by
  have hlanguage := result_languageOf (trim (t.attributes.info.getD "").toList)
  exact ⟨_, Noted.result_bind_eq_ok_iff.mpr ⟨_, hlanguage, rfl⟩, .intro _ _ _ _ rfl hlanguage⟩

/-- A branch is built around what is built below it. -/
theorem result_ofBranch (x : Building (List Node)) (b : Branch) :
    (x >>= fun cs => pure (some (Node.ofBranch b cs))).result.map Option.toList =
      x.result.map fun cs => [.ofBranch b cs] := by
  rw [Noted.result_bind]
  cases x.result <;> rfl

/-- What is built first stands in front. -/
theorem result_append {α : Type} (x : Building α) (nodes : α → List Node)
    (y : Building (List Node)) :
    (x >>= fun a => y >>= fun ns => pure (nodes a ++ ns)).result =
      (x.result.map nodes).bind fun ns => y.result.map (ns ++ ·) := by
  simp only [Noted.result_bind]
  cases x.result <;> cases y.result <;> rfl

/-- A code token becomes one node. -/
theorem built_of_becomesCode {t : Token} {n : Node} (ht : t.isCode = true)
    (hheading : t.isHeading = false) (h : t.BecomesCode n) : Built [t] [n] where
  fits := List.forall_mem_singleton.mpr fun htype => by simp [Token.isHeading, htype] at hheading
  code := by
    obtain ⟨info, language, fenceChar, fenceLength, hinfo, hlanguage⟩ := h
    exact matches_of_one ht rfl (show _ = _ :: nodesOfAll [] from rfl) throughout_nil
      (.intro _ _ _ _ hinfo hlanguage)
  headings := by
    obtain ⟨info, language, fenceChar, fenceLength, hinfo, hlanguage⟩ := h
    exact matches_of_none hheading (throughout_leaf rfl)

/-- A heading token becomes a heading of its level, or that is what it is refused for. -/
theorem outcome_heading {t : Token} {cs : List Node} (ht : t.isHeading = true)
    (hcode : t.isCode = false) (hcs : Throughout IsBody cs) :
    Outcome [t] ((HeadingLevel.ofInt t.level).map fun l => [.ofBranch (.heading l) cs]) := by
  cases hlevel : HeadingLevel.ofInt t.level with
  | error e =>
    obtain ⟨hfits, rfl⟩ := HeadingLevel.ofInt_eq_error hlevel
    exact .refused [] t [] rfl nofun fun h => hfits (h (eq_of_beq ht))
  | ok l =>
    have hl := HeadingLevel.ofInt_eq_ok_iff.mp hlevel
    have hone := l.one_le
    have hsix := l.le_six
    refine .built _ ⟨List.forall_mem_singleton.mpr fun _ => ?_, ?_, ?_⟩
    · show 1 ≤ t.level ∧ t.level ≤ 6
      omega
    · exact matches_of_none hcode (throughout_branch rfl (hcs.imp fun _ => And.left))
    · exact matches_of_one ht rfl rfl (hcs.imp fun _ => And.right) (.intro l cs hl)

mutual
theorem outcome_block (o : Options) (t : Token) :
    Outcome t.blockTokens ((block o t).result.map Option.toList) := by
  obtain ⟨type, raw, children, a, marker, tight⟩ := t
  obtain ⟨ns, hns, hinline⟩ := exists_inlines o children
  have hbody : Throughout IsBody ns :=
    hinline.imp fun _ h => isBody_of_isTabular (NodeKind.isTabular_of_isInline h)
  unfold block
  split
  case h_1 =>
    -- The content never fails, so that a heading is refused for its level only.
    have hheading := outcome_heading (t := .mk "heading" raw children a marker tight) rfl rfl hbody
    simp only [Token.level, Token.attributes] at hheading
    simp only [Token.blockTokens]
    rw [hns, pure_bind]
    cases hlevel : HeadingLevel.ofInt (a.level.getD 1) with
    | error e => rwa [hlevel] at hheading
    | ok l => rwa [hlevel] at hheading
  case h_2 | h_3 =>
    simp only [Token.blockTokens]
    rw [hns, pure_bind]
    refine .built _ (.of_isBody rfl rfl ?_)
    exact throughout_branch ⟨rfl, rfl⟩ hbody
  case h_4 =>
    obtain ⟨n, hn, hbecomes⟩ :=
      exists_codeBlock (.mk "block_code" raw children a marker tight) marker
    simp only [Token.blockTokens]
    rw [Noted.result_bind, show (codeBlock (raw.getD "") a marker).result = .ok n from hn]
    exact .built _ (built_of_becomesCode rfl rfl hbecomes)
  case h_5 =>
    simp only [Token.blockTokens]
    rw [result_ofBranch]
    -- A quote itself is neither a heading nor code, and what is below it is known by induction.
    exact ((outcome_blocks o children).ofBranch (by nofun)).cons rfl rfl
  case h_6 =>
    simp only [Token.blockTokens]
    rw [result_ofBranch]
    exact ((outcome_listItems o children).ofBranch (by nofun)).cons rfl rfl
  case h_7 =>
    obtain ⟨headed, alignments, rows, htable, -, htabular⟩ := exists_table o children
    simp only [Token.blockTokens]
    rw [htable, pure_bind]
    refine .built _ (.of_isBody rfl rfl ?_)
    exact throughout_branch ⟨rfl, rfl⟩ (htabular.imp fun _ => isBody_of_isTabular)
  case h_8 =>
    simp only [Token.blockTokens]
    refine .built _ (.of_isBody rfl rfl ?_)
    exact throughout_leaf ⟨rfl, rfl⟩
  case h_9 =>
    simp only [Token.blockTokens]
    refine .built _ (.of_isBody rfl rfl ?_)
    unfold keptHtml
    split
    · exact throughout_leaf ⟨rfl, rfl⟩
    · exact throughout_nil
  case h_10 hheading _ _ hcode hquote hlist _ _ _ =>
    -- A token of no known type becomes nothing, and what is below it is no block token.
    have htokens : (Token.mk type raw children a marker tight).blockTokens =
        [.mk type raw children a marker tight] := by
      rw [Token.blockTokens]
      exacts [hquote, hlist]
    rw [htokens]
    refine .built _ (.of_isBody ?_ ?_ throughout_nil)
    · simpa [Token.isCode, Token.type] using hcode
    · simpa [Token.isHeading, Token.type] using hheading

theorem outcome_blocks (o : Options) (ts : List Token) :
    Outcome (Token.blockTokensOfAll ts) (blocks o ts).result := by
  match ts with
  | [] => exact .built [] .nil
  | t :: rest =>
    rw [Token.blockTokensOfAll, blocks, result_append]
    exact (outcome_block o t).append (outcome_blocks o rest)

theorem outcome_listItems (o : Options) (ts : List Token) :
    Outcome (Token.itemTokens ts) (listItems o ts).result := by
  match ts with
  | [] => exact .built [] .nil
  | .mk _ _ children a _ _ :: rest =>
    -- An item is a branch around its blocks, whatever the type of its token is.
    have hitem := (outcome_blocks o children).ofBranch (b := .listItem (taskStatus a)) nofun
    have hitems := hitem.append (outcome_listItems o rest)
    rw [← result_append] at hitems
    rw [Token.itemTokens, listItems]
    exact hitems
end

/-- Block tokens are built where the levels of headings fit. -/
theorem exists_blocks (o : Options) (ts : List Token)
    (h : ∀ u ∈ Token.blockTokensOfAll ts, u.LevelFits) :
    ∃ ns, (blocks o ts).result = .ok ns ∧
      Matches Token.isCode isFenced Token.BecomesCode (Token.blockTokensOfAll ts) ns := by
  obtain ⟨ns, hns, hbuilt⟩ := (outcome_blocks o ts).exists_built h
  exact ⟨ns, hns, hbuilt.code⟩

end Markdown
end Chartdown
