import Chartdown.Text.Lines
import Chartdown.Tree.Pass

/-! # Selecting chart blocks

A code block whose language is the marker becomes a chart block with the lines of its content. A
document without such a block is kept as it is.
-/

namespace Chartdown

/-- The chart block for a code block's content. -/
def Leaf.chartBlockOf (content : String) : Leaf :=
  .chartBlock ((Text.splitLines content.toList).map String.ofList)

/-- Whether a node is a code block of a language that is a marker. -/
def Node.isMarked (isMarker : String → Bool) : Node → Bool
  | .leaf (.codeBlock _ (some language) _ _) _ => isMarker language
  | _ => false

namespace Pass

/-- Make chart blocks of the code blocks whose language is a marker. -/
def selecting (isMarker : String → Bool) : Pass where
  name := "ChartBlockTransform"
  step
    | .branch .document cs i =>
      if (Node.branch .document cs i).nodes.any (Node.isMarked isMarker) then .rebuild else .keep
    | .leaf (.codeBlock content language fenceChar fenceLength) i =>
      if (Node.leaf (.codeBlock content language fenceChar fenceLength) i).isMarked isMarker then
        .replace (some (.leaf (.chartBlockOf content) { location := i.location }))
      else .rebuild
    | _ => .rebuild

/-- Make chart blocks of the code blocks whose language is the marker. -/
def chartBlocks (marker : String) : Pass :=
  { selecting (· == marker) with attributes := [("marker", .ofString marker)] }

end Pass
end Chartdown
